import I8086.Proofs.Alternatives
import I8086.Proofs.WellFormed

/-!
# The memory operands of a mod-r/m byte

Where a displacement is expected after a mod-r/m byte, a byte that can be an override is taken for
one, so an address with such a low byte is not read without an override before it. `Address.Admits`
says which overrides, or none, an address can have. Main statement: `memory_operands_of_decode`, an
operand in memory of a mod-r/m byte has an address that admits its override, and for each such
operand, register and opcode there are bytes that decode to an instruction with them.
-/

namespace I8086

variable {w : Width} {bs : List UInt8} {x y : Operand} {opcode : UInt8} {form : Form} {f : Fields}
variable {q : Pending} {d : Descriptor} {a : Address} {s : Option SegmentRegister}

/-- What stands for an address after a mod-r/m byte. -/
def Address.word : Address → UInt16
  | .based _ displacement => displacement.toUInt16
  | .direct address => address

/-- An address can be without an override if its low byte is not one itself. -/
def Address.Admits (a : Address) (s : Option SegmentRegister) : Prop :=
  s = none → ¬ IsOverride (lowByte a.word)

instance (a : Address) (s : Option SegmentRegister) : Decidable (a.Admits s) :=
  inferInstanceAs (Decidable (_ → _))

/-- The address of an operand in memory admits its override. -/
def Operand.IsAddressable : Operand → Prop
  | .memory a s => a.Admits s
  | _ => True

/-- What a mod-r/m byte names is addressable. -/
lemma RmOperand.isAddressable (hx : RmOperand w x) : x.IsAddressable := by
  cases hx with
  | register => trivial
  | direct _ _ hs | based _ _ _ hs => exact fun h ho => isOverride_iff.1 ho (hs h)

/-- The operands that were read are addressable, unless an address was read without a mod-r/m
byte. -/
lemma FieldBytes.isAddressable (h : FieldBytes opcode form bs f)
    (hl : form ≠ .accumulatorMemory) (hs : form ≠ .memoryAccumulator) :
    (∀ x ∈ f.first, x.IsAddressable) ∧ ∀ x ∈ f.second, x.IsAddressable := by
  cases h with
  | accumulatorMemory => exact (hl rfl).elim
  | memoryAccumulator => exact (hs rfl).elim
  | bare | string | padded => exact ⟨nofun, nofun⟩
  | rmRegister h | rmSegment h => exact forall_mem_directed h.rmOperand.isAddressable trivial
  | rm h | rmFar h => exact ⟨forall_mem_some h.rmOperand.isAddressable, nofun⟩
  | rmImmediate h | rmSignedByte h | rmOne h | rmCount h =>
    exact ⟨forall_mem_some h.rmOperand.isAddressable, forall_mem_some trivial⟩
  | registerMemory h | escape h =>
    exact ⟨forall_mem_some trivial, forall_mem_some h.rmOperand.isAddressable⟩
  | fixedPort | variablePort => exact forall_mem_directed trivial trivial
  | registerImmediate | accumulatorImmediate | accumulatorRegister =>
    exact ⟨forall_mem_some trivial, forall_mem_some trivial⟩
  | register | segmentRegister | byteImmediate | wordImmediate | nearTarget | farTarget
  | shortTarget => exact ⟨forall_mem_some trivial, nofun⟩

/-- Modifying bytes can only add an override, which every address admits. -/
lemma Pending.isAddressable_operand (hx : x.IsAddressable) : (q.operand x).IsAddressable := by
  cases x with
  | memory a s => exact fun h => hx (Option.or_eq_none_iff.1 h).2
  | _ => trivial

/-- The operands of a chunk are addressable. -/
lemma Chunk.isAddressable (c : Chunk) (hl : c.instruction.form ≠ .accumulatorMemory)
    (hs : c.instruction.form ≠ .memoryAccumulator) :
    ∀ x ∈ c.instruction.operands, x.IsAddressable := by
  obtain ⟨q, b, v, f, -, hf, hi⟩ := c.exists_finish
  rw [hi] at hl hs ⊢
  have hx := hf.isAddressable hl hs
  intro x h
  obtain ⟨y, hy, rfl⟩ := Pending.mem_operands_finish h
  exact Pending.isAddressable_operand (hy.elim (hx.1 y) (hx.2 y))

/-- An address and an override that it admits are those of some bytes with a mod-r/m byte, whatever
register that names. -/
lemma Address.Admits.exists_rmBytes (h : a.Admits s) (w : Width) (reg : Fin 8) :
    ∃ u, RmBytes w u (.memory a s) reg := by
  have hs : s = none → override? (lowByte a.word) = none := fun hn =>
    not_not.1 fun ho => h hn (isOverride_iff.2 ho)
  cases a with
  | based base displacement =>
    -- A displacement of one word does for every base, where a shorter one would not do for all.
    have ho := OperandBytes.word (w := w) reg base.field (highByte displacement.toUInt16) hs
    rw [Address.word, wordOfBytes_bytes, AddressBase.ofField_field, Int16.toInt16_toUInt16] at ho
    exact ⟨_, .mk _ ho⟩
  | direct address =>
    have ho := OperandBytes.direct (w := w) reg (highByte address) hs
    rw [Address.word, wordOfBytes_bytes] at ho
    exact ⟨_, .mk _ ho⟩

/-- An opcode with a register and a mod-r/m operand modifies nothing. -/
lemma not_isModifier_of_rmRegister (b : UInt8) :
    (lookup b).descriptor.form = .rmRegister → ¬ IsModifier b := by
  revert b
  exact forall_byte (by decide +kernel)

/-- For an operand in memory that is addressable there are bytes after an opcode that decode to an
instruction with this operand and any register. -/
lemma Address.Admits.exists_decode (h : a.Admits s) (hl : lookup opcode = .single d)
    (hd : d.form = .rmRegister) (reg : Fin 8) :
    ∃ tail, decode (opcode :: tail) = .ok (.ofInstructions [d.instruction
      (Fields.directed opcode (.memory a s) (.register (.ofField (Fields.widthOf opcode) reg))
        (Fields.widthOf opcode))]) := by
  obtain ⟨tail, hu⟩ := h.exists_rmBytes (Fields.widthOf opcode) reg
  have hb : ¬ IsModifier opcode := not_isModifier_of_rmRegister opcode (by rw [hl]; exact hd)
  refine ⟨tail, decode_opcode hb (descriptorAt_of_single hl) ?_⟩
  rw [hd]
  exact .rmRegister hu

lemma operands_directed : (d.instruction (Fields.directed opcode x y w)).operands =
    if Fields.reversed opcode then [y, x] else [x, y] := by
  unfold Fields.directed
  split <;> rfl

/-- What an operand in memory can be where a mod-r/m byte names it. No address without an override
starts with a byte that is one, in any instruction that was decoded but those that read the address
alone. All others can be had: with every address, and every override or none that this leaves it,
each opcode of a register and a mod-r/m operand has bytes after it for each register, and they
decode to this one instruction. -/
theorem memory_operands_of_decode :
    (∀ bytes p, decode bytes = .ok p → ∀ i ∈ p.instructions, i.form ≠ .accumulatorMemory →
      i.form ≠ .memoryAccumulator → ∀ a s, .memory a s ∈ i.operands → a.Admits s) ∧
    ∀ (a : Address) s, a.Admits s → ∀ opcode d, lookup opcode = .single d → d.form = .rmRegister →
      ∀ reg, ∃ tail i, decode (opcode :: tail) = .ok (.ofInstructions [i]) ∧ i.op = d.op ∧
        i.form = .rmRegister ∧ i.width = Fields.widthOf opcode ∧
        i.operands = if Fields.reversed opcode
          then [.register (.ofField (Fields.widthOf opcode) reg), .memory a s]
          else [.memory a s, .register (.ofField (Fields.widthOf opcode) reg)] := by
  refine ⟨?_, ?_⟩
  · intro bytes p h i hi hl hs a s hm
    obtain ⟨c, rfl⟩ := exists_chunk_of_mem h hi
    exact c.isAddressable hl hs _ hm
  · intro a s ha opcode d hl hd reg
    obtain ⟨tail, h⟩ := ha.exists_decode hl hd reg
    exact ⟨tail, _, h, rfl, hd, width_directed, operands_directed⟩

/-- `mov ax, ss:[bp + es:0x3E]`, whose first override is the one that counts, then `mov ax, [bx + 39]`,
whose displacement is next to an override, and `[bp - 218]`, whose displacement has the low byte
`0x26` and so is read under an override alone. -/
theorem memory_operands_of_decode_override :
    (∃ p, decode [0x36, 0x8B, 0x46, 0x26, 0x3E, 0x8B, 0x47, 0x27] = .ok p ∧ p.instructions = #[
      ⟨"mov", .mov, .rmRegister, some (.register .ax),
        some (.memory (.based .bp 0x3E) (some .ss)), { width := .word }⟩,
      ⟨"mov", .mov, .rmRegister, some (.register .ax),
        some (.memory (.based .bx 39) none), { width := .word }⟩] ∧
      Address.Admits (.based .bp 0x3E) (some .ss) ∧ Address.Admits (.based .bx 39) none) ∧
    ¬ Address.Admits (.based .bp (-218)) none ∧ Address.Admits (.based .bp (-218)) (some .cs) ∧
    ∃ tail i, decode (0x29 :: tail) = .ok (.ofInstructions [i]) ∧ i.op = .sub ∧
      i.operands = [.memory (.based .bp (-218)) (some .cs), .register .di] := by
  have h := decode_join
    [⟨[0x36], .modifier (.segment .ss), by repeat constructor⟩,
      ⟨[0x8B, 0x46, 0x26, 0x3E], .instruction ⟨"mov", .mov, .rmRegister, some (.register .ax),
        some (.memory (.based .bp 0x3E) (some .es)), { width := .word }⟩, by repeat constructor⟩,
      ⟨[0x8B, 0x47, 0x27], .instruction ⟨"mov", .mov, .rmRegister, some (.register .ax),
        some (.memory (.based .bx 39) none), { width := .word }⟩, by repeat constructor⟩]
  have hadmits := memory_operands_of_decode.1 _ _ h
  have ha : Address.Admits (.based .bp (-218)) (some .cs) := by decide
  obtain ⟨tail, i, hi, hop, -, -, ho⟩ :=
    memory_operands_of_decode.2 _ _ ha 0x29 ⟨"sub", .sub, .rmRegister⟩ (by decide +kernel) rfl 7
  refine ⟨⟨_, h, rfl, ?_, ?_⟩, by decide, ha, tail, i, hi, hop, ho⟩
  · exact hadmits _ (List.mem_toArray.2 List.mem_cons_self) nofun nofun _ _
      (List.mem_cons_of_mem _ List.mem_cons_self)
  · exact hadmits _ (List.mem_toArray.2 (List.mem_cons_of_mem _ List.mem_cons_self)) nofun nofun _ _
      (List.mem_cons_of_mem _ List.mem_cons_self)

end I8086

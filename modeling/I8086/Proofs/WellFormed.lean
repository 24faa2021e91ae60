import I8086.Proofs.RoundTrip

/-!
# Well-formed instructions

What consumers of a program take for granted: an instruction is one that can be printed and executed
without looking at its bytes again. An operand has to suit the form and the width of its instruction
(`Operand.Suits`), and the rest is said of the instruction as a whole (`Instruction.WellFormed`). The
rules of the fields give both, and modifying bytes keep them since they only change the override of a
memory operand. Main statement: `wellFormed_of_decode_ok`, a stream decodes to well-formed
instructions only.
-/

namespace I8086

variable {w : Width} {x y : Operand} {q : Pending} {opcode : UInt8} {bs : List UInt8}
variable {form : Form} {f : Fields} {d : Descriptor} {i : Instruction} {n : Int16} {reg : Fin 8}

/-- The immediate of this form is read from one byte at this width. -/
def Form.HasByteImmediate (w : Width) : Form → Prop
  | .rmSignedByte => True
  | .registerImmediate | .accumulatorImmediate | .rmImmediate => w = .byte
  | _ => False

/-- What an operand says of the form and the width of its instruction. -/
def Operand.Suits (form : Form) (w : Width) : Operand → Prop
  | .label _ => form = .shortTarget
  | .far _ _ => form = .farTarget
  | .register r =>
    r.width = w ∨ (form = .rmCount ∧ r = .cl) ∨ (form = .variablePort ∧ r = .dx)
  | .segment _ => w = .word
  | .immediate n => form.HasByteImmediate w → -128 ≤ n.toInt ∧ n.toInt ≤ 127
  | .accumulator | .memory _ _ => True

/-- What holds of every instruction that was decoded. -/
structure Instruction.WellFormed (i : Instruction) : Prop where
  /-- The operands are in order. -/
  dest : i.modifiers.dest = false
  /-- The form is that of an instruction. -/
  form : i.form ∉ [Form.unknown, .shared, .segmentOverride]
  /-- The operation is that of an instruction. -/
  op : i.op ∉ [Mnemonic.unknown, .group, .segment, .lock, .rep]
  /-- A source has a destination. -/
  second : i.first = none → i.second = none
  /-- One operand at most is in memory. -/
  oneMemory : OneMemory i.first i.second
  /-- The operands suit the form and the width. -/
  suits : ∀ x ∈ i.operands, x.Suits i.form i.width
  /-- A short branch has its offset and nothing else. -/
  shortTarget : i.form = .shortTarget → ∃ offset, i.operands = [.label offset]
  /-- A far branch has its target and nothing else. -/
  farTarget : i.form = .farTarget → ∃ ip cs, i.operands = [.far ip cs]
  /-- Only the count is not as wide as what is shifted. -/
  count : i.form = .rmCount → i.second = some (.register .cl) ∧
    ∀ r, i.first = some (.register r) → r.width = i.width
  /-- The string operations are marked. -/
  stringOp : i.modifiers.stringOp = true ↔ i.form = .string
  /-- The operands that hold a far pointer are marked. -/
  far : i.modifiers.far = true ↔ i.form = .rmFar

/-- A register that was selected at the operation width suits every form. -/
lemma suits_ofField (n : Fin 8) : (Operand.register (.ofField w n)).Suits form w :=
  .inl (Register.width_ofField w n)

/-- What a mod-r/m byte names suits every form. -/
lemma RmOperand.suits (hx : RmOperand w x) : x.Suits form w := by
  cases hx with
  | register r hr => exact .inl hr
  | direct | based => trivial

/-- An immediate of one byte is within the range of signed bytes. -/
lemma ImmediateBytes.bounds (hn : ImmediateBytes .byte bs n) :
    -128 ≤ n.toInt ∧ n.toInt ≤ 127 := by
  cases hn with
  | byte b =>
    rw [Int8.toInt_toInt16]
    exact ⟨b.toInt8.le_toInt, Int.lt_add_one_iff.1 b.toInt8.toInt_lt⟩

/-- An immediate of the operation width suits a form. -/
lemma ImmediateBytes.suits (hn : ImmediateBytes w bs n) (hf : form.HasByteImmediate w → w = .byte) :
    (Operand.immediate n).Suits form w := by
  intro hb
  rw [hf hb] at hn
  exact hn.bounds

lemma forall_mem_some {P : Operand → Prop} (hx : P x) : ∀ z ∈ some x, P z := by
  intro z hz
  cases hz
  exact hx

/-- What holds of two operands holds of both when they are directed. -/
lemma forall_mem_directed {P : Operand → Prop} (hx : P x) (hy : P y) :
    (∀ z ∈ (Fields.directed opcode x y w).first, P z) ∧
      ∀ z ∈ (Fields.directed opcode x y w).second, P z := by
  unfold Fields.directed
  split
  · exact ⟨forall_mem_some hy, forall_mem_some hx⟩
  · exact ⟨forall_mem_some hx, forall_mem_some hy⟩

/-- The operands that were read suit the form and the width. -/
lemma FieldBytes.suits (h : FieldBytes opcode form bs f)
    (hs : form = .rmSignedByte → opcode.toNat.testBit 1) :
    (∀ x ∈ f.first, x.Suits form f.width) ∧ ∀ x ∈ f.second, x.Suits form f.width := by
  cases h with
  | bare | string | padded => exact ⟨nofun, nofun⟩
  | rmRegister h =>
    rw [width_directed]
    exact forall_mem_directed h.rmOperand.suits (suits_ofField _)
  | rmImmediate h hn => exact ⟨forall_mem_some h.rmOperand.suits, forall_mem_some (hn.suits id)⟩
  | rmSignedByte h hn =>
    -- With the sign bit set the immediate is one byte, at the width of a word too.
    rw [if_pos (hs rfl)] at hn
    exact ⟨forall_mem_some h.rmOperand.suits, forall_mem_some fun _ => hn.bounds⟩
  | registerImmediate hn =>
    exact ⟨forall_mem_some (suits_ofField _), forall_mem_some (hn.suits id)⟩
  | accumulatorMemory | memoryAccumulator =>
    exact ⟨forall_mem_some trivial, forall_mem_some trivial⟩
  | accumulatorImmediate hn => exact ⟨forall_mem_some trivial, forall_mem_some (hn.suits id)⟩
  | rm h | rmFar h => exact ⟨forall_mem_some h.rmOperand.suits, nofun⟩
  | registerMemory h =>
    exact ⟨forall_mem_some (suits_ofField _), forall_mem_some h.rmOperand.suits⟩
  | rmOne h => exact ⟨forall_mem_some h.rmOperand.suits, forall_mem_some False.elim⟩
  | rmCount h =>
    exact ⟨forall_mem_some h.rmOperand.suits, forall_mem_some (.inr (.inl ⟨rfl, rfl⟩))⟩
  | rmSegment h =>
    rw [width_directed]
    exact forall_mem_directed h.rmOperand.suits rfl
  | register => exact ⟨forall_mem_some (suits_ofField _), nofun⟩
  | segmentRegister => exact ⟨forall_mem_some rfl, nofun⟩
  | accumulatorRegister =>
    exact ⟨forall_mem_some trivial, forall_mem_some (suits_ofField _)⟩
  | byteImmediate | wordImmediate | nearTarget => exact ⟨forall_mem_some False.elim, nofun⟩
  | farTarget | shortTarget => exact ⟨forall_mem_some rfl, nofun⟩
  | fixedPort =>
    rw [width_directed]
    exact forall_mem_directed trivial False.elim
  | variablePort =>
    -- The port is in the whole of dx, at the width of a byte too.
    rw [width_directed]
    exact forall_mem_directed trivial (.inr (.inr ⟨rfl, rfl⟩))
  | escape h => exact ⟨forall_mem_some False.elim, forall_mem_some h.rmOperand.suits⟩

/-- Modifying bytes make no difference to what an operand suits. -/
lemma Pending.suits_operand (hx : x.Suits form w) : (q.operand x).Suits form w := by
  cases x <;> exact hx

/-- The operands of a finished instruction are those of its fields. -/
lemma Pending.mem_operands_finish (hx : x ∈ (q.finish d f).operands) :
    ∃ y, (y ∈ f.first ∨ y ∈ f.second) ∧ x = q.operand y := by
  obtain hx | hx := List.mem_append.1 hx
  · obtain ⟨y, hy, rfl⟩ := Option.map_eq_some_iff.1 (Option.mem_toList.1 hx)
    exact ⟨y, .inl hy, rfl⟩
  · obtain ⟨y, hy, rfl⟩ := Option.map_eq_some_iff.1 (Option.mem_toList.1 hx)
    exact ⟨y, .inr hy, rfl⟩

@[simp] lemma stringOp_directed : (Fields.directed opcode x y w).stringOp = false := by
  unfold Fields.directed
  split <;> rfl

@[simp] lemma far_directed : (Fields.directed opcode x y w).far = false := by
  unfold Fields.directed
  split <;> rfl

lemma first_directed_ne_none : (Fields.directed opcode x y w).first ≠ none := by
  unfold Fields.directed
  split <;> exact Option.some_ne_none _

/-- Fields with a source have a destination. -/
lemma FieldBytes.second_eq_none (h : FieldBytes opcode form bs f) (hf : f.first = none) :
    f.second = none := by
  cases h with
  | rmRegister | rmSegment | fixedPort | variablePort => exact (first_directed_ne_none hf).elim
  | bare | string | padded => rfl
  | _ => cases hf

lemma operands_shortTarget (h : FieldBytes opcode .shortTarget bs f) :
    ∃ offset, (q.finish d f).operands = [.label offset] := by
  cases h
  exact ⟨_, rfl⟩

lemma operands_farTarget (h : FieldBytes opcode .farTarget bs f) :
    ∃ ip cs, (q.finish d f).operands = [.far ip cs] := by
  cases h
  exact ⟨_, _, rfl⟩

/-- A shift by a count has the count in cl, and a register of its width if any. -/
lemma operands_rmCount (h : FieldBytes opcode .rmCount bs f) :
    (q.finish d f).second = some (.register .cl) ∧
      ∀ r, (q.finish d f).first = some (.register r) → r.width = (q.finish d f).width := by
  cases h with
  | rmCount h =>
    refine ⟨rfl, fun r hr => ?_⟩
    have hx := h.rmOperand_finish q rfl
    rw [Option.some.inj hr] at hx
    cases hx
    assumption

/-- The fields of a string operation are those that are marked. -/
lemma FieldBytes.stringOp_iff (h : FieldBytes opcode form bs f) :
    f.stringOp = true ↔ form = .string := by
  cases h <;> simp

/-- The fields of a form with a far pointer are those that are marked. -/
lemma FieldBytes.far_iff (h : FieldBytes opcode form bs f) : f.far = true ↔ form = .rmFar := by
  cases h <;> simp

/-- A descriptor whose operation no instruction has is unknown or that of a modifying byte. -/
lemma op_member (b : UInt8) (n : Fin 8) :
    ((lookup b).member n).op ∈ [Mnemonic.unknown, .group, .segment, .lock, .rep] →
      ((lookup b).member n).form = .unknown ∨ ((lookup b).member n).modifier? b ≠ none := by
  refine forall_member (P := fun b d => d.op ∈ [Mnemonic.unknown, .group, .segment, .lock, .rep] →
    d.form = .unknown ∨ d.modifier? b ≠ none) ?_ ?_ b n
  · exact forall_byte (by decide +kernel)
  · intro _ g n _ h
    refine .inl ?_
    revert n
    cases g <;> decide

/-- The instruction of a chunk is well-formed. -/
lemma Chunk.wellFormed (c : Chunk) : c.instruction.WellFormed := by
  obtain ⟨q, b, v, f, hb, hf, hi⟩ := c.exists_finish
  rw [← modifier?_descriptorAt b v] at hb
  have hd := descriptorAt_eq_member b v
  have hs : (descriptorAt b v).form = .rmSignedByte → b.toNat.testBit 1 := fun h =>
    testBit_of_rmSignedByte b _ (hd ▸ h)
  have hform : (descriptorAt b v).form ∉ [Form.unknown, .shared, .segmentOverride] := by
    generalize (descriptorAt b v).form = form at hf
    cases hf <;> decide
  rw [hi]
  constructor
  case dest => rfl
  case form => exact hform
  case op =>
    -- A byte that modifies is no instruction and an unknown descriptor has no fields.
    intro hop
    rw [hd] at hop hb hform
    obtain hu | hm := op_member b _ hop
    · exact hform (hu ▸ List.mem_cons_self)
    · exact hm hb
  case second =>
    intro h
    have h' := hf.second_eq_none (Option.map_eq_none_iff.1 h)
    exact Option.map_eq_none_iff.2 h'
  case oneMemory =>
    exact hf.oneMemory.of_isMemory Pending.isMemory_map_operand Pending.isMemory_map_operand
  case suits =>
    intro x hx
    obtain ⟨y, hy, rfl⟩ := Pending.mem_operands_finish hx
    exact Pending.suits_operand (hy.elim ((hf.suits hs).1 y) ((hf.suits hs).2 y))
  case shortTarget =>
    intro (h : (descriptorAt b v).form = .shortTarget)
    rw [h] at hf
    exact operands_shortTarget hf
  case farTarget =>
    intro (h : (descriptorAt b v).form = .farTarget)
    rw [h] at hf
    exact operands_farTarget hf
  case count =>
    intro (h : (descriptorAt b v).form = .rmCount)
    rw [h] at hf
    exact operands_rmCount hf
  case stringOp => exact hf.stringOp_iff
  case far => exact hf.far_iff

/-- A stream that decodes, decodes to well-formed instructions. -/
theorem wellFormed_of_decode_ok {bytes : List UInt8} {p : Program} (h : decode bytes = .ok p) :
    ∀ i ∈ p.instructions, i.WellFormed := by
  obtain ⟨cs, trailing, -, -, rfl⟩ := exists_chunks_of_decode_ok h
  intro i hi
  obtain ⟨c, -, rfl⟩ := List.mem_map.1 (List.mem_toArray.1 hi)
  exact c.wellFormed

/-- `shl cx, cl`, `out dx, al` and `add word es:[bx], -128` under a lock, where the same bit of the
opcode is part of the operation, the direction and the size of the immediate. -/
theorem wellFormed_of_decode_ok_directions :
    ∃ p, decode [0xD3, 0xE1, 0xEE, 0xF0, 0x26, 0x83, 0x07, 0x80] = .ok p ∧
      p.instructions = #[
        ⟨"shl", .shl, .rmCount, some (.register .cx), some (.register .cl), { width := .word }⟩,
        ⟨"out", .output, .variablePort, some (.register .dx), some .accumulator, {}⟩,
        ⟨"add", .add, .rmSignedByte, some (.memory (.based .bx 0) (some .es)),
          some (.immediate (-128)), { width := .word, locked := true }⟩] ∧
      ∀ i ∈ p.instructions, i.WellFormed := by
  have h := decode_join
    [⟨[0xD3, 0xE1], .instruction ⟨"shl", .shl, .rmCount, some (.register .cx),
        some (.register .cl), { width := .word }⟩, by repeat constructor⟩,
      ⟨[0xEE], .instruction ⟨"out", .output, .variablePort, some (.register .dx),
        some .accumulator, {}⟩, by repeat constructor⟩,
      ⟨[0xF0], .modifier .lock, by repeat constructor⟩,
      ⟨[0x26], .modifier (.segment .es), by repeat constructor⟩,
      ⟨[0x83, 0x07, 0x80], .instruction ⟨"add", .add, .rmSignedByte,
        some (.memory (.based .bx 0) none), some (.immediate (-128)), { width := .word }⟩,
        by repeat constructor⟩]
  exact ⟨_, h, rfl, wellFormed_of_decode_ok h⟩

end I8086

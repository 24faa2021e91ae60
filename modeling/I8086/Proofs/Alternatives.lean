import I8086.Proofs.Encoder
import I8086.Proofs.Execution
import I8086.Proofs.Length
import Mathlib.Data.Fintype.Basic
import Mathlib.Tactic.FinCases

/-!
# Alternative encodings

Some instructions can be encoded in several ways, which are read along different lines: an
operation on an immediate by two opcodes, or with one sign-extended byte in place of a word; an
operation on two registers with either of them in the register field; an operation on the
accumulator, and a move to a register, with and without a mod-r/m byte. Main statement:
`decode_alternatives`, the encodings decode to the same instruction, or to instructions that do the
same.
-/

namespace I8086

open Reader

variable {w : Width} {bs tail u v : List UInt8} {x : Operand} {reg : Fin 8} {opcode : UInt8}
variable {d : Descriptor} {f : Fields} {i j : Instruction} {n : Int16}

/-- A mod-r/m byte and all bytes of the displacement that it announces. -/
def IsRmTail : List UInt8 → Prop
  | [] => False
  | second :: rest => (second :: rest).length + 1 = rmLength second (rest.headD 0)

/-- The bytes of a mod-r/m operand are those of the length that they tell. -/
lemma isRmTail_iff (w : Width) : IsRmTail bs ↔ ∃ x reg, RmBytes w bs x reg := by
  constructor
  · intro h
    have hl : rmLength (bs.headD 0) (bs.tail.headD 0) = bs.length + 1 := by
      cases bs with
      | nil => exact h.elim
      | cons => exact h.symm
    -- The operand ends neither before the bytes do nor after them, as both lengths are told alike.
    obtain ⟨u, v, ⟨x, reg⟩, rfl, rd⟩ | wt := reads_or_waits (Fields.rm w) bs
    · have hu := (reads_rm_iff.1 rd).length_eq
      rw [rmLength_append (by omega), hu, List.length_append] at hl
      obtain rfl : v = [] := List.length_eq_zero_iff.1 (by omega)
      rw [List.append_nil]
      exact ⟨x, reg, reads_rm_iff.1 rd⟩
    · obtain ⟨v, ⟨x, reg⟩, rd⟩ := wt.extend
      have hu := (reads_rm_iff.1 rd).length_eq
      rw [rmLength_append (by omega), hl, List.length_append] at hu
      obtain rfl : v = [] := List.length_eq_zero_iff.1 (by omega)
      rw [List.append_nil] at rd
      exact ⟨x, reg, reads_rm_iff.1 rd⟩
  · rintro ⟨x, reg, h⟩
    have hl := h.length_eq
    obtain ⟨m, h⟩ := h
    exact hl.symm

/-- An opcode that modifies nothing decodes with the fields of its form to one instruction. -/
lemma decode_opcode (hb : ¬ IsModifier opcode) (hd : descriptorAt opcode v = d)
    (hf : FieldBytes opcode d.form v f) :
    decode (opcode :: v) = .ok (.ofInstructions [d.instruction f]) := by
  obtain ⟨r, hr, rd⟩ := reads_fields_iff.2 hf
  have hi : Item.reader.Reads (opcode :: v) (.ok (.instruction (d.instruction f))) := by
    subst hd
    exact Item.reads_instruction_iff.2
      ⟨opcode, v, r, f, rfl, modifierByte?_eq_none_iff.2 hb, hr, rd, rfl⟩
  have h := decode_join [⟨_, _, hi⟩]
  rwa [Tile.join_cons, Tile.join_nil, List.append_nil] at h

/-- An opcode that is not shared has the same descriptor whatever follows. -/
lemma descriptorAt_of_single (h : lookup opcode = .single d) : descriptorAt opcode v = d := by
  unfold descriptorAt
  rw [h]
  rfl

/-- A shared opcode has the member of its group that the mod-r/m byte selects. -/
lemma descriptorAt_of_shared {g : OpcodeGroup} (h : lookup opcode = .shared g) (m : ModRm) :
    descriptorAt opcode (m.toByte :: v) = g.members.get m.reg := by
  unfold descriptorAt
  rw [h, List.headD_cons]
  exact congrArg g.members.get (congrArg ModRm.reg (ModRm.ofByte_toByte m))

/-- What the width adds to an opcode. -/
def Width.opcodeBit : Width → UInt8
  | .byte => 0
  | .word => 1

/-- The operations of the arithmetic groups, by the register field that selects them. -/
def arithmeticOperations : Vector Mnemonic 8 :=
  #v[.add, .or, .adc, .sbb, .and, .sub, .xor, .cmp]

/-- The operations between a register and a mod-r/m operand that have a direction bit, with their first
opcode: that on bytes with the mod-r/m operand as the destination. -/
def directedOpcodes : List (Mnemonic × UInt8) :=
  [(.add, 0x00), (.or, 0x08), (.adc, 0x10), (.sbb, 0x18), (.and, 0x20), (.sub, 0x28), (.xor, 0x30),
    (.cmp, 0x38), (.mov, 0x88)]

/-- An opcode of such an operation: `reversed` makes the register the destination. -/
def directedOpcode (first : UInt8) (reversed : Bool) (w : Width) : UInt8 :=
  first + (if reversed then 2 else 0) + w.opcodeBit

/-- The opcode of an arithmetic operation on the accumulator and an immediate. -/
def accumulatorOpcode (k : Fin 8) (w : Width) : UInt8 :=
  UInt8.ofNat (8 * k.val + 4) + w.opcodeBit

/-- The opcode that moves an immediate to a register. -/
def moveOpcode (w : Width) (reg : Fin 8) : UInt8 :=
  0xB0 + 8 * w.opcodeBit + UInt8.ofNat reg.val

/-- A member of an arithmetic group has its name and operation in every form. -/
lemma exists_arithmeticMembers_get (k : Fin 8) : ∃ name, ∀ form,
    (arithmeticMembers form).get k = ⟨name, arithmeticOperations.get k, form⟩ := by
  fin_cases k <;> exact ⟨_, fun _ => rfl⟩

lemma lookup_directedOpcode (reversed : Bool) (w : Width) : ∀ p ∈ directedOpcodes,
    lookup (directedOpcode p.2 reversed w) =
        .single ⟨(lookup p.2).descriptor.name, p.1, .rmRegister⟩ ∧
      ¬ IsModifier (directedOpcode p.2 reversed w) ∧
      Fields.reversed (directedOpcode p.2 reversed w) = reversed ∧
      Fields.widthOf (directedOpcode p.2 reversed w) = w := by
  cases w <;> revert reversed <;> decide +kernel

lemma lookup_accumulatorOpcode (w : Width) (k : Fin 8) :
    lookup (accumulatorOpcode k w) = .single ((arithmeticMembers .accumulatorImmediate).get k) ∧
      ¬ IsModifier (accumulatorOpcode k w) ∧ Fields.widthOf (accumulatorOpcode k w) = w := by
  cases w <;> revert k <;> decide +kernel

lemma lookup_moveOpcode (w : Width) (reg : Fin 8) :
    lookup (moveOpcode w reg) = .single ⟨"mov", .mov, .registerImmediate⟩ ∧
      ¬ IsModifier (moveOpcode w reg) ∧ Fields.registerWidth (moveOpcode w reg) = w ∧
      Fields.opcodeRegister (moveOpcode w reg) = reg := by
  cases w <;> revert reg <;> decide +kernel

/-- A group opcode with an immediate of the operation width. -/
lemma lookup_groupOpcode (w : Width) :
    lookup (0x80 + w.opcodeBit) = .shared .immediate ∧ ¬ IsModifier (0x80 + w.opcodeBit) ∧
      Fields.widthOf (0x80 + w.opcodeBit) = w := by
  cases w <;> exact ⟨rfl, by decide, rfl⟩

lemma lookup_moveTailOpcode (w : Width) :
    lookup (0xC6 + w.opcodeBit) = .single ⟨"mov", .mov, .rmImmediate⟩ ∧
      ¬ IsModifier (0xC6 + w.opcodeBit) ∧ Fields.widthOf (0xC6 + w.opcodeBit) = w := by
  cases w <;> exact ⟨rfl, by decide, rfl⟩

/-- A byte and a word are immediates. -/
lemma exists_immediateBytes (w : Width) (n : UInt16) : ∃ m, ImmediateBytes w (w.bytes n) m := by
  cases w with
  | byte => exact ⟨_, .byte _⟩
  | word => exact ⟨_, .word _ _⟩

/-- A word whose high byte repeats the sign of the low one is the low one, sign-extended. -/
lemma wordOfBytes_signExtend (b : UInt8) :
    (wordOfBytes b (if 0x80 ≤ b then 0xFF else 0)).toInt16 = b.toInt8.toInt16 := by
  revert b
  exact forall_byte (by decide +kernel)

namespace RegisterFile

/-- What becomes of an instruction does not depend on its name and form, nor on how its destination is
written. -/
lemma execute_congr (hop : i.op = j.op) (hw : i.width = j.width)
    (hfirst : i.first.bind (Operand.location? i.width) = j.first.bind (Operand.location? j.width))
    (hsecond : i.second = j.second) (r : RegisterFile) : r.execute i = r.execute j := by
  unfold execute move combine
  rw [hfirst, hop, hw, hsecond]

end RegisterFile

/-- What a group opcode encodes in front of a mod-r/m operand and an immediate. -/
lemma decode_group {g : OpcodeGroup} {form : Form} (hl : lookup opcode = .shared g)
    (hb : ¬ IsModifier opcode) (hg : g.members = arithmeticMembers form)
    (h : RmBytes w u x reg) (hf : FieldBytes opcode form (u ++ v) f) :
    decode (opcode :: (u ++ v)) =
      .ok (.ofInstructions [((arithmeticMembers form).get reg).instruction f]) := by
  obtain ⟨name, hname⟩ := exists_arithmeticMembers_get reg
  have hd : descriptorAt opcode (u ++ v) = (arithmeticMembers form).get reg := by
    obtain ⟨m, h⟩ := h
    rw [← hg]
    exact descriptorAt_of_shared hl m
  refine decode_opcode hb hd ?_
  rw [hname]
  exact hf

/-- The two opcodes of the arithmetic groups for bytes are the same. -/
lemma decode_group_byte (h : IsRmTail tail) (b : UInt8) : ∃ i,
    decode (0x80 :: (tail ++ [b])) = .ok (.ofInstructions [i]) ∧
      decode (0x82 :: (tail ++ [b])) = .ok (.ofInstructions [i]) := by
  obtain ⟨x, reg, hx⟩ := (isRmTail_iff .byte).1 h
  have hl80 : lookup 0x80 = .shared .immediate := rfl
  have hl82 : lookup 0x82 = .shared .immediate := rfl
  exact ⟨_, decode_group hl80 (by decide) rfl hx (.rmImmediate hx (.byte b)),
    decode_group hl82 (by decide) rfl hx (.rmImmediate hx (.byte b))⟩

/-- A sign-extended byte is the word that it is extended to, in another form. -/
lemma decode_group_word (h : IsRmTail tail) (b : UInt8) : ∃ i,
    decode (0x81 :: (tail ++ [b, if 0x80 ≤ b then 0xFF else 0])) = .ok (.ofInstructions [i]) ∧
      decode (0x83 :: (tail ++ [b])) =
        .ok (.ofInstructions [{ i with form := .rmSignedByte }]) := by
  obtain ⟨x, reg, hx⟩ := (isRmTail_iff .word).1 h
  obtain ⟨name, hname⟩ := exists_arithmeticMembers_get reg
  have hw : ImmediateBytes .word [b, if 0x80 ≤ b then 0xFF else 0] b.toInt8.toInt16 := by
    rw [← wordOfBytes_signExtend]
    exact .word _ _
  have hl81 : lookup 0x81 = .shared .immediate := rfl
  have hl83 : lookup 0x83 = .shared .signedByte := rfl
  have h81 := decode_group hl81 (by decide) rfl hx (.rmImmediate hx hw)
  have h83 := decode_group hl83 (by decide) rfl hx (.rmSignedByte hx (.byte b))
  rw [hname] at h81 h83
  exact ⟨_, h81, h83⟩

/-- Either of two registers can be the one in the register field. -/
lemma decode_directed (w : Width) (x y : Fin 8) {p : Mnemonic × UInt8} (hp : p ∈ directedOpcodes) :
    ∃ i, i.op = p.1 ∧ i.width = w ∧ i.first = some (.register (.ofField w x)) ∧
      i.second = some (.register (.ofField w y)) ∧
      decode [directedOpcode p.2 false w, ModRm.toByte ⟨.register, y, x⟩] =
        .ok (.ofInstructions [i]) ∧
      decode [directedOpcode p.2 true w, ModRm.toByte ⟨.register, x, y⟩] =
        .ok (.ofInstructions [i]) := by
  have hdecode (reversed : Bool) (reg rm : Fin 8) :
      decode [directedOpcode p.2 reversed w, ModRm.toByte ⟨.register, reg, rm⟩] =
        .ok (.ofInstructions [Descriptor.instruction
          ⟨(lookup p.2).descriptor.name, p.1, .rmRegister⟩
          { first := some (.register (.ofField w (if reversed then reg else rm))),
            second := some (.register (.ofField w (if reversed then rm else reg))),
            width := w }]) := by
    obtain ⟨hl, hb, hr, hw⟩ := lookup_directedOpcode reversed w p hp
    have h := decode_opcode hb (descriptorAt_of_single hl)
      (.rmRegister (.mk ⟨.register, reg, rm⟩ (.register reg rm)))
    unfold Fields.directed at h
    rw [hw, hr] at h
    cases reversed <;> exact h
  exact ⟨_, rfl, rfl, rfl, rfl, hdecode false y x, hdecode true x y⟩

/-- An operation on the accumulator and an immediate does what its group form on `al` or `ax` does. -/
lemma execute_accumulator (w : Width) (k : Fin 8) (n : UInt16) : ∃ i j : Instruction,
    i.op = arithmeticOperations.get k ∧ i.first = some .accumulator ∧
      j.first = some (.register (.accumulator w)) ∧
      decode (accumulatorOpcode k w :: w.bytes n) = .ok (.ofInstructions [i]) ∧
      decode ((0x80 + w.opcodeBit) :: ModRm.toByte ⟨.register, k, lowBits3 0⟩ :: w.bytes n) =
        .ok (.ofInstructions [j]) ∧
      ∀ r : RegisterFile, r.execute i = r.execute j := by
  obtain ⟨name, hname⟩ := exists_arithmeticMembers_get k
  obtain ⟨m, hm⟩ := exists_immediateBytes w n
  obtain ⟨hl, hb, hw⟩ := lookup_accumulatorOpcode w k
  obtain ⟨hgl, hgb, hgw⟩ := lookup_groupOpcode w
  have hi := decode_opcode hb (descriptorAt_of_single (hl.trans (by rw [hname])))
    (.accumulatorImmediate (by rwa [hw]))
  have hj := decode_group hgl hgb rfl (.mk (w := w) _ (.register k (lowBits3 0)))
    (.rmImmediate (.mk _ (.register k (lowBits3 0))) (by rwa [hgw]))
  rw [hw] at hi
  rw [hgw, hname] at hj
  have ha : Register.ofField w (lowBits3 0) = .accumulator w := by cases w <;> rfl
  rw [ha] at hj
  exact ⟨_, _, rfl, rfl, rfl, hi, hj, RegisterFile.execute_congr rfl rfl rfl rfl⟩

/-- A move of an immediate to a register does what it does with a mod-r/m byte. -/
lemma execute_move (w : Width) (slot reg : Fin 8) (n : UInt16) : ∃ i j : Instruction,
    i.op = .mov ∧ i.first = some (.register (.ofField w reg)) ∧
      decode (moveOpcode w reg :: w.bytes n) = .ok (.ofInstructions [i]) ∧
      decode ((0xC6 + w.opcodeBit) :: ModRm.toByte ⟨.register, slot, reg⟩ :: w.bytes n) =
        .ok (.ofInstructions [j]) ∧
      ∀ r : RegisterFile, r.execute i = r.execute j := by
  obtain ⟨m, hm⟩ := exists_immediateBytes w n
  obtain ⟨hl, hb, hw, hr⟩ := lookup_moveOpcode w reg
  obtain ⟨htl, htb, htw⟩ := lookup_moveTailOpcode w
  have hi := decode_opcode hb (descriptorAt_of_single hl) (.registerImmediate (by rwa [hw]))
  have hj := decode_opcode htb (descriptorAt_of_single htl)
    (.rmImmediate (.mk _ (.register slot reg)) (by rwa [htw]))
  rw [hw, hr] at hi
  rw [htw] at hj
  exact ⟨_, _, rfl, rfl, hi, hj, RegisterFile.execute_congr rfl rfl rfl rfl⟩

/-- Instructions that are encoded in several ways. Opcode 0x82 is 0x80, and 0x83 is 0x81 with the
word that its byte is extended to, up to the form. Of two registers, either can be the one in the
register field. The accumulator forms and the moves without a mod-r/m byte do what the encodings with
one do, from any registers: the same becomes of the instruction, and the same registers and flags come
after it. -/
theorem decode_alternatives :
    (∀ tail, IsRmTail tail → ∀ b, ∃ i,
      decode (0x80 :: (tail ++ [b])) = .ok (.ofInstructions [i]) ∧
        decode (0x82 :: (tail ++ [b])) = .ok (.ofInstructions [i])) ∧
    (∀ tail, IsRmTail tail → ∀ b, ∃ i,
      decode (0x81 :: (tail ++ [b, if 0x80 ≤ b then 0xFF else 0])) = .ok (.ofInstructions [i]) ∧
        decode (0x83 :: (tail ++ [b])) =
          .ok (.ofInstructions [{ i with form := .rmSignedByte }])) ∧
    (∀ p ∈ directedOpcodes, ∀ (w : Width) (x y : Fin 8), ∃ i : Instruction,
      i.op = p.1 ∧ i.width = w ∧ i.first = some (.register (.ofField w x)) ∧
        i.second = some (.register (.ofField w y)) ∧
        decode [directedOpcode p.2 false w, ModRm.toByte ⟨.register, y, x⟩] =
          .ok (.ofInstructions [i]) ∧
        decode [directedOpcode p.2 true w, ModRm.toByte ⟨.register, x, y⟩] =
          .ok (.ofInstructions [i])) ∧
    (∀ (w : Width) (k : Fin 8) (n : UInt16), ∃ i j : Instruction,
      i.op = arithmeticOperations.get k ∧ i.first = some .accumulator ∧
        j.first = some (.register (.accumulator w)) ∧
        decode (accumulatorOpcode k w :: w.bytes n) = .ok (.ofInstructions [i]) ∧
        decode ((0x80 + w.opcodeBit) :: ModRm.toByte ⟨.register, k, lowBits3 0⟩ :: w.bytes n) =
          .ok (.ofInstructions [j]) ∧
        ∀ r : RegisterFile, r.execute i = r.execute j) ∧
    (∀ (w : Width) (slot reg : Fin 8) (n : UInt16), ∃ i j : Instruction,
      i.op = .mov ∧ i.first = some (.register (.ofField w reg)) ∧
        decode (moveOpcode w reg :: w.bytes n) = .ok (.ofInstructions [i]) ∧
        decode ((0xC6 + w.opcodeBit) :: ModRm.toByte ⟨.register, slot, reg⟩ :: w.bytes n) =
          .ok (.ofInstructions [j]) ∧
        ∀ r : RegisterFile, r.execute i = r.execute j) :=
  ⟨fun _ h b => decode_group_byte h b, fun _ h b => decode_group_word h b,
    fun _ hp w x y => decode_directed w x y hp, execute_accumulator, execute_move⟩

/-- An operand with an override between its mod-r/m byte and its displacement, and a negative byte. -/
theorem decode_alternatives_override :
    IsRmTail [0x47, 0x26, 0x05] ∧ (∃ i,
      decode [0x80, 0x47, 0x26, 0x05, 0xFE] = .ok (.ofInstructions [i]) ∧
        decode [0x82, 0x47, 0x26, 0x05, 0xFE] = .ok (.ofInstructions [i])) ∧
      (∃ i, decode [0x81, 0x47, 0x26, 0x05, 0xFE, 0xFF] = .ok (.ofInstructions [i]) ∧
        decode [0x83, 0x47, 0x26, 0x05, 0xFE] =
          .ok (.ofInstructions [{ i with form := .rmSignedByte }])) ∧
      (∃ i : Instruction, i.op = .mov ∧ i.width = .byte ∧ i.first = some (.register .bh) ∧
        i.second = some (.register .cl) ∧ decode [0x88, 0xCF] = .ok (.ofInstructions [i]) ∧
        decode [0x8A, 0xF9] = .ok (.ofInstructions [i])) :=
  have h : IsRmTail [0x47, 0x26, 0x05] := by
    unfold IsRmTail
    decide +kernel
  ⟨h, decode_alternatives.1 _ h 0xFE, decode_alternatives.2.1 _ h 0xFE,
    decode_alternatives.2.2.1 (.mov, 0x88) (by decide) .byte 7 1⟩

end I8086

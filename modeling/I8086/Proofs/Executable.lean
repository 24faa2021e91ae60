import I8086.Proofs.Execution
import I8086.Proofs.WellFormed

/-!
# Execution of decoded instructions

The operations that are executed come in few forms (`takes_member`). In these the first operand is a
place in the register file or in memory, and the second can be an immediate as well. So memory alone
keeps such an instruction from being executed, and its locations are as wide as the operation. Main
statement: `execute_of_decode_ok`.
-/

namespace I8086

variable {w : Width} {x y : Operand} {q : Pending} {opcode : UInt8} {bs : List UInt8}
variable {form : Form} {f : Fields} {i : Instruction} {op : Mnemonic}

/-- The forms of an operation that is executed. Only a move has a segment register. -/
def Mnemonic.Takes (op : Mnemonic) (form : Form) : Prop :=
  form ∈ [Form.rmRegister, .rmImmediate, .rmSignedByte, .registerImmediate, .accumulatorMemory,
    .memoryAccumulator, .accumulatorImmediate] ∨ (op = .mov ∧ form = .rmSegment)

instance (op : Mnemonic) (form : Form) : Decidable (op.Takes form) :=
  inferInstanceAs (Decidable (_ ∨ _))

/-- The forms with a register of another width are not among them. -/
lemma Mnemonic.Takes.form_ne (h : op.Takes form) : form ≠ .rmCount ∧ form ≠ .variablePort := by
  constructor
  all_goals
    rintro rfl
    obtain h | ⟨-, h⟩ := h
    · exact absurd h (by decide)
    · cases h

/-- The opcode map gives the operations that are executed these forms. -/
lemma takes_member (b : UInt8) (n : Fin 8) : ((lookup b).member n).op.IsExecuted →
    ((lookup b).member n).op.Takes ((lookup b).member n).form := by
  refine forall_member (P := fun _ d => d.op.IsExecuted → d.op.Takes d.form) ?_ ?_ b n
  · exact forall_byte (by decide +kernel)
  · intro _ g n _
    revert n
    cases g <;> decide

/-- A place of the operation: unless it is in memory, it can be a destination and a source. -/
def Operand.IsPlace (op : Mnemonic) (x : Operand) : Prop :=
  x.isDestination op = !x.isMemory ∧ x.isSource = !x.isMemory

/-- What a mod-r/m byte names is a place of every operation. -/
lemma RmOperand.isPlace (hx : RmOperand w x) : x.IsPlace op := by
  cases hx <;> exact ⟨rfl, rfl⟩

lemma exists_directed (hx : x.IsPlace op) (hy : y.IsPlace op) :
    ∃ a ∈ (Fields.directed opcode x y w).first, ∃ b ∈ (Fields.directed opcode x y w).second,
      a.isDestination op = !a.isMemory ∧ b.isSource = !b.isMemory := by
  unfold Fields.directed
  split
  · exact ⟨y, rfl, x, rfl, hy.1, hx.2⟩
  · exact ⟨x, rfl, y, rfl, hx.1, hy.2⟩

/-- In the forms of an operation that is executed there are two operands, a destination and a source
unless they are in memory. -/
lemma FieldBytes.exists_operands (h : FieldBytes opcode form bs f) (hop : op.Takes form) :
    ∃ x ∈ f.first, ∃ y ∈ f.second,
      x.isDestination op = !x.isMemory ∧ y.isSource = !y.isMemory := by
  cases h with
  | rmRegister h => exact exists_directed h.rmOperand.isPlace ⟨rfl, rfl⟩
  | rmImmediate h | rmSignedByte h => exact ⟨_, rfl, _, rfl, h.rmOperand.isPlace.1, rfl⟩
  | registerImmediate | accumulatorMemory | memoryAccumulator | accumulatorImmediate =>
    exact ⟨_, rfl, _, rfl, rfl, rfl⟩
  | rmSegment h =>
    -- Either operand can be the segment register, which only a move has as its destination.
    obtain hop | ⟨rfl, -⟩ := hop
    · exact absurd hop (by decide)
    · exact exists_directed h.rmOperand.isPlace ⟨rfl, rfl⟩
  | _ =>
    obtain hop | ⟨-, hop⟩ := hop
    · exact absurd hop (by decide)
    · cases hop

/-- The operation of a chunk takes the form that it has, if it is executed. -/
lemma Chunk.takes (c : Chunk) (hop : c.instruction.op.IsExecuted) :
    c.instruction.op.Takes c.instruction.form := by
  obtain ⟨q, b, v, f, hb, hf, hi⟩ := c.exists_finish
  rw [hi, descriptorAt_eq_member] at hop ⊢
  exact takes_member b _ hop

/-- An instruction whose operation is executed has a destination and a source, unless they are in
memory. -/
lemma Chunk.exists_operands (c : Chunk) (hop : c.instruction.op.IsExecuted) :
    ∃ x y, c.instruction.first = some x ∧ c.instruction.second = some y ∧
      x.isDestination c.instruction.op = !x.isMemory ∧ y.isSource = !y.isMemory := by
  have ht := c.takes hop
  obtain ⟨q, b, v, f, hb, hf, hi⟩ := c.exists_finish
  rw [hi] at ht ⊢
  obtain ⟨x, hx, y, hy, hdx, hsy⟩ := hf.exists_operands ht
  refine ⟨q.operand x, q.operand y, ?_, ?_, ?_, ?_⟩
  · exact congrArg (Option.map q.operand) hx
  · exact congrArg (Option.map q.operand) hy
  · cases x <;> exact hdx
  · cases y <;> exact hsy

/-- The locations that an instruction names. -/
def Instruction.locations (i : Instruction) : List Location :=
  i.operands.filterMap (Operand.location? i.width)

/-- The locations of a well-formed instruction are as wide as the operation, if that takes the
form. -/
lemma Instruction.WellFormed.width_location (h : i.WellFormed) (hop : i.op.Takes i.form)
    {l : Location} (hl : l ∈ i.locations) : l.width = i.width := by
  obtain ⟨x, hx, hl⟩ := List.mem_filterMap.1 hl
  have hs := h.suits x hx
  cases x with
  | accumulator =>
    cases hl
    exact Register.width_accumulator i.width
  | register r =>
    cases hl
    obtain hr | ⟨hf, -⟩ | ⟨hf, -⟩ := hs
    · exact hr
    · exact (hop.form_ne.1 hf).elim
    · exact (hop.form_ne.2 hf).elim
  | segment s =>
    cases hl
    exact hs.symm
  | _ => cases hl

lemma Instruction.mem_locations_of_destination? {l : Location} (hl : i.destination? = some l) :
    l ∈ i.locations := by
  obtain ⟨x, hx, -, hxl⟩ := Instruction.destination?_eq_some_iff.1 hl
  exact List.mem_filterMap.2 ⟨x, List.mem_append_left _ (Option.mem_toList.2 hx), hxl⟩

/-- An instruction whose operation is executed has a destination and a source if no operand is in
memory. -/
lemma Chunk.any_operands_iff (c : Chunk) (hop : c.instruction.op.IsExecuted) :
    c.instruction.first.any (Operand.isDestination c.instruction.op) ∧
      c.instruction.second.any Operand.isSource ↔ ∀ x ∈ c.instruction.operands, ¬ x.isMemory := by
  obtain ⟨x, y, hx, hy, hd, hs⟩ := c.exists_operands hop
  have ho : c.instruction.operands = [x, y] := by
    rw [Instruction.operands, hx, hy]
    rfl
  rw [hx, hy, ho, Option.any_some, Option.any_some, hd, hs]
  simp

/-- The decoder and the execution agree on what can be executed. An instruction is skipped for its
operation or for an operand in memory, and executed otherwise. Its locations are then as wide as the
operation, so nothing that they hold is cut off, and the destination holds all of the result. -/
theorem execute_of_decode_ok {bytes : List UInt8} {p : Program} (h : decode bytes = .ok p)
    (hi : i ∈ p.instructions) (r : RegisterFile) :
    ((r.execute i).1 = .skipped .opcode ↔ ¬ i.op.IsExecuted) ∧
    ((r.execute i).1 = .skipped .operand ↔ i.op.IsExecuted ∧ ∃ x ∈ i.operands, x.isMemory) ∧
    ((r.execute i).1 = .executed ↔ i.op.IsExecuted ∧ ∀ x ∈ i.operands, ¬ x.isMemory) ∧
    ((r.execute i).1 = .executed →
      (∀ l ∈ i.locations, l.width = i.width ∧
        r.readLocation l &&& i.width.mask = r.readLocation l) ∧
      ∃ l v, i.destination? = some l ∧ r.source? i = some v ∧
        (r.execute i).2.readLocation l = i.op.result i.width (r.readLocation l) v) := by
  obtain ⟨cs, trailing, -, -, rfl⟩ := exists_chunks_of_decode_ok h
  obtain ⟨c, -, rfl⟩ := List.mem_map.1 (List.mem_toArray.1 hi)
  have hw : c.instruction.op.IsExecuted →
      ∀ l ∈ c.instruction.locations, l.width = c.instruction.width :=
    fun hop l hl => c.wellFormed.width_location (c.takes hop) hl
  refine ⟨r.execute_eq_skipped_opcode_iff _, ?_, ?_, ?_⟩
  · rw [r.execute_eq_skipped_operand_iff]
    refine and_congr_right fun hop => ?_
    rw [c.any_operands_iff hop]
    simp only [not_forall, not_not, exists_prop]
  · rw [r.execute_eq_executed_iff]
    exact and_congr_right c.any_operands_iff
  · have he := r.executes_execute c.instruction
    generalize r.execute c.instruction = out at he
    intro hout
    cases he with
    | opcode | operand => cases hout
    | @performed l v hop hl hv =>
      refine ⟨fun l hl => ⟨hw hop l hl, ?_⟩, l, v, hl, hv, ?_⟩
      · rw [← hw hop l hl]
        exact r.readLocation_and_mask l
      · have hlw := hw hop l (Instruction.mem_locations_of_destination? hl)
        exact RegisterFile.readLocation_perform hop hlw (RegisterFile.source?_and_mask hv)

/-- `add ah, bl` and `cmp ah, byte [bx]`: the first works on bytes, the high one of a word among
them, and the second is skipped. -/
theorem execute_of_decode_ok_high :
    let r : RegisterFile := { cells := Vector.replicate 8 0x1234 }
    let i : Instruction :=
      ⟨"add", .add, .rmRegister, some (.register .ah), some (.register .bl), {}⟩
    let j : Instruction :=
      ⟨"cmp", .cmp, .rmRegister, some (.register .ah), some (.memory (.based .bx 0) none), {}⟩
    decode [0x00, 0xDC, 0x3A, 0x27] = .ok (.ofInstructions [i, j]) ∧
      (r.execute i).1 = .executed ∧ (∀ l ∈ i.locations, l.width = .byte) ∧
      (r.execute i).2.readLocation (.register .ah) = 0x46 ∧
      (r.execute j).1 = .skipped .operand := by
  intro r i j
  have h : decode [0x00, 0xDC, 0x3A, 0x27] = .ok (.ofInstructions [i, j]) := by cbv
  obtain ⟨-, -, hx, hd⟩ := execute_of_decode_ok h (List.mem_toArray.2 List.mem_cons_self) r
  obtain ⟨-, hs, -, -⟩ :=
    execute_of_decode_ok h (List.mem_toArray.2 (List.mem_cons_of_mem i List.mem_cons_self)) r
  have hi : (r.execute i).1 = .executed := hx.2 ⟨by decide, by decide⟩
  obtain ⟨hw, l, v, hl, hv, he⟩ := hd hi
  cases hl
  cases hv
  refine ⟨h, hi, fun l hl => (hw l hl).1, he.trans (by decide), ?_⟩
  exact hs.2 ⟨by decide, _, List.mem_cons_of_mem _ List.mem_cons_self, rfl⟩

end I8086

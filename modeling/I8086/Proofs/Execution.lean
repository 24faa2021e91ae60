import I8086.Execution
import Mathlib.Tactic.IntervalCases
import Mathlib.Tactic.Lemma

/-!
# What execution does

A location holds what fits its width (`readLocation_and_mask`) and gives back what was written to
it, up to that width (`readLocation_writeLocation`). What becomes of an instruction is a relation with
one rule for each outcome, `RegisterFile.Executes`, so a proof about execution is a case analysis of
it. Main statements: `executes_execute`, execution follows the rules, `readLocation_perform`, a
destination that is as wide as the operation holds all of the result after it, and
`outcome_of_execute`, which instructions are executed, which are skipped for what reason, and that
no register changes when one is skipped.
-/

namespace I8086

variable {r : RegisterFile} {i : Instruction} {l : Location} {w : Width} {op : Mnemonic}
variable {x : Operand} {v : UInt16}

/-- The size of what a location holds. -/
def Location.width : Location → Width
  | .register x => x.width
  | .segment _ => .word

/-- What is within a mask stays if masked again. -/
@[simp] lemma and_mask_and_mask (v : UInt16) (w : Width) :
    v &&& w.mask &&& w.mask = v &&& w.mask := by
  rw [UInt16.and_assoc, UInt16.and_self]

@[simp] lemma and_mask_word (v : UInt16) : v &&& Width.word.mask = v :=
  UInt16.and_neg_one

/-- The size of a part of a cell. -/
def Slot.width : Slot → Width
  | .low _ | .high _ => .byte
  | .word _ => .word

@[simp] lemma width_slot (x : Register) : x.slot.width = x.width := by
  cases x <;> rfl

/-- The high byte of a cell is a byte. -/
lemma shiftRight_and_byte (c : UInt16) :
    c >>> (8 : UInt16) &&& Width.byte.mask = c >>> (8 : UInt16) := by
  apply UInt16.eq_of_toBitVec_eq
  ext k hk
  interval_cases k <;> simp [Width.mask]

/-- The low byte that was put into a cell is in it. -/
lemma low_of_or_low (c v : UInt16) :
    ((c &&& 0xFF00) ||| (v &&& 0x00FF)) &&& 0x00FF = v &&& Width.byte.mask := by
  apply UInt16.eq_of_toBitVec_eq
  ext k hk
  interval_cases k <;> simp [Width.mask]

/-- The high byte that was put into a cell is in it. -/
lemma high_of_or_high (c v : UInt16) :
    ((c &&& 0x00FF) ||| (v <<< (8 : UInt16))) >>> (8 : UInt16) = v &&& Width.byte.mask := by
  apply UInt16.eq_of_toBitVec_eq
  ext k hk
  interval_cases k <;> simp [Width.mask]

namespace RegisterFile

lemma readSlot_and_mask (r : RegisterFile) (s : Slot) :
    r.readSlot s &&& s.width.mask = r.readSlot s := by
  cases s with
  | low cell => exact and_mask_and_mask r.cells[cell] .byte
  | high cell => exact shiftRight_and_byte r.cells[cell]
  | word cell => exact and_mask_word r.cells[cell]

lemma readSlot_writeSlot (r : RegisterFile) (s : Slot) (v : UInt16) :
    (r.writeSlot s v).readSlot s = v &&& s.width.mask := by
  cases s with
  | low cell =>
    simp only [writeSlot, readSlot, Fin.getElem_fin, Vector.getElem_set_self]
    exact low_of_or_low r.cells[cell] v
  | high cell =>
    simp only [writeSlot, readSlot, Fin.getElem_fin, Vector.getElem_set_self]
    exact high_of_or_high r.cells[cell] v
  | word cell =>
    simp only [writeSlot, readSlot, Fin.getElem_fin, Vector.getElem_set_self]
    exact (and_mask_word v).symm

/-- A location holds what fits its width. -/
lemma readLocation_and_mask (r : RegisterFile) (l : Location) :
    r.readLocation l &&& l.width.mask = r.readLocation l := by
  cases l with
  | register x =>
    have h := r.readSlot_and_mask x.slot
    rwa [width_slot] at h
  | segment s => exact and_mask_word (r.readSegment s)

/-- A location gives back what was written to it, up to its width. -/
lemma readLocation_writeLocation (r : RegisterFile) (l : Location) (v : UInt16) :
    (r.writeLocation l v).readLocation l = v &&& l.width.mask := by
  cases l with
  | register x =>
    have h := r.readSlot_writeSlot x.slot v
    rwa [width_slot] at h
  | segment s =>
    simp only [writeLocation, readLocation, writeSegment, readSegment, Fin.getElem_fin,
      Vector.getElem_set_self]
    exact (and_mask_word v).symm

@[simp] lemma readLocation_replaceFlags (r : RegisterFile) (flags : Flags) (l : Location) :
    (r.replaceFlags flags).readLocation l = r.readLocation l := by
  cases l <;> rfl

end RegisterFile

/-- The operations that are executed. -/
def Mnemonic.IsExecuted (op : Mnemonic) : Prop :=
  op ∈ [Mnemonic.mov, .add, .sub, .cmp]

instance (op : Mnemonic) : Decidable op.IsExecuted :=
  inferInstanceAs (Decidable (op ∈ _))

lemma Mnemonic.isExecuted_iff {op : Mnemonic} :
    op.IsExecuted ↔ op = .mov ∨ op = .add ∨ op = .sub ∨ op = .cmp := by
  simp [Mnemonic.IsExecuted]

/-- The location that an instruction works on. Only a move goes to a segment register. -/
def Instruction.destination? (i : Instruction) : Option Location :=
  match i.first.bind (Operand.location? i.width) with
  | some (.segment s) => if i.op = .mov then some (.segment s) else none
  | l => l

/-- The operands that are the destination of an operation that is executed. -/
def Operand.isDestination (op : Mnemonic) : Operand → Bool
  | .register _ | .accumulator => true
  | .segment _ => op = .mov
  | _ => false

/-- The operands that are the source of an operation that is executed. -/
def Operand.isSource : Operand → Bool
  | .immediate _ | .register _ | .accumulator | .segment _ => true
  | _ => false

/-- An instruction has a location to work on if its first operand is a destination. -/
lemma Instruction.isSome_destination? (i : Instruction) :
    i.destination?.isSome = i.first.any (Operand.isDestination i.op) := by
  unfold Instruction.destination?
  cases i.first with
  | none => rfl
  | some x => cases x with
    | segment s =>
      unfold Operand.location? Operand.isDestination
      by_cases hop : i.op = .mov <;> simp [hop]
    | _ => rfl

/-- An instruction works on the location of its first operand if this is a destination. -/
lemma Instruction.destination?_eq_some_iff : i.destination? = some l ↔
    ∃ x, i.first = some x ∧ x.isDestination i.op ∧ x.location? i.width = some l := by
  unfold Instruction.destination?
  cases i.first with
  | none => simp
  | some x =>
    simp only [Option.bind_some, Option.some.injEq, exists_eq_left']
    cases x with
    | segment s =>
      unfold Operand.location? Operand.isDestination
      by_cases hop : i.op = .mov <;> simp [hop]
    | accumulator | register => exact (and_iff_right rfl).symm
    | label | immediate | memory | far => exact iff_of_false nofun nofun

/-- What an operation leaves in its destination, given what both operands hold. -/
def Mnemonic.result (op : Mnemonic) (w : Width) (a b : UInt16) : UInt16 :=
  match op with
  | .mov => b
  | .add => (Arithmetic.add w a b).value
  | .sub => (Arithmetic.sub w a b).value
  | _ => a

namespace RegisterFile

/-- The value that an instruction works with. -/
def source? (r : RegisterFile) (i : Instruction) : Option UInt16 :=
  i.second.bind (r.sourceValue? i.width)

/-- An instruction has a value to work with if its second operand is a source. -/
lemma isSome_source? (r : RegisterFile) (i : Instruction) :
    (r.source? i).isSome = i.second.any Operand.isSource := by
  unfold source?
  cases i.second with
  | none => rfl
  | some x => cases x <;> rfl

/-- The file after an operation on a location with a value. -/
def perform (r : RegisterFile) (op : Mnemonic) (w : Width) (l : Location) (v : UInt16) :
    RegisterFile :=
  let a := r.readLocation l &&& w.mask
  let sum := Arithmetic.add w a v
  let difference := Arithmetic.sub w a v
  match op with
  | .mov => r.writeLocation l v
  | .add => (r.replaceFlags (sum.flags w r.flags)).writeLocation l sum.value
  | .sub => (r.replaceFlags (difference.flags w r.flags)).writeLocation l difference.value
  | .cmp => r.replaceFlags (difference.flags w r.flags)
  | _ => r

/-- What becomes of an instruction: it is skipped for its operation or for an operand, or its
operation is performed. -/
inductive Executes (r : RegisterFile) (i : Instruction) : Outcome × RegisterFile → Prop where
  | opcode (hop : ¬ i.op.IsExecuted) : Executes r i (.skipped .opcode, r)
  | operand (hop : i.op.IsExecuted) (hn : i.destination? = none ∨ r.source? i = none) :
      Executes r i (.skipped .operand, r)
  | performed {l : Location} {v : UInt16} (hop : i.op.IsExecuted) (hl : i.destination? = some l)
      (hv : r.source? i = some v) : Executes r i (.executed, r.perform i.op i.width l v)

lemma executes_move (r : RegisterFile) (hop : i.op = .mov) : r.Executes i (r.move i) := by
  have hx : i.op.IsExecuted := hop ▸ by decide
  have hp : ∀ l v, r.writeLocation l v = r.perform i.op i.width l v := fun l v => hop ▸ rfl
  unfold move
  cases hl : i.first.bind (Operand.location? i.width) with
  | none => exact .operand hx (.inl (by rw [Instruction.destination?, hl]))
  | some l =>
    have hd : i.destination? = some l := by
      rw [Instruction.destination?, hl, hop]
      cases l <;> rfl
    cases hv : i.second.bind (r.sourceValue? i.width) with
    | none => exact .operand hx (.inr hv)
    | some v =>
      simp only [hp]
      exact .performed hx hd hv

/-- An arithmetic operation follows the rules if what it is performed as is what `combine` does. -/
lemma executes_combine {f : Width → UInt16 → UInt16 → Arithmetic} {keep : Bool}
    (hx : i.op.IsExecuted) (hop : i.op ≠ .mov)
    (hp : ∀ x v, r.perform i.op i.width (.register x) v =
      let result := f i.width (r.read x &&& i.width.mask) v
      let r' := r.replaceFlags (result.flags i.width r.flags)
      if keep then r'.write x result.value else r') :
    r.Executes i (r.combine i f keep) := by
  unfold combine
  cases hl : i.first.bind (Operand.location? i.width) with
  | none => exact .operand hx (.inl (by rw [Instruction.destination?, hl]))
  | some l => cases l with
    | segment s => exact .operand hx (.inl (by rw [Instruction.destination?, hl]; exact if_neg hop))
    | register x =>
      have hd : i.destination? = some (.register x) := by rw [Instruction.destination?, hl]
      cases hv : i.second.bind (r.sourceValue? i.width) with
      | none => exact .operand hx (.inr hv)
      | some v =>
        simp only [← hp]
        exact .performed hx hd hv

/-- Execution follows the rules. -/
theorem executes_execute (r : RegisterFile) (i : Instruction) : r.Executes i (r.execute i) := by
  unfold execute
  split
  · next hop => exact r.executes_move hop
  · next hop => exact executes_combine (hop ▸ by decide) (hop ▸ by decide) fun _ _ => hop ▸ rfl
  · next hop => exact executes_combine (hop ▸ by decide) (hop ▸ by decide) fun _ _ => hop ▸ rfl
  · next hop => exact executes_combine (hop ▸ by decide) (hop ▸ by decide) fun _ _ => hop ▸ rfl
  · next h1 h2 h3 h4 =>
    refine .opcode fun hop => ?_
    obtain h | h | h | h := Mnemonic.isExecuted_iff.1 hop
    · exact h1 h
    · exact h2 h
    · exact h3 h
    · exact h4 h

/-- The rules leave one outcome. -/
lemma Executes.unique {out out' : Outcome × RegisterFile} (h : r.Executes i out)
    (h' : r.Executes i out') : out = out' := by
  cases h with
  | opcode hop => cases h' with
    | opcode => rfl
    | operand hop' | performed hop' => exact (hop hop').elim
  | operand hop hn => cases h' with
    | opcode hop' => exact (hop' hop).elim
    | operand => rfl
    | performed _ hl hv => obtain hn | hn := hn <;> simp_all
  | performed hop hl hv => cases h' with
    | opcode hop' => exact (hop' hop).elim
    | operand _ hn => obtain hn | hn := hn <;> simp_all
    | performed _ hl' hv' =>
      cases hl.symm.trans hl'
      cases hv.symm.trans hv'
      rfl

/-- What the rules say is what becomes of an instruction. -/
lemma Executes.execute_eq {out : Outcome × RegisterFile} (h : r.Executes i out) :
    r.execute i = out :=
  (r.executes_execute i).unique h

/-- What is executed is an operation on a location with a value. -/
lemma exists_perform_of_executed (h : (r.execute i).1 = .executed) :
    ∃ l v, i.op.IsExecuted ∧ i.destination? = some l ∧ r.source? i = some v ∧
      r.execute i = (.executed, r.perform i.op i.width l v) := by
  have he := r.executes_execute i
  generalize r.execute i = out at he h
  cases he with
  | opcode | operand => cases h
  | performed hop hl hv => exact ⟨_, _, hop, hl, hv, rfl⟩

/-- An instruction that is skipped leaves the registers as they were. -/
lemma execute_of_skipped (h : (r.execute i).1 ≠ .executed) : (r.execute i).2 = r := by
  have he := r.executes_execute i
  generalize r.execute i = out at he h
  cases he with
  | opcode | operand => rfl
  | performed => exact (h rfl).elim

/-- An instruction is skipped for its operation if that is not one that is executed. -/
lemma execute_eq_skipped_opcode_iff (r : RegisterFile) (i : Instruction) :
    (r.execute i).1 = .skipped .opcode ↔ ¬ i.op.IsExecuted := by
  have h := r.executes_execute i
  generalize r.execute i = out at h
  cases h with
  | opcode hop => exact iff_of_true rfl hop
  | operand hop hn => exact iff_of_false nofun fun h => h hop
  | performed hop hl hv => exact iff_of_false nofun fun h => h hop

/-- An instruction is executed if its operation is one that is, and it has a destination and a
source. -/
lemma execute_eq_executed_iff (r : RegisterFile) (i : Instruction) :
    (r.execute i).1 = .executed ↔ i.op.IsExecuted ∧ i.first.any (Operand.isDestination i.op) ∧
      i.second.any Operand.isSource := by
  rw [← i.isSome_destination?, ← r.isSome_source? i]
  have h := r.executes_execute i
  generalize r.execute i = out at h
  cases h with
  | opcode hop => exact iff_of_false nofun fun h => hop h.1
  | operand hop hn =>
    refine iff_of_false nofun fun ⟨_, hd, hs⟩ => ?_
    obtain hn | hn := hn
    · rw [hn] at hd
      cases hd
    · rw [hn] at hs
      cases hs
  | performed hop hl hv =>
    rw [hl, hv]
    exact iff_of_true rfl ⟨hop, rfl, rfl⟩

/-- Otherwise it is skipped for an operand. -/
lemma execute_eq_skipped_operand_iff (r : RegisterFile) (i : Instruction) :
    (r.execute i).1 = .skipped .operand ↔ i.op.IsExecuted ∧
      ¬ (i.first.any (Operand.isDestination i.op) ∧ i.second.any Operand.isSource) := by
  have hx := r.execute_eq_executed_iff i
  have ho := r.execute_eq_skipped_opcode_iff i
  cases hout : (r.execute i).1 with
  | executed =>
    rw [hout] at hx
    exact iff_of_false nofun fun h => h.2 (hx.1 rfl).2
  | skipped reason => cases reason with
    | opcode =>
      rw [hout] at ho
      exact iff_of_false nofun fun h => ho.1 rfl h.1
    | operand =>
      rw [hout] at hx ho
      have hop := not_not.1 fun h => SkipReason.noConfusion (Outcome.skipped.inj (ho.2 h))
      exact iff_of_true rfl ⟨hop, fun h => Outcome.noConfusion (hx.2 ⟨hop, h⟩)⟩

/-- Which outcome an instruction has depends on its operation and on the kinds of its operands
alone, and only an instruction that is executed changes the registers. -/
theorem outcome_of_execute (r : RegisterFile) (i : Instruction) :
    ((r.execute i).1 = .skipped .opcode ↔ ¬ i.op.IsExecuted) ∧
    ((r.execute i).1 = .executed ↔ i.op.IsExecuted ∧
      i.first.any (Operand.isDestination i.op) ∧ i.second.any Operand.isSource) ∧
    ((r.execute i).1 = .skipped .operand ↔ i.op.IsExecuted ∧
      ¬ (i.first.any (Operand.isDestination i.op) ∧ i.second.any Operand.isSource)) ∧
    ∀ reason, (r.execute i).1 = .skipped reason → (r.execute i).2 = r := by
  refine ⟨r.execute_eq_skipped_opcode_iff i, r.execute_eq_executed_iff i,
    r.execute_eq_skipped_operand_iff i, fun reason h => ?_⟩
  apply execute_of_skipped
  rw [h]
  exact nofun

/-- A comparison of a segment register is skipped for this operand, before its flags are written. -/
theorem outcome_of_execute_segment :
    let r : RegisterFile := ⟨#v[1, 2, 3, 4, 5, 6, 7, 8], #v[9, 10, 11, 12], ⟨0xF02A⟩⟩
    let i : Instruction :=
      { name := "cmp", op := .cmp, first := some (.segment .ds), second := some .accumulator
        modifiers := { width := .word } }
    r.execute i = (.skipped .operand, r) := by
  intro r i
  obtain ⟨-, -, hs, hr⟩ := outcome_of_execute r i
  have ho : (r.execute i).1 = .skipped .operand := hs.2 ⟨by decide, by decide⟩
  exact Prod.ext ho (hr .operand ho)

/-- A source is within the operation width. -/
lemma source?_and_mask (hv : r.source? i = some v) : v &&& i.width.mask = v := by
  obtain ⟨x, -, hx⟩ := Option.bind_eq_some_iff.1 hv
  cases x with
  | immediate | accumulator | register | segment =>
    cases hx
    exact and_mask_and_mask _ _
  | label | memory | far => cases hx

/-- A location that is as wide as the operation holds the result after it. -/
theorem readLocation_perform (hop : op.IsExecuted) (hw : l.width = w) (hv : v &&& w.mask = v) :
    (r.perform op w l v).readLocation l = op.result w (r.readLocation l) v := by
  subst hw
  unfold perform Mnemonic.result
  rw [readLocation_and_mask]
  obtain rfl | rfl | rfl | rfl := Mnemonic.isExecuted_iff.1 hop
  · exact (readLocation_writeLocation r l v).trans hv
  · exact (readLocation_writeLocation _ l _).trans (and_mask_and_mask _ _)
  · exact (readLocation_writeLocation _ l _).trans (and_mask_and_mask _ _)
  · exact readLocation_replaceFlags r _ l

end RegisterFile

end I8086

import I8086.Proofs.Runs

/-!
# What a run leaves alone

A general cell is two bytes, and a register covers one or both of them. A write changes the bytes that
its register covers and a move to a segment register changes that one; the flags change with
arithmetic alone, and only the six that say something about its result. So a part of the registers
that is different after a run was changed by an instruction that was executed on it. Main statement:
`changes_of_run`.
-/

namespace I8086

variable {r : RegisterFile} {i : Instruction} {l : Location} {w : Width} {op : Mnemonic} {v : UInt16}
variable {cell : Fin 8} {s : SegmentRegister} {is : List Instruction}

/-- The flags that arithmetic sets. -/
def Flag.status : List Flag :=
  [.carry, .parity, .auxiliary, .zero, .sign, .overflow]

/-- The operations that set them. -/
def Mnemonic.IsArithmetic (op : Mnemonic) : Prop :=
  op ∈ [Mnemonic.add, .sub, .cmp]

instance (op : Mnemonic) : Decidable op.IsArithmetic :=
  inferInstanceAs (Decidable (op ∈ _))

/-- The operations that leave a result in their destination. -/
def Mnemonic.Writes (op : Mnemonic) : Prop :=
  op ∈ [Mnemonic.mov, .add, .sub]

instance (op : Mnemonic) : Decidable op.Writes :=
  inferInstanceAs (Decidable (op ∈ _))

/-- What arithmetic works out from its operands. A comparison works out the difference. -/
def Mnemonic.arithmetic (op : Mnemonic) (w : Width) (a b : UInt16) : Arithmetic :=
  match op with
  | .add => .add w a b
  | _ => .sub w a b

/-- The halves of a cell. -/
inductive Half where
  | low
  | high
  deriving DecidableEq

/-- The byte of a word in this half. -/
def Half.byte : Half → UInt16 → UInt8
  | .low, c => c.toUInt8
  | .high, c => (c >>> (8 : UInt16)).toUInt8

/-- A byte of a cell. -/
def RegisterFile.byte (r : RegisterFile) (cell : Fin 8) (half : Half) : UInt8 :=
  half.byte (r.readSlot (.word cell))

/-- The bytes that a slot consists of. -/
def Slot.Covers : Slot → Fin 8 → Half → Prop
  | .low c, cell, half => cell = c ∧ half = .low
  | .high c, cell, half => cell = c ∧ half = .high
  | .word c, cell, _ => cell = c

/-- The general register that an instruction has as its first operand; the accumulator is the one of
its width. -/
def Instruction.register? (i : Instruction) : Option Register :=
  match i.first with
  | some (.register x) => some x
  | some .accumulator => some (.accumulator i.width)
  | _ => none

lemma Instruction.register?_of_destination? {x : Register}
    (h : i.destination? = some (.register x)) : i.register? = some x := by
  obtain ⟨y, hy, -, hl⟩ := Instruction.destination?_eq_some_iff.1 h
  unfold Instruction.register?
  rw [hy]
  cases y with
  | register | accumulator =>
    cases hl
    rfl
  | segment | label | immediate | memory | far => cases hl

/-- Only a move works on a segment register. -/
lemma Instruction.first_of_destination? (h : i.destination? = some (.segment s)) :
    i.op = .mov ∧ i.first = some (.segment s) := by
  obtain ⟨y, hy, hd, hl⟩ := Instruction.destination?_eq_some_iff.1 h
  cases y with
  | segment =>
    cases hl
    exact ⟨of_decide_eq_true hd, hy⟩
  | label | immediate | accumulator | register | memory | far => cases hl

lemma SegmentRegister.field_injective : Function.Injective field :=
  Function.LeftInverse.injective ofField_field

/-- The high byte stays when a low one is put into a cell. -/
lemma high_of_or_low (c v : UInt16) :
    Half.high.byte ((c &&& 0xFF00) ||| (v &&& 0x00FF)) = Half.high.byte c := by
  apply UInt8.eq_of_toBitVec_eq
  ext k hk
  interval_cases k <;> simp [Half.byte]

/-- The low byte stays when a high one is put into a cell. -/
lemma low_of_or_high (c v : UInt16) :
    Half.low.byte ((c &&& 0x00FF) ||| (v <<< (8 : UInt16))) = Half.low.byte c := by
  apply UInt8.eq_of_toBitVec_eq
  ext k hk
  interval_cases k <;> simp [Half.byte]

namespace RegisterFile

lemma flags_writeSlot (r : RegisterFile) (slot : Slot) (v : UInt16) :
    (r.writeSlot slot v).flags = r.flags := by
  cases slot <;> rfl

lemma segments_writeSlot (r : RegisterFile) (slot : Slot) (v : UInt16) :
    (r.writeSlot slot v).segments = r.segments := by
  cases slot <;> rfl

lemma flags_writeLocation (r : RegisterFile) (l : Location) (v : UInt16) :
    (r.writeLocation l v).flags = r.flags := by
  cases l with
  | register x => exact r.flags_writeSlot x.slot v
  | segment => rfl

/-- A new word in a cell changes the bytes in which it differs. -/
lemma byte_writeSlot_word (r : RegisterFile) {c : Fin 8} {half : Half}
    (h : cell = c → half.byte v = r.byte cell half) :
    (r.writeSlot (.word c) v).byte cell half = r.byte cell half := by
  by_cases hc : cell = c
  · rw [← h hc, hc]
    exact congrArg half.byte (Vector.getElem_set_self c.isLt)
  · have hne : c.val ≠ cell.val := fun e => hc (Fin.ext e.symm)
    exact congrArg half.byte (Vector.getElem_set_ne c.isLt cell.isLt hne)

/-- Writing a slot leaves the bytes that it does not cover. -/
lemma byte_writeSlot (r : RegisterFile) {slot : Slot} {half : Half} (v : UInt16)
    (h : ¬ slot.Covers cell half) : (r.writeSlot slot v).byte cell half = r.byte cell half := by
  cases slot with
  | low c =>
    -- The cell gets a word with the same high byte.
    apply r.byte_writeSlot_word
    rintro rfl
    cases half with
    | low => exact (h ⟨rfl, rfl⟩).elim
    | high => exact high_of_or_low r.cells[cell] v
  | high c =>
    apply r.byte_writeSlot_word
    rintro rfl
    cases half with
    | low => exact low_of_or_high r.cells[cell] v
    | high => exact (h ⟨rfl, rfl⟩).elim
  | word c =>
    apply r.byte_writeSlot_word
    intro hc
    exact (h hc).elim

/-- A byte changes if a register is written that covers it. -/
lemma byte_writeLocation {half : Half}
    (h : (r.writeLocation l v).byte cell half ≠ r.byte cell half) :
    ∃ x, l = .register x ∧ x.slot.Covers cell half := by
  cases l with
  | register x =>
    refine ⟨x, rfl, ?_⟩
    by_contra hc
    exact h (r.byte_writeSlot v hc)
  | segment => exact (h rfl).elim

lemma readSegment_writeLocation (h : (r.writeLocation l v).readSegment s ≠ r.readSegment s) :
    l = .segment s := by
  cases l with
  | register x =>
    have hs := r.segments_writeSlot x.slot v
    exact (h (congrArg (fun words : Vector UInt16 4 => words[s.field]) hs)).elim
  | segment t =>
    by_contra hts
    apply h
    have hf : t.field.val ≠ s.field.val := fun e => hts
      (congrArg Location.segment (SegmentRegister.field_injective (Fin.ext e)))
    exact Vector.getElem_set_ne t.field.isLt s.field.isLt hf

/-- Performing an operation sets the flags and may write its location. -/
lemma perform_eq (r : RegisterFile) (hop : op.IsExecuted) (w : Width) (l : Location) (v : UInt16) :
    ∃ flags, r.perform op w l v = r.replaceFlags flags ∨
      op.Writes ∧ ∃ value, r.perform op w l v = (r.replaceFlags flags).writeLocation l value := by
  obtain rfl | rfl | rfl | rfl := Mnemonic.isExecuted_iff.1 hop
  · exact ⟨r.flags, .inr ⟨by decide, _, rfl⟩⟩
  · exact ⟨_, .inr ⟨by decide, _, rfl⟩⟩
  · exact ⟨_, .inr ⟨by decide, _, rfl⟩⟩
  · exact ⟨_, .inl rfl⟩

/-- Arithmetic sets the flags from its operands. -/
lemma flags_perform (h : op.IsArithmetic) :
    (r.perform op w l v).flags =
      (op.arithmetic w (r.readLocation l &&& w.mask) v).flags w r.flags := by
  simp only [Mnemonic.IsArithmetic, List.mem_cons, List.not_mem_nil, or_false] at h
  obtain rfl | rfl | rfl := h
  · exact flags_writeLocation _ l _
  · exact flags_writeLocation _ l _
  · rfl

lemma flags_perform_of_not (hop : op.IsExecuted) (h : ¬ op.IsArithmetic) :
    (r.perform op w l v).flags = r.flags := by
  obtain rfl | rfl | rfl | rfl := Mnemonic.isExecuted_iff.1 hop
  · exact flags_writeLocation r l v
  all_goals exact (h (by decide)).elim

end RegisterFile

/-- Arithmetic leaves the bits of the flags word that say nothing about its result. -/
lemma Arithmetic.testBit_flags (x : Arithmetic) (w : Width) (old : Flags) {k : Nat} (hk : k < 16)
    (h : ∀ y ∈ Flag.status, k ≠ y.position) :
    (x.flags w old).bits.toNat.testBit k = old.bits.toNat.testBit k := by
  have hset (f : Flags) {y : Flag} (value : Bool) (hy : y ∈ Flag.status) :
      (f.set y value).bits.toNat.testBit k = f.bits.toNat.testBit k := by
    rw [Flags.testBit_set f y value k hk, if_neg (h y hy)]
  unfold Arithmetic.flags
  rw [hset, hset, hset, hset, hset, hset]
  all_goals decide

namespace RunStep

variable {t : RunStep}

/-- A step that executes its instruction performs its operation. -/
lemma exists_perform (hx : t.executed) :
    ∃ l v, t.instruction.op.IsExecuted ∧ t.instruction.destination? = some l ∧
      t.before.source? t.instruction = some v ∧
      t.after = t.before.perform t.instruction.op t.instruction.width l v := by
  obtain ⟨l, v, hop, hl, hv, he⟩ := RegisterFile.exists_perform_of_executed (executed_iff.1 hx)
  exact ⟨l, v, hop, hl, hv, congrArg Prod.snd he⟩

/-- The registers after a step differ from those before it in the flags and in a location that its
instruction writes. -/
lemma after_eq (hx : t.executed) : ∃ flags, t.after = t.before.replaceFlags flags ∨
    t.instruction.op.Writes ∧ ∃ l value, t.instruction.destination? = some l ∧
      t.after = (t.before.replaceFlags flags).writeLocation l value := by
  obtain ⟨l, v, hop, hl, -, he⟩ := exists_perform hx
  obtain ⟨flags, hp | ⟨hw, value, hp⟩⟩ := t.before.perform_eq hop t.instruction.width l v
  · exact ⟨flags, .inl (he.trans hp)⟩
  · exact ⟨flags, .inr ⟨hw, l, value, hl, he.trans hp⟩⟩

/-- A byte changes if the instruction writes a register that covers it. -/
lemma covers_of_byte_ne {half : Half} (hx : t.executed)
    (h : t.after.byte cell half ≠ t.before.byte cell half) : t.instruction.op.Writes ∧
      ∃ x, t.instruction.register? = some x ∧ x.slot.Covers cell half := by
  obtain ⟨flags, he | ⟨hw, l, value, hl, he⟩⟩ := after_eq hx
  · rw [he] at h
    exact (h rfl).elim
  · rw [he] at h
    obtain ⟨x, rfl, hc⟩ := RegisterFile.byte_writeLocation h
    exact ⟨hw, x, Instruction.register?_of_destination? hl, hc⟩

lemma first_of_readSegment_ne (hx : t.executed)
    (h : t.after.readSegment s ≠ t.before.readSegment s) :
    t.instruction.op = .mov ∧ t.instruction.first = some (.segment s) := by
  obtain ⟨flags, he | ⟨hw, l, value, hl, he⟩⟩ := after_eq hx
  · rw [he] at h
    exact (h rfl).elim
  · rw [he] at h
    cases RegisterFile.readSegment_writeLocation h
    exact Instruction.first_of_destination? hl

/-- The flags stay unless arithmetic is executed. -/
lemma flags_after (h : t.executed → ¬ t.instruction.op.IsArithmetic) :
    t.after.flags = t.before.flags := by
  by_cases hx : t.executed
  · obtain ⟨l, v, hop, -, -, he⟩ := exists_perform hx
    rw [he]
    exact RegisterFile.flags_perform_of_not hop (h hx)
  · rw [after_eq_before hx]

/-- The flags that say nothing about a result always stay. -/
lemma testBit_flags_after (t : RunStep) {k : Nat} (hk : k < 16)
    (h : ∀ y ∈ Flag.status, k ≠ y.position) :
    t.after.flags.bits.toNat.testBit k = t.before.flags.bits.toNat.testBit k := by
  by_cases ha : t.executed ∧ t.instruction.op.IsArithmetic
  · obtain ⟨l, v, -, -, -, he⟩ := exists_perform ha.1
    rw [he, RegisterFile.flags_perform ha.2]
    exact Arithmetic.testBit_flags _ _ _ hk h
  · rw [flags_after fun hx hop => ha ⟨hx, hop⟩]

end RunStep

namespace RegisterFile

lemma testBit_flags_after (r : RegisterFile) (is : List Instruction) {k : Nat} (hk : k < 16)
    (h : ∀ y ∈ Flag.status, k ≠ y.position) :
    (r.after is).flags.bits.toNat.testBit k = r.flags.bits.toNat.testBit k := by
  by_contra hne
  obtain ⟨t, -, -, ht⟩ := exists_step_of_after_ne (fun r => r.flags.bits.toNat.testBit k) hne
  exact ht (t.testBit_flags_after hk h)

/-- What is different after a run was changed by an instruction that it executes. -/
lemma exists_executesAt_of_ne {α : Type} (f : RegisterFile → α) {is : Array Instruction}
    (h : f (r.run is).registers ≠ f r) : ∃ k, ∃ t : RunStep,
      r.ExecutesAt is k t.instruction ∧ t.executed ∧ f t.after ≠ f t.before := by
  rw [registers_run] at h
  obtain ⟨t, ht, hx, hf⟩ := exists_step_of_after_ne f h
  obtain ⟨k, hk⟩ := List.mem_iff_getElem?.1 ht
  exact ⟨k, t, executesAt_iff.2 ⟨t, hk, rfl, hx⟩, hx, hf⟩

end RegisterFile

/-- A run leaves every flag but the six that arithmetic sets, and the whole flags word if it executes
no arithmetic. A segment register that is different after it was the first operand of a move that it
executes. A byte of a general cell that is different after it is covered by a register that was the
first operand of a move, an addition or a subtraction that it executes. -/
theorem changes_of_run (r : RegisterFile) (is : Array Instruction) :
    (∀ k < 16, (∀ x ∈ Flag.status, k ≠ x.position) →
      (r.run is).registers.flags.bits.toNat.testBit k = r.flags.bits.toNat.testBit k) ∧
    ((∀ k i, r.ExecutesAt is k i → ¬ i.op.IsArithmetic) →
      (r.run is).registers.flags = r.flags) ∧
    (∀ s, (r.run is).registers.readSegment s ≠ r.readSegment s →
      ∃ k i, r.ExecutesAt is k i ∧ i.op = .mov ∧ i.first = some (.segment s)) ∧
    ∀ cell half, (r.run is).registers.byte cell half ≠ r.byte cell half →
      ∃ k i, r.ExecutesAt is k i ∧ i.op.Writes ∧
        ∃ x, i.register? = some x ∧ x.slot.Covers cell half := by
  refine ⟨fun k hk h => ?_, fun hn => ?_, fun s hs => ?_, fun cell half hc => ?_⟩
  · rw [r.registers_run]
    exact r.testBit_flags_after is.toList hk h
  · by_contra hf
    obtain ⟨k, t, hk, -, ht⟩ := RegisterFile.exists_executesAt_of_ne RegisterFile.flags hf
    exact ht (t.flags_after fun _ => hn k t.instruction hk)
  · obtain ⟨k, t, hk, hx, ht⟩ := RegisterFile.exists_executesAt_of_ne (·.readSegment s) hs
    exact ⟨k, t.instruction, hk, t.first_of_readSegment_ne hx ht⟩
  · obtain ⟨k, t, hk, hx, ht⟩ := RegisterFile.exists_executesAt_of_ne (·.byte cell half) hc
    exact ⟨k, t.instruction, hk, t.covers_of_byte_ne hx ht⟩

end I8086

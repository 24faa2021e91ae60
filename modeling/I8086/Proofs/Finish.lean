import I8086.Proofs.Chunks
import I8086.Proofs.Encoder

/-!
# Fields under modifying bytes

A finished instruction is its fields with the override and the flags that the modifying bytes give
it (`Pending.finish`). As one operand at most is in memory, the override of a finished instruction is
known from it, so it needs to be said only once: `apply_of_tell`, the modifying bytes of an
instruction and fields that leave out the override give the instruction back.
-/

namespace I8086

open Reader

variable {w : Width} {x y : Operand} {q : Pending} {opcode : UInt8} {bs : List UInt8}
variable {form : Form} {f : Fields} {d : Descriptor} {i : Instruction}

/-- One of two operands at most is in memory. -/
def OneMemory (x y : Option Operand) : Prop :=
  ∀ a ∈ x, ∀ b ∈ y, a.isMemory → ¬ b.isMemory

/-- No two operands are in memory if the first is not. -/
lemma oneMemory_left {y : Option Operand} (hx : ¬ x.isMemory) : OneMemory (some x) y := by
  intro a ha b _ hm
  cases ha
  exact (hx hm).elim

/-- No two operands are in memory if the second is not. -/
lemma oneMemory_right {x : Option Operand} (hy : ¬ y.isMemory) : OneMemory x (some y) := by
  intro a _ b hb _
  cases hb
  exact hy

/-- A single operand is one at most. -/
lemma oneMemory_none {x : Option Operand} : OneMemory x none := by
  intro a _ b hb
  cases hb

/-- No two operands are in memory if none is that does not come from one that is. -/
lemma OneMemory.of_isMemory {x y x' y' : Option Operand} (h : OneMemory x y)
    (hx : ∀ a ∈ x', ∃ b ∈ x, a.isMemory = b.isMemory)
    (hy : ∀ a ∈ y', ∃ b ∈ y, a.isMemory = b.isMemory) : OneMemory x' y' := by
  intro a ha b hb hm
  obtain ⟨a', ha', ea⟩ := hx a ha
  obtain ⟨b', hb', eb⟩ := hy b hb
  rw [ea] at hm
  rw [eb]
  exact h a' ha' b' hb' hm

/-- In either order one of two operands is in memory at most. -/
lemma oneMemory_directed (hy : ¬ y.isMemory) :
    OneMemory (Fields.directed opcode x y w).first (Fields.directed opcode x y w).second := by
  unfold Fields.directed
  split
  · exact oneMemory_left hy
  · exact oneMemory_right hy

/-- One operand of an instruction is in memory at most. -/
lemma FieldBytes.oneMemory (h : FieldBytes opcode form bs f) : OneMemory f.first f.second := by
  cases h with
  | rmRegister | rmSegment => exact oneMemory_directed Bool.false_ne_true
  | fixedPort | variablePort => exact oneMemory_directed Bool.false_ne_true
  | rmImmediate | rmSignedByte | rmOne | rmCount | memoryAccumulator | accumulatorImmediate
  | registerImmediate | accumulatorRegister => exact oneMemory_right Bool.false_ne_true
  | accumulatorMemory | registerMemory | escape => exact oneMemory_left Bool.false_ne_true
  | _ => exact oneMemory_none

namespace Pending

/-- An operand as the modifying bytes change it. -/
def operand (q : Pending) : Operand → Operand
  | .memory a s => .memory a (q.segment.or s)
  | x => x

/-- Without an override the modifying bytes change no operand. -/
lemma operand_of_none (hq : q.segment = none) (x : Operand) : q.operand x = x := by
  cases x with
  | memory a s =>
    unfold operand
    rw [hq]
    rfl
  | _ => rfl

/-- An overridden operand can be named by a mod-r/m byte as before. -/
lemma rmOperand_operand (hx : RmOperand w x) : RmOperand w (q.operand x) := by
  cases hx with
  | register r hr => exact .register r hr
  | direct address s hs => exact .direct address _ fun h => hs (Option.or_eq_none_iff.1 h).2
  | based base d s hs => exact .based base d _ fun h => hs (Option.or_eq_none_iff.1 h).2

/-- The modifying bytes move no operand into memory or out of it. -/
lemma isMemory_map_operand {x : Option Operand} :
    ∀ a ∈ x.map q.operand, ∃ b ∈ x, a.isMemory = b.isMemory := by
  intro a ha
  obtain ⟨b, hb, rfl⟩ := Option.map_eq_some_iff.1 ha
  exact ⟨b, hb, by cases b <;> rfl⟩

/-- The instruction that fields become under modifying bytes. -/
def finish (q : Pending) (d : Descriptor) (f : Fields) : Instruction where
  name := d.name
  op := d.op
  form := d.form
  first := f.first.map q.operand
  second := f.second.map q.operand
  modifiers :=
    { width := f.width, locked := q.locked, repeated := q.repeated, stringOp := f.stringOp,
      far := f.far }

/-- If no two operands are in memory, the modifying bytes change each for itself. -/
lemma apply_instruction (hf : OneMemory f.first f.second) :
    q.apply (d.instruction f) = q.finish d f := by
  obtain ⟨first, second, width, stringOp, far⟩ := f
  obtain ⟨segment, locked, repeated⟩ := q
  cases segment with
  | none =>
    have hid : operand ⟨none, locked, repeated⟩ = id := funext (operand_of_none rfl)
    unfold finish
    rw [hid, Option.map_id_fun]
    rfl
  | some s =>
    -- The override goes to the first operand in memory, so both must not be.
    cases first with
    | none => cases second with
      | none => rfl
      | some y => cases y <;> rfl
    | some x =>
      cases second with
      | none => cases x <;> rfl
      | some y =>
        by_cases hx : x.isMemory
        · have hy := hf x rfl y rfl hx
          cases x with
          | memory => cases y with
            | memory => exact (hy rfl).elim
            | _ => rfl
          | _ => cases hx
        · cases x with
          | memory => exact (hx rfl).elim
          | _ => cases y <;> rfl

end Pending

/-- The modifying bytes of an instruction say what it says. -/
lemma ofBytes_modifierBytes (i : Instruction) :
    Pending.ofBytes i.modifierBytes = ⟨i.segment?, i.modifiers.locked, i.modifiers.repeated⟩ := by
  unfold Instruction.modifierBytes
  generalize i.segment? = s
  generalize i.modifiers.locked = locked
  generalize i.modifiers.repeated = repeated
  cases s with
  | none => cases locked <;> cases repeated <;> rfl
  | some s => cases locked <;> cases repeated <;> cases s <;> rfl

/-- The modifying bytes of an instruction modify. -/
lemma isModifier_of_mem_modifierBytes {b : UInt8} (h : b ∈ i.modifierBytes) : IsModifier b := by
  unfold Instruction.modifierBytes at h
  obtain h | h := List.mem_append.1 h
  · obtain h | h := List.mem_append.1 h
    · split at h
      · rw [List.mem_singleton.1 h]
        decide
      · cases h
    · split at h
      · rw [List.mem_singleton.1 h]
        decide
      · cases h
  · cases hs : i.segment? with
    | none =>
      rw [hs] at h
      cases h
    | some s =>
      rw [hs] at h
      rw [List.mem_singleton.1 h]
      cases s <;> decide

/-- Only memory operands have an override. -/
lemma segment?_of_not_memory (hx : ¬ x.isMemory) : x.segment? = none := by
  cases x with
  | memory => exact (hx rfl).elim
  | _ => rfl

/-- The override of an instruction is that of its operand in memory. -/
lemma segment?_of_memory {a : Address} {s : Option SegmentRegister}
    (hi : OneMemory i.first i.second) (hx : .memory a s ∈ i.operands) : i.segment? = s := by
  obtain ⟨name, op, form, first, second, modifiers⟩ := i
  unfold Instruction.segment? Instruction.operands
  obtain hx | hx := List.mem_append.1 hx
  · obtain rfl := Option.mem_toList.1 hx
    cases s with
    | some s => rfl
    | none => cases second with
      | none => rfl
      | some y =>
        have hy := segment?_of_not_memory (hi _ rfl y rfl rfl)
        show List.findSome? Operand.segment? [.memory a none, y] = none
        rw [List.findSome?_cons, List.findSome?_cons, hy]
        rfl
  · obtain rfl := Option.mem_toList.1 hx
    cases first with
    | none => cases s <;> rfl
    | some x =>
      have hm : ¬ x.isMemory := fun hm => hi x rfl _ rfl hm rfl
      have hx := segment?_of_not_memory hm
      show List.findSome? Operand.segment? [x, .memory a s] = s
      rw [List.findSome?_cons, hx]
      cases s <;> rfl

/-- An operand without its override. -/
def Operand.strip : Operand → Operand
  | .memory a _ => .memory a none
  | x => x

/-- A displacement has the override of its operand before it, or none. -/
lemma inlineSegment_eq (s : Option SegmentRegister) (n : UInt16) :
    inlineSegment s n = s ∨ inlineSegment s n = none := by
  unfold inlineSegment
  split
  · exact .inr rfl
  · exact .inl rfl

/-- Of an operand the encoded bytes say all, or all but the override. -/
lemma Operand.inlined_eq (x : Operand) : x.inlined = x ∨ x.inlined = x.strip := by
  cases x with
  | memory a s =>
    cases a with
    | based base d => exact (inlineSegment_eq s d.toUInt16).imp (congrArg _) (congrArg _)
    | direct address => exact (inlineSegment_eq s address).imp (congrArg _) (congrArg _)
  | _ => exact .inl rfl

/-- The override of an operand gives it back when it was left out. -/
lemma Pending.operand_of_strip (hx : ∀ a s, x = .memory a s → q.segment = s)
    (hy : y = x ∨ y = x.strip) : q.operand y = x := by
  cases x with
  | memory a s =>
    have hs := hx a s rfl
    obtain rfl | rfl := hy
    · rw [operand, hs, Option.or_self]
    · rw [Operand.strip, operand, hs, Option.or_none]
  | _ => obtain rfl | rfl := hy <;> rfl

/-- An operand told by another, which may leave out the override. -/
def TellsOperand (y x : Option Operand) : Prop :=
  y = x ∨ y = x.map Operand.strip

/-- What fields say of an instruction: everything but overrides, which they may leave out. -/
structure Fields.Tells (f : Fields) (i : Instruction) : Prop where
  /-- The first operand. -/
  first : TellsOperand f.first i.first
  /-- The second operand. -/
  second : TellsOperand f.second i.second
  /-- The width. -/
  width : f.width = i.modifiers.width
  /-- Whether it is a string operation. -/
  stringOp : f.stringOp = i.modifiers.stringOp
  /-- Whether an operand is a far pointer. -/
  far : f.far = i.modifiers.far

/-- Leaving out the override does not change whether an operand is in memory. -/
lemma Operand.isMemory_strip (x : Operand) : x.strip.isMemory = x.isMemory := by
  cases x <;> rfl

/-- The override gives back an operand of which it was left out, if there is one. -/
lemma Pending.map_operand_of_tells {x y : Option Operand}
    (hx : ∀ a s, .memory a s ∈ x → q.segment = s) (hy : TellsOperand y x) : y.map q.operand = x := by
  cases x with
  | none => obtain rfl | rfl := hy <;> rfl
  | some x =>
    have hx' : ∀ a s, x = .memory a s → q.segment = s := fun a s e => hx a s (by rw [e]; rfl)
    obtain rfl | rfl := hy
    · exact congrArg some (Pending.operand_of_strip hx' (.inl rfl))
    · exact congrArg some (Pending.operand_of_strip hx' (.inr rfl))

/-- An operand and one that tells it are both in memory or both not. -/
lemma TellsOperand.isMemory {x y : Option Operand} (h : TellsOperand y x) :
    ∀ a ∈ y, ∃ b ∈ x, a.isMemory = b.isMemory := by
  intro a ha
  obtain rfl | rfl := h
  · exact ⟨a, ha, rfl⟩
  · obtain ⟨b, hb, rfl⟩ := Option.map_eq_some_iff.1 ha
    exact ⟨b, hb, b.isMemory_strip⟩

/-- The encoded operand tells the operand. -/
lemma tells_inlined (x : Operand) : TellsOperand (some x.inlined) (some x) :=
  x.inlined_eq.imp (congrArg some) (congrArg some)

/-- A memory operand without an override is told whatever the modifying bytes made of it. -/
lemma tells_memory (a : Address) :
    TellsOperand (some (.memory a none)) (some (q.operand (.memory a none))) :=
  .inr rfl

/-- The modifying bytes of an instruction and fields that tell the rest of it give it back. -/
theorem apply_of_tell (hf : f.Tells i) (hi : OneMemory i.first i.second)
    (hdest : i.modifiers.dest = false) (hname : d.name = i.name) (hop : d.op = i.op)
    (hform : d.form = i.form) :
    (Pending.ofBytes i.modifierBytes).apply (d.instruction f) = i := by
  have h1 : f.first.map (Pending.operand ⟨i.segment?, i.modifiers.locked, i.modifiers.repeated⟩) =
      i.first := by
    refine Pending.map_operand_of_tells (fun a s h => ?_) hf.first
    exact segment?_of_memory hi (List.mem_append_left _ (Option.mem_toList.2 h))
  have h2 : f.second.map (Pending.operand ⟨i.segment?, i.modifiers.locked, i.modifiers.repeated⟩) =
      i.second := by
    refine Pending.map_operand_of_tells (fun a s h => ?_) hf.second
    exact segment?_of_memory hi (List.mem_append_right _ (Option.mem_toList.2 h))
  rw [ofBytes_modifierBytes, Pending.apply_instruction (hi.of_isMemory hf.first.isMemory hf.second.isMemory)]
  unfold Pending.finish
  rw [h1, h2, hf.width, hf.stringOp, hf.far, hname, hop, hform, ← hdest]

end I8086

import I8086.Proofs.Frame
import Mathlib.Logic.Function.Basic

/-!
# The register file as a store

A store has sixteen bytes, four segment words and sixteen flag bits, and none of them depends on
another. A general register is one of its bytes or two, as `Register.cell` and `Register.half?` say.
What an operation does to a register file is what it does to the store of the file, so every value
that is read after any operations is the one that the store holds. Main statement:
`store_of_updates`.
-/

namespace I8086

variable {x y : Register}

/-- The cell that a register is in. -/
def Register.cell : Register → Fin 8
  | .al | .ah | .ax => lowBits3 0
  | .cl | .ch | .cx => lowBits3 1
  | .dl | .dh | .dx => lowBits3 2
  | .bl | .bh | .bx => lowBits3 3
  | .sp => lowBits3 4
  | .bp => lowBits3 5
  | .si => lowBits3 6
  | .di => lowBits3 7

/-- The half of its cell that a byte register is. A word register is the whole cell. -/
def Register.half? : Register → Option Half
  | .al | .cl | .dl | .bl => some .low
  | .ah | .ch | .dh | .bh => some .high
  | .ax | .cx | .dx | .bx | .sp | .bp | .si | .di => none

/-- A byte is one of those that a register consists of. -/
def Register.HasByte (x : Register) (place : Fin 8 × Half) : Prop :=
  place.1 = x.cell ∧ (x.half? = none ∨ x.half? = some place.2)

/-- The place of a flag in the flags word. -/
def Flag.index (x : Flag) : Fin 16 :=
  ⟨x.position, x.position_lt⟩

/-- An operation that changes registers. -/
inductive RegisterUpdate where
  | write (x : Register) (value : UInt16)
  | writeSegment (s : SegmentRegister) (value : UInt16)
  | setFlag (x : Flag) (value : Bool)
  | replaceFlags (flags : Flags)

/-- Sixteen bytes, four segment words and sixteen flag bits. -/
@[ext]
structure Store where
  bytes : Fin 8 × Half → UInt8
  segments : SegmentRegister → UInt16
  flags : Fin 16 → Bool

namespace Store

/-- The store with one byte set. -/
def setByte (s : Store) (place : Fin 8 × Half) (b : UInt8) : Store :=
  { s with bytes := Function.update s.bytes place b }

/-- The store with a general register set: a byte register to the low byte of a value, a word register
to both bytes of it. -/
def write (s : Store) (x : Register) (value : UInt16) : Store :=
  match x.half? with
  | some half => s.setByte (x.cell, half) (Half.low.byte value)
  | none =>
    (s.setByte (x.cell, .low) (Half.low.byte value)).setByte (x.cell, .high) (Half.high.byte value)

/-- The number in a general register. -/
def read (s : Store) (x : Register) : Nat :=
  match x.half? with
  | some half => (s.bytes (x.cell, half)).toNat
  | none => (s.bytes (x.cell, .high)).toNat * 256 + (s.bytes (x.cell, .low)).toNat

/-- The store after an operation. -/
def update (s : Store) : RegisterUpdate → Store
  | .write x value => s.write x value
  | .writeSegment x value => { s with segments := Function.update s.segments x value }
  | .setFlag x value => { s with flags := Function.update s.flags x.index value }
  | .replaceFlags flags => { s with flags := fun k => flags.bits.toNat.testBit k }

lemma setByte_eq_self {s : Store} {place : Fin 8 × Half} {b : UInt8} (h : s.bytes place = b) :
    s.setByte place b = s := by
  subst h
  exact Store.ext (Function.update_eq_self _ _) rfl rfl

lemma setByte_comm (s : Store) {p q : Fin 8 × Half} (h : p ≠ q) (b d : UInt8) :
    (s.setByte p b).setByte q d = (s.setByte q d).setByte p b := by
  refine Store.ext ?_ rfl rfl
  exact Function.update_comm h b d s.bytes

/-- A register and a byte that it does not consist of can be set in either order. -/
lemma write_setByte_comm (s : Store) {p : Fin 8 × Half} (h : ¬ x.HasByte p) (v : UInt16) (b : UInt8) :
    (s.write x v).setByte p b = (s.setByte p b).write x v := by
  have hne (half : Half) (hh : x.half? = none ∨ x.half? = some half) : (x.cell, half) ≠ p := by
    rintro rfl
    exact h ⟨rfl, hh⟩
  unfold write
  cases hx : x.half? with
  | some half => exact s.setByte_comm (hne half (.inr hx)) _ b
  | none =>
    dsimp only
    rw [setByte_comm _ (hne .high (.inl hx)), setByte_comm _ (hne .low (.inl hx))]

/-- Registers without a common byte can be set in either order. -/
lemma write_comm (s : Store) (h : ∀ place, ¬ (x.HasByte place ∧ y.HasByte place)) (v w : UInt16) :
    (s.write x v).write y w = (s.write y w).write x v := by
  have hx (half : Half) (hh : y.half? = none ∨ y.half? = some half) : ¬ x.HasByte (y.cell, half) :=
    fun hx => h _ ⟨hx, rfl, hh⟩
  rw [write.eq_def _ y, write.eq_def _ y]
  cases hy : y.half? with
  | some half => exact s.write_setByte_comm (hx half (.inr hy)) v _
  | none =>
    dsimp only
    rw [write_setByte_comm _ (hx .low (.inl hy)), write_setByte_comm _ (hx .high (.inl hy))]

end Store

/-- The part of its cell that a register names. -/
lemma Register.slot_eq (x : Register) : x.slot =
    match x.half? with
    | some .low => .low x.cell
    | some .high => .high x.cell
    | none => .word x.cell := by
  cases x <;> rfl

lemma toNat_low (v : UInt16) : (Half.low.byte v).toNat = v.toNat % 256 :=
  UInt16.toNat_toUInt8 v

lemma toNat_high (v : UInt16) : (Half.high.byte v).toNat = v.toNat / 256 := by
  have hv := v.toNat_lt
  show ((v >>> (8 : UInt16)).toUInt8).toNat = _
  simp [Nat.shiftRight_eq_div_pow]
  omega

/-- The low byte of a cell after one was put into it. -/
lemma byte_low_of_or_low (c v : UInt16) :
    Half.low.byte ((c &&& 0xFF00) ||| (v &&& 0x00FF)) = Half.low.byte v := by
  apply UInt8.eq_of_toBitVec_eq
  ext k hk
  interval_cases k <;> simp [Half.byte]

/-- The high byte of a cell after one was put into it. -/
lemma byte_high_of_or_high (c v : UInt16) :
    Half.high.byte ((c &&& 0x00FF) ||| (v <<< (8 : UInt16))) = Half.low.byte v := by
  apply UInt8.eq_of_toBitVec_eq
  ext k hk
  interval_cases k <;> simp [Half.byte]

namespace RegisterFile

/-- The registers after an operation. -/
def update (r : RegisterFile) : RegisterUpdate → RegisterFile
  | .write x value => r.write x value
  | .writeSegment s value => r.writeSegment s value
  | .setFlag x value => r.setFlag x value
  | .replaceFlags flags => r.replaceFlags flags

/-- The bytes of the cells, the segment words and the bits of the flags word. -/
def store (r : RegisterFile) : Store where
  bytes := fun (cell, half) => r.byte cell half
  segments := r.readSegment
  flags := fun k => r.flags.bits.toNat.testBit k

/-- A new word in a cell is two new bytes. -/
lemma store_writeSlot_word (r : RegisterFile) (c : Fin 8) (v : UInt16) :
    (r.writeSlot (.word c) v).store =
      (r.store.setByte (c, .low) (Half.low.byte v)).setByte (c, .high) (Half.high.byte v) := by
  refine Store.ext (funext fun (cell, half) => ?_) rfl rfl
  show (r.writeSlot (.word c) v).byte cell half = _
  by_cases hc : cell = c
  · subst hc
    have hv : (r.writeSlot (.word cell) v).byte cell half = half.byte v :=
      congrArg half.byte (Vector.getElem_set_self cell.isLt)
    rw [hv]
    cases half <;> simp [Store.setByte]
  · have hne : ¬ (Slot.word c).Covers cell half := hc
    rw [r.byte_writeSlot v hne]
    simp [Store.setByte, hc, store]

lemma store_writeSlot_low (r : RegisterFile) (c : Fin 8) (v : UInt16) :
    (r.writeSlot (.low c) v).store = r.store.setByte (c, .low) (Half.low.byte v) := by
  refine (r.store_writeSlot_word c ((r.cells[c] &&& 0xFF00) ||| (v &&& 0x00FF))).trans ?_
  rw [byte_low_of_or_low, high_of_or_low]
  -- The high byte is set to what it is.
  have hne : (c, Half.high) ≠ (c, Half.low) := by simp
  exact Store.setByte_eq_self (Function.update_of_ne hne _ _)

lemma store_writeSlot_high (r : RegisterFile) (c : Fin 8) (v : UInt16) :
    (r.writeSlot (.high c) v).store = r.store.setByte (c, .high) (Half.low.byte v) := by
  refine (r.store_writeSlot_word c ((r.cells[c] &&& 0x00FF) ||| (v <<< (8 : UInt16)))).trans ?_
  rw [low_of_or_high, byte_high_of_or_high]
  exact congrArg (Store.setByte · _ _) (Store.setByte_eq_self rfl)

lemma store_write (r : RegisterFile) (x : Register) (v : UInt16) :
    (r.write x v).store = r.store.write x v := by
  unfold RegisterFile.write Store.write
  rw [x.slot_eq]
  cases x.half? with
  | some half => cases half with
    | low => exact r.store_writeSlot_low x.cell v
    | high => exact r.store_writeSlot_high x.cell v
  | none => exact r.store_writeSlot_word x.cell v

lemma store_writeSegment (r : RegisterFile) (s : SegmentRegister) (v : UInt16) :
    (r.writeSegment s v).store = r.store.update (.writeSegment s v) := by
  refine Store.ext rfl (funext fun t => ?_) rfl
  show (r.writeSegment s v).readSegment t = Function.update r.readSegment s v t
  by_cases hts : t = s
  · subst hts
    rw [Function.update_self]
    exact Vector.getElem_set_self t.field.isLt
  · rw [Function.update_of_ne hts]
    have hf : s.field.val ≠ t.field.val := fun e =>
      hts (SegmentRegister.field_injective (Fin.ext e)).symm
    exact Vector.getElem_set_ne s.field.isLt t.field.isLt hf

lemma store_setFlag (r : RegisterFile) (x : Flag) (value : Bool) :
    (r.setFlag x value).store = r.store.update (.setFlag x value) := by
  refine Store.ext rfl rfl (funext fun k => ?_)
  show (r.flags.set x value).bits.toNat.testBit k = Function.update r.store.flags x.index value k
  rw [Flags.testBit_set r.flags x value k k.isLt, Function.update_apply]
  simp only [Fin.ext_iff]
  rfl

/-- An operation does to the store of a register file what it does to the file. -/
lemma store_update (r : RegisterFile) (u : RegisterUpdate) :
    (r.update u).store = r.store.update u := by
  cases u with
  | write x v => exact r.store_write x v
  | writeSegment s v => exact r.store_writeSegment s v
  | setFlag x value => exact r.store_setFlag x value
  | replaceFlags flags => rfl

lemma store_foldl_update (r : RegisterFile) (us : List RegisterUpdate) :
    (us.foldl update r).store = us.foldl Store.update r.store := by
  induction us generalizing r with
  | nil => rfl
  | cons u us ih => rw [List.foldl_cons, ih, store_update, List.foldl_cons]

/-- What a register holds is what its bytes in the store make up. -/
lemma toNat_read (r : RegisterFile) (x : Register) : (r.read x).toNat = r.store.read x := by
  have hmask : (r.cells[x.cell] &&& 0x00FF).toNat = r.cells[x.cell].toNat % 256 :=
    Nat.and_two_pow_sub_one_eq_mod _ 8
  have hshift : (r.cells[x.cell] >>> (8 : UInt16)).toNat = r.cells[x.cell].toNat / 256 := by
    simp [Nat.shiftRight_eq_div_pow]
  have hlow : (r.store.bytes (x.cell, .low)).toNat = r.cells[x.cell].toNat % 256 := toNat_low _
  have hhigh : (r.store.bytes (x.cell, .high)).toNat = r.cells[x.cell].toNat / 256 := toNat_high _
  unfold RegisterFile.read Store.read
  rw [x.slot_eq]
  cases x.half? with
  | some half => cases half with
    | low => exact hmask.trans hlow.symm
    | high => exact hshift.trans hhigh.symm
  | none =>
    dsimp only [readSlot]
    omega

/-- A register file is determined by its store. -/
lemma store_injective : Function.Injective store := by
  intro r r' h
  obtain ⟨cells, segments, flags⟩ := r
  obtain ⟨cells', segments', flags'⟩ := r'
  have hc : cells = cells' := by
    ext k hk
    have hlow := congrArg UInt8.toNat (congrFun (congrArg Store.bytes h) (⟨k, hk⟩, .low))
    have hhigh := congrArg UInt8.toNat (congrFun (congrArg Store.bytes h) (⟨k, hk⟩, .high))
    have hlow' : cells[k].toNat % 256 = cells'[k].toNat % 256 := by
      rw [← toNat_low, ← toNat_low]
      exact hlow
    have hhigh' : cells[k].toNat / 256 = cells'[k].toNat / 256 := by
      rw [← toNat_high, ← toNat_high]
      exact hhigh
    omega
  have hs : segments = segments' := by
    ext k hk
    have hk' := congrFun (congrArg Store.segments h) (.ofField ⟨k, hk⟩)
    simpa [store, readSegment] using congrArg UInt16.toNat hk'
  have hf : flags = flags' := by
    obtain ⟨bits⟩ := flags
    obtain ⟨bits'⟩ := flags'
    refine congrArg Flags.mk (UInt16.toNat_inj.1 (Nat.eq_of_testBit_eq fun k => ?_))
    by_cases hk : k < 16
    · exact congrFun (congrArg Store.flags h) ⟨k, hk⟩
    · have hlt (b : UInt16) : b.toNat < 2 ^ k :=
        lt_of_lt_of_le b.toNat_lt (Nat.pow_le_pow_right (by decide) (Nat.not_lt.1 hk))
      rw [Nat.testBit_lt_two_pow (hlt bits), Nat.testBit_lt_two_pow (hlt bits')]
  subst hc hs hf
  rfl

end RegisterFile

/-- After any operations a register file has the bytes, words and bits that its store has after them.
A byte register then holds the number that is its byte, a word register the one that its two bytes
make up, and a segment register, a flag and each bit of the flags word what the store holds there.
Registers without a common byte can be written in either order. -/
theorem store_of_updates (r : RegisterFile) (us : List RegisterUpdate) :
    let after := us.foldl RegisterFile.update r
    let store := us.foldl Store.update r.store
    after.store = store ∧
      (∀ x, (after.read x).toNat = store.read x) ∧
      (∀ s, after.readSegment s = store.segments s) ∧
      (∀ x, after.testFlag x = store.flags x.index) ∧
      (∀ k : Fin 16, after.flags.bits.toNat.testBit k = store.flags k) ∧
      ∀ x y v w, (∀ place, ¬ (x.HasByte place ∧ y.HasByte place)) →
        (after.write x v).write y w = (after.write y w).write x v := by
  intro after store
  have h : after.store = store := r.store_foldl_update us
  refine ⟨h, fun x => ?_, fun s => ?_, fun x => ?_, fun k => ?_, fun x y v w hxy => ?_⟩
  · rw [after.toNat_read, h]
  · exact congrFun (congrArg Store.segments h) s
  · exact (after.flags.contains_eq_testBit x).trans (congrFun (congrArg Store.flags h) x.index)
  · exact congrFun (congrArg Store.flags h) k
  · apply RegisterFile.store_injective
    rw [RegisterFile.store_write, RegisterFile.store_write, RegisterFile.store_write,
      RegisterFile.store_write, Store.write_comm _ hxy]

/-- Values that are too large for the halves of `ax`, written behind a whole word. -/
theorem store_of_updates_halves :
    let us : List RegisterUpdate := [.write .ax 0x1234, .write .ah 0x01FF, .setFlag .overflow true]
    let after := us.foldl RegisterFile.update {}
    (∀ place, ¬ (Register.al.HasByte place ∧ Register.ah.HasByte place)) ∧
      (after.read .ax).toNat = 0xFF34 ∧ (after.read .ah).toNat = 0xFF ∧
      after.testFlag .overflow = true ∧
      (after.write .al 0x0201).write .ah 0x0403 = (after.write .ah 0x0403).write .al 0x0201 := by
  intro us after
  have hn : ∀ place, ¬ (Register.al.HasByte place ∧ Register.ah.HasByte place) := by
    rintro ⟨cell, half⟩ ⟨⟨-, hal⟩, -, hah⟩
    cases half <;> simp [Register.half?] at hal hah
  obtain ⟨-, hread, -, hflag, -, hcomm⟩ := store_of_updates {} us
  exact ⟨hn, (hread .ax).trans (by decide), (hread .ah).trans (by decide),
    (hflag .overflow).trans (by decide), hcomm _ _ _ _ hn⟩

end I8086

import I8086.Dump
import I8086.Proofs.Hex
import I8086.Proofs.Wording

/-!
# What a dump tells

The dump of a register file has a line for each word register and for each segment register, with
the value in hexadecimal digits, and one with the names of the flags that are set. Digits tell their
number (`Hex.lower_injective`) and the line of the flags tells which are set (`Flags.line_inj`). Main
statement: `dump_eq_dump_iff`, the dump tells everything about the registers but the bits of the
flags word that have no name.
-/

namespace I8086

/-- No two flags have the same name. -/
lemma Flag.name_injective : Function.Injective Flag.name := by
  have h : ∀ x : Flag, Flag.ofName? x.name = some x := fun x => by cases x <;> rfl
  intro x y hxy
  have hsome := congrArg Flag.ofName? hxy
  rw [h, h] at hsome
  exact Option.some.inj hsome

lemma Flag.mem_all (x : Flag) : x ∈ Flag.all := by
  cases x <;> decide

namespace Flags

variable {f f' : Flags} {i : Nat}

/-- The line of the flags is put together from a word and their names. -/
lemma line_eq (f : Flags) :
    f.line = "flags:" ++ String.join ((f.toList.map Flag.name).map (" " ++ ·)) := by
  have hfold : ∀ (xs : List Flag) (s : String),
      xs.foldl (fun acc x => acc ++ " " ++ x.name) s =
        s ++ String.join ((xs.map Flag.name).map (" " ++ ·)) := by
    intro xs
    induction xs with
    | nil => exact fun s => String.append_empty.symm
    | cons x xs ih =>
      intro s
      rw [List.foldl_cons, ih, List.map_cons, List.map_cons, String.join_cons, String.append_assoc,
        String.append_assoc]
      rfl
  exact hfold f.toList "flags:"

/-- The line of the flags has their names as its pieces. -/
lemma pieces_line (f : Flags) : pieces ' ' f.line = "flags:" :: f.toList.map Flag.name := by
  rw [line_eq]
  refine pieces_join_prefixed rfl (by decide) fun t ht => ?_
  obtain ⟨x, -, rfl⟩ := List.mem_map.1 ht
  cases x <;> decide

/-- The line of the flags tells which are set. -/
lemma line_inj : f.line = f'.line ↔ ∀ x, f.contains x = f'.contains x := by
  constructor
  · intro h x
    have hp := congrArg (pieces ' ') h
    rw [pieces_line, pieces_line] at hp
    have hlist := List.map_injective_iff.2 Flag.name_injective (List.cons.inj hp).2
    have hmem : x ∈ f.toList ↔ x ∈ f'.toList := by rw [hlist]
    simp only [toList, List.mem_filter, x.mem_all, true_and] at hmem
    exact Bool.eq_iff_iff.2 hmem
  · intro h
    have hlist : f.toList = f'.toList := List.filter_congr fun x _ => h x
    rw [line, line, hlist]

/-- The bits of this mask are those of the flags. -/
lemma exists_position (h : Nat.testBit 0x0FD5 i) : ∃ x : Flag, x.position = i := by
  have hlow : ∀ i < 12, Nat.testBit 0x0FD5 i → i ∈ Flag.all.map Flag.position := by decide
  have hi : i < 12 := by
    by_contra hi
    have hlarge : 0x0FD5 < 2 ^ i := by
      calc 0x0FD5 < 2 ^ 12 := by decide
        _ ≤ 2 ^ i := Nat.pow_le_pow_right (by decide) (Nat.not_lt.1 hi)
    rw [Nat.testBit_lt_two_pow hlarge] at h
    cases h
  obtain ⟨x, -, hx⟩ := List.mem_map.1 (hlow i hi h)
  exact ⟨x, hx⟩

/-- The flags that are set are the bits under the mask. -/
lemma forall_contains_iff :
    (∀ x, f.contains x = f'.contains x) ↔ f.bits &&& 0x0FD5 = f'.bits &&& 0x0FD5 := by
  constructor
  · intro h
    apply UInt16.toNat_inj.1
    apply Nat.eq_of_testBit_eq
    intro i
    rw [UInt16.toNat_and, UInt16.toNat_and, Nat.testBit_and, Nat.testBit_and]
    cases hi : Nat.testBit (0x0FD5 : UInt16).toNat i with
    | false => rw [Bool.and_false, Bool.and_false]
    | true =>
      obtain ⟨x, rfl⟩ := exists_position hi
      rw [← contains_eq_testBit, ← contains_eq_testBit, h]
  · intro h x
    have hbit : (0x0FD5 : UInt16) &&& x.bit = x.bit := by cases x <;> decide
    unfold contains
    rw [← hbit, ← UInt16.and_assoc, h, UInt16.and_assoc]

end Flags

lemma Register.slot_ofField_word (f : Fin 8) : (Register.ofField .word f).slot = .word f := by
  revert f
  decide

/-- The places that a dump shows before the flags, in its order. -/
def dumpLocations : List Location :=
  dumpOrder.map .register ++ SegmentRegister.all.map .segment

namespace RegisterFile

variable {r r' : RegisterFile}

/-- The places of the dump are all cells and segment words. -/
lemma forall_dumpLocations_iff :
    (∀ l ∈ dumpLocations, r.readLocation l = r'.readLocation l) ↔
      r.cells = r'.cells ∧ r.segments = r'.segments := by
  have hcell : ∀ f : Fin 8, .register (.ofField .word f) ∈ dumpLocations := by decide
  have hsegment : ∀ f : Fin 4, .segment (.ofField f) ∈ dumpLocations := by decide
  constructor
  · intro h
    refine ⟨Vector.ext fun k hk => ?_, Vector.ext fun k hk => ?_⟩
    · have hr := h _ (hcell ⟨k, hk⟩)
      rwa [readLocation, readLocation, read, read, Register.slot_ofField_word] at hr
    · have hr := h _ (hsegment ⟨k, hk⟩)
      simp only [readLocation, readSegment, SegmentRegister.field_ofField] at hr
      exact hr
  · obtain ⟨cells, segments, flags⟩ := r
    rintro ⟨rfl, rfl⟩ l -
    cases l <;> rfl

/-- The lines of a dump name the places and show what they hold. -/
lemma wordLines_eq (r : RegisterFile) :
    r.wordLines = dumpLocations.map fun l =>
      l.name ++ " -> " ++ Hex.lower 4 (r.readLocation l).toNat :=
  rfl

/-- The lines of a dump tell what the places hold. -/
lemma wordLines_inj :
    r.wordLines = r'.wordLines ↔ ∀ l ∈ dumpLocations, r.readLocation l = r'.readLocation l := by
  rw [wordLines_eq, wordLines_eq, List.map_inj_left]
  refine forall₂_congr fun l _ => ?_
  rw [String.append_right_inj, (Hex.lower_injective 4).eq_iff, UInt16.toNat_inj]

/-- The lines of a dump are its first pieces. -/
lemma pieces_dump (r : RegisterFile) :
    pieces '\n' r.dump = r.wordLines ++ pieces '\n' r.flags.line := by
  refine pieces_join (fun line hline => ?_) r.flags.line
  rw [wordLines_eq] at hline
  obtain ⟨l, -, rfl⟩ := List.mem_map.1 hline
  have hname : '\n' ∉ l.name.toList := l.spelled_name.notMem (by decide)
  have hvalue : '\n' ∉ (Hex.lower 4 (r.readLocation l).toNat).toList :=
    (Hex.spelled_lower _ _).notMem (by decide)
  simp [hname, hvalue]

/-- The dump tells the lines that it was put together from. -/
lemma dump_inj : r.dump = r'.dump ↔ r.wordLines = r'.wordLines ∧ r.flags.line = r'.flags.line := by
  constructor
  · intro h
    have hp := congrArg (pieces '\n') h
    have hlength : r.wordLines.length = r'.wordLines.length := by
      rw [wordLines_eq, wordLines_eq, List.length_map, List.length_map]
    rw [pieces_dump, pieces_dump] at hp
    obtain ⟨hw, hf⟩ := List.append_inj hp hlength
    exact ⟨hw, pieces_injective hf⟩
  · rintro ⟨hw, hf⟩
    rw [dump, hw, hf, dump]

/-- Two register files have the same dump if and only if all their cells and segment words are the
same, and their flags words are the same under the mask of the named flags. -/
theorem dump_eq_dump_iff (r r' : RegisterFile) :
    r.dump = r'.dump ↔ r.cells = r'.cells ∧ r.segments = r'.segments ∧
      r.flags.bits &&& 0x0FD5 = r'.flags.bits &&& 0x0FD5 := by
  rw [dump_inj, wordLines_inj, forall_dumpLocations_iff, Flags.line_inj, Flags.forall_contains_iff,
    and_assoc]

end RegisterFile

end I8086

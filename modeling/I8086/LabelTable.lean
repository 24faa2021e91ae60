import Std.Data.HashMap

/-!
# Branch targets

The instruction index that a short branch points to, and the table that numbers such targets in the
order in which they are first seen. Main statements: `LabelTable.toList_insert`, an insertion adds a
new target at the end and an old one nowhere; `LabelTable.get?_eq_some_iff`, a target has a number
exactly when it stands at that place.
-/

namespace I8086

/-- The instruction that a short branch at an index points to: the offset counts bytes, and every
instruction is taken to be two bytes long. Both may lie outside the program on either side. -/
def branchTarget (index : Int) (offset : Int8) : Int :=
  index + offset.toInt / 2

/-- The targets in the order of their first insertion, with an index of their places. -/
structure LabelTable where
  /-- The targets; the number of a target is its place. -/
  targets : Array Int := #[]
  /-- The place of each target. -/
  places : Std.HashMap Int Nat := ∅
  /-- The index knows exactly the places of the targets. -/
  places_iff : ∀ (t : Int) (n : Nat), places[t]? = some n ↔ targets[n]? = some t := by simp

namespace LabelTable

/-- The table without targets. -/
def empty : LabelTable := {}

instance : Inhabited LabelTable := ⟨empty⟩

/-- The targets in order. -/
def toList (l : LabelTable) : List Int :=
  l.targets.toList

/-- The number of targets. -/
def size (l : LabelTable) : Nat :=
  l.targets.size

/-- Whether there are no targets. -/
def isEmpty (l : LabelTable) : Bool :=
  l.targets.isEmpty

/-- The targets with their numbers, in order. -/
def entries (l : LabelTable) : List (Int × Nat) :=
  l.toList.zipIdx

/-- The number of a target. -/
def get? (l : LabelTable) (target : Int) : Option Nat :=
  l.places[target]?

/-- The table with a target added at the end, if it is new. -/
def insert (l : LabelTable) (target : Int) : LabelTable :=
  match h : l.places[target]? with
  | some _ => l
  | none =>
    let number := l.targets.size
    { targets := l.targets.push target
      places := l.places.insert target number
      places_iff := by
        intro t n
        rw [show number = l.targets.size from rfl, Std.HashMap.getElem?_insert,
          Array.getElem?_push]
        have old := l.places_iff t n
        by_cases ht : target = t
        · subst ht
          have absent : ∀ m, l.targets[m]? ≠ some target := fun m hm => by
            rw [(l.places_iff target m).2 hm] at h
            cases h
          by_cases hn : n = l.targets.size
          · simp [hn]
          · simp [hn, Ne.symm hn, absent n]
        · by_cases hn : n = l.targets.size
          · subst hn
            have : l.places[t]? ≠ some l.targets.size := fun hm => by
              have := old.1 hm
              simp at this
            simp [ht, this]
          · simp [ht, hn, old] }

/-- The number of a target and a table in which it has it: a new target is added with the next
number, an old one keeps its own. -/
def number (l : LabelTable) (target : Int) : Nat × LabelTable :=
  match l.get? target with
  | some n => (n, l)
  | none => (l.size, l.insert target)

/-- The table of a list of targets, inserted in order. -/
def ofList (targets : List Int) : LabelTable :=
  targets.foldl insert empty

/-- A target has a number exactly when it stands at that place. -/
theorem get?_eq_some_iff {l : LabelTable} {t : Int} {n : Nat} :
    l.get? t = some n ↔ l.toList[n]? = some t := by
  rw [get?, l.places_iff, toList, Array.getElem?_toList]

/-- A target without a number is not in the table. -/
theorem get?_eq_none_iff {l : LabelTable} {t : Int} : l.get? t = none ↔ t ∉ l.toList := by
  constructor
  · intro h hmem
    obtain ⟨n, hn⟩ := List.mem_iff_getElem?.1 hmem
    rw [get?_eq_some_iff.2 hn] at h
    cases h
  · intro h
    cases hn : l.get? t with
    | none => rfl
    | some n => exact (h (List.mem_of_getElem? (get?_eq_some_iff.1 hn))).elim

/-- An insertion adds a new target at the end and an old one nowhere. -/
theorem toList_insert (l : LabelTable) (t : Int) :
    (l.insert t).toList = if t ∈ l.toList then l.toList else l.toList ++ [t] := by
  unfold insert
  split
  case h_1 n h =>
    have hmem : t ∈ l.toList := List.mem_iff_getElem?.2 ⟨n, get?_eq_some_iff.1 h⟩
    simp [hmem]
  case h_2 h =>
    have hmem : t ∉ l.toList := get?_eq_none_iff.1 h
    simp only [hmem, ↓reduceIte]
    simp [toList]

/-- A known target is not inserted again. -/
theorem insert_of_get? {l : LabelTable} {t : Int} {n : Nat} (h : l.get? t = some n) :
    l.insert t = l := by
  unfold insert
  split
  case h_1 => rfl
  case h_2 h' =>
    rw [get?, h'] at h
    cases h

end LabelTable

end I8086

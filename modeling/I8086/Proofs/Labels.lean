import I8086.LabelTable
import Mathlib.Data.List.Induction

/-!
# Label tables of lists

What a table holds after a list of targets was inserted. Main statements:
`LabelTable.toList_ofList`, the table of a list holds each target of it once, at its first place;
`LabelTable.toList_foldl_insert`, a table that already holds some targets gains those of the list
that it lacks, in the order of their first place in the list; `LabelTable.toList_ofList_map_add`,
moving all targets moves the entries.
-/

namespace I8086.LabelTable

/-- The empty table holds no target. -/
@[simp] lemma toList_empty : empty.toList = [] := rfl

/-- The table of a longer list. -/
lemma ofList_append_singleton (xs : List Int) (x : Int) :
    ofList (xs ++ [x]) = (ofList xs).insert x := by
  rw [ofList, List.foldl_append]
  rfl

/-- The table of a list holds its targets without the repetitions after the first. -/
theorem toList_ofList (xs : List Int) : (ofList xs).toList = xs.eraseDups := by
  induction xs using List.reverseRecOn with
  | nil => rfl
  | append_singleton xs x ih =>
    rw [ofList_append_singleton, toList_insert, ih, List.eraseDups_append]
    by_cases hx : x ∈ xs <;> simp [hx, List.removeAll, List.eraseDups_cons]

/-- Inserting a list adds the targets that are new, in the order in which the list names them. -/
theorem toList_foldl_insert (l : LabelTable) (xs : List Int) :
    (xs.foldl insert l).toList = l.toList ++ (ofList xs).toList.filter (· ∉ l.toList) := by
  induction xs using List.reverseRecOn with
  | nil => simp [ofList]
  | append_singleton xs x ih =>
    rw [List.foldl_append, List.foldl_cons, List.foldl_nil, toList_insert,
      ofList_append_singleton, toList_insert, ih]
    by_cases hl : x ∈ l.toList
    · by_cases hx : x ∈ (ofList xs).toList <;> simp [hl, hx]
    · by_cases hx : x ∈ (ofList xs).toList <;> simp [hl, hx]

/-- Moving every target by a number moves the entries of the table. -/
theorem toList_ofList_map_add (xs : List Int) (n : Int) :
    (ofList (xs.map (· + n))).toList = (ofList xs).toList.map (· + n) := by
  induction xs using List.reverseRecOn with
  | nil => rfl
  | append_singleton xs x ih =>
    rw [List.map_append, List.map_singleton, ofList_append_singleton, ofList_append_singleton,
      toList_insert, toList_insert, ih]
    by_cases hx : x ∈ (ofList xs).toList <;> simp [hx]

end I8086.LabelTable

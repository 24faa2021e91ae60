import I8086.Proofs.Labels
import Mathlib.Data.Finset.Card
import Mathlib.Data.List.Basic

/-!
# Numbering targets

A table gives each target that it is asked for a number; `LabelTable.numberAll` asks for one target
after another. `ordinal` tells the number of a target from the requests alone: it is how many other
targets come before its first request. The invariant of a table is `LabelTable.Holds`, its targets
are those of the requests, in the order of their first request; one more request keeps it
(`Holds.number`). Main statement: `numbering_of_requests`, what the table answers and holds after
any requests.
-/

namespace I8086

/-- The number of different targets that a list names before it first names a given one. -/
def ordinal (ts : List Int) (t : Int) : Nat :=
  (ts.take (ts.idxOf t)).toFinset.card

/-- More targets at the end do not change the ordinal of a target. -/
lemma ordinal_append {ts : List Int} {t : Int} (h : t ∈ ts) (us : List Int) :
    ordinal (ts ++ us) t = ordinal ts t := by
  have hle : ts.idxOf t ≤ ts.length := Nat.le_of_lt (List.idxOf_lt_length_of_mem h)
  rw [ordinal, List.idxOf_append_of_mem h, List.take_append_of_le_length hle, ordinal]

namespace LabelTable

variable {l : LabelTable} {ts us : List Int} {s t : Int} {n : Nat}

/-- The numbers that targets get one after another, and the table after that. -/
def numberAll (l : LabelTable) : List Int → List Nat × LabelTable
  | [] => ([], l)
  | t :: ts =>
    let (n, l) := l.number t
    let (ns, l) := l.numberAll ts
    (n :: ns, l)

/-- The table in which a target is numbered is the one into which it is inserted. -/
lemma number_snd : (l.number t).2 = l.insert t := by
  unfold number
  cases h : l.get? t with
  | some n => exact (insert_of_get? h).symm
  | none => rfl

/-- The table after numbering targets is the one into which they are inserted in order. -/
lemma numberAll_snd : (l.numberAll us).2 = us.foldl insert l := by
  induction us generalizing l with
  | nil => rfl
  | cons u us ih =>
    rw [List.foldl_cons, ← number_snd, ← ih]
    rfl

/-- The number that a target gets is the one that it has from then on. -/
lemma get?_number : (l.number t).2.get? t = some (l.number t).1 := by
  unfold number
  cases h : l.get? t with
  | some n => exact h
  | none =>
    have ht : t ∉ l.toList := get?_eq_none_iff.1 h
    have hsize : l.size = l.toList.length := Array.length_toList.symm
    rw [get?_eq_some_iff, toList_insert, if_neg ht, hsize, List.getElem?_concat_length]

/-- A target keeps its number when another one gets its own. -/
lemma get?_number_of_get? (h : l.get? s = some n) : (l.number t).2.get? s = some n := by
  rw [get?_eq_some_iff] at h ⊢
  rw [number_snd, toList_insert]
  split
  case isTrue => exact h
  case isFalse => exact (List.getElem?_append_left (List.getElem?_eq_some_iff.1 h).1).trans h

/-- A target keeps its number whatever others get theirs. -/
lemma get?_numberAll_of_get? (h : l.get? s = some n) : (l.numberAll us).2.get? s = some n := by
  induction us generalizing l with
  | nil => exact h
  | cons u us ih => exact ih (get?_number_of_get? h)

/-- The targets of a table are those of a list, without repetitions and in the order in which the
list first names them. -/
structure Holds (l : LabelTable) (ts : List Int) : Prop where
  mem_iff : ∀ t, t ∈ l.toList ↔ t ∈ ts
  pairwise : l.toList.Pairwise fun s t => ts.idxOf s < ts.idxOf t

namespace Holds

lemma nil : Holds empty [] :=
  ⟨fun _ => Iff.rfl, .nil⟩

/-- Numbering one more target. -/
lemma number (h : Holds l ts) (t : Int) : Holds (l.number t).2 (ts ++ [t]) := by
  have hold : ∀ s ∈ l.toList, (ts ++ [t]).idxOf s = ts.idxOf s := fun s hs =>
    List.idxOf_append_of_mem ((h.mem_iff s).1 hs)
  have hordered : l.toList.Pairwise fun s u => (ts ++ [t]).idxOf s < (ts ++ [t]).idxOf u :=
    h.pairwise.imp_of_mem fun hs hu hlt => by rwa [hold _ hs, hold _ hu]
  rw [number_snd]
  constructor
  · intro s
    rw [toList_insert, List.mem_append, List.mem_singleton, ← h.mem_iff]
    split
    case isTrue ht => exact ⟨.inl, (·.elim id (· ▸ ht))⟩
    case isFalse => rw [List.mem_append, List.mem_singleton]
  · rw [toList_insert]
    split
    case isTrue => exact hordered
    case isFalse ht =>
      have hnew : (ts ++ [t]).idxOf t = ts.length := by
        rw [List.idxOf_append_of_notMem (mt (h.mem_iff t).2 ht), List.idxOf_cons_self, Nat.add_zero]
      refine List.pairwise_append.2 ⟨hordered, List.pairwise_singleton _ _, fun s hs u hu => ?_⟩
      rw [List.mem_singleton.1 hu, hold s hs, hnew]
      exact List.idxOf_lt_length_of_mem ((h.mem_iff s).1 hs)

/-- Numbering more targets. -/
lemma numberAll (h : Holds l ts) (us : List Int) : Holds (l.numberAll us).2 (ts ++ us) := by
  induction us generalizing l ts with
  | nil => rwa [List.append_nil]
  | cons u us ih =>
    rw [List.append_cons]
    exact ih (h.number u)

lemma nodup (h : Holds l ts) : l.toList.Nodup := by
  refine h.pairwise.imp ?_
  rintro s _ hlt rfl
  exact Nat.lt_irrefl _ hlt

/-- In front of a target stand those that are named before it. -/
lemma toFinset_front (h : Holds l ts) {front back : List Int} (hl : l.toList = front ++ t :: back) :
    front.toFinset = (ts.take (ts.idxOf t)).toFinset := by
  have hp := h.pairwise
  rw [hl] at hp
  obtain ⟨-, hback, hfront⟩ := List.pairwise_append.1 hp
  ext s
  rw [List.mem_toFinset, List.mem_toFinset]
  constructor
  · intro hs
    have hmem : s ∈ ts := (h.mem_iff s).1 (hl ▸ List.mem_append_left _ hs)
    exact (List.mem_take_iff_idxOf_lt hmem).2 (hfront s hs t List.mem_cons_self)
  · intro hs
    have hmem : s ∈ ts := List.mem_of_mem_take hs
    have hlt : ts.idxOf s < ts.idxOf t := (List.mem_take_iff_idxOf_lt hmem).1 hs
    have hsplit : s ∈ front ++ t :: back := hl ▸ (h.mem_iff s).2 hmem
    obtain hs | hs := List.mem_append.1 hsplit
    · exact hs
    · obtain rfl | hs := List.mem_cons.1 hs
      · exact (Nat.lt_irrefl _ hlt).elim
      · exact (Nat.lt_asymm hlt (List.rel_of_pairwise_cons hback hs)).elim

/-- The number of a target is its ordinal. -/
lemma get?_of_mem (h : Holds l ts) (ht : t ∈ ts) : l.get? t = some (ordinal ts t) := by
  obtain ⟨front, back, hl⟩ := List.append_of_mem ((h.mem_iff t).2 ht)
  have hnodup : front.Nodup := (List.nodup_append.1 (hl ▸ h.nodup)).1
  rw [get?_eq_some_iff, ordinal, ← h.toFinset_front hl, List.toFinset_card_of_nodup hnodup, hl,
    List.getElem?_append_right (Nat.le_refl _), Nat.sub_self, List.getElem?_cons_zero]

/-- The numbers that are given are the ordinals. -/
lemma numberAll_fst (h : Holds l ts) (us : List Int) :
    (l.numberAll us).1 = us.map (ordinal (ts ++ us)) := by
  induction us generalizing l ts with
  | nil => rfl
  | cons u us ih =>
    have hu : u ∈ ts ++ [u] := List.mem_append_right _ List.mem_cons_self
    have hfirst : (l.number u).1 = ordinal (ts ++ [u]) u :=
      Option.some.inj (get?_number.symm.trans ((h.number u).get?_of_mem hu))
    rw [List.append_cons, List.map_cons, ordinal_append hu, ← hfirst, ← ih (h.number u)]
    rfl

end Holds

/-- Numbering targets one after another, from none at all. Each target gets its ordinal, and the
table after that is the one of the list, where each has the ordinal as its number; the table holds
every target once, in the order of the first requests. The number of a target is its place, and the
entries, the size and whether there are none say the same. Whatever targets are numbered after that,
none of the old ones changes its number. -/
theorem numbering_of_requests (ts : List Int) :
    empty.numberAll ts = (ts.map (ordinal ts), ofList ts) ∧
      (∀ t ∈ ts, (ofList ts).get? t = some (ordinal ts t)) ∧
      (ofList ts).Holds ts ∧ (ofList ts).toList.Nodup ∧
      (∀ t n, (ofList ts).get? t = some n ↔ (ofList ts).toList[n]? = some t) ∧
      (∀ t n, (t, n) ∈ (ofList ts).entries ↔ (ofList ts).get? t = some n) ∧
      (ofList ts).entries.map Prod.fst = (ofList ts).toList ∧
      (ofList ts).entries.map Prod.snd = List.range (ofList ts).size ∧
      (ofList ts).size = (ofList ts).toList.length ∧ ((ofList ts).isEmpty ↔ ts = []) ∧
      ∀ us t n, (ofList ts).get? t = some n → ((ofList ts).numberAll us).2.get? t = some n := by
  have htable : (empty.numberAll ts).2 = ofList ts := numberAll_snd
  have h : (ofList ts).Holds ts := htable ▸ Holds.nil.numberAll ts
  have hsize : (ofList ts).size = (ofList ts).toList.length := Array.length_toList.symm
  refine ⟨Prod.ext (Holds.nil.numberAll_fst ts) htable, fun t => h.get?_of_mem, h, h.nodup,
    fun t n => get?_eq_some_iff, fun t n => ?_, List.zipIdx_map_fst 0 _, ?_, hsize, ?_,
    fun us t n => get?_numberAll_of_get?⟩
  · rw [entries, List.mk_mem_zipIdx_iff_getElem?, get?_eq_some_iff]
  · rw [entries, List.zipIdx_map_snd, hsize, List.range_eq_range']
  · rw [isEmpty, Array.isEmpty_iff, ← Array.toList_eq_nil_iff]
    constructor
    · intro hl
      refine List.eq_nil_iff_forall_not_mem.2 fun t ht => ?_
      have hmem : t ∈ (ofList ts).toList := (h.mem_iff t).2 ht
      rw [toList, hl] at hmem
      exact List.not_mem_nil hmem
    · rintro rfl
      rfl

/-- Five, minus two and five again, and seven and minus two after that. -/
theorem numbering_of_requests_repeated :
    empty.numberAll [5, -2, 5] = ([0, 1, 0], ofList [5, -2, 5]) ∧
      (ofList [5, -2, 5]).get? (-2) = some 1 ∧
      ((ofList [5, -2, 5]).numberAll [7, -2]).2.get? (-2) = some 1 := by
  obtain ⟨hnumbers, hget, -, -, -, -, -, -, -, -, hkept⟩ := numbering_of_requests [5, -2, 5]
  have h := hget (-2) (by decide)
  exact ⟨hnumbers, h, hkept [7, -2] (-2) 1 h⟩

end LabelTable

end I8086

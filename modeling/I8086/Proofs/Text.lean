import Mathlib.Data.List.Basic
import Mathlib.Tactic.Lemma

/-!
# Texts taken apart

What can be read off a text that was put together from parts. A text splits at a character into
pieces, the parts that were joined if none of them has that character; the pieces at line breaks are
its lines. A decimal numeral consists of digits and tells its number. Main statements:
`pieces_injective`, a text is determined by its pieces; `textLines_join`, the lines of a text that
was put together from lines are these.
-/

namespace I8086

/-- The pieces of a text between the places where a character stands. -/
def pieces (c : Char) (s : String) : List String :=
  (s.toList.splitOn c).map String.ofList

/-- The lines of a text in which a line break ends every line. -/
def textLines (s : String) : List String :=
  (pieces '\n' s).dropLast

/-- Every character of a text is of a kind. -/
def Spelled (p : Char → Bool) (s : String) : Prop :=
  ∀ c ∈ s.toList, p c

instance (p : Char → Bool) (s : String) : Decidable (Spelled p s) :=
  List.decidableBAll (fun c => p c) s.toList

variable {c : Char} {s t : String} {p q : Char → Bool} {n m : Nat}

/-- A text without the character is one piece. -/
lemma pieces_eq_singleton (hs : c ∉ s.toList) : pieces c s = [s] := by
  unfold pieces
  rw [List.splitOn_eq_singleton hs, List.map_singleton, String.ofList_toList]

/-- The first piece ends where the character stands first. -/
lemma pieces_append {sep : String} (hsep : sep.toList = [c]) (hs : c ∉ s.toList) :
    pieces c (s ++ (sep ++ t)) = s :: pieces c t := by
  unfold pieces
  rw [String.toList_append, String.toList_append, hsep, List.singleton_append,
    List.splitOn_append_cons_self_of_not_mem hs, List.map_cons, String.ofList_toList]

/-- An optional piece in front. -/
lemma pieces_ite {sep : String} (hsep : sep.toList = [c]) (hs : c ∉ s.toList) (b : Bool) :
    pieces c ((if b then s ++ sep else "") ++ t) = (if b then [s] else []) ++ pieces c t := by
  cases b with
  | false => exact congrArg (pieces c) String.empty_append
  | true =>
    simp only [if_true, String.append_assoc]
    exact pieces_append hsep hs

/-- Optional pieces behind. -/
lemma pieces_elim {sep : String} (hsep : sep.toList = [c]) (hs : c ∉ s.toList)
    (rest : Option String) :
    pieces c (s ++ rest.elim "" (sep ++ ·)) = s :: rest.elim [] (pieces c) := by
  cases rest with
  | none => exact (congrArg (pieces c) String.append_empty).trans (pieces_eq_singleton hs)
  | some t => exact pieces_append hsep hs

/-- Every text has a piece. -/
lemma pieces_ne_nil : pieces c s ≠ [] := by
  unfold pieces
  rw [ne_eq, List.map_eq_nil_iff]
  exact List.splitOn_ne_nil c s.toList

/-- The pieces of a text with the character between them are the text. -/
lemma intercalate_pieces (c : Char) (s : String) :
    [c].intercalate ((pieces c s).map String.toList) = s.toList := by
  have hid : String.toList ∘ String.ofList = id := funext fun _ => String.toList_ofList
  rw [pieces, List.map_map, hid, List.map_id, List.intercalate_splitOn]

/-- A text is determined by its pieces. -/
theorem pieces_injective : Function.Injective (pieces c) := by
  intro s t h
  rw [← String.toList_inj, ← intercalate_pieces c s, h, intercalate_pieces]

/-- A text that may be missing is determined by its pieces: a text has some. -/
lemma elim_pieces_injective : Function.Injective (Option.elim · [] (pieces c)) := by
  intro s t h
  cases s with
  | none => cases t with
    | none => rfl
    | some t => exact (pieces_ne_nil h.symm).elim
  | some s => cases t with
    | none => exact (pieces_ne_nil h).elim
    | some t => exact congrArg some (pieces_injective h)

/-- A text starts with its first piece. -/
lemma exists_append_of_pieces {ts : List String} (h : pieces c s = t :: ts) :
    ∃ rest, s.toList = t.toList ++ rest := by
  rw [← intercalate_pieces c s, h, List.map_cons]
  cases ts with
  | nil => exact ⟨[], by simp⟩
  | cons u us =>
    rw [List.map_cons, List.intercalate_cons_cons, List.append_assoc]
    exact ⟨_, rfl⟩

/-- Lines in front of a text are its first pieces at line breaks. -/
lemma pieces_join {ls : List String} (hls : ∀ l ∈ ls, '\n' ∉ l.toList) (t : String) :
    pieces '\n' (String.join (ls.map (· ++ "\n")) ++ t) = ls ++ pieces '\n' t := by
  induction ls with
  | nil => exact congrArg (pieces '\n') String.empty_append
  | cons l ls ih =>
    have hl := hls l List.mem_cons_self
    rw [List.map_cons, String.join_cons, String.append_assoc, String.append_assoc,
      pieces_append rfl hl, ih fun k hk => hls k (List.mem_cons_of_mem l hk), List.cons_append]

/-- The lines that a text was put together from are its lines. -/
theorem textLines_join {ls : List String} (hls : ∀ l ∈ ls, '\n' ∉ l.toList) :
    textLines (String.join (ls.map (· ++ "\n"))) = ls := by
  have h := pieces_join hls ""
  have hend : pieces '\n' "" = [""] := pieces_eq_singleton (by decide)
  rw [String.append_empty, hend] at h
  rw [textLines, h, List.dropLast_concat]

/-- Texts that each have the character in front are the pieces behind the first. -/
lemma pieces_join_prefixed {sep : String} (hsep : sep.toList = [c]) (hs : c ∉ s.toList)
    {ts : List String} (hts : ∀ t ∈ ts, c ∉ t.toList) :
    pieces c (s ++ String.join (ts.map (sep ++ ·))) = s :: ts := by
  induction ts generalizing s with
  | nil => exact (congrArg (pieces c) String.append_empty).trans (pieces_eq_singleton hs)
  | cons t ts ih =>
    rw [List.map_cons, String.join_cons, String.append_assoc, pieces_append hsep hs,
      ih (hts t List.mem_cons_self) fun u hu => hts u (List.mem_cons_of_mem t hu)]

/-- The characters of two texts in a row. -/
@[simp] lemma spelled_append : Spelled p (s ++ t) ↔ Spelled p s ∧ Spelled p t := by
  unfold Spelled
  rw [String.toList_append, List.forall_mem_append]

/-- A kind of characters may be widened. -/
lemma Spelled.mono (h : Spelled p s) (hpq : ∀ c, p c → q c) : Spelled q s :=
  fun c hc => hpq c (h c hc)

/-- A character of another kind does not stand in a text. -/
lemma Spelled.notMem (h : Spelled p s) (hc : p c = false) : c ∉ s.toList := by
  intro hmem
  rw [h c hmem] at hc
  cases hc

/-- A numeral consists of digits. -/
lemma spelled_natural (n : Nat) : Spelled Char.isDigit (toString n) := by
  intro c hc
  rw [Nat.toString_eq_ofList_toDigits, String.toList_ofList] at hc
  exact Nat.isDigit_of_mem_toDigits (by decide) (by decide) hc

/-- A signed numeral consists of digits and a sign that may be in front. -/
lemma spelled_integer (z : Int) : Spelled (fun c => c.isDigit || c == '-') (toString z) := by
  have hdigit : ∀ n : Nat, Spelled (fun c => c.isDigit || c == '-') (toString n) := fun n =>
    (spelled_natural n).mono fun c hc => Bool.or_eq_true_iff.2 (.inl hc)
  cases z with
  | ofNat n => exact hdigit n
  | negSucc n => exact spelled_append.2 ⟨by decide, hdigit (n + 1)⟩

/-- A numeral tells its number. -/
lemma natural_injective (h : toString n = toString m) : n = m := by
  rw [Nat.toString_eq_ofList_toDigits, Nat.toString_eq_ofList_toDigits] at h
  have hn := congrArg (Nat.ofDigitChars 10 · 0) (String.ofList_injective h)
  simpa using hn

/-- A signed numeral tells its number. -/
lemma integer_injective {z z' : Int} (h : toString z = toString z') : z = z' := by
  -- Only a negative number has a sign in front of its digits.
  have hsign (n m : Nat) : toString (Int.ofNat n) ≠ toString (Int.negSucc m) := by
    intro (e : toString n = "-" ++ toString (m + 1))
    have hminus : '-' ∉ (toString n).toList := (spelled_natural n).notMem (by decide)
    apply hminus
    rw [e, String.toList_append]
    exact List.mem_append_left _ List.mem_cons_self
  cases z with
  | ofNat n => cases z' with
    | ofNat m => exact congrArg Int.ofNat (natural_injective h)
    | negSucc m => exact (hsign n m h).elim
  | negSucc n => cases z' with
    | ofNat m => exact (hsign m n h.symm).elim
    | negSucc m =>
      have e : "-" ++ toString (n + 1) = "-" ++ toString (m + 1) := h
      rw [Nat.succ.inj (natural_injective ((String.append_right_inj "-").1 e))]

end I8086

import I8086.Proofs.Text
import I8086.Text.Hex

/-!
# Hexadecimal numerals

What the digits of a number tell. What holds of each digit, and of digits with one more behind them,
holds of all numerals (`Hex.toDigits_induction`), and zeros in front change nothing. Main statements:
`Hex.isNumeral_upper`, an upper-case numeral stands for its number and has no more places than it
needs; `Hex.lower_injective`, a lower-case one tells its number.
-/

namespace I8086.Hex

variable {c : Char} {cs : List Char} {n places : Nat}

/-- What holds of each digit, and of digits with one more behind them, holds of all numerals. -/
lemma toDigits_induction {P : Nat → List Char → Prop} (digit : ∀ d < 16, P d [d.digitChar])
    (append : ∀ n ds, 0 < n → P n ds → ∀ d < 16, P (16 * n + d) (ds ++ [d.digitChar])) (n : Nat) :
    P n (Nat.toDigits 16 n) := by
  induction n using Nat.strongRecOn with
  | ind n ih =>
    rw [Nat.toDigits_eq_if (by decide)]
    split
    case isTrue hn => exact digit n hn
    case isFalse hn =>
      have h := append _ _ (by omega) (ih (n / 16) (by omega)) (n % 16) (Nat.mod_lt n (by decide))
      rwa [Nat.div_add_mod] at h

/-- The digits, each at the place of its value. -/
def digits : List Char :=
  "0123456789ABCDEF".toList

/-- The number that a digit stands for, in either case. -/
def digitValue (c : Char) : Nat :=
  digits.idxOf c.toUpper

/-- The number that digits stand for. -/
def value (cs : List Char) : Nat :=
  cs.foldl (fun n c => 16 * n + digitValue c) 0

lemma digitValue_digitChar : ∀ d < 16, digitValue d.digitChar = d := by
  decide

lemma value_append_singleton : value (cs ++ [c]) = 16 * value cs + digitValue c := by
  unfold value
  rw [List.foldl_append, List.foldl_cons, List.foldl_nil]

/-- The digits of a number stand for it. -/
lemma value_toDigits (n : Nat) : value (Nat.toDigits 16 n) = n := by
  refine toDigits_induction (P := fun n ds => value ds = n) ?_ ?_ n
  · intro d hd
    show 16 * 0 + digitValue d.digitChar = d
    rw [digitValue_digitChar d hd, Nat.mul_zero, Nat.zero_add]
  · rintro n ds - rfl d hd
    rw [value_append_singleton, digitValue_digitChar d hd]

/-- Zeros in front change nothing. -/
lemma value_padded (places n : Nat) : value (padded places n) = n := by
  have hzeros : ∀ k, (List.replicate k '0').foldl (fun n c => 16 * n + digitValue c) 0 = 0 := by
    intro k
    induction k with
    | zero => rfl
    | succ k ih => exact ih
  rw [padded, List.leftpad, value, List.foldl_append, hzeros]
  exact value_toDigits n

/-- A numeral tells its number. -/
lemma lower_injective (places : Nat) : Function.Injective (lower places) := by
  intro n m h
  rw [← value_padded places n, String.ofList_injective h, value_padded]

/-- What holds of each digit holds of every character of a padded numeral. -/
lemma forall_mem_padded {P : Char → Prop} (h : ∀ d < 16, P d.digitChar) (places n : Nat) :
    ∀ c ∈ padded places n, P c := by
  have hdigits : ∀ c ∈ Nat.toDigits 16 n, P c := by
    refine toDigits_induction (P := fun _ ds => ∀ c ∈ ds, P c) ?_ ?_ n
    · exact fun d hd => List.forall_mem_singleton.2 (h d hd)
    · intro n ds _ hds d hd c hc
      exact (List.mem_append.1 hc).elim (hds c) fun hc => List.mem_singleton.1 hc ▸ h d hd
  intro c hc
  rw [padded, List.leftpad] at hc
  obtain hc | hc := List.mem_append.1 hc
  · exact List.eq_of_mem_replicate hc ▸ h 0 (by decide)
  · exact hdigits c hc

/-- A numeral consists of letters and decimal digits. -/
lemma spelled_lower (places n : Nat) : Spelled Char.isAlphanum (lower places n) := by
  intro c hc
  rw [lower, String.toList_ofList] at hc
  exact forall_mem_padded (P := fun c => c.isAlphanum) (by decide) places n c hc

/-- A text is the numeral of a number in upper-case digits, with as many places as it needs or as are
asked for. -/
structure IsNumeral (places n : Nat) (s : String) : Prop where
  digit : ∀ c ∈ s.toList, c ∈ digits
  value : value s.toList = n
  le_length : places ≤ s.length
  shortest : places < s.length → s.toList.head? ≠ some '0'

/-- A positive number starts with a digit other than zero. -/
lemma toDigits_eq_cons (hn : 0 < n) :
    ∃ c cs, Nat.toDigits 16 n = c :: cs ∧ c.toUpper ≠ '0' := by
  have hdigit : ∀ d < 16, 0 < d → d.digitChar.toUpper ≠ '0' := by decide
  refine toDigits_induction (P := fun n ds => 0 < n → ∃ c cs, ds = c :: cs ∧ c.toUpper ≠ '0')
    (fun d hd hpos => ⟨_, [], rfl, hdigit d hd hpos⟩) ?_ n hn
  intro n ds hn hds d _ _
  obtain ⟨c, cs, rfl, hc⟩ := hds hn
  exact ⟨c, cs ++ [d.digitChar], rfl, hc⟩

/-- A number is written in upper case as it should be. -/
theorem isNumeral_upper (h : 0 < places) (n : Nat) : IsNumeral places n (upper places n) where
  digit := by
    rw [upper, String.toList_ofList]
    exact List.forall_mem_map.2 (forall_mem_padded (by decide) places n)
  value := by
    have hcase : ∀ c ∈ padded places n, digitValue c.toUpper = digitValue c :=
      forall_mem_padded (by decide) places n
    rw [upper, String.toList_ofList, value, List.foldl_map]
    refine (List.foldl_ext _ _ _ fun k c hc => ?_).trans (value_padded places n)
    rw [hcase c hc]
  le_length := by
    rw [upper, String.length_ofList, List.length_map]
    exact length_padded places n
  shortest := by
    rw [upper, String.length_ofList, String.toList_ofList, List.length_map, padded,
      List.length_leftpad]
    intro hlong
    have hlength : places < (Nat.toDigits 16 n).length := by omega
    have hpos : 0 < n := by
      rcases Nat.eq_zero_or_pos n with rfl | hn
      · exact absurd hlength (Nat.not_lt.2 h)
      · exact hn
    obtain ⟨c, cs, hcs, hc⟩ := toDigits_eq_cons hpos
    rw [List.leftpad, Nat.sub_eq_zero_of_le (Nat.le_of_lt hlength), hcs]
    exact fun e => hc (Option.some.inj e)

end I8086.Hex

import I8086.Json.Basic

/-!
# Reading JSON text

`Json.parse?` reads a whole text as one value, which may not be nested too deep. An integer literal
that fits in 64 bits, signed or unsigned, is an integer; every other number literal, negative zero
included, is a binary64 number. Of several members of an object with one name the last counts.
-/

namespace I8086.Json

/-- A number literal. -/
structure Literal where
  /-- A minus sign stands before the digits. -/
  negative : Bool
  /-- The digits before the point. -/
  whole : List Nat
  /-- The digits after the point, if there is one. -/
  fraction : Option (List Nat)
  /-- The exponent, if there is one. -/
  exponent : Option Int
  deriving DecidableEq, Inhabited

namespace Literal

/-- The greatest significand. -/
def maxSignificand : Nat := 18446744073709551615

/-- The significand of the digits before the point and the number of digits that did not fit. -/
def wholeSignificand (digits : List Nat) : Nat × Nat :=
  digits.foldl (fun (s, dropped) d =>
    if dropped = 0 ∧ s * 10 + d ≤ maxSignificand then (s * 10 + d, 0) else (s, dropped + 1)) (0, 0)

/-- The significand after the digits behind the point, as far as they fit, and their number. -/
def addFraction (s : Nat) : List Nat → Nat × Nat
  | [] => (s, 0)
  | d :: rest =>
    if s * 10 + d ≤ maxSignificand then
      let (t, n) := addFraction (s * 10 + d) rest
      (t, n + 1)
    else (s, 0)

/-- The magnitude as a binary64 number: the leading digits are rounded first, and then their
multiple by a power of ten. -/
def magnitude? (l : Literal) : Option Binary64 := do
  let (s, dropped) := wholeSignificand l.whole
  let (s, used) := addFraction s (l.fraction.getD [])
  let x ← Binary64.ofRatio? s 1
  x.scaleByTen? ((dropped : Int) - used + l.exponent.getD 0)

/-- The integer that the literal stands for, if it is one. -/
def integer? (l : Literal) : Option Int :=
  match l.fraction, l.exponent, wholeSignificand l.whole with
  | none, none, (s, 0) =>
    if !l.negative then some s
    else if 0 < s ∧ s ≤ 9223372036854775808 then some (-s)
    else none
  | _, _, _ => none

/-- The value of the literal; none if it is too large. -/
def value? (l : Literal) : Option Json :=
  match l.integer? with
  | some n => some (.integer n)
  | none => l.magnitude?.map (.real l.negative)

end Literal

/-- Whether a character may stand between the parts of a value. -/
def isBlank (c : Char) : Bool :=
  c = ' ' || c = '\n' || c = '\r' || c = '\t'

/-- The text after blanks. -/
def skipBlanks (cs : List Char) : List Char :=
  cs.dropWhile isBlank

/-- The digits that a text starts with, as numbers, and the rest. -/
def takeDigits (cs : List Char) : List Nat × List Char :=
  ((cs.takeWhile Char.isDigit).map fun c => c.toNat - 48, cs.dropWhile Char.isDigit)

/-- The number that digits stand for. -/
def ofDigits (digits : List Nat) : Nat :=
  digits.foldl (fun n d => n * 10 + d) 0

/-- Reads the fraction of a number, if there is one. -/
def fraction? : List Char → Option (Option (List Nat) × List Char)
  | '.' :: cs =>
    match takeDigits cs with
    | ([], _) => none
    | (digits, rest) => some (some digits, rest)
  | cs => some (none, cs)

/-- Reads the digits of an exponent. -/
def exponentDigits? (negative : Bool) (cs : List Char) : Option (Option Int × List Char) :=
  match takeDigits cs with
  | ([], _) => none
  | (digits, rest) =>
    let n : Int := ofDigits digits
    some (some (if negative then -n else n), rest)

/-- Reads the exponent of a number, if there is one. -/
def exponent? : List Char → Option (Option Int × List Char)
  | c :: cs =>
    if c = 'e' ∨ c = 'E' then
      match cs with
      | '-' :: rest => exponentDigits? true rest
      | '+' :: rest => exponentDigits? false rest
      | rest => exponentDigits? false rest
    else some (none, c :: cs)
  | [] => some (none, [])

/-- Reads a number. A zero before the point stands alone. -/
def number? (cs : List Char) : Option (Json × List Char) := do
  let (negative, cs) := match cs with
    | '-' :: rest => (true, rest)
    | _ => (false, cs)
  let (whole, cs) := takeDigits cs
  if whole.isEmpty || (whole.head? == some 0 && whole.length != 1) then none
  let (fraction, cs) ← fraction? cs
  let (exponent, cs) ← exponent? cs
  let j ← Literal.value? ⟨negative, whole, fraction, exponent⟩
  return (j, cs)

/-- The value of a hexadecimal digit. -/
def hexValue? (c : Char) : Option Nat :=
  if c.isDigit then some (c.toNat - 48)
  else if 'a' ≤ c ∧ c ≤ 'f' then some (c.toNat - 87)
  else if 'A' ≤ c ∧ c ≤ 'F' then some (c.toNat - 55)
  else none

/-- The value of four hexadecimal digits. -/
def hexWord? (a b c d : Char) : Option Nat := do
  return ((← hexValue? a) * 16 + (← hexValue? b)) * 256 + (← hexValue? c) * 16 + (← hexValue? d)

/-- The character that a backslash and a letter stand for. -/
def simpleEscape? : Char → Option Char
  | '"' => some '"'
  | '\\' => some '\\'
  | '/' => some '/'
  | 'b' => some (Char.ofNat 8)
  | 'f' => some (Char.ofNat 12)
  | 'n' => some '\n'
  | 'r' => some '\r'
  | 't' => some '\t'
  | _ => none

/-- The character of a code unit that is not half of a pair. -/
def unitChar? (unit : Nat) : Option Char :=
  if 0xD800 ≤ unit ∧ unit < 0xE000 then none else some (Char.ofNat unit)

/-- The character of a pair of code units. -/
def pairChar? (high low : Nat) : Option Char :=
  if 0xD800 ≤ high ∧ high < 0xDC00 ∧ 0xDC00 ≤ low ∧ low < 0xE000 then
    some (Char.ofNat (0x10000 + (high - 0xD800) * 1024 + (low - 0xDC00)))
  else none

/-- Reads the rest of a string after its opening quote; `acc` holds the characters so far, the last
one first. -/
def stringRest? (acc : List Char) : List Char → Option (String × List Char)
  | [] => none
  | '"' :: rest => some (String.ofList acc.reverse, rest)
  | '\\' :: 'u' :: a :: b :: c :: d :: rest =>
    match hexWord? a b c d with
    | none => none
    | some unit =>
      match unitChar? unit with
      | some x => stringRest? (x :: acc) rest
      | none =>
        match rest with
        | '\\' :: 'u' :: e :: f :: g :: h :: rest =>
          match (hexWord? e f g h).bind (pairChar? unit) with
          | some x => stringRest? (x :: acc) rest
          | none => none
        | _ => none
  | '\\' :: c :: rest =>
    match simpleEscape? c with
    | some x => stringRest? (x :: acc) rest
    | none => none
  | c :: rest => if c.toNat < 32 then none else stringRest? (c :: acc) rest

/-- Reads a member name and the colon after it. -/
def memberName? (cs : List Char) : Option (String × List Char) :=
  match skipBlanks cs with
  | '"' :: rest =>
    match stringRest? [] rest with
    | some (name, rest) =>
      match skipBlanks rest with
      | ':' :: rest => some (name, rest)
      | _ => none
    | none => none
  | _ => none

mutual

/-- Reads a value. The fuel bounds the nesting and the number of items. -/
def readValue? : Nat → List Char → Option (Json × List Char)
  | 0, _ => none
  | fuel + 1, cs =>
    match skipBlanks cs with
    | 'n' :: 'u' :: 'l' :: 'l' :: rest => some (null, rest)
    | 't' :: 'r' :: 'u' :: 'e' :: rest => some (bool true, rest)
    | 'f' :: 'a' :: 'l' :: 's' :: 'e' :: rest => some (bool false, rest)
    | '"' :: rest => (stringRest? [] rest).map fun (s, rest) => (string s, rest)
    | '[' :: rest =>
      match skipBlanks rest with
      | ']' :: rest => some (list [], rest)
      | _ => readItems? fuel [] rest
    | '\x7b' :: rest =>
      match skipBlanks rest with
      | '\x7d' :: rest => some (object [], rest)
      | _ => readMembers? fuel [] rest
    | cs => number? cs

/-- Reads the items of a list; `acc` holds those so far, the last one first. -/
def readItems? : Nat → List Json → List Char → Option (Json × List Char)
  | 0, _, _ => none
  | fuel + 1, acc, cs =>
    match readValue? fuel cs with
    | none => none
    | some (j, rest) =>
      match skipBlanks rest with
      | ',' :: rest => readItems? fuel (j :: acc) rest
      | ']' :: rest => some (list (j :: acc).reverse, rest)
      | _ => none

/-- Reads the members of an object; `acc` holds those so far, the last one first. -/
def readMembers? : Nat → List (String × Json) → List Char → Option (Json × List Char)
  | 0, _, _ => none
  | fuel + 1, acc, cs =>
    match memberName? cs with
    | none => none
    | some (name, rest) =>
      match readValue? fuel rest with
      | none => none
      | some (j, rest) =>
        let acc := (name, j) :: acc.filter (·.1 != name)
        match skipBlanks rest with
        | ',' :: rest => readMembers? fuel acc rest
        | '\x7d' :: rest => some (object acc.reverse, rest)
        | _ => none

end

/-- How deep the values that are read may be nested. -/
def maxDepth : Nat := 127

/-- The value of a text. Two units of fuel a character suffice: of two nested calls at least one
reads a character. -/
def parse? (text : String) : Option Json :=
  let cs := text.toList
  match readValue? (2 * cs.length + 2) cs with
  | some (j, rest) => if (skipBlanks rest).isEmpty && j.depth ≤ maxDepth then some j else none
  | none => none

end I8086.Json

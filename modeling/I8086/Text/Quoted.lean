import I8086.Text.Invisible

/-!
# Quoted text

Text between double quotes in which every character that could be misread is escaped: quotes and
backslashes by a backslash, and characters that show nothing by their code point.
-/

namespace I8086.Quoted

/-- The characters that stand for a character between quotes. -/
def escape (c : Char) : List Char :=
  if c = '"' then ['\\', '"']
  else if c = '\\' then ['\\', '\\']
  else if c = '\n' then ['\\', 'n']
  else if c = '\r' then ['\\', 'r']
  else if c = '\t' then ['\\', 't']
  else if c.toNat = 0 then ['\\', '0']
  else if Invisible.contains c.toNat then ['\\', 'u', '{'] ++ Nat.toDigits 16 c.toNat ++ ['}']
  else [c]

/-- The text between quotes. -/
def quote (s : String) : String :=
  String.ofList ('"' :: s.toList.flatMap escape ++ ['"'])

end I8086.Quoted

import I8086.Json.Basic
import I8086.Number.Shortest
import I8086.Text.Hex

/-!
# JSON text

The text of a JSON value with every member and item on a line of its own, two columns further in than
the value that holds it. Empty lists and objects stay on one line.
-/

namespace I8086.Json

/-- The characters that stand for a character of a string. -/
def escape (c : Char) : List Char :=
  if c = '"' then ['\\', '"']
  else if c = '\\' then ['\\', '\\']
  else if c = '\n' then ['\\', 'n']
  else if c = '\r' then ['\\', 'r']
  else if c = '\t' then ['\\', 't']
  else if c.toNat = 8 then ['\\', 'b']
  else if c.toNat = 12 then ['\\', 'f']
  else if c.toNat < 32 then ['\\', 'u'] ++ Hex.padded 4 c.toNat
  else [c]

/-- A string between quotes. -/
def quote (s : String) : String :=
  String.ofList ('"' :: s.toList.flatMap escape ++ ['"'])

/-- The text of a value that holds no other. -/
def scalarText : Json → String
  | null => "null"
  | bool true => "true"
  | bool false => "false"
  | integer n => toString n
  | real negative x => x.text negative
  | string s => quote s
  | list _ => "[]"
  | object _ => "\x7b\x7d"

/-- A new line, indented. -/
def newLine (depth : Nat) : String :=
  String.ofList ('\n' :: List.replicate (2 * depth) ' ')

mutual

/-- The text over several lines of a value at a depth. -/
def indented (depth : Nat) : Json → String
  | list (j :: rest) =>
    "[" ++ newLine (depth + 1) ++ indented (depth + 1) j ++ indentedItems (depth + 1) rest ++
      newLine depth ++ "]"
  | object ((name, j) :: rest) =>
    "\x7b" ++ newLine (depth + 1) ++ quote name ++ ": " ++ indented (depth + 1) j ++
      indentedMembers (depth + 1) rest ++ newLine depth ++ "\x7d"
  | j => j.scalarText

/-- The text of the items after the first. -/
def indentedItems (depth : Nat) : List Json → String
  | [] => ""
  | j :: rest => "," ++ newLine depth ++ indented depth j ++ indentedItems depth rest

/-- The text of the members after the first. -/
def indentedMembers (depth : Nat) : List (String × Json) → String
  | [] => ""
  | (name, j) :: rest =>
    "," ++ newLine depth ++ quote name ++ ": " ++ indented depth j ++ indentedMembers depth rest

end

/-- The text over several lines. -/
def pretty (j : Json) : String :=
  indented 0 j

end I8086.Json

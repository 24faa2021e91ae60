import I8086.Number.Binary64

/-!
# JSON values

The values of JSON. A number is an integer or a signed binary64 magnitude: which one it is depends on
how it was written, and both are kept apart.
-/

namespace I8086

/-- A JSON value. -/
inductive Json where
  | null
  | bool (value : Bool)
  | integer (value : Int)
  | real (negative : Bool) (magnitude : Binary64)
  | string (value : String)
  | list (items : List Json)
  | object (members : List (String × Json))
  deriving Inhabited

namespace Json

/-- The members of an object. -/
def members? : Json → Option (List (String × Json))
  | object members => some members
  | _ => none

/-- The member of an object with a given name. -/
def member? (j : Json) (name : String) : Option Json :=
  j.members?.bind (·.lookup name)

mutual

/-- How deep lists and objects are nested in each other. -/
def depth : Json → Nat
  | list items => itemsDepth items + 1
  | object members => membersDepth members + 1
  | _ => 0

/-- The depth of the deepest item. -/
def itemsDepth : List Json → Nat
  | [] => 0
  | j :: rest => max j.depth (itemsDepth rest)

/-- The depth of the deepest member. -/
def membersDepth : List (String × Json) → Nat
  | [] => 0
  | (_, j) :: rest => max j.depth (membersDepth rest)

end

/-- A value with a natural number. -/
def nat (n : Nat) : Json :=
  integer n

/-- A value for an optional value; null if there is none. -/
def option {α : Type} (f : α → Json) : Option α → Json
  | some a => f a
  | none => null

end Json

end I8086

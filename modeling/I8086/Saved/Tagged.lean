import I8086.Json.Basic
import I8086.Opcode
import I8086.Operand
import I8086.Flags

/-!
# Saved enumerations

A value of an enumeration is saved as its identifier, and is also read from an object with that
identifier as its one member, null. A variant with content is an object whose one member has the
identifier as name and the content as value. Numbers are read only within the range of their type.
-/

namespace I8086

namespace Json

/-- The identifier of a variant without content. -/
def tag? : Json → Option String
  | string name => some name
  | object [(name, null)] => some name
  | _ => none

/-- The identifier and the content of a variant. -/
def tagged? : Json → Option (String × Json)
  | object [(name, content)] => some (name, content)
  | _ => none

/-- A variant with content. -/
def tagged (name : String) (content : Json) : Json :=
  object [(name, content)]

/-- A truth value. -/
def bool? : Json → Option Bool
  | bool value => some value
  | _ => none

/-- An integer between two bounds. -/
def integer? (low high : Int) : Json → Option Int
  | integer n => if low ≤ n ∧ n ≤ high then some n else none
  | _ => none

/-- A signed byte. -/
def int8? (j : Json) : Option Int8 :=
  (j.integer? (-128) 127).map Int8.ofInt

/-- A signed word. -/
def int16? (j : Json) : Option Int16 :=
  (j.integer? (-32768) 32767).map Int16.ofInt

/-- A word. -/
def uint16? (j : Json) : Option UInt16 :=
  (j.integer? 0 65535).map fun n => UInt16.ofNat n.toNat

/-- A natural number of at most 64 bits. -/
def nat64? (j : Json) : Option Nat :=
  (j.integer? 0 18446744073709551615).map Int.toNat

end Json

/-- The saved form. -/
def Mnemonic.toJson (m : Mnemonic) : Json := .string m.id

/-- The operation of a saved form. -/
def Mnemonic.ofJson? (j : Json) : Option Mnemonic := j.tag?.bind ofId?

/-- The saved form. -/
def Form.toJson (f : Form) : Json := .string f.id

/-- The form of a saved form. -/
def Form.ofJson? (j : Json) : Option Form := j.tag?.bind ofId?

/-- The saved form. -/
def Register.toJson (r : Register) : Json := .string r.id

/-- The register of a saved form. -/
def Register.ofJson? (j : Json) : Option Register := j.tag?.bind ofId?

/-- The saved form. -/
def SegmentRegister.toJson (s : SegmentRegister) : Json := .string s.id

/-- The segment register of a saved form. -/
def SegmentRegister.ofJson? (j : Json) : Option SegmentRegister := j.tag?.bind ofId?

/-- The saved form. -/
def AddressBase.toJson (b : AddressBase) : Json := .string b.id

/-- The address base of a saved form. -/
def AddressBase.ofJson? (j : Json) : Option AddressBase := j.tag?.bind ofId?

/-- The saved form. -/
def Flag.toJson (x : Flag) : Json := .string x.name

/-- The flag of a saved form. -/
def Flag.ofJson? (j : Json) : Option Flag := j.tag?.bind ofName?

end I8086

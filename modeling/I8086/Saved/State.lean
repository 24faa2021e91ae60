import I8086.Json.Basic
import I8086.Number.Shortest
import I8086.RegisterFile
import I8086.Text.Quoted

/-!
# Saved machine state

The register file as JSON, and the state of a machine: an object with the register file and a version
number that reading does not look at. Reading a register file takes an object, whose members are read
before the missing ones are looked for, or a list of its three parts; `LoadError` says what was wrong
first.
-/

namespace I8086

/-- What the reader of a register file asks for. -/
inductive Expected where
  | registers
  | cells
  | segments
  | word
  deriving DecidableEq, Inhabited

/-- What is asked for, in words. -/
def Expected.text : Expected → String
  | registers => "struct RegisterFile"
  | cells => "an array of length 8"
  | segments => "an array of length 4"
  | word => "u16"

/-- A value in words. -/
def Json.kindText : Json → String
  | null => "null"
  | bool value => s!"boolean `{value}`"
  | integer n => s!"integer `{n}`"
  | real negative x => s!"floating point `{x.text negative}`"
  | string s => s!"string {Quoted.quote s}"
  | list _ => "sequence"
  | object _ => "map"

/-- Why a value is not a register file. -/
inductive LoadError where
  /-- A member is missing. -/
  | missing (name : String)
  /-- A value is of the wrong kind. -/
  | kind (found : Json) (expected : Expected)
  /-- An integer is not a word. -/
  | range (found : Int)
  /-- A list ends too early. -/
  | short (length : Nat) (expected : Expected)
  /-- A list goes on for too long. -/
  | long (length : Nat)
  deriving Inhabited

/-- The error in words. -/
def LoadError.message : LoadError → String
  | missing name => s!"missing field `{name}`"
  | kind found expected => s!"invalid type: {found.kindText}, expected {expected.text}"
  | range found => s!"invalid value: integer `{found}`, expected {Expected.word.text}"
  | short length .registers =>
    s!"invalid length {length}, expected {Expected.registers.text} with 3 elements"
  | short length expected => s!"invalid length {length}, expected {expected.text}"
  | long length => s!"invalid length {length}, expected fewer elements in array"

/-- Reads a word. -/
def Json.readWord : Json → Except LoadError UInt16
  | integer n => if 0 ≤ n ∧ n < 65536 then .ok (UInt16.ofNat n.toNat) else .error (.range n)
  | j => .error (.kind j .word)

/-- Reads a list of a given number of words. -/
def Json.readWords (size : Nat) (expected : Expected) : Json → Except LoadError (Vector UInt16 size)
  | list items => do
    let words ← (items.take size).mapM readWord
    if h : words.length = size then
      if items.length = size then .ok ⟨words.toArray, by simpa using h⟩
      else .error (.long items.length)
    else .error (.short items.length expected)
  | j => .error (.kind j expected)

namespace RegisterFile

/-- The saved form. -/
def toJson (r : RegisterFile) : Json :=
  .object
    [("cells", .list (r.cells.toList.map fun w => .nat w.toNat)),
     ("flags", .nat r.flags.bits.toNat),
     ("segments", .list (r.segments.toList.map fun w => .nat w.toNat))]

/-- Reads the general cells. -/
def readCells (j : Json) : Except LoadError (Vector UInt16 8) :=
  j.readWords 8 .cells

/-- Reads the segment words. -/
def readSegments (j : Json) : Except LoadError (Vector UInt16 4) :=
  j.readWords 4 .segments

/-- Reads a part that may be missing. -/
def readMember? {α : Type} (members : List (String × Json)) (name : String)
    (read : Json → Except LoadError α) : Except LoadError (Option α) :=
  match members.lookup name with
  | some j => (read j).map some
  | none => .ok none

/-- A part that has to be there. -/
def require {α : Type} (name : String) : Option α → Except LoadError α
  | some a => .ok a
  | none => .error (.missing name)

/-- Reads the members of an object, in the order of their names. -/
def readMembers (members : List (String × Json)) : Except LoadError RegisterFile := do
  let cells ← readMember? members "cells" readCells
  let flags ← readMember? members "flags" Json.readWord
  let segments ← readMember? members "segments" readSegments
  let cells ← require "cells" cells
  let segments ← require "segments" segments
  let flags ← require "flags" flags
  return ⟨cells, segments, ⟨flags⟩⟩

/-- Reads a list of the parts, in the order of the structure. -/
def readParts (parts : List Json) : Except LoadError RegisterFile :=
  match parts with
  | [] => .error (.short 0 .registers)
  | cells :: parts => do
    let cells ← readCells cells
    match parts with
    | [] => .error (.short 1 .registers)
    | segments :: parts => do
      let segments ← readSegments segments
      match parts with
      | [] => .error (.short 2 .registers)
      | flags :: parts => do
        let flags ← flags.readWord
        if parts.isEmpty then return ⟨cells, segments, ⟨flags⟩⟩
        else .error (.long (parts.length + 3))

/-- The register file of a saved form. -/
def ofJson : Json → Except LoadError RegisterFile
  | .object members => readMembers members
  | .list parts => readParts parts
  | j => .error (.kind j .registers)

/-- The state of a machine with these registers. -/
def save (r : RegisterFile) : Json :=
  .object [("registers", r.toJson), ("version", .nat 1)]

/-- The registers after loading a state. A state without registers changes nothing. -/
def load (r : RegisterFile) (state : Json) : Except LoadError RegisterFile :=
  match state.member? "registers" with
  | some registers => ofJson registers
  | none => .ok r

/-- Loads a state into a machine with these registers: the answer, and the registers after it. They
are replaced only once all of the state has been read. -/
def loadState (r : RegisterFile) (state : Json) : Except LoadError Unit × RegisterFile :=
  match r.load state with
  | .ok loaded => (.ok (), loaded)
  | .error e => (.error e, r)

end RegisterFile

end I8086

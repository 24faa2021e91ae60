import I8086.Saved.Tagged
import I8086.Execution

/-!
# Saved traces

Outcomes, trace entries and traces as JSON. Entries and traces are also read from lists of their
parts in the order of the structures; members of other names are passed over.
-/

namespace I8086

namespace SkipReason

/-- Every reason. -/
def all : List SkipReason :=
  [.opcode, .operand]

/-- The saved form. -/
def toJson (s : SkipReason) : Json := .string s.id

/-- The reason of a saved form. -/
def ofJson? (j : Json) : Option SkipReason :=
  j.tag?.bind fun name => all.find? (·.id == name)

end SkipReason

namespace Outcome

/-- The saved form. -/
def toJson : Outcome → Json
  | .executed => .string "Executed"
  | .skipped reason => .tagged "Skipped" reason.toJson

/-- The outcome of a saved form. -/
def ofJson? (j : Json) : Option Outcome :=
  if j.tag? = some "Executed" then some .executed
  else
    match j.tagged? with
    | some ("Skipped", reason) => (SkipReason.ofJson? reason).map .skipped
    | _ => none

end Outcome

namespace TraceEntry

/-- The saved form. -/
def toJson (e : TraceEntry) : Json :=
  .object
    [("flags", .nat e.flags.bits.toNat), ("index", .nat e.index), ("outcome", e.outcome.toJson)]

/-- The entry with given parts. -/
def ofParts? (index outcome flags : Json) : Option TraceEntry := do
  return ⟨← index.nat64?, ← Outcome.ofJson? outcome, ⟨← flags.uint16?⟩⟩

/-- The entry of a saved form. -/
def ofJson? : Json → Option TraceEntry
  | .list [index, outcome, flags] => ofParts? index outcome flags
  | j => do ofParts? (← j.member? "index") (← j.member? "outcome") (← j.member? "flags")

end TraceEntry

namespace Trace

/-- The saved form. -/
def toJson (t : Trace) : Json :=
  .object [("entries", .list (t.entries.toList.map TraceEntry.toJson))]

/-- The trace with given entries. -/
def ofEntries? : Json → Option Trace
  | .list items => (items.mapM TraceEntry.ofJson?).map fun entries => ⟨entries.toArray⟩
  | _ => none

/-- The trace of a saved form. -/
def ofJson? : Json → Option Trace
  | .list [entries] => ofEntries? entries
  | j => (j.member? "entries").bind ofEntries?

end Trace

end I8086

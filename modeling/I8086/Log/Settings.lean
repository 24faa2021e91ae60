/-!
# Log settings

Levels of detail, the categories of log lines, and the settings that decide which lines are written.
A category follows its own level if it has one, and else the global level. Main statement:
`LogSettings.allows_iff`, a line passes exactly when its level is not off and at most the level in
force.
-/

namespace I8086

/-- How much is logged, and how important a line is. -/
inductive LogLevel where
  | off
  | error
  | warn
  | info
  | debug
  | trace
  deriving DecidableEq, Inhabited

namespace LogLevel

/-- The place in the order of detail. -/
def rank : LogLevel → Nat
  | off => 0
  | error => 1
  | warn => 2
  | info => 3
  | debug => 4
  | trace => 5

/-- The name. -/
def name : LogLevel → String
  | off => "Off"
  | error => "Error"
  | warn => "Warn"
  | info => "Info"
  | debug => "Debug"
  | trace => "Trace"

/-- The level with a given name, an abbreviation of it or its rank, in letters of either case. -/
def ofText? (text : String) : Option LogLevel :=
  match text.toLower with
  | "off" | "0" => some .off
  | "error" | "err" | "1" => some .error
  | "warn" | "warning" | "2" => some .warn
  | "info" | "3" => some .info
  | "debug" | "4" => some .debug
  | "trace" | "5" => some .trace
  | _ => none

end LogLevel

/-- What a log line is about. -/
inductive LogCategory where
  /-- Byte streams and labels. -/
  | decoder
  /-- Executed instructions. -/
  | emulator
  /-- Skipped instructions. -/
  | stubs
  deriving DecidableEq, Inhabited

namespace LogCategory

/-- Every category. -/
def all : List LogCategory :=
  [.decoder, .emulator, .stubs]

/-- The name. -/
def name : LogCategory → String
  | decoder => "Decoder"
  | emulator => "Emulator"
  | stubs => "Stubs"

/-- The category with a given name. -/
def ofName? (s : String) : Option LogCategory :=
  all.find? (·.name == s)

end LogCategory

/-- The levels in force. -/
structure LogSettings where
  /-- The level of categories without their own. -/
  global : LogLevel := .off
  /-- The levels of the categories; off stands for none. -/
  own : LogCategory → LogLevel := fun _ => .off

namespace LogSettings

/-- The settings with a new global level. -/
def setGlobal (s : LogSettings) (level : LogLevel) : LogSettings :=
  { s with global := level }

/-- The settings with a new level for a category. -/
def setLevel (s : LogSettings) (category : LogCategory) (level : LogLevel) : LogSettings :=
  { s with own := fun c => if c = category then level else s.own c }

/-- The level in force for a category. -/
def effective (s : LogSettings) (category : LogCategory) : LogLevel :=
  if s.own category = .off then s.global else s.own category

/-- Whether a line of a category and level is written. -/
def allows (s : LogSettings) (category : LogCategory) (level : LogLevel) : Bool :=
  level != .off && level.rank ≤ (s.effective category).rank

/-- A line passes exactly when its level is not off and at most the level in force. -/
theorem allows_iff (s : LogSettings) (category : LogCategory) (level : LogLevel) :
    s.allows category level ↔ level ≠ .off ∧ level.rank ≤ (s.effective category).rank := by
  simp [allows]

end LogSettings

end I8086

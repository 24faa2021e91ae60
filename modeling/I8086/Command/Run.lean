import I8086.Command.Options
import I8086.Dump
import I8086.FileSystem.Path
import I8086.Log.Line
import I8086.Saved.State

/-!
# Running the command

The command reads a byte stream, decodes it, and prints, runs and saves as its options say. It is
written over a `Host`, what it needs of the system, so that the same text runs on a real system and on
files in memory, and over the `text` that a saved state is written as. A failure ends it with exit
code 1 and a report on the error stream; what was printed before stays.
-/

namespace I8086

/-- What the command needs of the system it runs on. -/
structure Host (m : Type → Type) where
  /-- An open file. -/
  Handle : Type
  /-- Opens a file for appending and creates it if it is missing. -/
  openAppend : String → m (Except FileError Handle)
  /-- Opens a file for writing and empties it. -/
  openNew : String → m (Except FileError Handle)
  /-- Adds text to an open file. -/
  append : Handle → String → m (Except FileError Unit)
  /-- Reads a whole file. -/
  read : String → m (Except FileError ByteArray)
  /-- Prints text. -/
  print : String → m Unit
  /-- Prints text on the error stream. -/
  printError : String → m Unit

/-- Why the command fails. -/
inductive CommandError where
  /-- No log level has this name. -/
  | logLevel (name : String)
  /-- The log file cannot be opened. -/
  | openLog (path : String) (cause : FileError)
  /-- The input cannot be read. -/
  | read (path : String) (cause : FileError)
  /-- The input is not a program. -/
  | decode (path : String) (cause : DecodeError)
  /-- The save file cannot be created. -/
  | create (path : String) (cause : FileError)
  /-- The save file cannot be written. -/
  | write (cause : FileError)
  deriving DecidableEq, Inhabited

/-- A report with a cause. -/
def causedBy (context cause : String) : String :=
  s!"Error: {context}\n\nCaused by:\n    {cause}\n"

/-- The report on the error stream. -/
def CommandError.report : CommandError → String
  | logLevel name => s!"Error: invalid log level '{name}'\n"
  | openLog path cause => causedBy s!"failed to open log file {path}" cause.message
  | read path cause => causedBy s!"failed to read {path}" cause.message
  | decode path cause => causedBy s!"failed to decode {path}" cause.message
  | create path cause => causedBy s!"failed to create {path}" cause.message
  | write cause => s!"Error: {cause.message}\n"

/-- What `--exec` prints: the trace, a separating line and the registers. -/
def Program.runReport (p : Program) (s : Run) : String :=
  s!"{p.traceText s.trace}\n==========================================\n{s.registers.dump}\n"

namespace Command

variable {m : Type → Type} [Monad m]

/-- Opens the log file, if there is one. -/
def openLog (host : Host m) (path : Option String) :
    ExceptT CommandError m (Option host.Handle) := do
  match path with
  | none => return none
  | some path =>
    match ← host.openAppend path with
    | .ok handle => return some handle
    | .error e => throw (.openLog path e)

/-- Logs the lines that the settings let through, to the log file or, without one or if it cannot
take them, to the error stream. -/
def log (host : Host m) (settings : LogSettings) (sink : Option host.Handle)
    (lines : List LogLine) : m Unit := do
  let text := settings.text lines
  match sink with
  | none => host.printError text
  | some handle =>
    match ← host.append handle text with
    | .ok () => return ()
    | .error _ => host.printError text

/-- Saves registers in a file. -/
def save (host : Host m) (text : Json → String) (path : String) (r : RegisterFile) :
    ExceptT CommandError m Unit := do
  match ← host.openNew path with
  | .error e => throw (.create path e)
  | .ok handle =>
    match ← host.append handle (text r.save) with
    | .error e => throw (.write e)
    | .ok () => return ()

/-- Runs a program from registers of zero, logs the run, prints it with `--exec` and saves the
registers with `--save`. -/
def execute (host : Host m) (text : Json → String) (o : Options) (settings : LogSettings)
    (sink : Option host.Handle) (program : Program) : ExceptT CommandError m Unit := do
  let s := RegisterFile.run {} program.instructions
  (log host settings sink (program.runLines s.trace) : m Unit)
  if o.exec then host.print (program.runReport s)
  if let some path := o.save then save host text path s.registers

/-- Prints the listing of a program with `--print`, and runs it with `--exec` or `--save`. -/
def act (host : Host m) (text : Json → String) (o : Options) (settings : LogSettings)
    (sink : Option host.Handle) (program : Program) : ExceptT CommandError m Unit := do
  if o.print then host.print program.listing
  if o.exec || o.save.isSome then execute host text o settings sink program

/-- The work of the command, from the log level to the saved registers. -/
def perform (host : Host m) (text : Json → String) (o : Options) :
    ExceptT CommandError m Unit := do
  let some level := LogLevel.ofText? o.logLevel | throw (.logLevel o.logLevel)
  let settings : LogSettings := { global := level }
  let sink ← openLog host o.logFile
  match ← host.read o.input with
  | .error e => throw (.read o.input e)
  | .ok bytes =>
    let d := decoding bytes.toList
    (log host settings sink d.lines : m Unit)
    match d.result with
    | .error e => throw (.decode o.input e)
    | .ok program => act host text o settings sink program

/-- Runs the command and gives its exit code. -/
def run (host : Host m) (text : Json → String) (o : Options) : m UInt32 := do
  match ← (perform host text o).run with
  | .ok () => return 0
  | .error e =>
    host.printError e.report
    return 1

end Command

end I8086

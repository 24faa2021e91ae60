import I8086.FileSystem.Basic
import I8086.Log.Line

/-!
# Journals

A journal has log settings and may have a file. The lines that the settings let through are added at
the end of the file. Without a file, or if the file cannot take them, they go to the error stream.
-/

namespace I8086

/-- Log settings and where the lines go. -/
structure Journal where
  /-- The levels in force. -/
  settings : LogSettings := {}
  /-- The open file. -/
  sink : Option Place := none
  /-- The files and the error stream. -/
  fileSystem : FileSystem := {}

namespace Journal

/-- Turns every level off; the file stays. -/
def reset (j : Journal) : Journal :=
  { j with settings := {} }

/-- Opens the file at a path. If that fails, the file in use stays. -/
def openFile (j : Journal) (path : String) : Except FileError Journal := do
  let (place, after) ← j.fileSystem.openAppend path
  return { j with sink := some place, fileSystem := after }

/-- Goes back to the error stream. -/
def closeFile (j : Journal) : Journal :=
  { j with sink := none }

/-- Adds text at the end of the file, or to the error stream. -/
def append (j : Journal) (text : String) : Journal :=
  match j.sink with
  | some place =>
    match j.fileSystem.append place text with
    | .ok after => { j with fileSystem := after }
    | .error _ => { j with fileSystem := j.fileSystem.printError text }
  | none => { j with fileSystem := j.fileSystem.printError text }

/-- Logs a message. It is made only if the settings let it through. -/
def logMessage {m : Type → Type} [Monad m] (j : Journal) (category : LogCategory)
    (level : LogLevel) (message : m String) : m Journal := do
  if j.settings.allows category level then
    return j.append (LogLine.text ⟨category, level, ← message⟩)
  else return j

/-- Logs the lines that the settings let through. -/
def log (j : Journal) (lines : List LogLine) : Journal :=
  j.append (j.settings.text lines)

end Journal

end I8086

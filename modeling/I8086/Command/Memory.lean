import I8086.Command.Run
import I8086.FileSystem.Basic

/-!
# The command in memory

The host whose files and streams are those of a `FileSystem`, and the command run on it.
-/

namespace I8086.FileSystem

/-- Uses the file system after an operation, if it succeeds. -/
def commit {α : Type} (result : Except FileError (α × FileSystem)) :
    StateM FileSystem (Except FileError α) := do
  match result with
  | .ok (value, after) =>
    set after
    return .ok value
  | .error e => return .error e

/-- The host on files in memory. -/
def host : Host (StateM FileSystem) where
  Handle := Place
  openAppend path := do commit ((← get).openAppend path)
  openNew path := do commit ((← get).openNew path)
  append place text := do commit (((← get).append place text).map fun after => ((), after))
  read path := do return (← get).readPath path
  print text := modify fun f => f.print text
  printError text := modify fun f => f.printError text

/-- The exit code and the file system after the command has run. -/
def runCommand (f : FileSystem) (text : Json → String) (o : Options) : UInt32 × FileSystem :=
  (Command.run host text o).run f

end I8086.FileSystem

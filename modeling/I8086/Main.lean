import I8086.Command.Run

/-!
# The command line

The command on the files and streams of the system.
-/

namespace I8086

/-- The number of a system error, which some calls give with a minus sign. -/
def systemNumber (code : UInt32) : Nat :=
  if code.toInt32 < 0 then (-code.toInt32).toNatClampNeg else code.toNat

/-- The failure that a system error stands for. -/
def FileError.ofSystem (e : IO.Error) : FileError :=
  match e with
  | .noFileOrDirectory .. => .notFound
  | .permissionDenied .. => .denied
  | .inappropriateType _ code _ =>
    if systemNumber code = 20 then .notDirectory
    else if systemNumber code = 21 then .isDirectory
    else .other (toString e)
  | .resourceExhausted _ code _ =>
    if systemNumber code = 28 then .noSpace else .other (toString e)
  | .invalidArgument _ code _ =>
    if systemNumber code = 36 then .nameTooLong else .other (toString e)
  | e => .other (toString e)

/-- Catches the failure of a system call. -/
def attempt {α : Type} (action : IO α) : IO (Except FileError α) := do
  try
    return .ok (← action)
  catch e =>
    return .error (FileError.ofSystem e)

/-- The host on the files and streams of the system. -/
def systemHost : Host IO where
  Handle := IO.FS.Handle
  openAppend path := attempt (IO.FS.Handle.mk path .append)
  openNew path := attempt (IO.FS.Handle.mk path .write)
  append handle text := attempt do
    handle.putStr text
    handle.flush
  read path := attempt (IO.FS.readBinFile path)
  print text := IO.print text
  printError text := IO.eprint text

/-- Runs the command on arguments. They are understood as options, or as an exit code once all that
there is to say of them is printed. -/
def Command.onSystem (options : List String → IO (Except UInt32 Options)) (text : Json → String)
    (args : List String) : IO UInt32 := do
  match ← options args with
  | .ok o => run systemHost text o
  | .error code => return code

end I8086

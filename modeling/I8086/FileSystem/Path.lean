/-!
# Paths

The steps that the text of a path names, and why a file cannot be used.
-/

namespace I8086

/-- Why a file cannot be used. -/
inductive FileError where
  | notFound
  | denied
  | notDirectory
  | isDirectory
  | noSpace
  /-- There is nothing behind a device. -/
  | noDevice
  /-- A name or the whole path is too long. -/
  | nameTooLong
  /-- The path holds the character that ends names. -/
  | badName
  /-- Any other failure, as the system describes it. -/
  | other (text : String)
  deriving DecidableEq, Inhabited

/-- The failure in words, with the system's number. -/
def FileError.message : FileError → String
  | notFound => "No such file or directory (os error 2)"
  | denied => "Permission denied (os error 13)"
  | noDevice => "No such device or address (os error 6)"
  | notDirectory => "Not a directory (os error 20)"
  | isDirectory => "Is a directory (os error 21)"
  | noSpace => "No space left on device (os error 28)"
  | nameTooLong => "File name too long (os error 36)"
  | badName => "file name contained an unexpected NUL byte"
  | other text => text

/-- A step from a directory. -/
inductive PathStep where
  /-- To the directory itself. -/
  | here
  /-- To the directory above it. -/
  | up
  /-- To what has this name in it. -/
  | name (name : String)
  deriving DecidableEq, Inhabited

/-- A path as steps. -/
structure Path where
  /-- The steps start at the root instead of the working directory. -/
  absolute : Bool := false
  /-- The steps in order. -/
  steps : List PathStep := []
  /-- The text ends with a slash, so that only a directory is meant. -/
  slash : Bool := false
  deriving DecidableEq, Inhabited

namespace Path

/-- The parts of a text between its slashes. -/
def segments : List Char → List (List Char)
  | [] => [[]]
  | c :: cs =>
    if c = '/' then [] :: segments cs
    else
      match segments cs with
      | s :: rest => (c :: s) :: rest
      | [] => [[c]]

/-- The step that a segment names; slashes next to each other name none. -/
def step? : List Char → Option PathStep
  | [] => none
  | ['.'] => some .here
  | ['.', '.'] => some .up
  | cs => some (.name (String.ofList cs))

/-- The path that a text names. The empty text names the working directory. -/
def ofText (text : String) : Path where
  absolute := text.toList.head? = some '/'
  steps := (segments text.toList).filterMap step?
  slash := text.toList.getLast? = some '/'

/-- The greatest number of bytes in a name. -/
def maxName : Nat := 255

/-- The number of bytes from which on a path is too long. -/
def maxPath : Nat := 4096

/-- The path that a text names, if a system takes it. -/
def ofText? (text : String) : Except FileError Path :=
  if text.toList.contains '\x00' then .error .badName
  else if maxPath ≤ text.utf8ByteSize then .error .nameTooLong
  else .ok (ofText text)

end Path

end I8086

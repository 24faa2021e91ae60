import I8086.FileSystem.Layout

/-!
# File systems

Files held in memory beside the directories and devices of a layout, and the text that the two
output devices took. Main statement: `FileSystem.read?_put`, a file holds what was last put into it,
and no other file changes.
-/

namespace I8086

/-- A place that can be written to. -/
inductive Place where
  /-- A file, whether it exists or not. -/
  | file (names : Names)
  | device (device : Device)
  deriving DecidableEq, Inhabited

/-- What stands at a place. -/
inductive Node where
  | directory
  | device (device : Device)
  | file (content : ByteArray)

/-- Directories, devices and files, and the text of the output devices. -/
structure FileSystem where
  /-- The directories and devices. -/
  layout : Layout := .usual
  /-- The files with their contents, in the order of their creation. -/
  files : List (Names × ByteArray) := []
  /-- What went to the output. -/
  output : String := ""
  /-- What went to the error stream. -/
  errors : String := ""
  deriving Inhabited

namespace FileSystem

/-- The content of a file. -/
def read? (f : FileSystem) (names : Names) : Option ByteArray :=
  f.files.lookup names

/-- Replaces the content of the first file at a place, or adds one at the end. -/
def putFile (names : Names) (content : ByteArray) :
    List (Names × ByteArray) → List (Names × ByteArray)
  | [] => [(names, content)]
  | (n, c) :: rest =>
    if n = names then (names, content) :: rest else (n, c) :: putFile names content rest

/-- The file system with a file's content replaced. -/
def put (f : FileSystem) (names : Names) (content : ByteArray) : FileSystem :=
  { f with files := putFile names content f.files }

/-- A file holds what was last put into it, and no other file changes. -/
theorem read?_put (f : FileSystem) (names other : Names) (content : ByteArray) :
    (f.put names content).read? other =
      if other = names then some content else f.read? other := by
  obtain ⟨layout, files, output, errors⟩ := f
  simp only [read?, put]
  induction files with
  | nil =>
    by_cases h : other = names
    · simp [putFile, h]
    · have : (other == names) = false := by simpa using h
      simp [putFile, List.lookup_cons, this, h]
  | cons file rest ih =>
    obtain ⟨n, c⟩ := file
    rw [putFile]
    by_cases hn : n = names
    · subst hn
      by_cases h : other = n
      · simp [h]
      · have : (other == n) = false := by simpa using h
        simp [List.lookup_cons, this, h]
    · rw [if_neg hn]
      by_cases h : other = n
      · subst h
        simp [hn]
      · have : (other == n) = false := by simpa using h
        simp only [List.lookup_cons, this]
        exact ih

/-- The file system with a file of the working directory. -/
def withFile (f : FileSystem) (name : String) (content : ByteArray) : FileSystem :=
  f.put (f.layout.working ++ [name]) content

/-- What stands at a place, if anything does. -/
def node? (f : FileSystem) (names : Names) : Option Node :=
  if f.layout.directories.contains names then some .directory
  else
    match f.layout.devices.lookup names with
    | some d => some (.device d)
    | none => (f.read? names).map .file

/-- Refuses a name that is too long. -/
def checkName (name : String) : Except FileError Unit :=
  if Path.maxName < name.utf8ByteSize then .error .nameTooLong else .ok ()

/-- Steps from one directory to another. -/
def enter (f : FileSystem) (directory : Names) : PathStep → Except FileError Names
  | .here => .ok directory
  | .up => .ok directory.dropLast
  | .name name => do
    checkName name
    match f.node? (directory ++ [name]) with
    | some .directory => return directory ++ [name]
    | some _ => .error .notDirectory
    | none => .error .notFound

/-- The directory that all steps but a last name lead to, and that name. A path that ends in a step
to a directory has no last name. -/
def target (f : FileSystem) (p : Path) : Except FileError (Names × Option String) := do
  let start := if p.absolute then [] else f.layout.working
  match p.steps.getLast? with
  | some (.name name) => return (← p.steps.dropLast.foldlM f.enter start, some name)
  | _ => return (← p.steps.foldlM f.enter start, none)

/-- The content of the file at a path. -/
def readPath (f : FileSystem) (text : String) : Except FileError ByteArray := do
  let p ← Path.ofText? text
  match ← f.target p with
  | (_, none) => .error .isDirectory
  | (directory, some name) =>
    checkName name
    match f.node? (directory ++ [name]) with
    | none => .error .notFound
    | some .directory => .error .isDirectory
    | some (.file content) => if p.slash then .error .notDirectory else return content
    | some (.device d) =>
      if p.slash then .error .notDirectory
      else
        match d with
        | .full | .endless => .error (.other "the device has no end")
        | .terminal => .error .noDevice
        | _ => return .empty

/-- The place that a path leads to for writing. -/
def place (f : FileSystem) (text : String) : Except FileError Place := do
  let p ← Path.ofText? text
  match ← f.target p with
  | (_, none) => .error .isDirectory
  | (directory, some name) =>
    if p.slash then .error .isDirectory
    else do
      checkName name
      match f.node? (directory ++ [name]) with
      | some .directory => .error .isDirectory
      | some (.device .terminal) => .error .noDevice
      | some (.device d) => return .device d
      | some (.file _) => return .file (directory ++ [name])
      | none =>
        match f.layout.refusals.lookup directory with
        | some e => .error e
        | none => return .file (directory ++ [name])

/-- Opens the file at a path for appending; a new file is empty. -/
def openAppend (f : FileSystem) (text : String) : Except FileError (Place × FileSystem) := do
  match ← f.place text with
  | .file names => return (.file names, f.put names ((f.read? names).getD .empty))
  | .device d => return (.device d, f)

/-- Opens the file at a path for writing; an old file becomes empty. -/
def openNew (f : FileSystem) (text : String) : Except FileError (Place × FileSystem) := do
  match ← f.place text with
  | .file names => return (.file names, f.put names .empty)
  | .device d => return (.device d, f)

/-- Adds text to the output. -/
def print (f : FileSystem) (text : String) : FileSystem :=
  { f with output := f.output ++ text }

/-- Adds text to the error stream. -/
def printError (f : FileSystem) (text : String) : FileSystem :=
  { f with errors := f.errors ++ text }

/-- Adds text at the end of an open file, or gives it to a device. -/
def append (f : FileSystem) (place : Place) (text : String) : Except FileError FileSystem :=
  match place with
  | .file names => .ok (f.put names ((f.read? names).getD .empty ++ text.toUTF8))
  | .device .full => if text.isEmpty then .ok f else .error .noSpace
  | .device .output => .ok (f.print text)
  | .device .errors => .ok (f.printError text)
  | .device _ => .ok f

end FileSystem

end I8086

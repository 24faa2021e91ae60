import I8086.FileSystem.Path

/-!
# Layout of a system

The directories and devices of a system, by the names that lead to them from the root, and the
working directory of a command.
-/

namespace I8086

/-- The names that lead from the root to a place. -/
abbrev Names := List String

/-- A device. -/
inductive Device where
  /-- Takes everything and keeps nothing; there is nothing to read. -/
  | null
  /-- Takes everything; what there is to read has no end. -/
  | endless
  /-- Takes nothing; what there is to read has no end. -/
  | full
  /-- The terminal of the running command, which has none. -/
  | terminal
  /-- The output of the running command. -/
  | output
  /-- The error stream of the running command. -/
  | errors
  deriving DecidableEq, Inhabited

/-- What stands in a system beside the files. -/
structure Layout where
  /-- The working directory. -/
  working : Names
  /-- The directories. -/
  directories : List Names
  /-- The directories that take no new file, and how they refuse it. -/
  refusals : List (Names × FileError)
  /-- The devices. -/
  devices : List (Names × Device)
  deriving DecidableEq

namespace Layout

/-- The layout of most systems. Some directories have entries that only the system makes, and the
input of the running command is empty. -/
def usual : Layout where
  working := ["tmp", "work"]
  directories :=
    [[], ["bin"], ["boot"], ["dev"], ["dev", "fd"], ["dev", "pts"], ["dev", "shm"], ["etc"], ["home"],
     ["lib"], ["media"], ["mnt"], ["opt"], ["proc"], ["root"], ["run"], ["sbin"], ["srv"], ["sys"],
     ["tmp"], ["tmp", "work"], ["usr"], ["var"]]
  refusals :=
    [(["dev", "fd"], .notFound), (["dev", "pts"], .denied), (["proc"], .notFound),
     (["sys"], .denied)]
  devices :=
    [(["dev", "null"], .null), (["dev", "zero"], .endless), (["dev", "random"], .endless),
     (["dev", "urandom"], .endless), (["dev", "full"], .full), (["dev", "tty"], .terminal),
     (["dev", "stdin"], .null), (["dev", "stdout"], .output), (["dev", "stderr"], .errors),
     (["dev", "fd", "0"], .null), (["dev", "fd", "1"], .output), (["dev", "fd", "2"], .errors)]

instance : Inhabited Layout := ⟨usual⟩

end Layout

end I8086

/-!
# Command options

What the command can be asked to do.
-/

namespace I8086

/-- What the command is asked to do. -/
structure Options where
  /-- The file with the byte stream. -/
  input : String
  /-- Print the listing. -/
  print : Bool := false
  /-- Run the program and print the trace and the registers. -/
  exec : Bool := false
  /-- Run the program and save the registers in a file. -/
  save : Option String := none
  /-- The name of the log level. -/
  logLevel : String := "warn"
  /-- The file that log lines go to. -/
  logFile : Option String := none
  deriving DecidableEq, Inhabited

end I8086

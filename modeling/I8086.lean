import I8086.Command.Memory
import I8086.Main
import I8086.Saved.Instruction
import I8086.Saved.Trace
import I8086.Json.Reader
import I8086.Log.Journal
import I8086.Proofs.Concatenation
import I8086.Proofs.Truncation
import I8086.Proofs.Grammar
import I8086.Proofs.Chunks
import I8086.Proofs.Length
import I8086.Proofs.Encoder
import I8086.Proofs.RoundTrip
import I8086.Proofs.Failure
import I8086.Proofs.Modifiers
import I8086.Proofs.WellFormed
import I8086.Proofs.Execution
import I8086.Proofs.Executable
import I8086.Proofs.Numbering
import I8086.Proofs.Branches
import I8086.Proofs.Placement
import I8086.Proofs.Text
import I8086.Proofs.Wording
import I8086.Proofs.OperandSize
import I8086.Proofs.Hex
import I8086.Proofs.Dump
import I8086.Proofs.Listing
import I8086.Proofs.Effect
import I8086.Proofs.Runs
import I8086.Proofs.Frame
import I8086.Proofs.OldFlags
import I8086.Proofs.Store
import I8086.Proofs.Alternatives
import I8086.Proofs.Addressing
import I8086.Proofs.SavedState
import I8086.Proofs.SavedForms
import I8086.Proofs.DecodeLog
import I8086.Proofs.Logging
import I8086.Proofs.ExactArithmetic
import I8086.Proofs.Files
import I8086.Proofs.JsonText
import I8086.Proofs.JournalHistory
import I8086.Proofs.Command

import I8086.Proofs.DecodeLog
import I8086.Proofs.Hex
import I8086.Proofs.Runs

/-!
# Logging

A pass that logs asks the settings at each line whether to write it, and goes on with what it has
written: `Decoder.runLogging` decodes and `RegisterFile.runLogging` runs in this way. Their results
are those of the passes that do not log, and what they write is what the settings let through of the
lines of the pass, since each step adds its own (`Decoder.logItem_kept`, `Run.foldl_stepLogging`).
Main statement: `logging_eq_filter`, with the lines of the full log.
-/

namespace I8086

namespace LogSettings

/-- The settings with every level at its most detailed. -/
def full : LogSettings :=
  ⟨.trace, fun _ => .trace⟩

/-- The lines that the settings let through. -/
def kept (s : LogSettings) (lines : List LogLine) : List LogLine :=
  lines.filter fun l => s.allows l.category l.level

/-- The log with one more line, if the settings let it through. -/
def write (s : LogSettings) (log : List LogLine) (l : LogLine) : List LogLine :=
  if s.allows l.category l.level then log ++ [l] else log

/-- Writing a line adds it, if it is let through. -/
lemma write_eq (s : LogSettings) (log : List LogLine) (l : LogLine) :
    s.write log l = log ++ s.kept [l] := by
  unfold write kept
  cases h : s.allows l.category l.level <;> simp [h]

lemma kept_append (s : LogSettings) (xs ys : List LogLine) :
    s.kept (xs ++ ys) = s.kept xs ++ s.kept ys :=
  List.filter_append xs ys

/-- The most detailed settings hold back only what is off. -/
lemma full_allows_iff {category : LogCategory} {level : LogLevel} :
    full.allows category level ↔ level ≠ .off := by
  rw [allows_iff]
  refine ⟨And.left, fun h => ⟨h, ?_⟩⟩
  show level.rank ≤ 5
  cases level <;> decide

/-- The most detailed settings let every line through that has a level. -/
lemma kept_full {lines : List LogLine} (h : ∀ l ∈ lines, l.level ≠ .off) :
    full.kept lines = lines :=
  List.filter_eq_self.2 fun l hl => full_allows_iff.2 (h l hl)

end LogSettings

namespace Decoder

/-- Writes the lines of an item whose opcode stands at an offset: none for a modifying byte; for an
instruction the line of a new label, if it branches to a target without one, and its own line. -/
def logItem (s : LogSettings) (d : Decoder) (offset : Nat) (log : List LogLine) :
    Item → List LogLine
  | .modifier _ => log
  | .instruction i =>
    let index := d.instructions.size
    let log :=
      match i.target? index with
      | some t =>
        if d.labels.get? t = none then s.write log (DecodeEvent.label d.labels.size t index).line
        else log
      | none => log
    s.write log (DecodeEvent.instruction offset index (d.pending.apply i)).line

/-- Decodes from a cursor on and logs. -/
def runLogging (s : LogSettings) (d : Decoder) (log : List LogLine) (c : Cursor) :
    Except DecodeError Program × List LogLine :=
  if c.atEnd then
    (.ok ⟨d.instructions, d.labels⟩,
      s.write log (DecodeEvent.finished d.instructions.size d.labels.size).line)
  else
    match _h : Item.reader.run c with
    | .error position => (.error (.endOfBytes position d.instructions.size), log)
    | .ok (.error u, _) =>
      (.error (.unsupported u.opcode u.form c.position d.instructions.size), log)
    | .ok (.ok item, e) =>
      (d.accept c.position item).runLogging s (d.logItem s c.position log item) e
termination_by c.rest.length
decreasing_by exact Reader.length_rest_lt _h

/-- Logging an item adds what the settings let through of the lines that it adds to the pass. -/
lemma logItem_kept (s : LogSettings) (d : Decoder) (offset : Nat) (item : Item) :
    d.logItem s offset (s.kept d.lines) item = s.kept (d.accept offset item).lines := by
  cases item with
  | modifier m => rfl
  | instruction i =>
    rw [lines_accept, s.kept_append]
    show s.write _ _ = s.kept d.lines ++ s.kept (d.program.labelLines _ ++ [_])
    rw [s.kept_append, s.write_eq, ← List.append_assoc]
    refine congrArg (· ++ _) ?_
    unfold Program.labelLines program Program.size
    rw [Pending.target?_apply]
    cases i.target? d.instructions.size with
    | none => exact (List.append_nil _).symm
    | some t =>
      by_cases h : d.labels.get? t = none
      · simp only [h, if_true, s.write_eq]
        rfl
      · simp only [h, if_false]
        exact (List.append_nil _).symm

/-- A pass that logs has the result of the pass, and of its lines those that are let through. -/
lemma runLogging_eq (s : LogSettings) (d : Decoder) (c : Cursor) :
    d.runLogging s (s.kept d.lines) c = ((d.run c).result, s.kept (d.run c).lines) := by
  fun_induction Decoder.run d c with
  | case1 d c hend =>
    rw [runLogging, if_pos hend, s.write_eq, ← s.kept_append]
    unfold finish Decoding.lines lines
    rw [Array.toList_push, List.map_append]
    rfl
  | case2 d c hend position hr =>
    rw [runLogging, if_neg hend]
    split
    · next h =>
      cases h.symm.trans hr
      rfl
    · next h => cases h.symm.trans hr
    · next h => cases h.symm.trans hr
  | case3 d c hend u e hr =>
    rw [runLogging, if_neg hend]
    split
    · next h => cases h.symm.trans hr
    · next h =>
      cases h.symm.trans hr
      rfl
    · next h => cases h.symm.trans hr
  | case4 d c hend item e hr ih =>
    rw [runLogging, if_neg hend]
    split
    · next h => cases h.symm.trans hr
    · next h => cases h.symm.trans hr
    · next h =>
      cases h.symm.trans hr
      rw [logItem_kept, ih]

end Decoder

/-- Decodes a byte stream and logs. -/
def decodeLogging (s : LogSettings) (bytes : List UInt8) :
    Except DecodeError Program × List LogLine :=
  Decoder.runLogging s {} [] (.ofBytes bytes)

/-- Executes one more instruction and logs. -/
def Run.stepLogging (s : LogSettings) : Run × List LogLine → Instruction → Run × List LogLine
  | (run, log), i =>
    let (outcome, registers) := run.registers.execute i
    let entry : TraceEntry := ⟨run.trace.entries.size, outcome, registers.flags⟩
    (⟨registers, ⟨run.trace.entries.push entry⟩⟩, s.write log (i.runLine entry))

/-- Runs a program and logs. -/
def RegisterFile.runLogging (s : LogSettings) (r : RegisterFile) (p : Program) :
    Run × List LogLine :=
  p.instructions.foldl (Run.stepLogging s) ({ registers := r }, [])

/-- The line of a step. -/
def RunStep.line (t : RunStep) : LogLine :=
  t.instruction.runLine (t.entry 0)

/-- The line of an instruction that is executed. -/
lemma RunStep.line_of_executed {r after : RegisterFile} {i : Instruction}
    (h : r.execute i = (.executed, after)) : RunStep.line ⟨r, i⟩ = ⟨.emulator, .trace,
      s!"{i.name} {i.operandsDetail} -> flags 0x{Hex.upper 4 after.flags.bits.toNat}"⟩ := by
  simp only [line, Instruction.runLine, entry, outcome, RunStep.after, h]

/-- The line of an instruction that is skipped. -/
lemma RunStep.line_of_skipped {r after : RegisterFile} {i : Instruction} {reason : SkipReason}
    (h : r.execute i = (.skipped reason, after)) : RunStep.line ⟨r, i⟩ =
      ⟨.stubs, .warn, s!"ignoring instruction {i.name}: {reason.id}"⟩ := by
  simp only [line, Instruction.runLine, entry, outcome, h]

/-- A line does not tell the index. -/
lemma RunStep.runLine_entry (t : RunStep) (k : Nat) : t.instruction.runLine (t.entry k) = t.line := by
  unfold line Instruction.runLine entry
  cases t.outcome <;> rfl

/-- Instructions that are executed and logged one at a time are run, and the lines of their steps are
written. -/
lemma Run.foldl_stepLogging (s : LogSettings) (run : Run) (log : List LogLine)
    (is : List Instruction) : is.foldl (stepLogging s) (run, log) =
      (is.foldl step run, log ++ s.kept ((run.registers.steps is).map RunStep.line)) := by
  induction is generalizing run log with
  | nil => exact congrArg (Prod.mk run) (List.append_nil log).symm
  | cons i is ih =>
    have hstep : stepLogging s (run, log) i =
        (run.step i, log ++ s.kept [RunStep.line ⟨run.registers, i⟩]) := by
      rw [← RunStep.runLine_entry _ run.trace.entries.size, ← s.write_eq]
      rfl
    rw [List.foldl_cons, hstep, ih, List.append_assoc, ← s.kept_append]
    rfl

/-- The lines of steps, each with an entry of its own. -/
lemma RunStep.zipWith_runLine (ts : List RunStep) (n : Nat) :
    List.zipWith Instruction.runLine (ts.map instruction)
      ((ts.zipIdx n).map fun (t, k) => t.entry k) = ts.map line := by
  induction ts generalizing n with
  | nil => rfl
  | cons t ts ih =>
    rw [List.map_cons, List.zipIdx_cons, List.map_cons, List.zipWith_cons_cons, ih, List.map_cons,
      ← t.runLine_entry n]

/-- The lines of a run are those of its steps. -/
lemma runLines_run (r : RegisterFile) (p : Program) :
    p.runLines (r.run p.instructions).trace =
      (r.steps p.instructions.toList).map RunStep.line := by
  have h := RunStep.zipWith_runLine (r.steps p.instructions.toList) 0
  rwa [RegisterFile.instructions_steps, ← RegisterFile.entries_run] at h

/-- Decoding that logs decodes, and writes the lines of the pass that are let through. -/
lemma decodeLogging_eq (s : LogSettings) (bytes : List UInt8) :
    decodeLogging s bytes = (decode bytes, s.kept (decoding bytes).lines) :=
  Decoder.runLogging_eq s {} (.ofBytes bytes)

/-- A run that logs is a run, and writes the lines of the run that are let through. -/
lemma runLogging_eq (s : LogSettings) (r : RegisterFile) (p : Program) :
    r.runLogging s p =
      (r.run p.instructions, s.kept (p.runLines (r.run p.instructions).trace)) := by
  unfold RegisterFile.runLogging RegisterFile.run
  rw [← Array.foldl_toList, ← Array.foldl_toList, Run.foldl_stepLogging, List.nil_append]
  refine congrArg (Prod.mk _) (congrArg s.kept ?_)
  have h := runLines_run r p
  unfold RegisterFile.run at h
  rw [← Array.foldl_toList] at h
  exact h.symm

/-- A line of a decoding pass has a level. -/
lemma level_ne_off_of_mem_lines {bytes : List UInt8} {l : LogLine}
    (h : l ∈ (decoding bytes).lines) : l.level ≠ .off := by
  obtain ⟨e, -, rfl⟩ := List.mem_map.1 h
  cases e <;> exact nofun

/-- A line of a run has a level. -/
lemma RunStep.level_line_ne_off (t : RunStep) : t.line.level ≠ .off := by
  unfold line Instruction.runLine
  split <;> exact nofun

/-- The lines that decoding writes with the most detailed settings. -/
lemma decodeLogging_full (bytes : List UInt8) :
    (decodeLogging .full bytes).2 = (decoding bytes).lines := by
  rw [decodeLogging_eq]
  exact LogSettings.kept_full fun _ => level_ne_off_of_mem_lines

/-- The lines that a run writes with the most detailed settings. -/
lemma runLogging_full (r : RegisterFile) (p : Program) :
    (r.runLogging .full p).2 = (r.steps p.instructions.toList).map RunStep.line := by
  rw [runLogging_eq, runLines_run]
  refine LogSettings.kept_full fun l hl => ?_
  obtain ⟨t, -, rfl⟩ := List.mem_map.1 hl
  exact t.level_line_ne_off

/-- The line at an index of a run. -/
lemma runLogging_full_getElem? {r : RegisterFile} {p : Program} {k : Nat} {i : Instruction}
    (hi : p.instructions[k]? = some i) : (r.runLogging .full p).2[k]? =
      some (RunStep.line ⟨r.after (p.instructions.toList.take k), i⟩) := by
  rw [runLogging_full, List.getElem?_map, r.steps_getElem?, Array.getElem?_toList, hi]
  rfl

/-- Logging changes no result, and what is logged is the full log, that of the most detailed settings,
without the lines that the settings hold back; the text that is put out for a pass is made of it. In
the full log decoding has the lines of the instructions that the stream completes and then, if it
decodes, the line of the end. If it does not, there are as many lines of instructions as the index of
the error tells, and none of the end. A run has one line for each instruction: with the flags after
it, if it is executed, and with the reason, if it is skipped. The offsets and the flags in the lines
are hexadecimal numerals. -/
theorem logging_eq_filter :
    (∀ (s : LogSettings) bytes,
      (decodeLogging s bytes).1 = decode bytes ∧
        (decodeLogging s bytes).2 = s.kept (decodeLogging .full bytes).2 ∧
        s.text (decoding bytes).lines =
          String.join ((decodeLogging s bytes).2.map LogLine.text)) ∧
    (∀ (s : LogSettings) (r : RegisterFile) p,
      (r.runLogging s p).1 = r.run p.instructions ∧
        (r.runLogging s p).2 = s.kept (r.runLogging .full p).2 ∧
        s.text (p.runLines (r.run p.instructions).trace) =
          String.join ((r.runLogging s p).2.map LogLine.text)) ∧
    (∀ bytes, ∃ p, Completes bytes p (opcodeOffsets bytes) ∧
      let log := (decodeLogging .full bytes).2
      let lines := instructionLog p.instructions.toList (opcodeOffsets bytes)
      (decode bytes = .ok p ∧ log = lines ++ [p.endLine]) ∨
        ∃ e, decode bytes = .error e ∧ e.index = p.size ∧ log = lines ∧
          log.countP (·.level = .trace) = e.index ∧ ∀ l ∈ log, l.level ≠ .info) ∧
    (∀ (r : RegisterFile) (p : Program),
      let log := (r.runLogging .full p).2
      log.length = p.size ∧ ∀ k i, p.instructions[k]? = some i →
        let before := r.after (p.instructions.toList.take k)
        (∀ after, before.execute i = (.executed, after) → log[k]? =
          some ⟨.emulator, .trace,
            s!"{i.name} {i.operandsDetail} -> flags 0x{Hex.upper 4 after.flags.bits.toNat}"⟩) ∧
        ∀ reason after, before.execute i = (.skipped reason, after) → log[k]? =
          some ⟨.stubs, .warn, s!"ignoring instruction {i.name}: {reason.id}"⟩) ∧
    ∀ n, Hex.IsNumeral 6 n (Hex.upper 6 n) ∧ Hex.IsNumeral 4 n (Hex.upper 4 n) := by
  refine ⟨fun s bytes => ?_, fun s r p => ?_, fun bytes => ?_, fun r p => ⟨?_, ?_⟩, fun n =>
    ⟨Hex.isNumeral_upper (by decide) n, Hex.isNumeral_upper (by decide) n⟩⟩
  · rw [decodeLogging_full, decodeLogging_eq]
    exact ⟨rfl, rfl, rfl⟩
  · rw [runLogging_full, ← runLines_run, runLogging_eq]
    exact ⟨rfl, rfl, rfl⟩
  · obtain ⟨p, hp, h⟩ := lines_decoding bytes
    refine ⟨p, hp, ?_⟩
    rw [decodeLogging_full]
    obtain ⟨hok, hlines⟩ | ⟨e, he, hindex, hlines⟩ := h
    · exact .inl ⟨hok, hlines⟩
    · refine .inr ⟨e, he, hindex, hlines, ?_, fun l hl => level_ne_info_of_mem (hlines ▸ hl)⟩
      rw [hlines, countP_trace_instructionLog hp.length_eq.symm]
      exact hindex.symm
  · rw [runLogging_full, List.length_map, r.length_steps]
    rfl
  · intro k i hi before
    rw [runLogging_full_getElem? hi]
    exact ⟨fun after h => congrArg some (RunStep.line_of_executed h),
      fun reason after h => congrArg some (RunStep.line_of_skipped h)⟩

/-- A branch that names a target and an instruction behind it, whole and with an opcode without an
instruction at the end, and the lines of an executed and a skipped instruction. -/
theorem logging_eq_filter_labels :
    let s : LogSettings := ⟨.off, fun c => if c = .decoder then .debug else .off⟩
    let bytes : List UInt8 := [0x75, 0xFE, 0x90]
    let flags := "InstructionFlags \x7b wide: false, dest: false, locked: false, repeated: false, " ++
      "string_op: false, far: false \x7d"
    let mov : Instruction :=
      ⟨"mov", .mov, .registerImmediate, some (.register .ax), some (.immediate 5), { width := .word }⟩
    let nop : Instruction := ⟨"nop", .nop, .bare, none, none, {}⟩
    let log := (RegisterFile.runLogging .full { flags := ⟨0x0AF1⟩ } ⟨#[mov, nop], .empty⟩).2
    (decodeLogging .full bytes).2 =
        [⟨.decoder, .debug, "label0 -> instruction -1 (from 0)"⟩,
          ⟨.decoder, .trace, "000000 #0 jne [Some(Label(-2)), None] " ++ flags⟩,
          ⟨.decoder, .trace, "000002 #1 nop [None, None] " ++ flags⟩,
          ⟨.decoder, .info, "decoded 2 instructions, 1 labels"⟩] ∧
      (decodeLogging s (bytes ++ [0xF6, 0x08])).2 =
        [⟨.decoder, .debug, "label0 -> instruction -1 (from 0)"⟩] ∧
      log[0]? = some ⟨.emulator, .trace,
        "mov [Some(Register(AX)), Some(Immediate(5))] -> flags 0x0AF1"⟩ ∧
      log[1]? = some ⟨.stubs, .warn, "ignoring instruction nop: UnsupportedOpcode"⟩ := by
  intro s bytes flags mov nop log
  obtain ⟨hdecode, -, -, hrun, -⟩ := logging_eq_filter
  obtain ⟨-, hline⟩ := hrun { flags := ⟨0x0AF1⟩ } ⟨#[mov, nop], .empty⟩
  let jne : Instruction := ⟨"jne", .jne, .shortTarget, some (.label (-2)), none, {}⟩
  let ts : List Tile := [⟨[0x75, 0xFE], .instruction jne, by repeat constructor⟩,
    ⟨[0x90], .instruction nop, by repeat constructor⟩]
  have hlog {rest : List UInt8} (he : Ends rest) : (decodeLogging .full (Tile.join ts ++ rest)).2 =
      instructionLog (Tile.instructions ts) ((Tile.spansFrom 0 ts).map Prod.fst) ++
        if rest = [] then [(Program.ofInstructions (Tile.instructions ts)).endLine] else [] := by
    rw [decodeLogging_full, lines_decoding_join he, opcodeOffsets_join he]
  have hlabel : (Program.ofInstructions []).labelLines jne =
      [⟨.decoder, .debug, "label0 -> instruction -1 (from 0)"⟩] := by cbv
  have hsize : (Program.ofInstructions [jne, nop]).labels.size = 1 := by
    refine Array.length_toList.symm.trans ?_
    exact (congrArg List.length (LabelTable.toList_ofList _)).trans (by decide +kernel)
  have rd : Item.reader.Reads [0xF6, 0x08] (.error ⟨0xF6, .unknown⟩) := by repeat constructor
  refine ⟨(hlog .stop).trans ?_, (hdecode s _).2.1.trans ?_,
    ((hline 0 mov rfl).1 _ rfl).trans (by decide +kernel),
    ((hline 1 nop rfl).2 .opcode _ rfl).trans (by cbv)⟩
  · show (Program.ofInstructions []).labelLines jne ++ [_] ++ ([_] ++ []) ++
      [(Program.ofInstructions [jne, nop]).endLine] = _
    rw [hlabel, Program.endLine, hsize]
    decide +kernel
  · refine (congrArg s.kept (hlog (.unsupported [] rd))).trans ?_
    show s.kept ((Program.ofInstructions []).labelLines jne ++ [_] ++ ([_] ++ []) ++ []) = _
    rw [hlabel]
    rfl

end I8086

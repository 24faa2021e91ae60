import I8086.Log.Line
import I8086.Proofs.Listing

/-!
# The log of a decoding pass

The lines of a decoding pass told from what it decodes. The lines of an instruction depend on the
program of those before it (`Program.nextLines`): one for its target, if it branches to one that has
no label yet, and one for itself. A pass over a row of tiles writes the lines of its instructions in
order (`lines_acceptTiles`), and what comes behind the row adds at most the line of the end. Main
statement: `lines_decoding`, the lines of a whole stream, whether it decodes or not.
-/

namespace I8086

/-- The index of the instruction at which decoding fails. -/
def DecodeError.index : DecodeError → Nat
  | unsupported _ _ _ index | endOfBytes _ index => index

/-- The line of a new label, if an instruction behind a program branches to a target that the program
has no label for. -/
def Program.labelLines (before : Program) (i : Instruction) : List LogLine :=
  match i.target? before.size with
  | some t =>
    if before.labels.get? t = none then
      [⟨.decoder, .debug,
        s!"label{before.labels.size} -> instruction {t} (from {before.size})"⟩]
    else []
  | none => []

/-- The lines of an instruction behind a program, whose opcode stands at an offset. -/
def Program.nextLines (before : Program) (offset : Nat) (i : Instruction) : List LogLine :=
  before.labelLines i ++ [⟨.decoder, .trace,
    s!"{Hex.upper 6 offset} #{before.size} {i.name} {i.operandsDetail} {i.modifiers.detail}"⟩]

/-- The line of the end of a stream that is a program. -/
def Program.endLine (p : Program) : LogLine :=
  ⟨.decoder, .info, s!"decoded {p.size} instructions, {p.labels.size} labels"⟩

/-- The lines of instructions whose opcodes stand at given offsets. -/
def instructionLog (is : List Instruction) (offsets : List Nat) : List LogLine :=
  (is.zip offsets).zipIdx.flatMap fun ((i, offset), k) =>
    (Program.ofInstructions (is.take k)).nextLines offset i

/-- The offsets of the opcodes of a stream, up to the end or to bytes that are no item. -/
def opcodeOffsets (bytes : List UInt8) : List Nat :=
  (spans bytes).map Prod.fst

/-- A program has the instructions that a stream completes, and these are the offsets of their
opcodes. -/
structure Completes (bytes : List UInt8) (p : Program) (offsets : List Nat) : Prop where
  /-- A front part of the stream is this program. -/
  exists_front : ∃ n, decode (bytes.take n) = .ok p
  /-- Each instruction has an opcode. -/
  length_eq : offsets.length = p.size
  /-- What is before an opcode decodes to the instructions before it, and it is none of the bytes that
  modify an instruction. -/
  opcode : ∀ k offset, offsets[k]? = some offset →
    decode (bytes.take offset) = .ok (.ofInstructions (p.instructions.toList.take k)) ∧
      ∃ b, bytes[offset]? = some b ∧ ¬ IsModifier b
  /-- The instructions with a target are the short branches. -/
  target : ∀ k (i : Instruction), p.instructions[k]? = some i →
    ((i.target? k).isSome ↔ i.form = .shortTarget)

variable {is : List Instruction} {offsets : List Nat} {p : Nat} {ts us : List Tile}
variable {rest : List UInt8}

/-- The lines of one more instruction. -/
lemma instructionLog_append (h : is.length = offsets.length) (i : Instruction) (offset : Nat) :
    instructionLog (is ++ [i]) (offsets ++ [offset]) =
      instructionLog is offsets ++ (Program.ofInstructions is).nextLines offset i := by
  unfold instructionLog
  rw [List.zip_append h, List.zipIdx_append, List.flatMap_append]
  congr 1
  · -- What comes before an instruction is not changed by one behind it.
    refine List.flatMap_congr fun ⟨_, k⟩ hk => ?_
    have hlt := List.snd_lt_of_mem_zipIdx hk
    rw [List.length_zip] at hlt
    dsimp only
    rw [List.take_append_of_le_length (by omega)]
  · rw [List.length_zip, ← h, Nat.min_self]
    simp

/-- The lines of an instruction have one of the instruction itself. -/
lemma countP_trace_nextLines (before : Program) (offset : Nat) (i : Instruction) :
    (before.nextLines offset i).countP (·.level = .trace) = 1 := by
  unfold Program.nextLines Program.labelLines
  split
  · split <;> rfl
  · rfl

/-- There is one line for each instruction itself. -/
lemma countP_trace_instructionLog (h : is.length = offsets.length) :
    (instructionLog is offsets).countP (·.level = .trace) = is.length := by
  unfold instructionLog
  simp only [List.countP_flatMap, Function.comp_def, countP_trace_nextLines]
  simp [h]

/-- The lines of instructions do not tell of the end. -/
lemma level_ne_info_of_mem {l : LogLine} (h : l ∈ instructionLog is offsets) : l.level ≠ .info := by
  obtain ⟨⟨⟨i, offset⟩, k⟩, -, h⟩ := List.mem_flatMap.1 h
  unfold Program.nextLines Program.labelLines at h
  obtain h | h := List.mem_append.1 h
  · split at h
    · split at h
      · rw [List.mem_singleton.1 h]
        exact nofun
      · cases h
    · cases h
  · rw [List.mem_singleton.1 h]
    exact nofun

namespace Decoder

variable {s : Decoder}

/-- The lines so far. -/
def lines (s : Decoder) : List LogLine :=
  s.events.toList.map DecodeEvent.line

/-- Noting a target writes a line if it is new. -/
lemma lines_mark (t : Int) : (s.mark t).lines = s.lines ++
    if s.labels.get? t = none then
      [(DecodeEvent.label s.labels.size t s.instructions.size).line]
    else [] := by
  obtain ⟨instructions, labels, pending, events⟩ := s
  unfold mark
  cases h : labels.get? t <;> simp [h, lines]

/-- Noting a branch writes the line of a new label. -/
lemma lines_markBranch (i : Instruction) :
    (s.markBranch i).lines = s.lines ++ s.program.labelLines i := by
  rw [markBranch_eq]
  unfold Program.labelLines program Program.size
  cases i.target? s.instructions.size with
  | none => simp
  | some t => exact lines_mark t

/-- Adding an instruction writes its line. -/
lemma lines_push (i : Instruction) : (s.push p i).lines =
    s.lines ++ [(DecodeEvent.instruction p s.instructions.size (s.pending.apply i)).line] := by
  obtain ⟨instructions, labels, pending, events⟩ := s
  simp [push, lines]

/-- An instruction writes its lines. -/
lemma lines_accept (i : Instruction) : (s.accept p (.instruction i)).lines =
    s.lines ++ s.program.nextLines p (s.pending.apply i) := by
  have hmark : (s.markBranch i).instructions = s.instructions ∧
      (s.markBranch i).pending = s.pending := by
    rw [markBranch_eq]
    cases i.target? s.instructions.size with
    | none => exact ⟨rfl, rfl⟩
    | some t => exact ⟨instructions_mark t, pending_mark t⟩
  rw [accept, lines_push, lines_markBranch, hmark.1, hmark.2, List.append_assoc]
  unfold Program.nextLines Program.labelLines
  rw [Pending.target?_apply]
  rfl

/-- Taking up two rows of tiles, one after the other. -/
lemma acceptTiles_append : s.acceptTiles p (ts ++ us) =
    (s.acceptTiles p ts).acceptTiles (p + (Tile.join ts).length) us := by
  induction ts generalizing s p with
  | nil => rfl
  | cons t ts ih =>
    rw [List.cons_append, acceptTiles, ih, Tile.join_cons, List.length_append, Nat.add_assoc]
    rfl

/-- The modifying bytes that wait behind a row of tiles. -/
lemma pending_acceptTiles :
    (s.acceptTiles p ts).pending = s.pending.leftover (ts.map Tile.item) := by
  induction ts generalizing s p with
  | nil => rfl
  | cons t ts ih =>
    obtain ⟨bytes, item, reads⟩ := t
    rw [acceptTiles, ih]
    cases item <;> rfl

/-- A row of tiles writes the lines of its instructions. -/
lemma lines_acceptTiles : (acceptTiles {} 0 ts).lines =
    instructionLog (Tile.instructions ts) ((Tile.spansFrom 0 ts).map Prod.fst) := by
  induction ts using List.reverseRecOn with
  | nil => rfl
  | append_singleton ts t ih =>
    have hlen : (Tile.instructions ts).length = ((Tile.spansFrom 0 ts).map Prod.fst).length := by
      rw [List.length_map, Tile.length_spansFrom {}]
      rfl
    rw [acceptTiles_append, Tile.spansFrom_append, List.map_append, Tile.instructions,
      List.map_append, Pending.collect_append, Nat.zero_add]
    obtain ⟨bytes, item, reads⟩ := t
    cases item with
    | modifier m =>
      show (acceptTiles {} 0 ts).lines = instructionLog (Tile.instructions ts ++ []) (_ ++ [])
      rw [ih, List.append_nil, List.append_nil]
    | instruction i =>
      show (Decoder.accept _ _ _).lines = instructionLog (Tile.instructions ts ++ [_]) (_ ++ [_])
      rw [instructionLog_append hlen, lines_accept, ih, program_acceptTiles, pending_acceptTiles]

/-- A pass that goes no further writes a line if it is at the end. -/
lemma lines_run_of_ends (he : Ends rest) : (s.run ⟨p, rest⟩).lines = s.lines ++
    if rest = [] then [s.program.endLine] else [] := by
  cases he with
  | stop =>
    rw [run_nil, if_pos rfl]
    simp [finish, Decoding.lines, lines, DecodeEvent.line, Program.endLine, program, Program.size]
  | waits hrest wt =>
    rw [run_waits hrest wt, if_neg hrest, List.append_nil]
    rfl
  | unsupported more rd =>
    rw [run_unsupported rd, if_neg (by simp [Item.ne_nil_of_reads rd]), List.append_nil]
    rfl

end Decoder

/-- A span of a row of tiles is that of an instruction in it. -/
lemma Tile.exists_of_spansFrom_getElem? {k start stop : Nat}
    (h : (spansFrom p ts)[k]? = some (start, stop)) : ∃ us t vs i, ts = us ++ t :: vs ∧
      t.item = .instruction i ∧ start = p + (join us).length ∧ (spansFrom p us).length = k := by
  induction ts generalizing p k with
  | nil => cases h
  | cons t ts ih =>
    obtain ⟨bytes, item, reads⟩ := t
    cases item with
    | modifier m =>
      obtain ⟨us, t, vs, i, rfl, hi, rfl, rfl⟩ := ih h
      refine ⟨_ :: us, t, vs, i, rfl, hi, ?_, rfl⟩
      rw [join_cons, List.length_append, Nat.add_assoc]
    | instruction i =>
      cases k with
      | zero =>
        cases h
        exact ⟨[], _, ts, i, rfl, rfl, rfl, rfl⟩
      | succ k =>
        obtain ⟨us, t, vs, i, rfl, hi, rfl, rfl⟩ := ih h
        refine ⟨_ :: us, t, vs, i, rfl, hi, ?_, rfl⟩
        rw [join_cons, List.length_append, Nat.add_assoc]

/-- An instruction starts with an opcode. -/
lemma Tile.exists_opcode {t : Tile} {i : Instruction} (h : t.item = .instruction i) :
    ∃ b v, t.bytes = b :: v ∧ ¬ IsModifier b := by
  obtain ⟨bytes, item, reads⟩ := t
  cases h
  obtain ⟨b, v, r, f, rfl, hb, -⟩ := Item.reads_instruction_iff.1 reads
  exact ⟨b, v, rfl, modifierByte?_eq_none_iff.1 hb⟩

/-- The offsets of the opcodes of a row of tiles. -/
lemma opcodeOffsets_join (he : Ends rest) :
    opcodeOffsets (Tile.join ts ++ rest) = (Tile.spansFrom 0 ts).map Prod.fst := by
  unfold opcodeOffsets spans Tile.spansFrom
  rw [scan_join_ends ts he]

/-- A stream completes the instructions of its row of tiles. -/
lemma completes_join (he : Ends rest) : Completes (Tile.join ts ++ rest)
    (.ofInstructions (Tile.instructions ts)) (opcodeOffsets (Tile.join ts ++ rest)) where
  exists_front := ⟨(Tile.join ts).length, by rw [List.take_left, decode_join]⟩
  length_eq := by
    rw [opcodeOffsets_join he, List.length_map, Tile.length_spansFrom {}]
    exact List.size_toArray.symm
  opcode := by
    intro k offset h
    rw [opcodeOffsets_join he, List.getElem?_map, Option.map_eq_some_iff] at h
    obtain ⟨⟨start, stop⟩, h, rfl⟩ := h
    obtain ⟨us, t, vs, i, rfl, hi, rfl, rfl⟩ := Tile.exists_of_spansFrom_getElem? h
    obtain ⟨b, v, hb, hm⟩ := Tile.exists_opcode hi
    have hfront : (Tile.instructions (us ++ t :: vs)).take (Tile.spansFrom 0 us).length =
        Tile.instructions us := by
      rw [Tile.length_spansFrom {}]
      exact Tile.instructions_take us (t :: vs)
    dsimp only
    rw [Nat.zero_add, Tile.join_append, List.append_assoc, List.take_left, decode_join]
    refine ⟨congrArg (fun is => Except.ok (Program.ofInstructions is)) hfront.symm, b, ?_, hm⟩
    rw [List.getElem?_append_right (Nat.le_refl _), Nat.sub_self, Tile.join_cons, hb]
    rfl
  target := by
    intro k i hi
    have hwf := wellFormed_of_decode_ok (decode_join ts) i (Array.mem_of_getElem? hi)
    rw [Instruction.target?_eq, Option.isSome_map]
    constructor
    · intro h
      obtain ⟨offset, ho⟩ := Option.isSome_iff_exists.1 h
      exact (hwf.of_offset? ho).1
    · intro h
      obtain ⟨offset, ho⟩ := hwf.exists_offset? h
      rw [ho]
      rfl

/-- The lines of a row of tiles and of what comes behind it. -/
lemma lines_decoding_join (he : Ends rest) : (decoding (Tile.join ts ++ rest)).lines =
    instructionLog (Tile.instructions ts) (opcodeOffsets (Tile.join ts ++ rest)) ++
      if rest = [] then [(Program.ofInstructions (Tile.instructions ts)).endLine] else [] := by
  unfold decoding Cursor.ofBytes
  rw [Decoder.run_join, Decoder.lines_run_of_ends he, Decoder.lines_acceptTiles,
    opcodeOffsets_join he, Decoder.program_acceptTiles]

/-- The lines of a decoding pass are those of the instructions that the stream completes, in order,
and behind them the line of the end, if the stream decodes. -/
theorem lines_decoding (bytes : List UInt8) :
    ∃ p, Completes bytes p (opcodeOffsets bytes) ∧
      ((decode bytes = .ok p ∧ (decoding bytes).lines =
          instructionLog p.instructions.toList (opcodeOffsets bytes) ++ [p.endLine]) ∨
        ∃ e, decode bytes = .error e ∧ e.index = p.size ∧ (decoding bytes).lines =
          instructionLog p.instructions.toList (opcodeOffsets bytes)) := by
  obtain ⟨ts, rest, rfl, he⟩ := exists_tiles bytes
  refine ⟨_, completes_join he, ?_⟩
  rw [lines_decoding_join he]
  cases he with
  | stop =>
    refine .inl ⟨?_, rfl⟩
    rw [List.append_nil, decode_join]
  | waits hrest wt =>
    refine .inr ⟨_, decode_join_waits hrest wt, rfl, ?_⟩
    rw [if_neg hrest, List.append_nil]
    rfl
  | unsupported more rd =>
    refine .inr ⟨_, decode_join_unsupported rd, rfl, ?_⟩
    rw [if_neg (by simp [Item.ne_nil_of_reads rd]), List.append_nil]
    rfl

end I8086

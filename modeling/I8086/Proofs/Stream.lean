import I8086.Decode
import I8086.Proofs.Items

/-!
# Streams as rows of tiles

Every byte stream is a row of items, each with the bytes that it reads, and an end where no item can
be read (`exists_tiles`). The decoding pass takes up the items in order, so what it makes of a stream
is told by the row and its end: `decode_join`, `decode_join_waits` and `decode_join_unsupported`. The
program is a function of its instructions alone (`Program.ofInstructions`), and these are the
instructions of the row, each as the modifying bytes before it change it (`Pending.collect`).
-/

namespace I8086

open Reader

/-- The instruction index that an instruction at an index branches to, if it branches. -/
def Instruction.target? (i : Instruction) (index : Nat) : Option Int :=
  match i.first with
  | some (.label offset) => some (branchTarget index offset)
  | _ => none

/-- The targets of the branches among instructions, the first of which has the given index. -/
def branchTargets : Nat → List Instruction → List Int
  | _, [] => []
  | n, i :: is => (i.target? n).toList ++ branchTargets (n + 1) is

/-- The program of a list of instructions, with the table of their branch targets. -/
def Program.ofInstructions (is : List Instruction) : Program :=
  ⟨is.toArray, .ofList (branchTargets 0 is)⟩

namespace Pending

/-- The instructions of a row of items, each with the modifying bytes before it. -/
def collect : Pending → List Item → List Instruction
  | _, [] => []
  | p, .modifier m :: xs => (p.add m).collect xs
  | p, .instruction i :: xs => p.apply i :: collect {} xs

/-- The modifying bytes that no instruction of a row took up. -/
def leftover : Pending → List Item → Pending
  | p, [] => p
  | p, .modifier m :: xs => (p.add m).leftover xs
  | _, .instruction _ :: xs => leftover {} xs

/-- The instructions of two rows, one after the other. -/
lemma collect_append (p : Pending) (xs ys : List Item) :
    p.collect (xs ++ ys) = p.collect xs ++ (p.leftover xs).collect ys := by
  induction xs generalizing p with
  | nil => rfl
  | cons x xs ih =>
    cases x with
    | modifier m => exact ih (p.add m)
    | instruction i => exact congrArg (p.apply i :: ·) (ih {})

/-- What is left over of two rows, one after the other. -/
lemma leftover_append (p : Pending) (xs ys : List Item) :
    p.leftover (xs ++ ys) = (p.leftover xs).leftover ys := by
  induction xs generalizing p with
  | nil => rfl
  | cons x xs ih =>
    cases x with
    | modifier m => exact ih (p.add m)
    | instruction i => exact ih {}

/-- Nothing is left over of a row that ends in an instruction. -/
lemma leftover_append_instruction (p : Pending) (xs : List Item) (i : Instruction) :
    p.leftover (xs ++ [.instruction i]) = {} :=
  p.leftover_append xs _

/-- Modifying bytes leave the target of a branch alone. -/
@[simp] lemma target?_apply (p : Pending) (i : Instruction) (n : Nat) :
    (p.apply i).target? n = i.target? n := by
  obtain ⟨name, op, form, first, second, modifiers⟩ := i
  obtain ⟨segment, locked, repeated⟩ := p
  cases segment with
  | none => rfl
  | some s =>
    cases first with
    | none => cases second with
      | none => rfl
      | some y => cases y <;> rfl
    | some x => cases x with
      | memory => rfl
      | _ => cases second with
        | none => rfl
        | some y => cases y <;> rfl

end Pending

/-- The targets of two lists of instructions, one after the other. -/
lemma branchTargets_append (n : Nat) (is js : List Instruction) :
    branchTargets n (is ++ js) = branchTargets n is ++ branchTargets (n + is.length) js := by
  induction is generalizing n with
  | nil => rfl
  | cons i is ih =>
    simp only [List.cons_append, branchTargets, ih, List.length_cons, List.append_assoc]
    rw [Nat.add_assoc, Nat.add_comm 1]

/-- An item and the bytes that it reads. -/
structure Tile where
  /-- The bytes. -/
  bytes : List UInt8
  /-- The item. -/
  item : Item
  /-- The item reads exactly these bytes. -/
  reads : Item.reader.Reads bytes (.ok item)

/-- The bytes of a row of tiles. -/
def Tile.join (ts : List Tile) : List UInt8 :=
  ts.flatMap Tile.bytes

/-- How a stream goes on where no tile can be laid. -/
inductive Ends : List UInt8 → Prop where
  | stop : Ends []
  | waits {bs : List UInt8} : bs ≠ [] → Item.reader.Waits bs → Ends bs
  | unsupported {u : Unsupported} {bs : List UInt8} (more : List UInt8) :
      Item.reader.Reads bs (.error u) → Ends (bs ++ more)

@[simp] lemma Tile.join_nil : join [] = [] := rfl

@[simp] lemma Tile.join_cons (t : Tile) (ts : List Tile) : join (t :: ts) = t.bytes ++ join ts :=
  List.flatMap_cons

@[simp] lemma Tile.join_append (ts us : List Tile) : join (ts ++ us) = join ts ++ join us :=
  List.flatMap_append

/-- No tile is empty. -/
lemma Tile.bytes_ne_nil (t : Tile) : t.bytes ≠ [] :=
  Item.ne_nil_of_reads t.reads

/-- Every stream is a row of tiles and an end. -/
theorem exists_tiles (bs : List UInt8) : ∃ ts rest, bs = Tile.join ts ++ rest ∧ Ends rest := by
  -- Strong induction on the length: each tile takes at least one byte.
  generalize hn : bs.length = n
  induction n using Nat.strongRecOn generalizing bs with
  | ind n ih =>
    obtain ⟨u, v, y, rfl, rd⟩ | wt := reads_or_waits Item.reader bs
    · cases y with
      | error e => exact ⟨[], u ++ v, rfl, .unsupported v rd⟩
      | ok x =>
        have hu := List.length_pos_iff.2 (Item.ne_nil_of_reads rd)
        rw [List.length_append] at hn
        obtain ⟨ts, rest, rfl, he⟩ := ih v.length (by omega) v rfl
        exact ⟨⟨u, x, rd⟩ :: ts, rest, by simp, he⟩
    · cases bs with
      | nil => exact ⟨[], [], rfl, .stop⟩
      | cons b bs => exact ⟨[], b :: bs, rfl, .waits (List.cons_ne_nil b bs) wt⟩

namespace Decoder

variable {s : Decoder} {p : Nat} {bs rest : List UInt8}

/-- Taking up a row of tiles, the first of which stands at an offset. -/
def acceptTiles (s : Decoder) (offset : Nat) : List Tile → Decoder
  | [] => s
  | t :: ts => (s.accept offset t.item).acceptTiles (offset + t.bytes.length) ts

/-- A pass over a stream that is at its end. -/
lemma run_nil : s.run ⟨p, []⟩ = s.finish := by
  rw [run]
  exact if_pos rfl

/-- A pass over a stream whose next item cannot be finished. -/
lemma run_waits (hbs : bs ≠ []) (wt : Item.reader.Waits bs) : s.run ⟨p, bs⟩ =
    ⟨.error (.endOfBytes (p + bs.length) s.instructions.size), s.events⟩ := by
  have hr := wt.run p
  rw [run, if_neg (by simpa [Cursor.atEnd] using hbs)]
  split
  · next h =>
    cases h.symm.trans hr
    rfl
  · next h => cases h.symm.trans hr
  · next h => cases h.symm.trans hr

/-- A pass over a stream whose next opcode has no instruction. -/
lemma run_unsupported {u : Unsupported} (rd : Item.reader.Reads bs (.error u)) :
    s.run ⟨p, bs ++ rest⟩ =
      ⟨.error (.unsupported u.opcode u.form p s.instructions.size), s.events⟩ := by
  have hr := rd.run p rest
  rw [run, if_neg (by simpa [Cursor.atEnd] using fun h => (Item.ne_nil_of_reads rd h).elim)]
  split
  · next h => cases h.symm.trans hr
  · next h =>
    cases h.symm.trans hr
    rfl
  · next h => cases h.symm.trans hr

/-- A pass over a stream takes up its first tile. -/
lemma run_tile (t : Tile) :
    s.run ⟨p, t.bytes ++ rest⟩ = (s.accept p t.item).run ⟨p + t.bytes.length, rest⟩ := by
  have hr := t.reads.run p rest
  rw [run, if_neg (by simpa [Cursor.atEnd] using fun h => (t.bytes_ne_nil h).elim)]
  split
  · next h => cases h.symm.trans hr
  · next h => cases h.symm.trans hr
  · next h =>
    cases h.symm.trans hr
    rfl

/-- A pass over a stream takes up the tiles in front. -/
lemma run_join (ts : List Tile) :
    s.run ⟨p, Tile.join ts ++ rest⟩ =
      (s.acceptTiles p ts).run ⟨p + (Tile.join ts).length, rest⟩ := by
  induction ts generalizing s p with
  | nil => rfl
  | cons t ts ih =>
    rw [Tile.join_cons, List.append_assoc, run_tile, ih, List.length_append, Nat.add_assoc]
    rfl

/-- Noting a target inserts it. -/
lemma labels_mark (t : Int) : (s.mark t).labels = s.labels.insert t := by
  obtain ⟨instructions, labels, pending, events⟩ := s
  unfold mark
  cases h : labels.get? t with
  | some n => simp [h, LabelTable.insert_of_get? h]
  | none => simp [h]

/-- Noting a target changes no instruction. -/
lemma instructions_mark (t : Int) : (s.mark t).instructions = s.instructions := by
  obtain ⟨instructions, labels, pending, events⟩ := s
  unfold mark
  cases h : labels.get? t <;> simp [h]

/-- Noting a target keeps the modifying bytes. -/
lemma pending_mark (t : Int) : (s.mark t).pending = s.pending := by
  obtain ⟨instructions, labels, pending, events⟩ := s
  unfold mark
  cases h : labels.get? t <;> simp [h]

/-- A branch notes its target, and other instructions note nothing. -/
lemma markBranch_eq (i : Instruction) :
    s.markBranch i = (i.target? s.instructions.size).elim s s.mark := by
  unfold markBranch Instruction.target?
  cases i.first with
  | none => rfl
  | some x => cases x <;> rfl

/-- An instruction is added with the modifying bytes before it. -/
lemma instructions_accept (i : Instruction) :
    (s.accept p (.instruction i)).instructions.toList =
      s.instructions.toList ++ [s.pending.apply i] := by
  simp only [accept, push, markBranch_eq]
  cases i.target? s.instructions.size with
  | none => simp
  | some t => simp [instructions_mark, pending_mark]

/-- An instruction adds its target to the labels. -/
lemma labels_accept (i : Instruction) :
    (s.accept p (.instruction i)).labels =
      (i.target? s.instructions.size).toList.foldl LabelTable.insert s.labels := by
  simp only [accept, push, markBranch_eq]
  cases i.target? s.instructions.size with
  | none => rfl
  | some t => exact labels_mark t

/-- The instructions after a row of tiles. -/
lemma instructions_acceptTiles (ts : List Tile) :
    (s.acceptTiles p ts).instructions.toList =
      s.instructions.toList ++ s.pending.collect (ts.map Tile.item) := by
  induction ts generalizing s p with
  | nil => exact (List.append_nil _).symm
  | cons t ts ih =>
    obtain ⟨bytes, item, reads⟩ := t
    rw [acceptTiles, ih]
    cases item with
    | modifier m => rfl
    | instruction i =>
      rw [instructions_accept, List.append_assoc]
      rfl

/-- The labels after a row of tiles. -/
lemma labels_acceptTiles (ts : List Tile) :
    (s.acceptTiles p ts).labels =
      (branchTargets s.instructions.size (s.pending.collect (ts.map Tile.item))).foldl
        LabelTable.insert s.labels := by
  induction ts generalizing s p with
  | nil => rfl
  | cons t ts ih =>
    obtain ⟨bytes, item, reads⟩ := t
    rw [acceptTiles, ih]
    cases item with
    | modifier m => rfl
    | instruction i =>
      have hsize : (s.accept p (.instruction i)).instructions.size = s.instructions.size + 1 := by
        rw [← Array.length_toList, instructions_accept]
        simp
      rw [labels_accept, hsize, ← List.foldl_append, ← Pending.target?_apply s.pending]
      rfl

end Decoder

/-- The instructions of a row of tiles at the start of a stream. -/
def Tile.instructions (ts : List Tile) : List Instruction :=
  Pending.collect {} (ts.map Tile.item)

/-- If no modifying byte waits between two rows, each has its own instructions. -/
lemma Tile.instructions_append {ts us : List Tile}
    (h : Pending.leftover {} (ts.map Tile.item) = {}) :
    Tile.instructions (ts ++ us) = Tile.instructions ts ++ Tile.instructions us := by
  unfold Tile.instructions
  rw [List.map_append, Pending.collect_append, h]

namespace Decoder

/-- The program of the instructions so far. -/
def program (s : Decoder) : Program :=
  ⟨s.instructions, s.labels⟩

/-- The program of a row of tiles. -/
lemma program_acceptTiles (ts : List Tile) (p : Nat) :
    (acceptTiles {} p ts).program = .ofInstructions (Tile.instructions ts) := by
  have hi := congrArg List.toArray (instructions_acceptTiles (s := {}) (p := p) ts)
  rw [Array.toArray_toList] at hi
  unfold program
  rw [hi, labels_acceptTiles]
  rfl

end Decoder

section Decode

variable {ts : List Tile} {bs rest : List UInt8} {p : Program}

/-- A row of tiles decodes to its instructions. -/
theorem decode_join (ts : List Tile) :
    decode (Tile.join ts) = .ok (.ofInstructions (Tile.instructions ts)) := by
  have hr : Decoder.run {} ⟨0, Tile.join ts ++ []⟩ = _ := Decoder.run_join ts
  rw [List.append_nil, Decoder.run_nil] at hr
  unfold decode decoding Cursor.ofBytes
  rw [hr]
  exact congrArg Except.ok (Decoder.program_acceptTiles ts 0)

/-- The number of instructions after a row of tiles. -/
lemma size_acceptTiles (ts : List Tile) (q : Nat) :
    (Decoder.acceptTiles {} q ts).instructions.size = (Tile.instructions ts).length := by
  rw [← Array.length_toList, Decoder.instructions_acceptTiles]
  rfl

/-- A row of tiles with an unfinished item after it fails at the end of the stream. -/
theorem decode_join_waits (hrest : rest ≠ []) (wt : Item.reader.Waits rest) :
    decode (Tile.join ts ++ rest) =
      .error (.endOfBytes (Tile.join ts ++ rest).length (Tile.instructions ts).length) := by
  unfold decode decoding Cursor.ofBytes
  rw [Decoder.run_join, Decoder.run_waits hrest wt, size_acceptTiles, Nat.zero_add,
    List.length_append]

/-- A row of tiles with a meaningless opcode after it fails there. -/
theorem decode_join_unsupported {u : Unsupported} (rd : Item.reader.Reads bs (.error u)) :
    decode (Tile.join ts ++ (bs ++ rest)) =
      .error (.unsupported u.opcode u.form (Tile.join ts).length
        (Tile.instructions ts).length) := by
  unfold decode decoding Cursor.ofBytes
  rw [Decoder.run_join, Decoder.run_unsupported rd, size_acceptTiles, Nat.zero_add]

/-- A stream that decodes is a row of tiles. -/
theorem exists_tiles_of_decode_ok (h : decode bs = .ok p) :
    ∃ ts, bs = Tile.join ts ∧ p = .ofInstructions (Tile.instructions ts) := by
  obtain ⟨ts, rest, rfl, he⟩ := exists_tiles bs
  cases he with
  | stop =>
    rw [List.append_nil, decode_join] at h
    cases h
    exact ⟨ts, List.append_nil _, rfl⟩
  | waits hrest wt =>
    rw [decode_join_waits hrest wt] at h
    cases h
  | unsupported more rd =>
    rw [decode_join_unsupported rd] at h
    cases h

/-- A decoded program is that of its instructions. -/
theorem eq_ofInstructions_of_decode (h : decode bs = .ok p) :
    p = .ofInstructions p.instructions.toList := by
  obtain ⟨ts, _, rfl⟩ := exists_tiles_of_decode_ok h
  rfl

end Decode

end I8086

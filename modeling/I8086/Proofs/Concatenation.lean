import I8086.Proofs.Labels
import I8086.Proofs.Scan

/-!
# Decoding one stream after another

Between two items the decoding pass keeps only the instructions so far, their labels and the
modifying bytes that wait. If the first of two streams ends in an instruction, no modifying byte
waits, and the second stream decodes as it does alone but for its place: its instructions are
unchanged, its branch targets move by the number of instructions before it, and an error moves with
it. Main statement: `decode_append`.
-/

namespace I8086

/-- The same error behind other bytes and instructions. -/
def DecodeError.shift (bytes instructions : Nat) : DecodeError → DecodeError
  | unsupported opcode form offset index =>
    unsupported opcode form (bytes + offset) (instructions + index)
  | endOfBytes offset index => endOfBytes (bytes + offset) (instructions + index)

/-- The last item of a stream, if it has items, is an instruction and not a modifying byte. -/
def EndsInInstruction (bytes : List UInt8) : Prop :=
  ∀ x ∈ (scan bytes).getLast?, ∃ i, x.item = .instruction i

/-- No modifying byte waits at the end of a row of tiles that ends in an instruction. -/
lemma leftover_of_endsInInstruction {ts : List Tile} (h : EndsInInstruction (Tile.join ts)) :
    Pending.leftover {} (ts.map Tile.item) = {} := by
  unfold EndsInInstruction at h
  rw [scan_join] at h
  rw [← Tile.map_item_place 0 ts]
  obtain e | ⟨xs, x, e⟩ := (Tile.place 0 ts).eq_nil_or_concat
  · rw [e]
    rfl
  · rw [e, List.concat_eq_append] at h ⊢
    obtain ⟨i, hi⟩ := h x (by simp)
    rw [List.map_append, List.map_singleton, hi]
    exact Pending.leftover_append_instruction _ _ _

/-- Instructions further on branch to targets further on. -/
lemma branchTargets_add (m n : Nat) (is : List Instruction) :
    branchTargets (n + m) is = (branchTargets m is).map (· + (n : Int)) := by
  induction is generalizing m with
  | nil => rfl
  | cons i is ih =>
    have ht : i.target? (n + m) = (i.target? m).map (· + (n : Int)) := by
      unfold Instruction.target? branchTarget
      split
      · simp only [Option.map_some, Option.some.injEq]
        omega
      · rfl
    rw [branchTargets, branchTargets, Nat.add_assoc, ih, ht, List.map_append]
    cases i.target? m <;> rfl

/-- The labels of a list of instructions in two parts. -/
lemma toList_labels_append (is js : List Instruction) :
    (Program.ofInstructions (is ++ js)).labels.toList =
      (Program.ofInstructions is).labels.toList ++
        ((Program.ofInstructions js).labels.toList.map (· + (is.length : Int))).filter
          (· ∉ (Program.ofInstructions is).labels.toList) := by
  have hofList : LabelTable.ofList (branchTargets 0 (is ++ js)) =
      (branchTargets is.length js).foldl LabelTable.insert
        (.ofList (branchTargets 0 is)) := by
    rw [LabelTable.ofList, branchTargets_append, Nat.zero_add, List.foldl_append]
    rfl
  show (LabelTable.ofList _).toList = _
  rw [hofList, LabelTable.toList_foldl_insert, ← Nat.add_zero is.length, branchTargets_add,
    LabelTable.toList_ofList_map_add]
  rfl

/-- A stream behind one that ends in an instruction decodes as it does alone: its instructions
follow, its new branch targets move by the number of instructions before it, and so does an error,
by the number of bytes too. -/
theorem decode_append {a b : List UInt8} {p : Program} (ha : decode a = .ok p)
    (hlast : EndsInInstruction a) :
    (∀ q, decode b = .ok q → ∃ r, decode (a ++ b) = .ok r ∧
      r.instructions = p.instructions ++ q.instructions ∧
      r.labels.toList = p.labels.toList ++
        (q.labels.toList.map (· + (p.size : Int))).filter (· ∉ p.labels.toList)) ∧
    ∀ e, decode b = .error e → decode (a ++ b) = .error (e.shift a.length p.size) := by
  obtain ⟨ts, rfl, rfl⟩ := exists_tiles_of_decode_ok ha
  have hl := leftover_of_endsInInstruction hlast
  have hsize : (Program.ofInstructions (Tile.instructions ts)).size =
      (Tile.instructions ts).length := List.size_toArray
  rw [hsize]
  constructor
  · intro q hb
    obtain ⟨us, rfl, rfl⟩ := exists_tiles_of_decode_ok hb
    refine ⟨.ofInstructions (Tile.instructions ts ++ Tile.instructions us), ?_, ?_, ?_⟩
    · rw [← Tile.join_append, decode_join, Tile.instructions_append hl]
    · exact (List.append_toArray _ _).symm
    · exact toList_labels_append _ _
  · intro e hb
    obtain ⟨us, rest, rfl, he⟩ := exists_tiles b
    rw [← List.append_assoc, ← Tile.join_append]
    cases he with
    | stop =>
      rw [List.append_nil, decode_join] at hb
      cases hb
    | waits hrest wt =>
      rw [decode_join_waits hrest wt] at hb
      cases hb
      rw [decode_join_waits hrest wt, Tile.instructions_append hl]
      simp [DecodeError.shift]
    | unsupported more rd =>
      rw [decode_join_unsupported rd] at hb
      cases hb
      rw [decode_join_unsupported rd, Tile.instructions_append hl]
      simp [DecodeError.shift]

/-- Behind `nop`, `jne -2` the branch `je -4` meets a known label, `jmp 0` gets a new one, and a
stream that ends too early fails three bytes and two instructions further on. -/
theorem decode_append_known_label :
    (∃ r, decode [0x90, 0x75, 0xFE, 0x74, 0xFC, 0xEB, 0x00] = .ok r ∧ r.size = 4 ∧
      r.labels.toList = [0, 3]) ∧
    decode [0x90, 0x75, 0xFE, 0x80] = .error (.endOfBytes 4 2) := by
  have ha : decode [0x90, 0x75, 0xFE] = .ok (.ofInstructions
      [⟨"nop", .nop, .bare, none, none, {}⟩,
       ⟨"jne", .jne, .shortTarget, some (.label (-2)), none, {}⟩]) := by cbv
  have hb : decode [0x74, 0xFC, 0xEB, 0x00] = .ok (.ofInstructions
      [⟨"je", .je, .shortTarget, some (.label (-4)), none, {}⟩,
       ⟨"jmp", .jmp, .shortTarget, some (.label 0), none, {}⟩]) :=
    decode_join
      [⟨[0x74, 0xFC], .instruction ⟨"je", .je, .shortTarget, some (.label (-4)), none, {}⟩,
        by repeat constructor⟩,
       ⟨[0xEB, 0x00], .instruction ⟨"jmp", .jmp, .shortTarget, some (.label 0), none, {}⟩,
        by repeat constructor⟩]
  have hlast : EndsInInstruction [0x90, 0x75, 0xFE] := by
    intro x hx
    have hs : (scan [0x90, 0x75, 0xFE]).getLast? = some
        ⟨1, 3, .instruction ⟨"jne", .jne, .shortTarget, some (.label (-2)), none, {}⟩⟩ := by cbv
    rw [hs] at hx
    cases hx
    exact ⟨_, rfl⟩
  obtain ⟨hok, _⟩ := decode_append (b := [0x74, 0xFC, 0xEB, 0x00]) ha hlast
  obtain ⟨r, hr, hi, hl⟩ := hok _ hb
  refine ⟨⟨r, hr, ?_, ?_⟩, (decode_append ha hlast).2 (.endOfBytes 1 0) (by cbv)⟩
  · rw [Program.size, hi]
    rfl
  · rw [hl]
    simp [Program.ofInstructions, Program.size, LabelTable.ofList, LabelTable.toList_insert,
      branchTargets, Instruction.target?, branchTarget]

end I8086

import I8086.Proofs.Branches
import I8086.Proofs.Placement
import I8086.Proofs.Truncation
import I8086.Proofs.Wording

/-!
# The listings of decoded programs

What can be read off the text of a listing. Its lines are the texts of the lines that it was made of
(`textLines_listing`), and none but the definition of a label reads like one
(`count_definition`), so what is known of the lines is known of the text. Main statements:
`labels_of_listing`, the labels that the branches of a decoded program print are those that its
listing defines, each once; `definedBetween_of_target`, where every instruction has two bytes, the
label of a branch is defined at the instruction that the branch goes to.
-/

namespace I8086

open ListingLine

variable {labels : LabelTable} {index : Int} {n m k : Nat} {i : Instruction} {line : ListingLine}
variable {bytes : List UInt8} {p : Program} {offset : Int8}

/-- No two labels have the same name. -/
lemma labelName_injective (h : labelName n = labelName m) : n = m := by
  rw [labelName_eq, labelName_eq, ← String.toList_inj, String.toList_append,
    String.toList_append] at h
  exact natural_injective (String.toList_inj.1 (List.append_cancel_left h))

/-- The definition of a label is a word. -/
lemma spelled_definition (n : Nat) : Spelled isWordChar (labelName n ++ ":") :=
  spelled_append.2 ⟨spelled_labelName n, by decide⟩

namespace Instruction

/-- The text of an instruction is one line. -/
lemma Worded.newline_notMem (h : i.Worded) : '\n' ∉ (i.text labels index).toList := by
  rw [text_eq, String.toList_append, List.mem_append, not_or]
  refine ⟨h.spelled_front.notMem (by decide), ?_⟩
  cases ht : i.secondText labels index with
  | none => decide
  | some t =>
    rw [Option.elim_some, String.toList_append, List.mem_append, not_or]
    exact ⟨by decide, ((spelled_operandTexts labels index i).2 t ht).notMem (by decide)⟩

/-- The first word of an instruction has no colon. -/
lemma Worded.exists_first_word (h : i.Worded) (labels : LabelTable) (index : Int) :
    ∃ u us, pieces ' ' (i.front labels index) = u :: us ∧ ':' ∉ u.toList := by
  rw [h.pieces_front]
  cases i.modifiers.locked with
  | true => exact ⟨"lock", _, rfl, by decide⟩
  | false => cases i.modifiers.repeated with
    | true => exact ⟨"rep", _, rfl, by decide⟩
    | false => exact ⟨i.word, _, rfl, h.spelled.notMem (by decide)⟩

/-- The text of an instruction is not that of a definition. -/
lemma Worded.text_ne_definition (h : i.Worded) : i.text labels index ≠ labelName n ++ ":" := by
  intro e
  have hname := spelled_definition n
  -- A definition is one piece, so the first word of the instruction would be all of it.
  have hcomma := congrArg (pieces ',') e
  rw [h.pieces_text, pieces_eq_singleton (hname.notMem (by decide))] at hcomma
  obtain ⟨u, us, hu, hcolon⟩ := h.exists_first_word labels index
  rw [(List.cons.inj hcomma).1, pieces_eq_singleton (hname.notMem (by decide))] at hu
  obtain ⟨rfl, -⟩ := List.cons.inj hu
  exact hcolon (by simp)

/-- A branch to a known target prints its label. -/
lemma text_of_label (hfirst : i.first = some (.label offset)) (hsecond : i.second = none)
    (h : labels.get? (branchTarget index offset) = some n) :
    i.text labels index = i.head ++ " " ++ labelName n := by
  rw [text_eq, front, firstText, secondText, hfirst, hsecond]
  simp [Operand.text, h, String.append_assoc]

end Instruction

namespace ListingLine

/-- The instructions that the lines show are among their texts, in order. -/
lemma sublist_map_text (labels : LabelTable) (lines : List ListingLine) :
    ((lines.filterMap shown?).map fun (i, index) => i.text labels index).Sublist
      (lines.map (text labels)) := by
  induction lines with
  | nil => exact .slnil
  | cons line lines ih =>
    cases line with
    | instruction index i => exact ih.cons_cons _
    | header | label => exact ih.cons _

/-- If the instructions are worded, a text is that of a definition in one way. -/
lemma text_eq_definition_iff (h : ∀ i k, line.shown? = some (i, k) → i.Worded) :
    line.text labels = labelName n ++ ":" ↔ line.defined? = some n := by
  cases line with
  | header =>
    refine iff_of_false (fun e => ?_) (by simp [defined?])
    rw [labelName_eq] at e
    have := congrArg (fun s : String => s.toList.head?) e
    simp [text] at this
  | instruction index i =>
    exact iff_of_false (h i index rfl).text_ne_definition (by simp [defined?])
  | label m =>
    simp only [text, defined?, Option.some.injEq, String.append_left_inj]
    exact ⟨labelName_injective, congrArg labelName⟩

end ListingLine

/-- The lines of a decoded program show worded instructions. -/
lemma worded_of_mem_lines (h : decode bytes = .ok p) (hline : line ∈ p.lines)
    (hshown : line.shown? = some (i, k)) : i.Worded := by
  have hmem : (i, k) ∈ p.lines.filterMap shown? := List.mem_filterMap.2 ⟨line, hline, hshown⟩
  rw [p.shown_lines, List.mk_mem_zipIdx_iff_getElem?, Array.getElem?_toList] at hmem
  obtain ⟨c, rfl⟩ := exists_chunk_of_mem h (Array.mem_of_getElem? hmem)
  exact c.worded

/-- The lines of the text of a listing are those that it was made of. -/
theorem textLines_listing (h : decode bytes = .ok p) :
    textLines p.listing = p.lines.map (ListingLine.text p.labels) := by
  have hjoin : p.listing =
      String.join ((p.lines.map (ListingLine.text p.labels)).map (· ++ "\n")) := by
    rw [List.map_map]
    rfl
  rw [hjoin]
  refine textLines_join fun l hl => ?_
  obtain ⟨line, hline, rfl⟩ := List.mem_map.1 hl
  cases line with
  | header =>
    show '\n' ∉ "bits 16".toList
    decide
  | instruction index i => exact (worded_of_mem_lines h hline rfl).newline_notMem
  | label n => exact (spelled_definition n).notMem (by decide)

/-- A listing has one definition of each label of the table, and no other. -/
theorem count_definition (h : decode bytes = .ok p) (n : Nat) :
    (textLines p.listing).count (labelName n ++ ":") = if n < p.labels.size then 1 else 0 := by
  have hcount : (textLines p.listing).count (labelName n ++ ":") =
      (p.lines.filterMap defined?).count n := by
    rw [textLines_listing h, List.count_eq_countP, List.countP_map, List.count_eq_countP,
      List.countP_filterMap]
    refine List.countP_congr fun line hline => ?_
    have hworded : ∀ i k, line.shown? = some (i, k) → i.Worded := fun i k =>
      worded_of_mem_lines h hline
    rw [Function.comp_apply, beq_iff_eq, text_eq_definition_iff hworded]
    cases line.defined? <;> simp
  rw [hcount, p.perm_defined_lines.count_eq, List.nodup_range.count]
  simp

/-- An instruction with an offset is a short branch, and has no other operand. -/
lemma Instruction.WellFormed.of_offset? (h : i.WellFormed) (ho : i.offset? = some offset) :
    i.form = .shortTarget ∧ i.second = none := by
  have hfirst := Instruction.offset?_eq_some_iff.1 ho
  have hmem : .label offset ∈ i.operands := by simp [Instruction.operands, hfirst]
  have hform : i.form = .shortTarget := h.suits _ hmem
  obtain ⟨_, hoperands⟩ := h.shortTarget hform
  rw [Instruction.operands, hfirst] at hoperands
  exact ⟨hform, Option.toList_eq_nil_iff.1 (List.cons.inj hoperands).2⟩

/-- A short branch has an offset. -/
lemma Instruction.WellFormed.exists_offset? (h : i.WellFormed) (hform : i.form = .shortTarget) :
    ∃ offset, i.offset? = some offset := by
  obtain ⟨offset, ho⟩ := h.shortTarget hform
  refine ⟨offset, Instruction.offset?_eq_some_iff.2 ?_⟩
  cases hfirst : i.first with
  | none =>
    rw [Instruction.operands, hfirst, h.second hfirst] at ho
    cases ho
  | some x =>
    rw [Instruction.operands, hfirst] at ho
    exact congrArg some (List.cons.inj ho).1

/-- A branch of a decoded program prints the label of its target. -/
lemma exists_label_of_offset? (h : decode bytes = .ok p) (hi : p.instructions[k]? = some i)
    (ho : i.offset? = some offset) :
    ∃ n, p.labels.get? (branchTarget k offset) = some n ∧
      i.text p.labels k = i.head ++ " " ++ labelName n := by
  obtain ⟨c, rfl⟩ := exists_chunk_of_mem h (Array.mem_of_getElem? hi)
  have hmem : branchTarget k offset ∈ p.labels.toList := by
    rw [toList_labels_of_decode h, List.mem_eraseDups]
    exact Program.mem_namedTargets_iff.2 ⟨k, _, offset, hi, ho, rfl⟩
  obtain ⟨n, hn⟩ := List.mem_iff_getElem?.1 hmem
  have hget := LabelTable.get?_eq_some_iff.2 hn
  have hsecond := (c.wellFormed.of_offset? ho).2
  exact ⟨n, hget, Instruction.text_of_label (Instruction.offset?_eq_some_iff.1 ho) hsecond hget⟩

/-- Every label of the table of a decoded program is the target of a branch. -/
lemma exists_branch_of_lt (h : decode bytes = .ok p) (hn : n < p.labels.size) :
    ∃ (k : Nat) (i : Instruction) (offset : Int8), p.instructions[k]? = some i ∧
      i.offset? = some offset ∧ p.labels.get? (branchTarget k offset) = some n := by
  obtain ⟨t, ht⟩ := LabelTable.lt_size_iff.1 hn
  have hmem : t ∈ p.namedTargets := by
    rw [← List.mem_eraseDups, ← toList_labels_of_decode h]
    exact List.mem_of_getElem? ht
  obtain ⟨k, i, offset, hi, ho, rfl⟩ := Program.mem_namedTargets_iff.1 hmem
  exact ⟨k, i, offset, hi, ho, LabelTable.get?_eq_some_iff.2 ht⟩

/-- The labels of the listing of a decoded program are closed: what has a label among its operands
is a short branch, each of these prints a label of the table, each label of the table is printed by
one of them, and exactly these are defined, on one line each. With a line for each instruction, in
order, and the header these are all lines. -/
theorem labels_of_listing {bytes : List UInt8} {p : Program} (h : decode bytes = .ok p) :
    (∀ i ∈ p.instructions, ∀ offset, .label offset ∈ i.operands → i.form = .shortTarget) ∧
      (∀ (k : Nat) (i : Instruction), p.instructions[k]? = some i → i.form = .shortTarget →
        ∃ n < p.labels.size, i.text p.labels k = i.head ++ " " ++ labelName n) ∧
      (∀ n < p.labels.size, ∃ (k : Nat) (i : Instruction), p.instructions[k]? = some i ∧
        i.form = .shortTarget ∧ i.text p.labels k = i.head ++ " " ++ labelName n) ∧
      (∀ n, (textLines p.listing).count (labelName n ++ ":") =
        if n < p.labels.size then 1 else 0) ∧
      (p.instructions.toList.zipIdx.map fun (i, k) => i.text p.labels k).Sublist
        (textLines p.listing) ∧
      (textLines p.listing).length = 1 + p.size + p.labels.size := by
  have hwf : ∀ i ∈ p.instructions, i.WellFormed := fun i hi => by
    obtain ⟨c, rfl⟩ := exists_chunk_of_mem h hi
    exact c.wellFormed
  refine ⟨?operand, ?printed, ?used, count_definition h, ?shown, ?length⟩
  case operand => exact fun i hi offset ho => (hwf i hi).suits _ ho
  case printed =>
    intro k i hi hform
    obtain ⟨offset, ho⟩ := (hwf i (Array.mem_of_getElem? hi)).exists_offset? hform
    obtain ⟨n, hn, htext⟩ := exists_label_of_offset? h hi ho
    exact ⟨n, LabelTable.lt_size_iff.2 ⟨_, LabelTable.get?_eq_some_iff.1 hn⟩, htext⟩
  case used =>
    intro n hn
    obtain ⟨k, i, offset, hi, ho, hget⟩ := exists_branch_of_lt h hn
    obtain ⟨m, hm, htext⟩ := exists_label_of_offset? h hi ho
    cases hget.symm.trans hm
    exact ⟨k, i, hi, ((hwf i (Array.mem_of_getElem? hi)).of_offset? ho).1, htext⟩
  case shown =>
    rw [textLines_listing h, ← p.shown_lines]
    exact sublist_map_text p.labels p.lines
  case length => rw [textLines_listing h, List.length_map, p.length_lines]

/-- `loop -2`, `nop`, `jmp 127` and `jb -6` name targets in front of the program, far behind it and
at its first instruction. -/
theorem labels_of_listing_outside :
    ∃ p, decode [0xE2, 0xFE, 0x90, 0xEB, 0x7F, 0x72, 0xFA] = .ok p ∧
      (textLines p.listing).count "label2:" = 1 ∧ (textLines p.listing).count "label3:" = 0 ∧
      (textLines p.listing).length = 8 := by
  have h := decode_join
    [⟨[0xE2, 0xFE], .instruction ⟨"loop", .loop, .shortTarget, some (.label (-2)), none, {}⟩,
      by repeat constructor⟩,
     ⟨[0x90], .instruction ⟨"nop", .nop, .bare, none, none, {}⟩, by repeat constructor⟩,
     ⟨[0xEB, 0x7F], .instruction ⟨"jmp", .jmp, .shortTarget, some (.label 127), none, {}⟩,
      by repeat constructor⟩,
     ⟨[0x72, 0xFA], .instruction ⟨"jb", .jb, .shortTarget, some (.label (-6)), none, {}⟩,
      by repeat constructor⟩]
  have hlabels := (toList_labels_of_decode h).trans (by decide : _ = [-1, 65, 0])
  have hsize := congrArg List.length hlabels
  simp only [LabelTable.toList, Array.length_toList] at hsize
  obtain ⟨-, -, -, hcount, -, hlength⟩ := labels_of_listing h
  refine ⟨_, h, (hcount 2).trans ?_, (hcount 3).trans ?_, hlength.trans ?_⟩
  all_goals
    rw [LabelTable.size, hsize]
    rfl

/-- In a program whose instructions take two bytes each, and no byte modifies, a branch to an even
offset goes to the end of an instruction or to the start of the first. The label that it prints is
defined once, behind all the instructions in front of the target: the next one, if the target is not
the end of the stream, starts there. -/
theorem definedBetween_of_target {bytes : List UInt8} {p : Program} (h : decode bytes = .ok p)
    (hspans : spans bytes = (List.range p.size).map fun k => (2 * k, 2 * k + 2))
    (hlength : bytes.length = 2 * p.size) {k target : Nat} {i : Instruction} {offset : Int8}
    (hi : p.instructions[k]? = some i) (ho : i.offset? = some offset)
    (heven : offset.toInt % 2 = 0) (htarget : (target : Int) = 2 * k + 2 + offset.toInt)
    (hle : target ≤ bytes.length) :
    ∃ n, i.text p.labels k = i.head ++ " " ++ labelName n ∧
      (textLines p.listing).count (labelName n ++ ":") = 1 ∧
      textLines p.listing = p.lines.map (ListingLine.text p.labels) ∧
      (∀ index i, (ListingLine.instruction index i).text p.labels = i.text p.labels index) ∧
      (∀ m, (ListingLine.label m).text p.labels = labelName m ++ ":") ∧
      DefinedBetween n (p.instructions.toList.zipIdx.take (target / 2))
        (p.instructions.toList.zipIdx.drop (target / 2)) p.lines ∧
      (p.instructions.toList.zipIdx.take (target / 2)).length = target / 2 ∧
      (spans bytes)[target / 2]? =
        if target < bytes.length then some (target, target + 2) else none := by
  obtain ⟨n, hget, htext⟩ := exists_label_of_offset? h hi ho
  have hn : n < p.labels.size := LabelTable.lt_size_iff.2 ⟨_, LabelTable.get?_eq_some_iff.1 hget⟩
  -- The label is defined behind the instruction in front of the target.
  have hindex : (branchTarget k offset + 1).toNat = target / 2 := by
    unfold branchTarget
    omega
  refine ⟨n, htext, ?count, textLines_listing h, fun _ _ => rfl, fun _ => rfl, ?defined, ?length,
    ?span⟩
  case count => rw [count_definition h, if_pos hn]
  case defined => exact hindex ▸ p.definedBetween_lines hget
  case length =>
    have hsize : p.instructions.toList.zipIdx.length = p.size := by simp [Program.size]
    rw [List.length_take, hsize]
    omega
  case span =>
    rw [hspans, List.getElem?_map]
    split
    case isTrue hlt =>
      rw [List.getElem?_range (by omega)]
      simp only [Option.map_some, Option.some.injEq, Prod.mk.injEq]
      omega
    case isFalse hge => rw [List.getElem?_eq_none (by simp; omega), Option.map_none]

/-- In `jle 2`, `add ax, bx`, `jmp -6` the last branch goes back to the start. -/
theorem definedBetween_of_target_start :
    ∃ p, decode [0x7E, 0x02, 0x01, 0xD8, 0xEB, 0xFA] = .ok p ∧
      spans [0x7E, 0x02, 0x01, 0xD8, 0xEB, 0xFA] = [(0, 2), (2, 4), (4, 6)] ∧
      ∃ i n, p.instructions[2]? = some i ∧ i.text p.labels 2 = "jmp" ++ " " ++ labelName n ∧
        DefinedBetween n [] p.instructions.toList.zipIdx p.lines := by
  let jmp : Instruction := ⟨"jmp", .jmp, .shortTarget, some (.label (-6)), none, {}⟩
  let ts : List Tile :=
    [⟨[0x7E, 0x02], .instruction ⟨"jle", .jle, .shortTarget, some (.label 2), none, {}⟩,
      by repeat constructor⟩,
     ⟨[0x01, 0xD8], .instruction ⟨"add", .add, .rmRegister, some (.register .ax),
      some (.register .bx), { width := .word }⟩, by repeat constructor⟩,
     ⟨[0xEB, 0xFA], .instruction jmp, by repeat constructor⟩]
  have h := decode_join ts
  have hspans : spans (Tile.join ts) = [(0, 2), (2, 4), (4, 6)] := Tile.spans_join ts
  have hi : (Program.ofInstructions (Tile.instructions ts)).instructions[2]? = some jmp := rfl
  have htarget : ((0 : Nat) : Int) = 2 * (2 : Nat) + 2 + (-6 : Int8).toInt := by decide
  obtain ⟨n, htext, -, -, -, -, hdefined, -⟩ :=
    definedBetween_of_target h hspans rfl hi rfl (by decide) htarget (by decide)
  exact ⟨_, h, hspans, jmp, n, hi, htext, hdefined⟩

end I8086

import I8086.Listing
import I8086.Proofs.Labels
import Mathlib.Data.List.Nodup
import Mathlib.Data.List.Range
import Mathlib.Tactic.Lemma

/-!
# Where labels are defined

The lines of a listing taken apart: the instructions that they show and the labels that they define.
A program and its label table are arbitrary here. Main statements: `Program.shown_lines`, a listing
shows every instruction once and in order; `Program.perm_defined_lines`, it defines every label of
the table once; `Program.definedBetween_lines`, a label is defined behind the instruction that it is
the target of, in front of the first if its target is negative, and behind the last one if it lies
further on; `placement_of_listing`, all of this of the text of a listing, with the order of the
labels that stand in one place.
-/

namespace I8086

namespace ListingLine

/-- The instruction that a line shows, with its index. -/
def shown? : ListingLine → Option (Instruction × Nat)
  | instruction index i => some (i, index)
  | _ => none

/-- The label that a line defines. -/
def defined? : ListingLine → Option Nat
  | label number => some number
  | _ => none

/-- Among some lines a label is defined where these instructions have been shown and those not
yet. -/
def DefinedBetween (n : Nat) (shown rest : List (Instruction × Nat)) (lines : List ListingLine) :
    Prop :=
  ∃ before after, lines = before ++ .label n :: after ∧ before.filterMap shown? = shown ∧
    after.filterMap shown? = rest

/-- Among some lines the labels whose target in a table satisfies a condition are defined once each,
in the order of their numbers. -/
def DefinedInOrder (targets : List Int) (q : Int → Bool) (lines : List ListingLine) : Prop :=
  (lines.filterMap defined?).filter (fun n => targets[n]?.any q) =
    (List.range targets.length).filter fun n => targets[n]?.any q

variable {n : Nat} {shown rest : List (Instruction × Nat)} {lines : List ListingLine}

/-- The header shows no instruction. -/
@[simp] lemma shown_header (lines : List ListingLine) :
    (header :: lines).filterMap shown? = lines.filterMap shown? :=
  List.filterMap_cons_none rfl

/-- The header defines no label. -/
@[simp] lemma defined_header (lines : List ListingLine) :
    (header :: lines).filterMap defined? = lines.filterMap defined? :=
  List.filterMap_cons_none rfl

/-- No label is defined in the header. -/
lemma DefinedBetween.of_header (h : DefinedBetween n shown rest (header :: lines)) :
    DefinedBetween n shown rest lines := by
  obtain ⟨before, after, e, hb, ha⟩ := h
  cases before with
  | nil => cases (List.cons.inj e).1
  | cons line before =>
    obtain ⟨rfl, rfl⟩ := List.cons.inj e
    rw [shown_header] at hb
    exact ⟨before, after, rfl, hb, ha⟩

/-- More lines in front show their instructions before. -/
lemma DefinedBetween.append_left (h : DefinedBetween n shown rest lines)
    (front : List ListingLine) :
    DefinedBetween n (front.filterMap shown? ++ shown) rest (front ++ lines) := by
  obtain ⟨before, after, rfl, rfl, ha⟩ := h
  exact ⟨front ++ before, after, (List.append_assoc ..).symm, List.filterMap_append, ha⟩

/-- More lines behind show their instructions after. -/
lemma DefinedBetween.append_right (h : DefinedBetween n shown rest lines)
    (back : List ListingLine) :
    DefinedBetween n shown (rest ++ back.filterMap shown?) (lines ++ back) := by
  obtain ⟨before, after, rfl, hb, rfl⟩ := h
  exact ⟨before, after ++ back, List.append_assoc .., hb, List.filterMap_append⟩

end ListingLine

open ListingLine

namespace LabelTable

variable {l : LabelTable} {q : Int → Bool} {n : Nat}

/-- Definitions show no instruction. -/
@[simp] lemma shown_definitions (l : LabelTable) (q : Int → Bool) :
    (l.definitions q).filterMap shown? = [] := by
  refine List.filterMap_eq_nil_iff.2 fun line hline => ?_
  obtain ⟨x, -, rfl⟩ := List.mem_map.1 hline
  rfl

/-- The definition at an instruction shows none. -/
@[simp] lemma shown_definitionAt (l : LabelTable) (index : Nat) :
    (l.definitionAt index).filterMap shown? = [] := by
  unfold definitionAt
  cases l.get? index <;> rfl

/-- The labels that definitions define are the numbers of their targets. -/
lemma defined_definitions (l : LabelTable) (q : Int → Bool) :
    (l.definitions q).filterMap defined? =
      (l.toList.zipIdx.filter fun (t, _) => q t).map (·.2) := by
  unfold definitions
  rw [List.filterMap_map, ← List.filterMap_eq_map]
  rfl

/-- Definitions have a line for each label. -/
lemma length_definitions (l : LabelTable) (q : Int → Bool) :
    (l.definitions q).length = ((l.definitions q).filterMap defined?).length := by
  rw [defined_definitions, List.length_map, definitions, List.length_map]

/-- Definitions define the labels whose target satisfies the condition. -/
lemma mem_defined_definitions :
    n ∈ (l.definitions q).filterMap defined? ↔ ∃ t, l.toList[n]? = some t ∧ q t := by
  rw [defined_definitions]
  simp only [List.mem_map, List.mem_filter, Prod.exists, exists_eq_right,
    List.mk_mem_zipIdx_iff_getElem?]

/-- Definitions stand in the order of their numbers. -/
lemma defined_definitions_eq_filter (l : LabelTable) (q : Int → Bool) :
    (l.definitions q).filterMap defined? =
      (List.range l.size).filter fun n => l.toList[n]?.any q := by
  have hrange : List.range l.size = l.toList.zipIdx.map Prod.snd := by
    rw [List.zipIdx_map_snd, List.range_eq_range']
    rfl
  rw [defined_definitions, hrange, List.filter_map]
  refine congrArg (List.map Prod.snd) (List.filter_congr fun (t, n) h => ?_)
  rw [Function.comp_apply, List.mk_mem_zipIdx_iff_getElem?.1 h]
  rfl

/-- Numbers whose targets do not satisfy the condition are left out. -/
lemma filter_any_eq_nil {ns : List Nat} (h : ∀ n ∈ ns, ∃ t, l.toList[n]? = some t ∧ ¬ q t) :
    ns.filter (fun n => l.toList[n]?.any q) = [] := by
  refine List.filter_eq_nil_iff.2 fun n hn => ?_
  obtain ⟨t, ht, hq⟩ := h n hn
  rw [ht]
  exact hq

/-- Definitions are in order among lines that define no other label with such a target. -/
lemma definedInOrder_of_defined {lines : List ListingLine} {ns ms : List Nat}
    (h : lines.filterMap defined? = ns ++ ((l.definitions q).filterMap defined? ++ ms))
    (hns : ∀ n ∈ ns, ∃ t, l.toList[n]? = some t ∧ ¬ q t)
    (hms : ∀ n ∈ ms, ∃ t, l.toList[n]? = some t ∧ ¬ q t) :
    DefinedInOrder l.toList q lines := by
  unfold DefinedInOrder
  rw [h, List.filter_append, List.filter_append, filter_any_eq_nil hns, filter_any_eq_nil hms,
    List.nil_append, List.append_nil, defined_definitions_eq_filter, List.filter_filter]
  simp only [Bool.and_self]
  rfl

/-- A number has one target. -/
lemma exists_and_of_getElem? {q q' : Int → Prop} (h : ∃ t, l.toList[n]? = some t ∧ q t)
    (h' : ∃ t, l.toList[n]? = some t ∧ q' t) : ∃ t, q t ∧ q' t := by
  obtain ⟨t, ht, hq⟩ := h
  obtain ⟨t', ht', hq'⟩ := h'
  cases ht.symm.trans ht'
  exact ⟨t, hq, hq'⟩

/-- The numbers of a table are those that have a target. -/
lemma lt_size_iff : n < l.size ↔ ∃ t, l.toList[n]? = some t := by
  unfold size toList
  rw [← Array.length_toList, ← Option.isSome_iff_exists]
  simp

/-- Definitions define no label twice. -/
lemma nodup_defined_definitions : ((l.definitions q).filterMap defined?).Nodup := by
  rw [defined_definitions_eq_filter]
  exact List.nodup_range.filter _

/-- Among definitions a label is defined without an instruction on either side. -/
lemma definedBetween_definitions (h : ∃ t, l.toList[n]? = some t ∧ q t) :
    DefinedBetween n [] [] (l.definitions q) := by
  obtain ⟨line, hmem, hline⟩ := List.mem_filterMap.1 (mem_defined_definitions.2 h)
  cases line with
  | label number =>
    cases hline
    obtain ⟨before, after, e⟩ := List.append_of_mem hmem
    have hs := l.shown_definitions q
    rw [e, List.filterMap_append] at hs
    obtain ⟨hb, ha⟩ := List.append_eq_nil_iff.1 hs
    exact ⟨before, after, e, hb, ha⟩
  | _ => cases hline

end LabelTable

/-- The lines of instructions, each with the definition of its label. -/
def instructionLines (l : LabelTable) (is : List (Instruction × Nat)) : List ListingLine :=
  is.flatMap fun (i, index) => .instruction index i :: l.definitionAt index

section InstructionLines

variable {l : LabelTable} {is js : List (Instruction × Nat)} {n m : Nat}

@[simp] lemma instructionLines_append :
    instructionLines l (is ++ js) = instructionLines l is ++ instructionLines l js :=
  List.flatMap_append

/-- The lines of instructions show them. -/
@[simp] lemma shown_instructionLines : (instructionLines l is).filterMap shown? = is := by
  unfold instructionLines
  induction is with
  | nil => rfl
  | cons x is ih => simp [shown?, ih]

/-- The lines of instructions define the labels at their indices. -/
lemma defined_instructionLines :
    (instructionLines l is).filterMap defined? =
      (is.map Prod.snd).filterMap fun index : Nat => l.get? index := by
  unfold instructionLines
  induction is with
  | nil => rfl
  | cons x is ih =>
    rw [List.flatMap_cons, List.filterMap_append, ih, List.map_cons, List.filterMap_cons]
    unfold LabelTable.definitionAt
    cases h : l.get? x.2 <;> simp [defined?, h]

/-- Instructions have a line each, besides the definitions. -/
lemma length_instructionLines :
    (instructionLines l is).length =
      is.length + ((instructionLines l is).filterMap defined?).length := by
  rw [defined_instructionLines]
  unfold instructionLines
  induction is with
  | nil => rfl
  | cons x is ih =>
    rw [List.flatMap_cons, List.length_append, ih, List.map_cons, List.filterMap_cons]
    unfold LabelTable.definitionAt
    cases h : l.get? x.2 with
    | none =>
      simp [h]
      omega
    | some n =>
      simp [h]
      omega

/-- Among the lines of instructions a label is defined behind the one at its index. -/
lemma definedBetween_instructionLines {k index : Nat} {i : Instruction}
    (hi : is[k]? = some (i, index)) (h : l.get? index = some n) :
    DefinedBetween n (is.take (k + 1)) (is.drop (k + 1)) (instructionLines l is) := by
  obtain ⟨hk, hi⟩ := List.getElem?_eq_some_iff.1 hi
  have hone : DefinedBetween n [(i, index)] [] (instructionLines l [(i, index)]) := by
    refine ⟨[.instruction index i], [], ?_, rfl, rfl⟩
    simp [instructionLines, LabelTable.definitionAt, h]
  have hall := (hone.append_left (instructionLines l (is.take k))).append_right
    (instructionLines l (is.drop (k + 1)))
  rwa [← instructionLines_append, ← instructionLines_append, shown_instructionLines,
    shown_instructionLines, ← hi, List.nil_append, List.take_append_getElem hk,
    List.take_append_drop] at hall

end InstructionLines

namespace Program

variable {p : Program} {t : Int} {n : Nat}

/-- The lines of a listing: the header, the labels before the instructions, these, the labels behind
them. -/
lemma lines_eq (p : Program) :
    p.lines = [.header] ++ p.labels.definitions (· < 0) ++
      instructionLines p.labels p.instructions.toList.zipIdx ++
      p.labels.definitions ((p.size : Int) ≤ ·) :=
  rfl

/-- A listing shows every instruction once and in order. -/
theorem shown_lines (p : Program) :
    p.lines.filterMap shown? = p.instructions.toList.zipIdx := by
  simp [lines_eq]

/-- The instructions define the labels whose target is one of them. -/
lemma mem_defined_instructionLines :
    n ∈ (instructionLines p.labels p.instructions.toList.zipIdx).filterMap defined? ↔
      ∃ t, p.labels.toList[n]? = some t ∧ 0 ≤ t ∧ t < p.size := by
  rw [defined_instructionLines, List.zipIdx_map_snd]
  simp only [List.mem_filterMap, List.mem_range', LabelTable.get?_eq_some_iff]
  constructor
  · rintro ⟨_, ⟨k, hk, rfl⟩, hn⟩
    exact ⟨_, hn, by omega, by simpa [size] using hk⟩
  · rintro ⟨t, hn, h0, hlt⟩
    refine ⟨t.toNat, ⟨t.toNat, ?_, by omega⟩, ?_⟩
    · simp only [size, Array.length_toList] at hlt ⊢
      omega
    · rwa [Int.toNat_of_nonneg h0]

/-- The instructions define no label twice. -/
lemma nodup_defined_instructionLines :
    ((instructionLines p.labels p.instructions.toList.zipIdx).filterMap defined?).Nodup := by
  rw [defined_instructionLines, List.zipIdx_map_snd]
  refine List.Nodup.filterMap (fun j k number hj hk => ?_) List.nodup_range'
  have hj := LabelTable.get?_eq_some_iff.1 hj
  have hk := LabelTable.get?_eq_some_iff.1 hk
  rw [hj] at hk
  exact Int.ofNat.inj (Option.some.inj hk)

/-- A listing defines the labels in front of the instructions, those at them and those behind. -/
lemma defined_lines (p : Program) :
    p.lines.filterMap defined? = (p.labels.definitions (· < 0)).filterMap defined? ++
      ((instructionLines p.labels p.instructions.toList.zipIdx).filterMap defined? ++
        (p.labels.definitions ((p.size : Int) ≤ ·)).filterMap defined?) := by
  simp [lines_eq]

/-- A listing defines every label of the table once, and nothing else. -/
theorem perm_defined_lines (p : Program) :
    (p.lines.filterMap defined?).Perm (List.range p.labels.size) := by
  -- A target is negative, that of an instruction, or behind them all.
  rw [defined_lines]
  refine (List.perm_ext_iff_of_nodup ?_ List.nodup_range).2 fun n => ?_
  · refine List.Nodup.append LabelTable.nodup_defined_definitions
      (List.Nodup.append nodup_defined_instructionLines LabelTable.nodup_defined_definitions ?_) ?_
    · intro n hn hn'
      obtain ⟨t, ⟨-, hlt⟩, hle⟩ := LabelTable.exists_and_of_getElem?
        (mem_defined_instructionLines.1 hn) (LabelTable.mem_defined_definitions.1 hn')
      exact absurd (of_decide_eq_true hle) (by omega)
    · intro n hn hn'
      obtain hn' | hn' := List.mem_append.1 hn'
      · obtain ⟨t, hneg, h0, -⟩ := LabelTable.exists_and_of_getElem?
          (LabelTable.mem_defined_definitions.1 hn) (mem_defined_instructionLines.1 hn')
        exact absurd (of_decide_eq_true hneg) (by omega)
      · obtain ⟨t, hneg, hle⟩ := LabelTable.exists_and_of_getElem?
          (LabelTable.mem_defined_definitions.1 hn) (LabelTable.mem_defined_definitions.1 hn')
        have hneg := of_decide_eq_true hneg
        exact absurd (of_decide_eq_true hle) (by omega)
  · rw [List.mem_append, List.mem_append, LabelTable.mem_defined_definitions,
      mem_defined_instructionLines, LabelTable.mem_defined_definitions, List.mem_range,
      LabelTable.lt_size_iff]
    constructor
    · rintro (⟨t, ht, -⟩ | ⟨t, ht, -⟩ | ⟨t, ht, -⟩) <;> exact ⟨t, ht⟩
    · rintro ⟨t, ht⟩
      by_cases h0 : t < 0
      · exact .inl ⟨t, ht, decide_eq_true h0⟩
      · by_cases hlt : t < p.size
        · exact .inr (.inl ⟨t, ht, Int.not_lt.1 h0, hlt⟩)
        · exact .inr (.inr ⟨t, ht, decide_eq_true (Int.not_lt.1 hlt)⟩)

/-- A listing has the header, a line for each instruction and one for each label. -/
theorem length_lines (p : Program) : p.lines.length = 1 + p.size + p.labels.size := by
  have hd := p.perm_defined_lines.length_eq
  have hsize : p.instructions.size = p.size := rfl
  simp only [lines_eq, List.cons_append, List.nil_append, defined_header, List.filterMap_append,
    List.length_append, List.length_range, List.length_cons, LabelTable.length_definitions,
    length_instructionLines, List.length_zipIdx, Array.length_toList] at hd ⊢
  omega

/-- A label of the table is defined behind as many instructions as there are up to its target. -/
theorem definedBetween_lines (h : p.labels.get? t = some n) :
    DefinedBetween n (p.instructions.toList.zipIdx.take (t + 1).toNat)
      (p.instructions.toList.zipIdx.drop (t + 1).toNat) p.lines := by
  have hn := LabelTable.get?_eq_some_iff.1 h
  have hlength : p.instructions.toList.zipIdx.length = p.size := by
    simp [size]
  rw [lines_eq]
  by_cases h0 : t < 0
  · have hd : DefinedBetween n [] [] (p.labels.definitions (· < 0)) :=
      LabelTable.definedBetween_definitions ⟨t, hn, decide_eq_true h0⟩
    have hzero : (t + 1).toNat = 0 := by omega
    have hall := ((hd.append_left [.header]).append_right
      (instructionLines p.labels p.instructions.toList.zipIdx)).append_right
        (p.labels.definitions ((p.size : Int) ≤ ·))
    rw [hzero]
    simpa using hall
  by_cases hlt : t < p.size
  · obtain ⟨k, rfl⟩ := Int.eq_ofNat_of_zero_le (Int.not_lt.1 h0)
    have hk : k < p.instructions.toList.length := Int.ofNat_lt.1 hlt
    have hi : p.instructions.toList.zipIdx[k]? = some (p.instructions.toList[k], k) := by
      simp [List.getElem?_eq_getElem hk]
    have hall := ((definedBetween_instructionLines hi h).append_left
      ([.header] ++ p.labels.definitions (· < 0))).append_right
        (p.labels.definitions ((p.size : Int) ≤ ·))
    simpa using hall
  · have hd : DefinedBetween n [] [] (p.labels.definitions ((p.size : Int) ≤ ·)) :=
      LabelTable.definedBetween_definitions ⟨t, hn, decide_eq_true (Int.not_lt.1 hlt)⟩
    have hall := hd.append_left ([.header] ++ p.labels.definitions (· < 0) ++
      instructionLines p.labels p.instructions.toList.zipIdx)
    rw [List.take_of_length_le (by omega), List.drop_of_length_le (by omega)]
    simpa using hall

/-- The labels in front of the instructions are defined in order. -/
lemma definedInOrder_front (p : Program) : DefinedInOrder p.labels.toList (· < 0) p.lines := by
  refine LabelTable.definedInOrder_of_defined (p.defined_lines.trans (List.nil_append _).symm)
    nofun fun n hn => ?_
  obtain hn | hn := List.mem_append.1 hn
  · obtain ⟨t, ht, h0, -⟩ := mem_defined_instructionLines.1 hn
    exact ⟨t, ht, fun hneg => absurd (of_decide_eq_true hneg) (Int.not_lt.2 h0)⟩
  · obtain ⟨t, ht, hle⟩ := LabelTable.mem_defined_definitions.1 hn
    have hle := of_decide_eq_true hle
    exact ⟨t, ht, fun hneg => absurd (of_decide_eq_true hneg) (by omega)⟩

/-- The labels behind the instructions are defined in order. -/
lemma definedInOrder_back (p : Program) :
    DefinedInOrder p.labels.toList ((p.size : Int) ≤ ·) p.lines := by
  have h := p.defined_lines
  rw [← List.append_assoc,
    ← List.append_nil ((p.labels.definitions ((p.size : Int) ≤ ·)).filterMap defined?)] at h
  refine LabelTable.definedInOrder_of_defined h (fun n hn => ?_) nofun
  obtain hn | hn := List.mem_append.1 hn
  · obtain ⟨t, ht, hneg⟩ := LabelTable.mem_defined_definitions.1 hn
    have hneg := of_decide_eq_true hneg
    exact ⟨t, ht, fun hle => absurd (of_decide_eq_true hle) (by omega)⟩
  · obtain ⟨t, ht, -, hlt⟩ := mem_defined_instructionLines.1 hn
    exact ⟨t, ht, fun hle => absurd (of_decide_eq_true hle) (Int.not_le.2 hlt)⟩

end Program

/-- Where the labels of a table are defined among any instructions, whatever targets it has. After
the header the listing shows the text of every instruction once and in order and defines every entry
once, on a line with the name of the label and a colon. That of a target is behind as many
instructions as the target and one more say, or behind none if this is negative, and behind all if
there are fewer. Among each other the entries in front are in the order of the table, and so are
those behind. -/
theorem placement_of_listing (instructions : List Instruction) (targets : List Int) :
    let p : Program := ⟨instructions.toArray, .ofList targets⟩
    let entries := targets.eraseDups
    ∃ lines,
      p.listing =
        "bits 16\n" ++ String.join (lines.map fun line => line.text p.labels ++ "\n") ∧
      (∀ index i, (ListingLine.instruction index i).text p.labels = i.text p.labels index) ∧
      (∀ n, (ListingLine.label n).text p.labels = labelName n ++ ":") ∧
      lines.length = instructions.length + entries.length ∧
      lines.filterMap shown? = instructions.zipIdx ∧
      (lines.filterMap defined?).Perm (List.range entries.length) ∧
      (∀ (n : Nat) (t : Int), entries[n]? = some t →
        ∃ k : Nat, (k : Int) = max 0 (min (t + 1) instructions.length) ∧
          DefinedBetween n (instructions.zipIdx.take k) (instructions.zipIdx.drop k) lines) ∧
      DefinedInOrder entries (· < 0) lines ∧
      DefinedInOrder entries ((instructions.length : Int) ≤ ·) lines := by
  intro p entries
  have hentries : p.labels.toList = entries := LabelTable.toList_ofList targets
  have hsize : p.labels.size = entries.length := congrArg List.length hentries
  refine ⟨p.lines.tail, ?text, fun _ _ => rfl, fun _ => rfl, ?length, p.shown_lines, ?once, ?place,
    ?front, ?back⟩
  case text => exact String.join_cons
  case length =>
    have hinstructions : p.size = instructions.length := rfl
    rw [List.length_tail, p.length_lines, hsize, hinstructions]
    omega
  case once => exact hsize ▸ p.perm_defined_lines
  case place =>
    intro n t ht
    have hget : p.labels.get? t = some n := LabelTable.get?_eq_some_iff.2 (hentries ▸ ht)
    have h := (p.definedBetween_lines hget).of_header
    rw [List.take_eq_take_min, List.drop_eq_drop_min, List.length_zipIdx] at h
    have hk : ((min (t + 1).toNat instructions.length : Nat) : Int) =
        max 0 (min (t + 1) instructions.length) := by omega
    exact ⟨_, hk, h⟩
  case front => exact hentries ▸ p.definedInOrder_front
  case back => exact hentries ▸ p.definedInOrder_back

/-- Two instructions, and targets right in front of them, at the first, right behind and as far away
as words of 64 bits go, one of them named twice. -/
theorem placement_of_listing_limits :
    let nop : Instruction := ⟨"nop", .nop, .bare, none, none, {}⟩
    let targets : List Int := [-1, 2, -9223372036854775808, 0, 2, 9223372036854775807]
    ∃ lines,
      Program.listing ⟨#[nop, nop], .ofList targets⟩ = "bits 16\n" ++
        String.join (lines.map fun line => line.text (.ofList targets) ++ "\n") ∧
      Program.listing ⟨#[nop, nop], .ofList targets⟩ =
        "bits 16\nlabel0:\nlabel2:\nnop\nlabel3:\nnop\nlabel1:\nlabel4:\n" ∧
      lines.length = 7 ∧ lines.filterMap shown? = [(nop, 0), (nop, 1)] ∧
      DefinedBetween 0 [] [(nop, 0), (nop, 1)] lines ∧
      DefinedBetween 3 [(nop, 0)] [(nop, 1)] lines ∧
      DefinedBetween 1 [(nop, 0), (nop, 1)] [] lines ∧
      (lines.filterMap defined?).filter (fun n => targets.eraseDups[n]?.any (2 ≤ ·)) = [1, 4] := by
  intro nop targets
  obtain ⟨lines, htext, -, -, hlength, hshown, -, hplace, -, hback⟩ :=
    placement_of_listing [nop, nop] targets
  have hentries : (LabelTable.ofList targets).toList =
      [-1, 2, -9223372036854775808, 0, 9223372036854775807] :=
    (LabelTable.toList_ofList targets).trans (by decide)
  have hfirst : (LabelTable.ofList targets).get? 0 = some 3 :=
    LabelTable.get?_eq_some_iff.2 (hentries ▸ rfl)
  have hsecond : (LabelTable.ofList targets).get? 1 = none :=
    LabelTable.get?_eq_none_iff.2 (hentries ▸ by decide)
  have hlines : Program.lines ⟨#[nop, nop], .ofList targets⟩ =
      [.header, .label 0, .label 2, .instruction 0 nop, .label 3, .instruction 1 nop, .label 1,
        .label 4] := by
    simp only [Program.lines, LabelTable.definitions, hentries, LabelTable.definitionAt,
      List.zipIdx_cons, List.zipIdx_nil, List.flatMap_cons, List.flatMap_nil]
    rw [show (LabelTable.ofList targets).get? (0 : Nat) = some 3 from hfirst,
      show (LabelTable.ofList targets).get? (0 + 1 : Nat) = none from hsecond]
    decide +kernel
  have hlisting : Program.listing ⟨#[nop, nop], .ofList targets⟩ =
      "bits 16\nlabel0:\nlabel2:\nnop\nlabel3:\nnop\nlabel1:\nlabel4:\n" := by
    unfold Program.listing
    rw [hlines]
    decide +kernel
  have hbetween : ∀ (n : Nat) (t : Int) (k : Nat), targets.eraseDups[n]? = some t →
      (k : Int) = max 0 (min (t + 1) 2) →
      DefinedBetween n ([(nop, 0), (nop, 1)].take k) ([(nop, 0), (nop, 1)].drop k) lines := by
    intro n t k ht hk
    obtain ⟨m, hm, h⟩ := hplace n t ht
    obtain rfl : m = k := Int.ofNat.inj (hm.trans hk.symm)
    exact h
  exact ⟨lines, htext, hlisting, hlength, hshown, hbetween 0 (-1) 0 (by decide) (by decide),
    hbetween 3 0 1 (by decide) (by decide), hbetween 1 2 2 (by decide) (by decide),
    hback.trans (by decide)⟩

end I8086

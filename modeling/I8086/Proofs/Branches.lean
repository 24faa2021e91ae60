import I8086.Proofs.Labels
import I8086.Proofs.Stream

/-!
# Branches and labels

The label table of a decoded program told from its instructions. `Program.namedTargets` lists the
targets that the branches name, in program order, whether or not they lie within the program. Main
statement: `labels_of_decode_ok`, the table holds exactly these, each at its first place.
-/

namespace I8086

/-- The offset of a branch: its first operand is a label. -/
def Instruction.offset? (i : Instruction) : Option Int8 :=
  match i.first with
  | some (.label offset) => some offset
  | _ => none

/-- An instruction has an offset if its first operand is a label with this offset. -/
lemma Instruction.offset?_eq_some_iff {i : Instruction} {offset : Int8} :
    i.offset? = some offset ↔ i.first = some (.label offset) := by
  unfold offset?
  cases i.first with
  | none => simp
  | some x => cases x <;> simp

/-- The targets that the branches of a program name, in order. The offset of a branch counts bytes,
two to an instruction: half of it, rounded down, is added to the index of the branch. -/
def Program.namedTargets (p : Program) : List Int :=
  p.instructions.toList.zipIdx.filterMap fun (i, index) =>
    i.offset?.map fun offset => (index : Int) + offset.toInt.fdiv 2

/-- A branch names the target that its index and its offset give. -/
lemma Instruction.target?_eq (i : Instruction) (index : Nat) :
    i.target? index = i.offset?.map fun offset => (index : Int) + offset.toInt.fdiv 2 := by
  unfold Instruction.target? Instruction.offset? branchTarget
  cases i.first with
  | none => rfl
  | some x =>
    cases x with
    | label offset =>
      simp only [Option.map_some]
      rw [Int.fdiv_eq_ediv_of_nonneg _ (by decide)]
    | _ => rfl

/-- The targets of the branches among instructions from an index on. -/
lemma branchTargets_eq_filterMap (n : Nat) (is : List Instruction) :
    branchTargets n is = (is.zipIdx n).filterMap fun (i, index) => i.target? index := by
  induction is generalizing n with
  | nil => rfl
  | cons i is ih =>
    rw [branchTargets, ih, List.zipIdx_cons, List.filterMap_cons]
    dsimp only
    cases i.target? n <;> rfl

/-- The targets of the branches of a program are those that its label table is made of. -/
lemma Program.namedTargets_eq (p : Program) :
    p.namedTargets = branchTargets 0 p.instructions.toList := by
  rw [branchTargets_eq_filterMap]
  unfold Program.namedTargets
  simp only [Instruction.target?_eq]

/-- The table of a decoded program holds the targets of its branches. -/
lemma toList_labels_of_decode {bytes : List UInt8} {p : Program} (h : decode bytes = .ok p) :
    p.labels.toList = p.namedTargets.eraseDups := by
  rw [p.namedTargets_eq, ← LabelTable.toList_ofList]
  exact congrArg (fun q => q.labels.toList) (eq_ofInstructions_of_decode h)

/-- A target is named by a branch that has it. -/
lemma Program.mem_namedTargets_iff {p : Program} {t : Int} :
    t ∈ p.namedTargets ↔ ∃ (k : Nat) (i : Instruction) (offset : Int8),
      p.instructions[k]? = some i ∧ i.offset? = some offset ∧ t = branchTarget k offset := by
  rw [p.namedTargets_eq, branchTargets_eq_filterMap]
  simp only [List.mem_filterMap, Prod.exists, List.mk_mem_zipIdx_iff_getElem?,
    Instruction.target?_eq, Option.map_eq_some_iff, Array.getElem?_toList]
  unfold branchTarget
  simp only [Int.fdiv_eq_ediv_of_nonneg _ (by decide : (0 : Int) ≤ 2)]
  constructor
  · rintro ⟨i, k, hi, offset, ho, rfl⟩
    exact ⟨k, i, offset, hi, ho, rfl⟩
  · rintro ⟨k, i, offset, hi, ho, rfl⟩
    exact ⟨i, k, hi, offset, ho, rfl⟩

/-- The label table of a decoded program holds the targets of its branches in the order of the
branches, each where it is named first. The number of a target is its place, and what no branch
names has none. -/
theorem labels_of_decode_ok {bytes : List UInt8} {p : Program} (h : decode bytes = .ok p) :
    p.labels.toList = p.namedTargets.eraseDups ∧
      (∀ t n, p.labels.get? t = some n ↔ p.namedTargets.eraseDups[n]? = some t) ∧
      ∀ t, t ∉ p.namedTargets → p.labels.get? t = none := by
  have hl := toList_labels_of_decode h
  refine ⟨hl, fun t n => ?_, fun t ht => ?_⟩
  · rw [LabelTable.get?_eq_some_iff, hl]
  · rw [LabelTable.get?_eq_none_iff, hl, List.mem_eraseDups]
    exact ht

/-- After `nop`, the branches `lock jne -5`, `jmp 127` and `je -10` name a target in front of the
program, one far behind it and the first one again. -/
theorem labels_of_decode_ok_repeated :
    ∃ p, decode [0x90, 0xF0, 0x75, 0xFB, 0xEB, 0x7F, 0x74, 0xF6] = .ok p ∧
      p.namedTargets = [-2, 65, -2] ∧ p.labels.toList = [-2, 65] ∧
      p.labels.get? 65 = some 1 ∧ p.labels.get? 1 = none := by
  have h := decode_join
    [⟨[0x90], .instruction ⟨"nop", .nop, .bare, none, none, {}⟩, by repeat constructor⟩,
     ⟨[0xF0], .modifier .lock, by repeat constructor⟩,
     ⟨[0x75, 0xFB], .instruction ⟨"jne", .jne, .shortTarget, some (.label (-5)), none, {}⟩,
      by repeat constructor⟩,
     ⟨[0xEB, 0x7F], .instruction ⟨"jmp", .jmp, .shortTarget, some (.label 127), none, {}⟩,
      by repeat constructor⟩,
     ⟨[0x74, 0xF6], .instruction ⟨"je", .je, .shortTarget, some (.label (-10)), none, {}⟩,
      by repeat constructor⟩]
  obtain ⟨hl, hsome, hnone⟩ := labels_of_decode_ok h
  exact ⟨_, h, rfl, hl.trans (by decide), (hsome 65 1).2 (by decide), hnone 1 (by decide)⟩

end I8086

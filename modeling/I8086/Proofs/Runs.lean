import I8086.Proofs.Execution

/-!
# Runs

A run as a list of steps, each an instruction with the registers that it finds. The registers after a
run and its trace are read off this list (`registers_run`, `entries_run`), so facts about runs are
inductions on it. A skipped instruction leaves the registers as they were, so the steps of the others
are the same without it. Main statement: `run_append_and_erase`, what a run is made of, how runs in a
row compose and that skipped instructions can be taken out.
-/

namespace I8086

variable {r : RegisterFile} {i : Instruction} {is js : List Instruction}

/-- An instruction of a run with the registers that it finds. -/
structure RunStep where
  before : RegisterFile
  instruction : Instruction

namespace RunStep

open RegisterFile

/-- What becomes of the instruction. -/
def outcome (s : RunStep) : Outcome :=
  (s.before.execute s.instruction).1

/-- The registers after it. -/
def after (s : RunStep) : RegisterFile :=
  (s.before.execute s.instruction).2

/-- What a trace records of a step at an index. -/
def entry (s : RunStep) (index : Nat) : TraceEntry :=
  ⟨index, s.outcome, s.after.flags⟩

/-- Whether the instruction is executed. -/
def executed (s : RunStep) : Bool :=
  s.outcome = .executed

lemma executed_iff {s : RunStep} : s.executed ↔ s.outcome = .executed :=
  decide_eq_true_iff

lemma after_eq_before {s : RunStep} (h : ¬ s.executed) : s.after = s.before :=
  execute_of_skipped (mt executed_iff.2 h)

end RunStep

/-- The entry at an index that is moved. -/
def TraceEntry.shift (n : Nat) (e : TraceEntry) : TraceEntry :=
  { e with index := n + e.index }

namespace RegisterFile

/-- The registers after instructions that are executed one at a time. -/
def after (r : RegisterFile) (is : List Instruction) : RegisterFile :=
  is.foldl (fun r i => (r.execute i).2) r

/-- The steps of instructions that are executed one at a time. -/
def steps (r : RegisterFile) : List Instruction → List RunStep
  | [] => []
  | i :: is => ⟨r, i⟩ :: (r.execute i).2.steps is

/-- The instructions of a program that a run of it executes: those that are not skipped by their
entry in the trace. -/
def executedIn (r : RegisterFile) (is : Array Instruction) : Array Instruction :=
  ((is.zip (r.run is).trace.entries).filter fun (_, e) => e.outcome = .executed).map Prod.fst

/-- A run executes the instruction at an index: the entry there says so. -/
def ExecutesAt (r : RegisterFile) (is : Array Instruction) (k : Nat) (i : Instruction) : Prop :=
  is[k]? = some i ∧ ∃ e, (r.run is).trace.entries[k]? = some e ∧ e.outcome = .executed

@[simp] lemma after_cons (r : RegisterFile) (i : Instruction) (is : List Instruction) :
    r.after (i :: is) = (r.execute i).2.after is := rfl

@[simp] lemma after_append (r : RegisterFile) (is js : List Instruction) :
    r.after (is ++ js) = (r.after is).after js :=
  List.foldl_append

@[simp] lemma steps_nil (r : RegisterFile) : r.steps [] = [] := rfl

@[simp] lemma steps_cons (r : RegisterFile) (i : Instruction) (is : List Instruction) :
    r.steps (i :: is) = ⟨r, i⟩ :: (r.execute i).2.steps is := rfl

@[simp] lemma instructions_steps (r : RegisterFile) (is : List Instruction) :
    (r.steps is).map RunStep.instruction = is := by
  induction is generalizing r with
  | nil => rfl
  | cons i is ih => rw [steps_cons, List.map_cons, ih]

@[simp] lemma length_steps (r : RegisterFile) (is : List Instruction) :
    (r.steps is).length = is.length := by
  rw [← List.length_map RunStep.instruction, instructions_steps]

lemma steps_append (r : RegisterFile) (is js : List Instruction) :
    r.steps (is ++ js) = r.steps is ++ (r.after is).steps js := by
  induction is generalizing r with
  | nil => rfl
  | cons i is ih => rw [List.cons_append, steps_cons, ih, steps_cons, after_cons, List.cons_append]

lemma steps_take (r : RegisterFile) (is : List Instruction) (k : Nat) :
    r.steps (is.take k) = (r.steps is).take k := by
  induction is generalizing r k with
  | nil => rw [List.take_nil, steps_nil, List.take_nil]
  | cons i is ih => cases k with
    | zero => rfl
    | succ k => rw [List.take_succ_cons, steps_cons, ih, steps_cons, List.take_succ_cons]

/-- The step at an index finds the registers that the instructions before it leave. -/
lemma steps_getElem? (r : RegisterFile) (is : List Instruction) (k : Nat) :
    (r.steps is)[k]? = is[k]?.map fun i => ⟨r.after (is.take k), i⟩ := by
  induction is generalizing r k with
  | nil => rfl
  | cons i is ih => cases k with
    | zero => rfl
    | succ k => exact ih (r.execute i).2 k

/-- What is different after instructions was changed by a step that executes its instruction. -/
lemma exists_step_of_after_ne {α : Type} (f : RegisterFile → α) (h : f (r.after is) ≠ f r) :
    ∃ s ∈ r.steps is, s.executed ∧ f s.after ≠ f s.before := by
  induction is generalizing r with
  | nil => exact (h rfl).elim
  | cons i is ih =>
    by_cases hi : f (r.execute i).2 = f r
    · rw [after_cons, ← hi] at h
      obtain ⟨s, hs, hf⟩ := ih h
      exact ⟨s, List.mem_cons_of_mem _ hs, hf⟩
    · have hx : (RunStep.mk r i).executed := by
        by_contra hx
        exact hi (congrArg f (RunStep.after_eq_before hx))
      exact ⟨⟨r, i⟩, List.mem_cons_self, hx, hi⟩

/-- A run goes on from its registers with the steps of the instructions. -/
lemma foldl_step (s : Run) (is : List Instruction) :
    (is.foldl Run.step s).registers = s.registers.after is ∧
      (is.foldl Run.step s).trace.entries.toList = s.trace.entries.toList ++
        ((s.registers.steps is).zipIdx s.trace.entries.size).map fun (t, k) => t.entry k := by
  induction is generalizing s with
  | nil => exact ⟨rfl, (List.append_nil _).symm⟩
  | cons i is ih =>
    obtain ⟨hr, he⟩ := ih (s.step i)
    refine ⟨hr, ?_⟩
    rw [List.foldl_cons, he]
    show (s.trace.entries.push _).toList ++ List.map _ (List.zipIdx _ (s.trace.entries.push _).size) = _
    rw [Array.toList_push, Array.size_push, List.append_assoc]
    rfl

lemma registers_run (r : RegisterFile) (is : Array Instruction) :
    (r.run is).registers = r.after is.toList := by
  unfold run
  rw [← Array.foldl_toList]
  exact (foldl_step { registers := r } is.toList).1

/-- The trace of a run holds the entries of its steps. -/
lemma entries_run (r : RegisterFile) (is : Array Instruction) :
    (r.run is).trace.entries.toList =
      (r.steps is.toList).zipIdx.map fun (s, k) => s.entry k := by
  unfold run
  rw [← Array.foldl_toList]
  exact (foldl_step { registers := r } is.toList).2

lemma entries_run_getElem? (r : RegisterFile) (is : Array Instruction) (k : Nat) :
    (r.run is).trace.entries[k]? = (r.steps is.toList)[k]?.map fun s => s.entry k := by
  rw [← Array.getElem?_toList, entries_run, List.getElem?_map, List.getElem?_zipIdx, Option.map_map,
    Nat.zero_add]
  rfl

/-- The instructions that a run executes are those of the steps that execute theirs. -/
lemma executesAt_iff {is : Array Instruction} {k : Nat} : r.ExecutesAt is k i ↔
    ∃ s, (r.steps is.toList)[k]? = some s ∧ s.instruction = i ∧ s.executed := by
  unfold ExecutesAt
  rw [entries_run_getElem?, ← Array.getElem?_toList]
  constructor
  · rintro ⟨hi, e, he, hx⟩
    obtain ⟨s, hs, rfl⟩ := Option.map_eq_some_iff.1 he
    refine ⟨s, hs, ?_, RunStep.executed_iff.2 hx⟩
    rw [steps_getElem?, hi] at hs
    cases hs
    rfl
  · rintro ⟨s, hs, rfl, hx⟩
    rw [hs]
    refine ⟨?_, _, rfl, RunStep.executed_iff.1 hx⟩
    rw [← r.instructions_steps is.toList, List.getElem?_map, hs]
    rfl

lemma size_entries_run (r : RegisterFile) (is : Array Instruction) :
    (r.run is).trace.entries.size = is.size := by
  rw [← Array.length_toList, entries_run, List.length_map, List.length_zipIdx, length_steps,
    Array.length_toList]

/-- What the entries of a run record apart from their indices. -/
lemma map_entries_run {α : Type} (f : Outcome → Flags → α) (r : RegisterFile)
    (is : Array Instruction) : (r.run is).trace.entries.toList.map (fun e => f e.outcome e.flags) =
      (r.steps is.toList).map fun s => f s.outcome s.after.flags := by
  rw [entries_run, List.map_map]
  show List.map ((fun s : RunStep => f s.outcome s.after.flags) ∘ Prod.fst) _ = _
  rw [← List.map_map, List.zipIdx_map_fst]

/-- The entry of an instruction records what becomes of it when those before it have been executed
one at a time. -/
lemma entry_run (r : RegisterFile) (is : Array Instruction) {k : Nat} (h : k < is.size) :
    (r.run is).trace.entries[k]? = some ⟨k, ((r.after (is.toList.take k)).execute is[k]).1,
      (r.after (is.toList.take (k + 1))).flags⟩ := by
  have hk : k < is.toList.length := h
  rw [entries_run_getElem?, steps_getElem?, List.getElem?_eq_getElem hk,
    List.take_succ_eq_append_getElem hk, after_append]
  rfl

lemma entries_run_append (r : RegisterFile) (is js : Array Instruction) :
    (r.run (is ++ js)).trace.entries = (r.run is).trace.entries ++
      ((r.run is).registers.run js).trace.entries.map (TraceEntry.shift is.size) := by
  apply Array.toList_inj.1
  rw [Array.toList_append, Array.toList_map, entries_run, entries_run, entries_run, registers_run,
    Array.toList_append, steps_append, List.zipIdx_append, List.map_append, length_steps,
    Nat.zero_add, List.zipIdx_eq_map_add (i := is.toList.length), List.map_map, List.map_map]
  rfl

/-- What the entries of the executed instructions record apart from their indices. -/
lemma map_filter_entries_run {α : Type} (f : Outcome → Flags → α) (r : RegisterFile)
    (is : Array Instruction) :
    ((r.run is).trace.entries.toList.filter fun e => e.outcome = .executed).map
        (fun e => f e.outcome e.flags) =
      ((r.steps is.toList).filter RunStep.executed).map fun s => f s.outcome s.after.flags := by
  rw [entries_run, List.filter_map, List.map_map]
  -- Both look at the step of an entry only.
  show List.map ((fun s : RunStep => f s.outcome s.after.flags) ∘ Prod.fst)
    (List.filter (RunStep.executed ∘ Prod.fst) _) = _
  rw [← List.map_map, ← List.filter_map, List.zipIdx_map_fst]

/-- Without the skipped instructions a run takes the steps of the others and leaves the same
registers. -/
lemma steps_without_skipped (r : RegisterFile) (is : List Instruction) :
    r.steps (((r.steps is).filter RunStep.executed).map RunStep.instruction) =
        (r.steps is).filter RunStep.executed ∧
      r.after (((r.steps is).filter RunStep.executed).map RunStep.instruction) = r.after is := by
  induction is generalizing r with
  | nil => exact ⟨rfl, rfl⟩
  | cons i is ih =>
    obtain ⟨hs, ha⟩ := ih (r.execute i).2
    rw [steps_cons, after_cons]
    by_cases h : (RunStep.mk r i).executed
    · rw [List.filter_cons_of_pos h, List.map_cons, steps_cons, after_cons, hs, ha]
      exact ⟨rfl, rfl⟩
    · -- The steps behind a skipped instruction start from the same registers.
      rw [List.filter_cons_of_neg h]
      rw [show (r.execute i).2 = r from RunStep.after_eq_before h] at hs ha ⊢
      exact ⟨hs, ha⟩

/-- The executed instructions are those of the steps that execute theirs. -/
lemma toList_executedIn (r : RegisterFile) (is : Array Instruction) :
    (r.executedIn is).toList =
      ((r.steps is.toList).filter RunStep.executed).map RunStep.instruction := by
  have hzip (ts : List RunStep) (n : Nat) :
      (((ts.map RunStep.instruction).zip ((ts.zipIdx n).map fun (s, k) => s.entry k)).filter
        fun (_, e) => e.outcome = .executed).map Prod.fst =
          (ts.filter RunStep.executed).map RunStep.instruction := by
    induction ts generalizing n with
    | nil => rfl
    | cons s ts ih =>
      rw [List.map_cons, List.zipIdx_cons, List.map_cons, List.zip_cons_cons]
      by_cases h : s.executed
      · rw [List.filter_cons_of_pos h, List.filter_cons_of_pos, List.map_cons, ih, List.map_cons]
        exact h
      · rw [List.filter_cons_of_neg h, List.filter_cons_of_neg, ih]
        exact h
  have h := hzip (r.steps is.toList) 0
  rw [instructions_steps, ← entries_run] at h
  unfold executedIn
  rw [Array.toList_map, Array.toList_filter, Array.toList_zip]
  exact h

end RegisterFile

open RegisterFile in
/-- A run has one entry for each instruction, which tells what becomes of it and the flags after it
when the instructions up to it are executed one at a time. The run of a program and another one
behind it is the run of the first and, from the registers that this leaves, the run of the other with
its indices moved. And the run without the skipped instructions leaves the same registers, with the
same outcomes and flags for those that are left. -/
theorem run_append_and_erase (r : RegisterFile) (is js : Array Instruction) :
    ((r.run is).registers = r.after is.toList ∧ (r.run is).trace.entries.size = is.size ∧
      ∀ k (h : k < is.size), (r.run is).trace.entries[k]? =
        some ⟨k, ((r.after (is.toList.take k)).execute is[k]).1,
          (r.after (is.toList.take (k + 1))).flags⟩) ∧
    ((r.run (is ++ js)).registers = ((r.run is).registers.run js).registers ∧
      (r.run (is ++ js)).trace.entries = (r.run is).trace.entries ++
        ((r.run is).registers.run js).trace.entries.map (TraceEntry.shift is.size)) ∧
    (r.run (r.executedIn is)).registers = (r.run is).registers ∧
      (r.run (r.executedIn is)).trace.entries.map (fun e => (e.outcome, e.flags)) =
        ((r.run is).trace.entries.filter fun e => e.outcome = .executed).map
          fun e => (e.outcome, e.flags) := by
  refine ⟨⟨r.registers_run is, r.size_entries_run is, fun k h => r.entry_run is h⟩,
    ⟨?_, r.entries_run_append is js⟩, ?_, ?_⟩
  · rw [registers_run, registers_run, registers_run, Array.toList_append, after_append]
  · rw [registers_run, registers_run, toList_executedIn]
    exact (r.steps_without_skipped is.toList).2
  · apply Array.toList_inj.1
    rw [Array.toList_map, Array.toList_map, Array.toList_filter,
      map_filter_entries_run Prod.mk, map_entries_run Prod.mk, toList_executedIn,
      (r.steps_without_skipped is.toList).1]

end I8086

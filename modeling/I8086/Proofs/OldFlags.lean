import I8086.Proofs.Frame

/-!
# Old flags

Nothing that an instruction does to the general and segment registers depends on the flags that it
finds, and arithmetic sets each of its flags from its operands. So of two runs from registers that
differ in the flags only, the registers stay the same, and so do the flags of arithmetic as soon as
one such instruction was executed. Main statement: `run_of_sameRegisters`.
-/

namespace I8086

variable {r r' : RegisterFile} {i : Instruction} {l : Location} {w : Width} {op : Mnemonic}
variable {v : UInt16} {is : List Instruction}

/-- The flags words agree in the flags that arithmetic sets. -/
def Flags.SameStatus (f f' : Flags) : Prop :=
  ∀ x ∈ Flag.status, f.contains x = f'.contains x

/-- The flags of a result do not depend on the old ones. -/
lemma Arithmetic.sameStatus_flags (x : Arithmetic) (w : Width) (f f' : Flags) :
    (x.flags w f).SameStatus (x.flags w f') := by
  intro y hy
  simp only [Flag.status, List.mem_cons, List.not_mem_nil, or_false] at hy
  simp only [Arithmetic.flags, Flags.contains_set]
  obtain rfl | rfl | rfl | rfl | rfl | rfl := hy <;> rfl

namespace RegisterFile

/-- The register files differ in the flags only. -/
structure SameRegisters (r r' : RegisterFile) : Prop where
  cells : r.cells = r'.cells
  segments : r.segments = r'.segments

namespace SameRegisters

lemma eq_replaceFlags (h : r.SameRegisters r') : r' = r.replaceFlags r'.flags := by
  cases r
  cases r'
  obtain ⟨rfl, rfl⟩ := h
  rfl

lemma replaceFlags (h : r.SameRegisters r') (f f' : Flags) :
    (r.replaceFlags f).SameRegisters (r'.replaceFlags f') :=
  ⟨h.cells, h.segments⟩

lemma readLocation (h : r.SameRegisters r') (l : Location) :
    r.readLocation l = r'.readLocation l := by
  rw [h.eq_replaceFlags, readLocation_replaceFlags]

lemma writeLocation (h : r.SameRegisters r') (l : Location) (v : UInt16) :
    (r.writeLocation l v).SameRegisters (r'.writeLocation l v) := by
  rw [h.eq_replaceFlags]
  cases l with
  | register x =>
    show (r.writeSlot x.slot v).SameRegisters ((r.replaceFlags r'.flags).writeSlot x.slot v)
    cases x.slot <;> exact ⟨rfl, rfl⟩
  | segment => exact ⟨rfl, rfl⟩

lemma source? (h : r.SameRegisters r') (i : Instruction) : r.source? i = r'.source? i := by
  have hx (x : Operand) : r.sourceValue? i.width x = r'.sourceValue? i.width x := by
    unfold sourceValue?
    simp only [h.readLocation]
  unfold RegisterFile.source?
  rw [funext hx]

lemma perform (h : r.SameRegisters r') (hop : op.IsExecuted) (w : Width) (l : Location)
    (v : UInt16) : (r.perform op w l v).SameRegisters (r'.perform op w l v) := by
  unfold RegisterFile.perform
  rw [h.readLocation l]
  obtain rfl | rfl | rfl | rfl := Mnemonic.isExecuted_iff.1 hop
  · exact h.writeLocation l v
  · exact (h.replaceFlags _ _).writeLocation l _
  · exact (h.replaceFlags _ _).writeLocation l _
  · exact h.replaceFlags _ _

/-- An operation that is performed on one file is performed on the other. -/
lemma exists_perform (h : r.SameRegisters r') (hx : (r.execute i).1 = .executed) :
    ∃ l v, i.op.IsExecuted ∧ r.execute i = (.executed, r.perform i.op i.width l v) ∧
      r'.execute i = (.executed, r'.perform i.op i.width l v) := by
  obtain ⟨l, v, hop, hl, hv, he⟩ := exists_perform_of_executed hx
  rw [h.source?] at hv
  exact ⟨l, v, hop, he, (Executes.performed hop hl hv).execute_eq⟩

/-- What becomes of an instruction and of the registers does not depend on the old flags. -/
lemma execute (h : r.SameRegisters r') (i : Instruction) :
    (r.execute i).1 = (r'.execute i).1 ∧ (r.execute i).2.SameRegisters (r'.execute i).2 := by
  have he := r.executes_execute i
  generalize r.execute i = out at he
  cases he with
  | opcode hop =>
    rw [(Executes.opcode hop).execute_eq]
    exact ⟨rfl, h⟩
  | operand hop hn =>
    rw [h.source?] at hn
    rw [(Executes.operand hop hn).execute_eq]
    exact ⟨rfl, h⟩
  | performed hop hl hv =>
    rw [h.source?] at hv
    rw [(Executes.performed hop hl hv).execute_eq]
    exact ⟨rfl, h.perform hop i.width _ _⟩

/-- After arithmetic that is executed the flags that it sets agree. Otherwise they agree if they did
before. -/
lemma sameStatus_execute (h : r.SameRegisters r') (i : Instruction)
    (hf : r.flags.SameStatus r'.flags ∨ ((r.execute i).1 = .executed ∧ i.op.IsArithmetic)) :
    (r.execute i).2.flags.SameStatus (r'.execute i).2.flags := by
  by_cases ha : (r.execute i).1 = .executed ∧ i.op.IsArithmetic
  · obtain ⟨l, v, -, he, he'⟩ := h.exists_perform ha.1
    rw [he, he']
    show (r.perform i.op i.width l v).flags.SameStatus (r'.perform i.op i.width l v).flags
    rw [flags_perform ha.2, flags_perform ha.2, h.readLocation]
    exact Arithmetic.sameStatus_flags _ i.width r.flags r'.flags
  · have hr (q : RegisterFile) (hq : (q.execute i).1 = (r.execute i).1) :
        (q.execute i).2.flags = q.flags := by
      apply RunStep.flags_after (t := ⟨q, i⟩)
      intro hx hop
      exact ha ⟨hq ▸ RunStep.executed_iff.1 hx, hop⟩
    rw [hr r rfl, hr r' (h.execute i).1.symm]
    exact hf.resolve_right ha

lemma after (h : r.SameRegisters r') (is : List Instruction) :
    (r.after is).SameRegisters (r'.after is) := by
  induction is generalizing r r' with
  | nil => exact h
  | cons i is ih => exact ih (h.execute i).2

lemma outcomes (h : r.SameRegisters r') (is : List Instruction) :
    (r.steps is).map RunStep.outcome = (r'.steps is).map RunStep.outcome := by
  induction is generalizing r r' with
  | nil => rfl
  | cons i is ih =>
    obtain ⟨ho, hr⟩ := h.execute i
    rw [steps_cons, steps_cons, List.map_cons, List.map_cons, ih hr]
    exact congrArg (· :: _) ho

/-- The flags of arithmetic agree from the first one on that is executed. -/
lemma sameStatus_after (h : r.SameRegisters r') (hf : r.flags.SameStatus r'.flags ∨
    ∃ t ∈ r.steps is, t.executed ∧ t.instruction.op.IsArithmetic) :
    (r.after is).flags.SameStatus (r'.after is).flags := by
  induction is generalizing r r' with
  | nil =>
    obtain hf | ⟨t, ht, -⟩ := hf
    · exact hf
    · cases ht
  | cons i is ih =>
    apply ih (h.execute i).2
    obtain hf | ⟨t, ht, hx, ha⟩ := hf
    · exact .inl (h.sameStatus_execute i (.inl hf))
    · obtain rfl | ht := List.mem_cons.1 ht
      · exact .inl (h.sameStatus_execute i (.inr ⟨RunStep.executed_iff.1 hx, ha⟩))
      · exact .inr ⟨t, ht, hx, ha⟩

end SameRegisters

end RegisterFile

/-- Two runs from registers that differ in the flags only have the same outcomes and the same general
and segment registers after every instruction. From the first addition, subtraction or comparison on
that is executed they agree in the flags that these set, and every other flag keeps its value. -/
theorem run_of_sameRegisters (h : r.SameRegisters r') (is : Array Instruction) :
    (r.run is).trace.entries.map TraceEntry.outcome =
      (r'.run is).trace.entries.map TraceEntry.outcome ∧
    ∀ k, let s := (r.run (is.take k)).registers
      let s' := (r'.run (is.take k)).registers
      s.SameRegisters s' ∧
      ((∃ j < k, ∃ i, r.ExecutesAt is j i ∧ i.op.IsArithmetic) → s.flags.SameStatus s'.flags) ∧
      ∀ b < 16, (∀ x ∈ Flag.status, b ≠ x.position) →
        s.flags.bits.toNat.testBit b = r.flags.bits.toNat.testBit b ∧
        s'.flags.bits.toNat.testBit b = r'.flags.bits.toNat.testBit b := by
  constructor
  · apply Array.toList_inj.1
    rw [Array.toList_map, Array.toList_map]
    exact (RegisterFile.map_entries_run (fun o _ => o) r is).trans
      ((h.outcomes is.toList).trans (RegisterFile.map_entries_run (fun o _ => o) r' is).symm)
  · intro k
    rw [RegisterFile.registers_run, RegisterFile.registers_run]
    refine ⟨h.after _, ?_, fun b hb hn => ⟨?_, ?_⟩⟩
    · rintro ⟨j, hj, i, hi, ha⟩
      obtain ⟨t, ht, rfl, hx⟩ := RegisterFile.executesAt_iff.1 hi
      refine h.sameStatus_after (.inr ⟨t, ?_, hx, ha⟩)
      rw [show (is.take k).toList = is.toList.take k by simp, RegisterFile.steps_take]
      exact List.mem_of_getElem? ((List.getElem?_take_of_lt hj).trans ht)
    · exact r.testBit_flags_after _ hb hn
    · exact r'.testBit_flags_after _ hb hn

/-- `mov ax, 112` and `add al, 16`, which overflows, with all flags cleared and with all set. -/
theorem run_of_sameRegisters_overflow :
    let r' : RegisterFile := { flags := ⟨0xFFFF⟩ }
    let is : Array Instruction := #[
      ⟨"mov", .mov, .unknown, some (.register .ax), some (.immediate 112), { width := .word }⟩,
      ⟨"add", .add, .unknown, some (.register .al), some (.immediate 16), {}⟩]
    RegisterFile.SameRegisters {} r' ∧ RegisterFile.ExecutesAt {} is 1 is[1] ∧
      (RegisterFile.run {} is).registers.flags = ⟨0x0880⟩ ∧
      (r'.run is).registers.flags = ⟨0xFFAA⟩ ∧
      Flags.SameStatus ⟨0x0880⟩ ⟨0xFFAA⟩ := by
  intro r' is
  have h : RegisterFile.SameRegisters {} r' := ⟨rfl, rfl⟩
  have hadd : RegisterFile.ExecutesAt {} is 1 is[1] := ⟨rfl, _, rfl, rfl⟩
  have hr : (RegisterFile.run {} is).registers.flags = ⟨0x0880⟩ := by decide
  have hr' : (r'.run is).registers.flags = ⟨0xFFAA⟩ := by decide
  have htake : is.take 2 = is := rfl
  obtain ⟨-, hstatus, -⟩ := (run_of_sameRegisters h is).2 2
  rw [htake, hr, hr'] at hstatus
  exact ⟨h, hadd, hr, hr', hstatus ⟨1, by decide, _, hadd, by decide⟩⟩

end I8086

import I8086.Proofs.Concatenation
import I8086.Proofs.Finish
import I8086.Proofs.Length

/-!
# Modifying bytes in front of a stream

What bytes in front of an instruction modify depends on which they are and on the last override among
them (`Pending.ofBytes_eq_latched`), and the instruction takes all of it up, so a stream behind them
is the same program but for its first instruction. Main statement: `decode_modifiers_append`.
-/

namespace I8086

open Reader

variable {ms ms' bs : List UInt8} {b : UInt8} {q : Program}

/-- The segment register of the last override among bytes. -/
def lastOverride? (ms : List UInt8) : Option SegmentRegister :=
  (ms.filterMap override?).getLast?

lemma lastOverride?_filter (ms : List UInt8) :
    lastOverride? (ms.filter IsOverride) = lastOverride? ms := by
  unfold lastOverride?
  rw [List.filterMap_filter]
  congr 2
  funext b
  by_cases hb : IsOverride b
  · simp [hb]
  · have hnone : override? b = none := by
      by_contra h
      exact hb (isOverride_iff.2 h)
    simp [hb, hnone]

/-- The segment register of a modifying byte that overrides. -/
def ModifierByte.segment? : ModifierByte → Option SegmentRegister
  | .segment s => some s
  | _ => none

namespace Pending

/-- What modifying bytes say. -/
def latched (ms : List UInt8) : Pending where
  segment := lastOverride? ms
  locked := decide (0xF0 ∈ ms)
  repeated := decide (0xF2 ∈ ms ∨ 0xF3 ∈ ms)

/-- One more byte overrides, locks and repeats as it says and leaves what it does not say. -/
lemma addByte_eq (q : Pending) (b : UInt8) :
    q.addByte b = ⟨(override? b).or q.segment, q.locked || decide (b = 0xF0),
      q.repeated || decide (b = 0xF2 ∨ b = 0xF3)⟩ := by
  have hsegment : ∀ b, override? b = (modifierByte? b).bind ModifierByte.segment? :=
    forall_byte (by decide +kernel)
  have hlock : ∀ b, b = 0xF0 ↔ modifierByte? b = some .lock := forall_byte (by decide +kernel)
  have hrep : ∀ b, b = 0xF2 ∨ b = 0xF3 ↔ modifierByte? b = some .rep :=
    forall_byte (by decide +kernel)
  simp only [addByte, hsegment, hlock, hrep]
  cases modifierByte? b with
  | none => simp
  | some m => cases m <;> simp [add, ModifierByte.segment?]

/-- What bytes in front of an instruction modify: the last override among them wins, and a lock or a
repeat byte counts wherever it stands. -/
theorem ofBytes_eq_latched (ms : List UInt8) : ofBytes ms = latched ms := by
  -- From the back, as the last override is the one that stays.
  induction ms using List.reverseRecOn with
  | nil => rfl
  | append_singleton ms b ih =>
    have hadd : ofBytes (ms ++ [b]) = (ofBytes ms).addByte b := by
      unfold ofBytes
      rw [List.foldl_append]
      rfl
    have hlast : lastOverride? (ms ++ [b]) = (override? b).or (lastOverride? ms) := by
      unfold lastOverride?
      rw [List.filterMap_append, List.getLast?_append]
      cases h : override? b <;> simp [h]
    rw [hadd, ih, addByte_eq]
    simp [latched, hlast, eq_comm, Bool.or_assoc, Bool.or_left_comm]

/-- The instruction with its memory operand overridden and its flags set as modifying bytes say. -/
def change (q : Pending) (i : Instruction) : Instruction :=
  { i with
    first := i.first.map q.operand
    second := i.second.map q.operand
    modifiers := { i.modifiers with locked := q.locked, repeated := q.repeated } }

/-- Modifying bytes change what the instruction is without them. -/
lemma change_finish (q : Pending) (d : Descriptor) (f : Fields) :
    q.change (finish {} d f) = q.finish d f := by
  have hid : operand {} = id := funext (operand_of_none rfl)
  unfold change finish
  rw [hid, Option.map_id_fun]
  rfl

end Pending

/-- A chunk without modifying bytes in front, given some. -/
lemma Chunk.instruction_eq_change (c : Chunk) :
    c.instruction = (Pending.latched c.modifiers).change (({} : Pending).apply c.raw) := by
  obtain ⟨b, v, r, f, -, -, hr, rd, hraw⟩ := Item.reads_instruction_iff.1 c.reads
  have hf := (reads_fields_iff.1 ⟨r, hr, rd⟩).oneMemory
  unfold Chunk.instruction
  rw [Pending.ofBytes_eq_latched, hraw, Pending.apply_instruction hf, Pending.apply_instruction hf,
    Pending.change_finish]

/-- A stream that decodes and starts with no modifying byte starts with an instruction, which alone
takes up the modifying bytes that are put in front. -/
lemma exists_first_of_decode_ok (hb : ¬ IsModifier b) (h : decode (b :: bs) = .ok q) :
    ∃ i is, q.instructions.toList = i :: is ∧ ∀ ms, (∀ c ∈ ms, IsModifier c) →
      ∃ r, decode (ms ++ b :: bs) = .ok r ∧ r.labels = q.labels ∧
        r.instructions.toList = (Pending.latched ms).change i :: is := by
  obtain ⟨cs, trailing, e, ht, rfl⟩ := exists_chunks_of_decode_ok h
  cases cs with
  | nil =>
    rw [Chunk.join_nil, List.nil_append] at e
    exact (hb (ht b (e ▸ List.mem_cons_self))).elim
  | cons c cs =>
    obtain ⟨modifiers, core, raw, modify, reads⟩ := c
    cases modifiers with
    | cons c modifiers =>
      obtain rfl : b = c := (List.cons.inj e).1
      exact (hb (modify b List.mem_cons_self)).elim
    | nil =>
      -- Nothing stands in front of the first chunk, so there is room for any modifying bytes.
      refine ⟨_, _, rfl, fun ms hms => ?_⟩
      have hd := decode_chunks (⟨ms, core, raw, hms, reads⟩ :: cs) ht
      have hjoin : Chunk.join (⟨ms, core, raw, hms, reads⟩ :: cs) ++ trailing = ms ++ b :: bs := by
        rw [e]
        simp [Chunk.bytes]
      rw [hjoin] at hd
      refine ⟨_, hd, ?_, congrArg (· :: cs.map Chunk.instruction) (Chunk.instruction_eq_change _)⟩
      simp only [Program.ofInstructions, List.map_cons, branchTargets, Chunk.instruction,
        Pending.target?_apply]

lemma Pending.length_collect (p : Pending) (xs : List Item) :
    (p.collect xs).length = (collect {} xs).length := by
  induction xs generalizing p with
  | nil => rfl
  | cons x xs ih =>
    cases x with
    | modifier m => exact (ih (p.add m)).trans (ih (add {} m)).symm
    | instruction i => rfl

/-- A stream that does not decode fails in the same way behind modifying bytes. -/
lemma decode_modifiers_error (hms : ∀ c ∈ ms, IsModifier c) {e : DecodeError}
    (h : decode bs = .error e) : decode (ms ++ bs) = .error (e.shift ms.length 0) := by
  obtain ⟨us, hus, hc, -⟩ := exists_tiles_modifiers hms {}
  obtain ⟨ts, rest, rfl, he⟩ := exists_tiles bs
  have hlen : (Tile.instructions (us ++ ts)).length = (Tile.instructions ts).length := by
    unfold Tile.instructions
    rw [List.map_append, Pending.collect_append, hc, List.nil_append, Pending.length_collect]
  rw [hus, ← List.append_assoc, ← Tile.join_append]
  cases he with
  | stop =>
    rw [List.append_nil, decode_join] at h
    cases h
  | waits hrest wt =>
    rw [decode_join_waits hrest wt] at h
    cases h
    rw [decode_join_waits hrest wt, hlen]
    simp [DecodeError.shift]
  | unsupported more rd =>
    rw [decode_join_unsupported rd] at h
    cases h
    rw [decode_join_unsupported rd, hlen]
    simp [DecodeError.shift]

lemma DecodeError.shift_shift (e : DecodeError) (m n i j : Nat) :
    (e.shift m i).shift n j = e.shift (m + n) (i + j) := by
  cases e <;> simp [shift, Nat.add_comm, Nat.add_left_comm]

/-- Modifying bytes that say the same do the same to a stream, but for the place of an error. -/
lemma decode_modifiers_congr (hms : ∀ c ∈ ms, IsModifier c) (hms' : ∀ c ∈ ms', IsModifier c)
    (hb : ¬ IsModifier b) (hl : Pending.latched ms' = Pending.latched ms) {n : Nat}
    (hn : ms'.length = ms.length + n) :
    decode (ms' ++ b :: bs) = (decode (ms ++ b :: bs)).mapError (·.shift n 0) := by
  cases h : decode (b :: bs) with
  | ok q =>
    -- The program behind either row is told by what the row says, labels and instructions apart.
    obtain ⟨i, is, -, hall⟩ := exists_first_of_decode_ok hb h
    obtain ⟨⟨instructions, labels⟩, hr, hlabels, his⟩ := hall ms hms
    obtain ⟨⟨instructions', labels'⟩, hr', hlabels', his'⟩ := hall ms' hms'
    obtain rfl : labels' = labels := hlabels'.trans hlabels.symm
    obtain rfl : instructions' = instructions := by
      rw [hl, ← his] at his'
      exact Array.toList_inj.1 his'
    rw [hr, hr']
    rfl
  | error e =>
    rw [decode_modifiers_error hms h, decode_modifiers_error hms' h, hn, ← Nat.add_zero 0,
      ← DecodeError.shift_shift]
    rfl

/-- An override may be repeated before the next one, and other bytes anywhere. -/
lemma latched_repeat {us vs ws : List UInt8} {c : UInt8}
    (hc : IsOverride c → ∀ d ∈ vs, ¬ IsOverride d) :
    Pending.latched (us ++ c :: (vs ++ c :: ws)) = Pending.latched (us ++ c :: (vs ++ ws)) := by
  have hlast : lastOverride? (us ++ c :: (vs ++ c :: ws)) =
      lastOverride? (us ++ c :: (vs ++ ws)) := by
    unfold lastOverride?
    cases h : override? c with
    | none => simp [h]
    | some s =>
      have hvs : vs.filterMap override? = [] := by
        refine List.filterMap_eq_nil_iff.2 fun d hd => ?_
        by_contra hne
        exact hc (isOverride_iff.2 (by simp [h])) d hd (isOverride_iff.2 hne)
      simp [h, hvs, List.getLast?_append]
  unfold Pending.latched
  rw [hlast]
  simp [or_left_comm]

/-- Modifying bytes in another order say the same if their overrides are in the same one. -/
lemma latched_perm (hp : ms'.Perm ms) (ho : ms'.filter IsOverride = ms.filter IsOverride) :
    Pending.latched ms' = Pending.latched ms := by
  have hlast : lastOverride? ms' = lastOverride? ms := by
    rw [← lastOverride?_filter ms', ho, lastOverride?_filter]
  unfold Pending.latched
  rw [hlast]
  simp [hp.mem_iff]

/-- Modifying bytes in front of a stream that starts with an instruction change this one alone: it is
locked or repeated if one of them says so, and the last override among them replaces that of its
memory operand. The stream fails as it does without them, behind so many bytes. Other bytes than
overrides may come in any order, and all may be repeated, an override before the next one. -/
theorem decode_modifiers_append (hms : ∀ c ∈ ms, IsModifier c) (hb : ¬ IsModifier b) :
    (∀ q, decode (b :: bs) = .ok q → ∃ i is, q.instructions.toList = i :: is ∧
      ∃ r, decode (ms ++ b :: bs) = .ok r ∧ r.labels = q.labels ∧
        r.instructions.toList = (Pending.latched ms).change i :: is) ∧
    (∀ e, decode (b :: bs) = .error e → decode (ms ++ b :: bs) = .error (e.shift ms.length 0)) ∧
    (∀ ms', ms'.Perm ms → ms'.filter IsOverride = ms.filter IsOverride →
      decode (ms' ++ b :: bs) = decode (ms ++ b :: bs)) ∧
    (∀ us c vs ws, ms = us ++ c :: (vs ++ ws) → (IsOverride c → ∀ d ∈ vs, ¬ IsOverride d) →
      decode (us ++ c :: (vs ++ c :: ws) ++ b :: bs) =
        (decode (ms ++ b :: bs)).mapError (·.shift 1 0)) := by
  refine ⟨fun q h => ?_, fun e => decode_modifiers_error hms, fun ms' hp ho => ?_, ?_⟩
  · obtain ⟨i, is, hi, hall⟩ := exists_first_of_decode_ok hb h
    exact ⟨i, is, hi, hall ms hms⟩
  · have hms' : ∀ c ∈ ms', IsModifier c := fun c hc => hms c (hp.mem_iff.1 hc)
    rw [decode_modifiers_congr (n := 0) hms hms' hb (latched_perm hp ho) hp.length_eq]
    cases decode (ms ++ b :: bs) with
    | ok r => rfl
    | error e => cases e <;> simp [Except.mapError, DecodeError.shift]
  · rintro us c vs ws rfl hc
    refine decode_modifiers_congr hms (fun d hd => hms d ?_) hb (latched_repeat hc) ?_
    · simpa [or_left_comm] using hd
    · simp only [List.length_append, List.length_cons]
      omega

/-- `mov ax, ds:[bx + 5]` and a branch to it, behind a repeat byte, two overrides and a lock byte: the
override `cs` wins over `es` and over that in the instruction, and the branch is not locked. Cut
before the displacement, the stream fails at its end. -/
theorem decode_modifiers_append_inline :
    (∃ r, decode [0xF2, 0x26, 0xF0, 0x2E, 0x8B, 0x47, 0x3E, 0x05, 0x74, 0xFC] = .ok r ∧
      r.labels.toList = [-1] ∧
      r.instructions.toList =
        [⟨"mov", .mov, .rmRegister, some (.register .ax), some (.memory (.based .bx 5) (some .cs)),
          { width := .word, locked := true, repeated := true }⟩,
         ⟨"je", .je, .shortTarget, some (.label (-4)), none, {}⟩]) ∧
    decode [0xF2, 0x26, 0xF0, 0x2E, 0x8B, 0x47, 0x3E] = .error (.endOfBytes 7 0) ∧
    decode [0xF0, 0x26, 0x2E, 0xF2, 0x8B, 0x47, 0x3E, 0x05, 0x74, 0xFC] =
      decode [0xF2, 0x26, 0xF0, 0x2E, 0x8B, 0x47, 0x3E, 0x05, 0x74, 0xFC] ∧
    decode [0xF2, 0x26, 0xF0, 0x2E, 0xF0, 0x8B, 0x47, 0x3E, 0x05, 0x74, 0xFC] =
      decode [0xF2, 0x26, 0xF0, 0x2E, 0x8B, 0x47, 0x3E, 0x05, 0x74, 0xFC] := by
  have hms : ∀ c ∈ [0xF2, 0x26, 0xF0, 0x2E], IsModifier c := by decide +kernel
  have hb : ¬ IsModifier 0x8B := by decide +kernel
  have hq : decode [0x8B, 0x47, 0x3E, 0x05, 0x74, 0xFC] = .ok (.ofInstructions
      [⟨"mov", .mov, .rmRegister, some (.register .ax), some (.memory (.based .bx 5) (some .ds)),
        { width := .word }⟩,
       ⟨"je", .je, .shortTarget, some (.label (-4)), none, {}⟩]) := by cbv
  obtain ⟨hok, -, hperm, hrepeat⟩ := decode_modifiers_append hms hb
  obtain ⟨i, is, hi, r, hr, hl, his⟩ := hok _ hq
  cases hi
  refine ⟨⟨r, hr, ?_, his⟩, ?_, ?_, ?_⟩
  · rw [hl]
    simp [Program.ofInstructions, LabelTable.ofList, LabelTable.toList_insert, branchTargets,
      Instruction.target?, branchTarget]
  · exact (decode_modifiers_append hms hb).2.1 (.endOfBytes 3 0) (by cbv)
  · exact hperm [0xF0, 0x26, 0x2E, 0xF2] (by decide +kernel) (by decide +kernel)
  · have h := hrepeat [0xF2, 0x26] 0xF0 [0x2E] [] rfl (by decide +kernel)
    rw [hr] at h
    exact h.trans hr.symm

end I8086

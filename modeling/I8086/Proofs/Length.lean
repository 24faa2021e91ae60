import I8086.Proofs.Chunks
import I8086.Proofs.Grammar
import Mathlib.Data.List.Forall2

/-!
# The length of an instruction

How long an instruction is can be told from its first three bytes: `coreLength` says it without
reading the fields. Main statements: `isCore_iff`, the bytes of the length told are those that the
item reader reads; `decode_tiling`, a stream decodes exactly if it splits into pieces of that length,
each with modifying bytes in front, and each piece decodes alone to the instruction at its place.
-/

namespace I8086

open Reader

/-- The length of the displacement after a mod-r/m byte: none for a register or a plain base, two
bytes for a fixed address. -/
def displacementLength (second : UInt8) : Nat :=
  match second.toNat / 64, second.toNat % 8 with
  | 0, 6 => 2
  | 0, _ => 0
  | 1, _ => 1
  | 2, _ => 2
  | _, _ => 0

/-- The bytes that override a segment. -/
def IsOverride (b : UInt8) : Prop :=
  b ∈ [0x26, 0x2E, 0x36, 0x3E]

instance (b : UInt8) : Decidable (IsOverride b) :=
  inferInstanceAs (Decidable (b ∈ _))

/-- The length of an opcode with its mod-r/m operand. An override in place of the displacement has
the displacement after it. -/
def rmLength (second third : UInt8) : Nat :=
  2 + displacementLength second +
    if 0 < displacementLength second ∧ IsOverride third then 1 else 0

/-- The length of an instruction of a form. -/
def Form.coreLength (opcode second third : UInt8) : Form → Nat
  | .unknown | .shared | .segmentOverride => 0
  | .bare | .string | .register | .segmentRegister | .accumulatorRegister | .variablePort => 1
  | .padded | .byteImmediate | .shortTarget | .fixedPort => 2
  | .wordImmediate | .nearTarget | .accumulatorMemory | .memoryAccumulator => 3
  | .farTarget => 5
  | .registerImmediate => if opcode.toNat.testBit 3 then 3 else 2
  | .accumulatorImmediate => if opcode.toNat.testBit 0 then 3 else 2
  | .rmRegister | .rm | .rmFar | .registerMemory | .rmOne | .rmCount | .rmSegment | .escape =>
    rmLength second third
  | .rmImmediate => rmLength second third + if opcode.toNat.testBit 0 then 2 else 1
  | .rmSignedByte => rmLength second third + 1

/-- The length of the instruction that three bytes start. -/
def coreLength (opcode second third : UInt8) : Nat :=
  ((lookup opcode).resolve second).form.coreLength opcode second third

/-- Bytes that start with a defined opcode, no modifying one, and are as many as it tells. -/
def IsCore : List UInt8 → Prop
  | [] => False
  | opcode :: rest =>
    ¬ IsModifier opcode ∧ ((lookup opcode).resolve (rest.headD 0)).form ≠ .unknown ∧
      (opcode :: rest).length = coreLength opcode (rest.headD 0) (rest.tail.headD 0)

/-- Modifying bytes and the bytes of an instruction after them. -/
def IsPiece (bs : List UInt8) : Prop :=
  ∃ ms core, bs = ms ++ core ∧ (∀ b ∈ ms, IsModifier b) ∧ IsCore core

variable {w : Width} {bs u v trailing : List UInt8} {m : ModRm} {x : Operand} {reg : Fin 8}
variable {opcode low : UInt8} {form : Form} {f : Fields} {n : Int16}

/-- The length of a displacement by the mode. -/
lemma displacementLength_toByte (m : ModRm) :
    displacementLength m.toByte =
      match m.mode with
      | .register => 0
      | .plain => if m.rm = 6 then 2 else 0
      | .byteDisplacement => 1
      | .wordDisplacement => 2 := by
  have h : ∀ b, displacementLength b =
      match (ModRm.ofByte b).mode with
      | .register => 0
      | .plain => if (ModRm.ofByte b).rm = 6 then 2 else 0
      | .byteDisplacement => 1
      | .wordDisplacement => 2 := forall_byte (by decide +kernel)
  have hm := h m.toByte
  rwa [ModRm.ofByte_toByte] at hm

/-- The overrides are the bytes that override a segment. -/
lemma isOverride_iff : IsOverride low ↔ override? low ≠ none := by
  have h : ∀ b, IsOverride b ↔ override? b ≠ none := forall_byte (by decide +kernel)
  exact h low

/-- Every segment has an override. -/
lemma isOverride_overrideByte (s : SegmentRegister) : IsOverride s.overrideByte := by
  cases s <;> decide

/-- An override in place of the displacement makes an operand one byte longer. -/
lemma rmLength_displacement {second : UInt8} {s : Option SegmentRegister}
    (hd : 0 < displacementLength second) (hs : s = none → override? low = none) :
    rmLength second ((overrideBytes s ++ low :: v).headD 0) =
      2 + displacementLength second + (overrideBytes s).length := by
  unfold rmLength
  cases s with
  | none =>
    have hlow : ¬ IsOverride low := fun h => isOverride_iff.1 h (hs rfl)
    simp [overrideBytes, hlow]
  | some s => simp [overrideBytes, isOverride_overrideByte, hd]

/-- The length of a mod-r/m byte with its operand. -/
lemma RmBytes.length_eq (h : RmBytes w u x reg) :
    rmLength (u.headD 0) (u.tail.headD 0) = u.length + 1 := by
  obtain ⟨m, h⟩ := h
  rw [List.headD_cons, List.tail_cons, List.length_cons]
  have hm := displacementLength_toByte m
  cases h with
  | register => simp [rmLength, hm]
  | plain _ hrm => simp [rmLength, hm, hrm]
  | direct _ high hs | word _ _ high hs =>
    simp only [↓reduceIte] at hm
    rw [rmLength_displacement (by omega) hs, hm, List.length_append, List.length_cons,
      List.length_singleton]
    omega
  | byte _ _ hs =>
    simp only at hm
    rw [rmLength_displacement (by omega) hs, hm, List.length_append, List.length_singleton]
    omega

/-- More bytes do not change the length of a mod-r/m operand that is complete. -/
lemma rmLength_append (h : rmLength (bs.headD 0) (bs.tail.headD 0) ≤ bs.length + 1) :
    rmLength ((bs ++ v).headD 0) ((bs ++ v).tail.headD 0) =
      rmLength (bs.headD 0) (bs.tail.headD 0) := by
  cases bs with
  | nil =>
    unfold rmLength at h
    simp only [List.length_nil] at h
    omega
  | cons b bs =>
    cases bs with
    | nil =>
      have hd : displacementLength b = 0 := by
        simp only [rmLength, List.headD_cons, List.length_cons, List.length_nil] at h
        omega
      simp [rmLength, hd]
    | cons c bs => rfl

/-- More bytes do not change the length of an instruction that is complete. -/
lemma Form.coreLength_append
    (h : form.coreLength opcode (bs.headD 0) (bs.tail.headD 0) ≤ bs.length + 1) :
    form.coreLength opcode ((bs ++ v).headD 0) ((bs ++ v).tail.headD 0) =
      form.coreLength opcode (bs.headD 0) (bs.tail.headD 0) := by
  cases form with
  | rmRegister | rm | rmFar | registerMemory | rmOne | rmCount | rmSegment | escape =>
    exact rmLength_append h
  | rmImmediate | rmSignedByte =>
    simp only [Form.coreLength] at h ⊢
    rw [rmLength_append (by omega)]
  | _ => rfl

/-- The length of an immediate. -/
lemma ImmediateBytes.length_eq (h : ImmediateBytes w bs n) :
    bs.length = if w.bit then 2 else 1 := by
  cases h <;> rfl

/-- The fields of an instruction are as long as its first three bytes tell. -/
theorem FieldBytes.length_eq (h : FieldBytes opcode form bs f)
    (hs : form = .rmSignedByte → opcode.toNat.testBit 1) :
    form.coreLength opcode (bs.headD 0) (bs.tail.headD 0) = bs.length + 1 := by
  cases h with
  | rmRegister h | rm h | rmFar h | registerMemory h | rmOne h | rmCount h | rmSegment h
  | escape h => exact h.length_eq
  | @rmImmediate u v _ _ _ h hn =>
    have hu := h.length_eq
    have hv := hn.length_eq
    rw [Fields.widthOf, Width.bit_ofBit] at hv
    simp only [Form.coreLength]
    rw [rmLength_append (by omega), hu, List.length_append, hv]
    omega
  | @rmSignedByte u v _ _ _ h hn =>
    have hu := h.length_eq
    rw [if_pos (hs rfl)] at hn
    have hv := hn.length_eq
    simp only [Form.coreLength]
    rw [rmLength_append (by omega), hu, List.length_append, hv]
    rfl
  | registerImmediate hn =>
    have hv := hn.length_eq
    rw [Fields.registerWidth, Width.bit_ofBit] at hv
    rw [hv]
    simp only [Form.coreLength]
    split <;> rfl
  | accumulatorImmediate hn =>
    have hv := hn.length_eq
    rw [Fields.widthOf, Width.bit_ofBit] at hv
    rw [hv]
    simp only [Form.coreLength]
    split <;> rfl
  | byteImmediate hn | wordImmediate hn | nearTarget hn =>
    rw [hn.length_eq]
    rfl
  | farTarget hip hcs =>
    rw [List.length_append, hip.length_eq, hcs.length_eq]
    rfl
  | _ => rfl

/-- A defined opcode that does not modify has fields. -/
lemma exists_fields (hb : ¬ IsModifier opcode) (hd : (descriptorAt opcode v).form ≠ .unknown) :
    ∃ r, (descriptorAt opcode v).form.fields? opcode = some r := by
  have hs : (descriptorAt opcode v).form ≠ .shared := by
    rw [descriptorAt_eq_member]
    exact form_member_ne_shared opcode _
  rw [← modifierByte?_eq_none_iff, ← modifier?_descriptorAt opcode v] at hb
  generalize descriptorAt opcode v = d at hd hs hb ⊢
  obtain ⟨name, op, form⟩ := d
  cases form with
  | unknown => exact (hd rfl).elim
  | shared => exact (hs rfl).elim
  | segmentOverride => cases hb
  | _ => exact ⟨_, rfl⟩

/-- The fields of a defined opcode are as long as the first three bytes tell. -/
lemma coreLength_of_reads {r : Reader Fields}
    (hr : (descriptorAt opcode v).form.fields? opcode = some r) (rd : r.Reads u f) :
    (descriptorAt opcode v).form.coreLength opcode (u.headD 0) (u.tail.headD 0) =
      u.length + 1 := by
  refine (reads_fields_iff.1 ⟨r, hr, rd⟩).length_eq fun hs => ?_
  rw [descriptorAt_eq_member] at hs
  exact testBit_of_rmSignedByte opcode _ hs

/-- The bytes of the length that the first three tell are those of an instruction. -/
theorem isCore_iff : IsCore bs ↔ ∃ i, Item.reader.Reads bs (.ok (.instruction i)) := by
  constructor
  · intro h
    cases bs with
    | nil => exact h.elim
    | cons opcode rest =>
      obtain ⟨hb, hd, hl⟩ := h
      obtain ⟨r, hr⟩ := exists_fields hb hd
      have hl' : (descriptorAt opcode rest).form.coreLength opcode (rest.headD 0)
          (rest.tail.headD 0) = rest.length + 1 := hl.symm
      suffices hf : ∃ f, r.Reads rest f by
        obtain ⟨f, rd⟩ := hf
        exact ⟨_, Item.reads_instruction_iff.2
          ⟨opcode, rest, r, f, rfl, modifierByte?_eq_none_iff.2 hb, hr, rd, rfl⟩⟩
      -- The fields end neither before the bytes do nor after them, as both lengths are told alike.
      obtain ⟨u, v, f, rfl, rd⟩ | wt := reads_or_waits r rest
      · have hu := coreLength_of_reads hr rd
        rw [Form.coreLength_append (by omega), hu, List.length_append] at hl'
        obtain rfl : v = [] := List.length_eq_zero_iff.1 (by omega)
        rw [List.append_nil]
        exact ⟨f, rd⟩
      · obtain ⟨v, f, rd⟩ := wt.extend
        have hu := coreLength_of_reads hr rd
        rw [Form.coreLength_append (by omega), hl', List.length_append] at hu
        obtain rfl : v = [] := List.length_eq_zero_iff.1 (by omega)
        rw [List.append_nil] at rd
        exact ⟨f, rd⟩
  · rintro ⟨i, rd⟩
    obtain ⟨opcode, rest, r, f, rfl, hb, hr, rdf, _⟩ := Item.reads_instruction_iff.1 rd
    refine ⟨modifierByte?_eq_none_iff.1 hb, ?_, (coreLength_of_reads hr rdf).symm⟩
    intro hd
    rw [descriptorAt, hd] at hr
    cases hr

/-- A displacement has two bytes at most. -/
lemma displacementLength_le (second : UInt8) : displacementLength second ≤ 2 := by
  unfold displacementLength
  split <;> decide

/-- A mod-r/m operand has five bytes at most, its opcode included. -/
lemma rmLength_le (second third : UInt8) : rmLength second third ≤ 5 := by
  have hd := displacementLength_le second
  unfold rmLength
  split <;> omega

/-- An instruction has seven bytes at most. -/
theorem coreLength_le (opcode second third : UInt8) : coreLength opcode second third ≤ 7 := by
  have hr := rmLength_le second third
  unfold coreLength Form.coreLength
  split
  all_goals first | omega | (split <;> omega)

/-- An instruction has from one byte to seven. -/
lemma IsCore.length_le (h : IsCore bs) : 1 ≤ bs.length ∧ bs.length ≤ 7 := by
  cases bs with
  | nil => exact h.elim
  | cons opcode rest =>
    obtain ⟨_, _, hl⟩ := h
    have hle := coreLength_le opcode (rest.headD 0) (rest.tail.headD 0)
    rw [List.length_cons] at hl ⊢
    omega

/-- The pieces are the chunks. -/
lemma isPiece_iff : IsPiece bs ↔ ∃ c : Chunk, c.bytes = bs := by
  constructor
  · rintro ⟨ms, core, rfl, hms, hc⟩
    obtain ⟨i, rd⟩ := isCore_iff.1 hc
    exact ⟨⟨ms, core, i, hms, rd⟩, rfl⟩
  · rintro ⟨c, rfl⟩
    exact ⟨c.modifiers, c.core, rfl, c.modify, isCore_iff.2 ⟨c.raw, c.reads⟩⟩

/-- A row of pieces is a row of chunks. -/
lemma exists_chunks_of_pieces {pieces : List (List UInt8)} (h : ∀ s ∈ pieces, IsPiece s) :
    ∃ cs : List Chunk, pieces = cs.map Chunk.bytes := by
  induction pieces with
  | nil => exact ⟨[], rfl⟩
  | cons s pieces ih =>
    obtain ⟨c, rfl⟩ := isPiece_iff.1 (h s List.mem_cons_self)
    obtain ⟨cs, rfl⟩ := ih fun t ht => h t (List.mem_cons_of_mem _ ht)
    exact ⟨c :: cs, rfl⟩

/-- Each chunk decodes alone to its instruction. -/
lemma forall₂_decode_chunks (cs : List Chunk) :
    List.Forall₂ (fun s i => decode s = .ok (.ofInstructions [i])) (cs.map Chunk.bytes)
      (cs.map Chunk.instruction) := by
  rw [List.forall₂_map_left_iff, List.forall₂_map_right_iff, List.forall₂_same]
  intro c _
  have h := decode_chunk_join [c]
  rwa [Chunk.join_cons, Chunk.join_nil, List.append_nil] at h

/-- A stream that decodes splits into one piece for each instruction and modifying bytes at the end.
Each piece decodes alone to its instruction, and its length after the modifying bytes is that which
the first three bytes tell. Every stream that splits like this decodes, with one instruction for each
piece. -/
theorem decode_tiling (bytes : List UInt8) :
    (∀ p, decode bytes = .ok p →
      ∃ pieces trailing, bytes = pieces.flatten ++ trailing ∧ (∀ s ∈ pieces, IsPiece s) ∧
        (∀ b ∈ trailing, IsModifier b) ∧ pieces.length = p.size ∧
        List.Forall₂ (fun s i => decode s = .ok (.ofInstructions [i])) pieces
          p.instructions.toList) ∧
    (∀ core, IsCore core → 1 ≤ core.length ∧ core.length ≤ 7) ∧
    (∀ pieces trailing, bytes = pieces.flatten ++ trailing → (∀ s ∈ pieces, IsPiece s) →
      (∀ b ∈ trailing, IsModifier b) →
      ∃ p, decode bytes = .ok p ∧ p.size = pieces.length ∧
        List.Forall₂ (fun s i => decode s = .ok (.ofInstructions [i])) pieces
          p.instructions.toList) := by
  refine ⟨?_, fun _ hc => hc.length_le, ?_⟩
  · intro p h
    obtain ⟨cs, trailing, rfl, ht, rfl⟩ := exists_chunks_of_decode_ok h
    refine ⟨cs.map Chunk.bytes, trailing, ?_, ?_, ht, ?_, forall₂_decode_chunks cs⟩
    · rw [Chunk.join, List.flatMap_def]
    · intro s hs
      obtain ⟨c, _, rfl⟩ := List.mem_map.1 hs
      exact isPiece_iff.2 ⟨c, rfl⟩
    · simp [Program.size, Program.ofInstructions]
  · rintro pieces trailing rfl hp ht
    obtain ⟨cs, rfl⟩ := exists_chunks_of_pieces hp
    refine ⟨.ofInstructions (cs.map Chunk.instruction), ?_, ?_, forall₂_decode_chunks cs⟩
    · rw [← List.flatMap_def]
      exact decode_chunks cs ht
    · simp [Program.size, Program.ofInstructions]

/-- An override in front of an operand that has another one before its displacement, and a lock byte
that no instruction takes up. -/
theorem decode_tiling_override :
    (∀ s ∈ [[0x2E, 0x8B, 0x46, 0x3E, 0x05]], IsPiece s) ∧ (∀ b ∈ [0xF0], IsModifier b) ∧
      ∃ p, decode [0x2E, 0x8B, 0x46, 0x3E, 0x05, 0xF0] = .ok p ∧ p.size = 1 := by
  have hp : ∀ s ∈ [[0x2E, 0x8B, 0x46, 0x3E, 0x05]], IsPiece s := by
    intro s hs
    rw [List.mem_singleton.1 hs]
    refine ⟨[0x2E], [0x8B, 0x46, 0x3E, 0x05], rfl, ?_, ?_, ?_, ?_⟩ <;> decide +kernel
  have ht : ∀ b ∈ [0xF0], IsModifier b := by decide +kernel
  obtain ⟨p, h, hn, _⟩ := (decode_tiling _).2.2 _ _ rfl hp ht
  exact ⟨hp, ht, p, h, hn⟩

end I8086

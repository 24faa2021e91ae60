import I8086.Proofs.FieldEncoding
import Mathlib.Data.List.Forall2

/-!
# Encoding a decoded program

The round trip of whole programs. An opcode that the opcode map gives the operation and form of an
instruction has its name too (`name_eq`), so if it also agrees with the operands, the encoding is a
chunk with the same instruction (`Chunk.exists_encoding`). Main statement: `decode_encode`, a decoded
program can be encoded, and its encodings decode to it.
-/

namespace I8086

open Reader

variable {q : Pending} {opcode opcode' : UInt8} {reg : Fin 8} {bs : List UInt8} {form : Form}
variable {f : Fields} {i : Instruction}

/-- An instruction is named by the identifier of its operation in small letters. -/
def Descriptor.Named (d : Descriptor) : Prop :=
  d.form ∈ [Form.unknown, .shared, .segmentOverride] ∨ (d.form = .bare ∧ d.op = .rep) ∨
    d.name.toList = d.op.id.toList.map Char.toLower

instance (d : Descriptor) : Decidable d.Named :=
  inferInstanceAs (Decidable (_ ∨ _ ∨ _))

/-- Every instruction of the opcode map is named like that. -/
lemma named_member (b : UInt8) (n : Fin 8) : ((lookup b).member n).Named := by
  refine forall_member (P := fun _ d => d.Named) ?_ ?_ b n
  · exact forall_byte (by decide +kernel)
  · intro _ g n _
    revert n
    cases g <;> decide +kernel

/-- Instructions with the same operation and form have the same name. -/
lemma name_eq {d d' : Descriptor} (h : d.Named) (h' : d'.Named) (hop : d'.op = d.op)
    (hform : d'.form = d.form) {r : Reader Fields} (hf : d.form.fields? opcode = some r)
    (hm : d.modifier? opcode = none) : d'.name = d.name := by
  have hl : d.form ∉ [Form.unknown, .shared, .segmentOverride] := by
    intro hmem
    generalize d.form = form at hf hmem
    cases form with
    | unknown | shared | segmentOverride => cases hf
    | _ => exact absurd hmem (by decide)
  have hr : ¬ (d.form = .bare ∧ d.op = .rep) := by
    rintro ⟨hb, ho⟩
    rw [Descriptor.modifier?, hb, ho] at hm
    cases hm
  have hn := (h.resolve_left hl).resolve_left hr
  have hn' := (h'.resolve_left (hform ▸ hl)).resolve_left (hform ▸ hop ▸ hr)
  rw [hop, ← hn] at hn'
  exact String.toList_inj.1 hn'

/-- Whether a descriptor is that of a modifying byte depends on its operation and form. -/
lemma modifier?_eq_none {d d' : Descriptor} (hop : d'.op = d.op) (hform : d'.form = d.form)
    (hm : d.modifier? opcode = none) : d'.modifier? opcode' = none := by
  obtain ⟨name, op, form⟩ := d
  obtain ⟨name', op', form'⟩ := d'
  simp only at hop hform
  subst hop hform
  cases form' with
  | segmentOverride => cases hm
  | bare => cases op' with
    | lock | rep => cases hm
    | _ => rfl
  | _ => rfl

/-- An opcode fits an instruction if the opcode map says so and the operands agree. -/
lemma fits_iff : i.fits opcode reg ↔ ((lookup opcode).member reg).op = i.op ∧
    ((lookup opcode).member reg).form = i.form ∧ i.agrees opcode reg := by
  have hreg : registerField (ModRm.toByte ⟨.register, reg, 0⟩) = reg :=
    congrArg ModRm.reg (ModRm.ofByte_toByte ⟨.register, reg, 0⟩)
  unfold Instruction.fits
  rw [Entry.resolve_eq, hreg]
  exact decide_eq_true_iff

/-- The fields after an opcode that encode an instruction come to the descriptor that the register
field selects. -/
lemma descriptorAt_of_selects (hf : FieldBytes opcode form bs f)
    (hform : ((lookup opcode).member reg).form = form)
    (hs : form.Selects → registerField (bs.headD 0) = reg) :
    descriptorAt opcode bs = (lookup opcode).member reg := by
  unfold descriptorAt
  rw [Entry.resolve_eq]
  unfold Entry.member at hform ⊢
  cases hl : lookup opcode with
  | single d => rfl
  | shared g =>
    rw [hl] at hform
    have hg := form_members g reg
    simp only at hform ⊢
    rw [hform] at hg
    rw [hs]
    cases hf <;> first | exact trivial | exact absurd hg (by decide)

/-- A chunk is the fields of an opcode under modifying bytes. -/
lemma Chunk.exists_finish (c : Chunk) :
    ∃ (q : Pending) (b : UInt8) (v : List UInt8) (f : Fields), modifierByte? b = none ∧
      FieldBytes b (descriptorAt b v).form v f ∧
      c.instruction = q.finish (descriptorAt b v) f := by
  obtain ⟨b, v, r, f, -, hb, hr, rd, hraw⟩ := Item.reads_instruction_iff.1 c.reads
  have hf := reads_fields_iff.1 ⟨r, hr, rd⟩
  refine ⟨Pending.ofBytes c.modifiers, b, v, f, hb, hf, ?_⟩
  unfold Chunk.instruction
  rw [hraw, Pending.apply_instruction hf.oneMemory]

/-- Some opcode fits the instruction of a chunk. -/
lemma Chunk.exists_fits (c : Chunk) : ∃ opcode reg, c.instruction.fits opcode reg := by
  obtain ⟨q, b, v, f, hb, hf, hi⟩ := c.exists_finish
  have hd := (descriptorAt_eq_member b v).symm
  refine ⟨b, registerField (v.headD 0), fits_iff.2 ?_⟩
  rw [hi, hd]
  exact ⟨rfl, rfl, agrees_of_fieldBytes hf⟩

/-- An opcode that fits the instruction of a chunk starts an instruction with its name, which the
modifying bytes make equal to it. -/
lemma exists_reads_encoding {b : UInt8} {v : List UInt8} (hb : modifierByte? b = none)
    (hf : FieldBytes b (descriptorAt b v).form v f)
    (hfit : (q.finish (descriptorAt b v) f).fits opcode reg) (pad : UInt8) :
    ∃ raw, Item.reader.Reads
        (opcode :: (q.finish (descriptorAt b v) f).fieldBytes opcode reg pad)
        (.ok (.instruction raw)) ∧
      (Pending.ofBytes (q.finish (descriptorAt b v) f).modifierBytes).apply raw =
        q.finish (descriptorAt b v) f := by
  obtain ⟨hop, hform, ha⟩ := fits_iff.1 hfit
  obtain ⟨r, hr, _⟩ := reads_fields_iff.2 hf
  rw [← modifier?_descriptorAt b v] at hb
  have hd := descriptorAt_eq_member b v
  have hname : ((lookup opcode).member reg).name = (descriptorAt b v).name := by
    have hn := named_member b (registerField (v.headD 0))
    rw [← hd] at hn
    exact name_eq hn (named_member opcode reg) hop hform hr hb
  have hs : (descriptorAt b v).form = .rmSignedByte →
      b.toNat.testBit 1 ∧ opcode.toNat.testBit 1 := fun h =>
    ⟨testBit_of_rmSignedByte b _ (hd ▸ h), testBit_of_rmSignedByte opcode reg (hform.trans h)⟩
  obtain ⟨f', hf', ht, hsel⟩ := encodes_of_fieldBytes (q := q) hf hs ha pad
  -- The encoded fields are read with the descriptor of the new opcode, which is that of the old.
  have hd' := descriptorAt_of_selects hf' hform hsel
  obtain ⟨r', hr', rd⟩ := reads_fields_iff.2 hf'
  have hb' : modifierByte? opcode = none := by
    rw [← modifier?_descriptorAt, hd']
    exact modifier?_eq_none hop hform hb
  rw [← hform, ← hd'] at hr'
  have hm := hf.oneMemory.of_isMemory (Pending.isMemory_map_operand (q := q))
    (Pending.isMemory_map_operand (q := q))
  have happly := apply_of_tell ht hm rfl hname hop hform
  rw [← hd'] at happly
  exact ⟨_, Item.reads_instruction_iff.2 ⟨opcode, _, r', f', rfl, hb', hr', rd, rfl⟩, happly⟩

/-- The encoding of the instruction of a chunk is a chunk with the same instruction. -/
lemma Chunk.exists_encoding (c : Chunk) {bytes : List UInt8}
    (h : c.instruction.IsEncoding bytes) :
    ∃ c' : Chunk, c'.bytes = bytes ∧ c'.instruction = c.instruction := by
  obtain ⟨opcode, reg, pad, hfit, rfl⟩ := h
  obtain ⟨q, b, v, f, hb, hf, hi⟩ := c.exists_finish
  rw [hi] at hfit ⊢
  obtain ⟨raw, rd, happly⟩ := exists_reads_encoding hb hf hfit pad
  exact ⟨⟨_, _, raw, fun _ hm => isModifier_of_mem_modifierBytes hm, rd⟩, rfl, happly⟩

/-- Encodings of the instructions of chunks are a row of chunks with the same instructions. -/
lemma exists_chunks_of_encodings {cs : List Chunk} {outs : List (List UInt8)}
    (h : List.Forall₂ Instruction.IsEncoding (cs.map Chunk.instruction) outs) :
    ∃ cs', Chunk.join cs' = outs.flatten ∧
      cs'.map Chunk.instruction = cs.map Chunk.instruction := by
  induction cs generalizing outs with
  | nil =>
    cases h
    exact ⟨[], rfl, rfl⟩
  | cons c cs ih =>
    cases h with
    | cons hc hcs =>
      obtain ⟨c', rfl, hi⟩ := c.exists_encoding hc
      obtain ⟨cs', hj, hm⟩ := ih hcs
      refine ⟨c' :: cs', ?_, ?_⟩
      · rw [Chunk.join_cons, hj, List.flatten_cons]
      · rw [List.map_cons, List.map_cons, hi, hm]

/-- If some opcode fits, the first one is found. -/
lemma exists_encode? (h : ∃ opcode reg, i.fits opcode reg) (pad : UInt8) :
    ∃ out, i.encode? pad = some out ∧ i.IsEncoding out := by
  obtain ⟨opcode, reg, hfit⟩ := h
  unfold Instruction.encode?
  simp only
  generalize hcs : (List.finRange 256).flatMap _ = choices
  have hmem : (opcode, reg) ∈ choices := by
    have hopcode : opcode.toFin ∈ List.finRange 256 := List.mem_finRange _
    have hreg : reg ∈ List.finRange 8 := List.mem_finRange _
    rw [← hcs, List.mem_flatMap]
    exact ⟨opcode.toFin, hopcode, List.mem_map.2 ⟨reg, hreg, rfl⟩⟩
  cases hfind : choices.find? fun c => i.fits c.1 c.2 with
  | none => exact absurd hfit (List.find?_eq_none.1 hfind _ hmem)
  | some choice =>
    have hchoice := List.find?_some hfind
    exact ⟨_, rfl, choice.1, choice.2, pad, hchoice, rfl⟩

/-- The instructions of chunks can all be encoded. -/
lemma exists_mapM_encode? (cs : List Chunk) (pad : UInt8) :
    ∃ outs, (cs.map Chunk.instruction).mapM (Instruction.encode? · pad) = some outs ∧
      List.Forall₂ Instruction.IsEncoding (cs.map Chunk.instruction) outs := by
  induction cs with
  | nil => exact ⟨[], rfl, .nil⟩
  | cons c cs ih =>
    obtain ⟨out, he, ho⟩ := exists_encode? c.exists_fits pad
    obtain ⟨outs, hm, hos⟩ := ih
    refine ⟨out :: outs, ?_, .cons ho hos⟩
    rw [List.map_cons, List.mapM_cons, he, hm]
    rfl

/-- A program that was decoded can be encoded again, and whatever opcodes that fit its instructions
and whatever meaningless bytes are taken, the encodings one after the other decode to the program. -/
theorem decode_encode {bytes : List UInt8} {p : Program} (h : decode bytes = .ok p) :
    (∀ pad, ∃ out, p.encode? pad = some out ∧ decode out = .ok p) ∧
    (∀ outs, List.Forall₂ Instruction.IsEncoding p.instructions.toList outs →
      decode outs.flatten = .ok p) := by
  obtain ⟨cs, trailing, rfl, -, rfl⟩ := exists_chunks_of_decode_ok h
  have hall : ∀ outs, List.Forall₂ Instruction.IsEncoding (cs.map Chunk.instruction) outs →
      decode outs.flatten = .ok (.ofInstructions (cs.map Chunk.instruction)) := by
    intro outs ho
    obtain ⟨cs', hj, hm⟩ := exists_chunks_of_encodings ho
    rw [← hj, ← hm]
    exact decode_chunk_join cs'
  refine ⟨fun pad => ?_, hall⟩
  obtain ⟨outs, hm, ho⟩ := exists_mapM_encode? cs pad
  exact ⟨outs.flatten, congrArg (Option.map List.flatten) hm, hall outs ho⟩

/-- `mov word es:[bx + 38], 4660` with a displacement of two bytes, which one byte can hold: encoded
again it has the override in front, and once more because the displacement reads as one. -/
theorem decode_encode_displacement :
    ∃ p, decode [0xC7, 0x87, 0x26, 0x26, 0x00, 0x34, 0x12] = .ok p ∧
      (∃ out, p.encode? 0 = some out ∧ decode out = .ok p) ∧
      decode [0x26, 0xC7, 0x47, 0x26, 0x26, 0x34, 0x12] = .ok p := by
  have h : decode [0xC7, 0x87, 0x26, 0x26, 0x00, 0x34, 0x12] = .ok (.ofInstructions
      [⟨"mov", .mov, .rmImmediate, some (.memory (.based .bx 38) (some .es)),
        some (.immediate 4660), { width := .word }⟩]) := by cbv
  have he : Instruction.IsEncoding ⟨"mov", .mov, .rmImmediate,
      some (.memory (.based .bx 38) (some .es)), some (.immediate 4660), { width := .word }⟩
      [0x26, 0xC7, 0x47, 0x26, 0x26, 0x34, 0x12] :=
    ⟨0xC7, 0, 0, by decide +kernel, by decide +kernel⟩
  exact ⟨_, h, (decode_encode h).1 0, (decode_encode h).2 [_] (.cons he .nil)⟩

end I8086

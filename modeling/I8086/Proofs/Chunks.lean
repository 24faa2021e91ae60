import I8086.Proofs.Stream

/-!
# Streams as rows of chunks

A chunk is an instruction with the modifying bytes in front of it. A stream that decodes is a row of
chunks and some modifying bytes that no instruction takes up (`exists_chunks_of_decode_ok`), and such
a row decodes to the instructions of its chunks, one each (`decode_chunks`).
-/

namespace I8086

open Reader

/-- The bytes that modify the instruction after them: four overrides, lock and two that repeat. -/
def IsModifier (b : UInt8) : Prop :=
  b ∈ [0x26, 0x2E, 0x36, 0x3E, 0xF0, 0xF2, 0xF3]

instance (b : UInt8) : Decidable (IsModifier b) :=
  inferInstanceAs (Decidable (b ∈ _))

variable {b : UInt8} {ms bs trailing : List UInt8} {p : Program} {q : Pending}

/-- The bytes that modify are those that stand for a modifying byte. -/
theorem isModifier_iff : IsModifier b ↔ ∃ m, modifierByte? b = some m := by
  have h : ∀ b, IsModifier b ↔ (modifierByte? b).isSome := forall_byte (by decide +kernel)
  rw [← Option.isSome_iff_exists]
  exact h b

/-- A byte that does not modify stands for no modifying byte. -/
lemma modifierByte?_eq_none_iff : modifierByte? b = none ↔ ¬ IsModifier b := by
  rw [isModifier_iff, ← Option.isSome_iff_exists, Option.not_isSome_iff_eq_none]

namespace Pending

/-- One more byte, which counts if it modifies. -/
def addByte (q : Pending) (b : UInt8) : Pending :=
  (modifierByte? b).elim q q.add

/-- What bytes in front of an instruction modify. -/
def ofBytes (ms : List UInt8) : Pending :=
  ms.foldl addByte {}

/-- A modifying byte after others. -/
lemma ofBytes_append_singleton {m : ModifierByte} (hb : modifierByte? b = some m) :
    ofBytes (ms ++ [b]) = (ofBytes ms).add m := by
  unfold ofBytes
  rw [List.foldl_append]
  simp only [List.foldl_cons, List.foldl_nil, addByte, hb, Option.elim_some]

end Pending

/-- An instruction with the modifying bytes in front of it. -/
structure Chunk where
  /-- The modifying bytes. -/
  modifiers : List UInt8
  /-- The bytes of the instruction itself. -/
  core : List UInt8
  /-- The instruction without the modifying bytes. -/
  raw : Instruction
  /-- The bytes in front modify. -/
  modify : ∀ b ∈ modifiers, IsModifier b
  /-- The instruction is what the bytes after them encode. -/
  reads : Item.reader.Reads core (.ok (.instruction raw))

namespace Chunk

/-- The bytes of a chunk. -/
def bytes (c : Chunk) : List UInt8 :=
  c.modifiers ++ c.core

/-- The instruction of a chunk, as the modifying bytes change it. -/
def instruction (c : Chunk) : Instruction :=
  (Pending.ofBytes c.modifiers).apply c.raw

/-- The bytes of a row of chunks. -/
def join (cs : List Chunk) : List UInt8 :=
  cs.flatMap bytes

@[simp] lemma join_nil : join [] = [] := rfl

@[simp] lemma join_cons (c : Chunk) (cs : List Chunk) : join (c :: cs) = c.bytes ++ join cs :=
  List.flatMap_cons

end Chunk

/-- A row of modifying bytes is a row of tiles without an instruction. -/
lemma exists_tiles_modifiers (hms : ∀ b ∈ ms, IsModifier b) (q : Pending) :
    ∃ ts, ms = Tile.join ts ∧ q.collect (ts.map Tile.item) = [] ∧
      q.leftover (ts.map Tile.item) = ms.foldl Pending.addByte q := by
  induction ms generalizing q with
  | nil => exact ⟨[], rfl, rfl, rfl⟩
  | cons b ms ih =>
    obtain ⟨m, hm⟩ := isModifier_iff.1 (hms b List.mem_cons_self)
    have ht := Item.reads_modifier_iff.2 ⟨b, rfl, hm⟩
    obtain ⟨ts, e, hc, hl⟩ := ih (fun c hc => hms c (List.mem_cons_of_mem b hc)) (q.add m)
    refine ⟨⟨[b], _, ht⟩ :: ts, ?_, hc, ?_⟩
    · rw [Tile.join_cons, ← e]
      rfl
    · rw [List.foldl_cons, Pending.addByte, hm]
      exact hl

/-- A chunk is a row of tiles with one instruction, which takes up all modifying bytes. -/
lemma Chunk.exists_tiles (c : Chunk) :
    ∃ ts, c.bytes = Tile.join ts ∧ Tile.instructions ts = [c.instruction] ∧
      Pending.leftover {} (ts.map Tile.item) = {} := by
  obtain ⟨modifiers, core, raw, modify, reads⟩ := c
  obtain ⟨ts, e, hc, hl⟩ := exists_tiles_modifiers modify {}
  refine ⟨ts ++ [⟨core, _, reads⟩], ?_, ?_, ?_⟩
  · rw [Tile.join_append, ← e]
    simp [Chunk.bytes]
  · unfold Tile.instructions
    rw [List.map_append, Pending.collect_append, hc, hl]
    rfl
  · rw [List.map_append]
    exact Pending.leftover_append_instruction _ _ raw

/-- A row of chunks is a row of tiles with one instruction for each of them. -/
lemma Chunk.exists_tiles_join (cs : List Chunk) :
    ∃ ts, Chunk.join cs = Tile.join ts ∧ Tile.instructions ts = cs.map Chunk.instruction ∧
      Pending.leftover {} (ts.map Tile.item) = {} := by
  induction cs with
  | nil => exact ⟨[], rfl, rfl, rfl⟩
  | cons c cs ih =>
    obtain ⟨ts, e, hc, hl⟩ := c.exists_tiles
    obtain ⟨us, e', hc', hl'⟩ := ih
    refine ⟨ts ++ us, ?_, ?_, ?_⟩
    · rw [Chunk.join_cons, Tile.join_append, e, e']
    · rw [Tile.instructions_append hl, hc, hc', List.map_cons]
      rfl
    · rw [List.map_append, Pending.leftover_append, hl, hl']

/-- A row of chunks and modifying bytes after it decode to the instructions of the chunks. -/
theorem decode_chunks (cs : List Chunk) (ht : ∀ b ∈ trailing, IsModifier b) :
    decode (Chunk.join cs ++ trailing) = .ok (.ofInstructions (cs.map Chunk.instruction)) := by
  obtain ⟨ts, e, hc, hl⟩ := Chunk.exists_tiles_join cs
  obtain ⟨us, e', hc', _⟩ := exists_tiles_modifiers ht {}
  rw [e, e', ← Tile.join_append, decode_join, Tile.instructions_append hl, hc, Tile.instructions,
    hc', List.append_nil]

/-- A row of chunks alone decodes to their instructions. -/
theorem decode_chunk_join (cs : List Chunk) :
    decode (Chunk.join cs) = .ok (.ofInstructions (cs.map Chunk.instruction)) := by
  have hnil : ∀ b ∈ ([] : List UInt8), IsModifier b := nofun
  have h := decode_chunks cs hnil
  rwa [List.append_nil] at h

/-- Modifying bytes and a row of tiles after them are a row of chunks and modifying bytes. -/
lemma exists_chunks_join (ts : List Tile) (hms : ∀ b ∈ ms, IsModifier b) :
    ∃ cs trailing, ms ++ Tile.join ts = Chunk.join cs ++ trailing ∧
      (∀ b ∈ trailing, IsModifier b) ∧
      (Pending.ofBytes ms).collect (ts.map Tile.item) = cs.map Chunk.instruction := by
  -- The bytes in front stay general: those since the last instruction go with the next one.
  induction ts generalizing ms with
  | nil => exact ⟨[], ms, List.append_nil ms, hms, rfl⟩
  | cons t ts ih =>
    obtain ⟨bytes, item, reads⟩ := t
    cases item with
    | modifier m =>
      obtain ⟨b, rfl, hb⟩ := Item.reads_modifier_iff.1 reads
      have hms' : ∀ c ∈ ms ++ [b], IsModifier c := by
        intro c hc
        obtain hc | hc := List.mem_append.1 hc
        · exact hms c hc
        · rw [List.mem_singleton.1 hc]
          exact isModifier_iff.2 ⟨m, hb⟩
      obtain ⟨cs, trailing, e, ht, hc⟩ := ih hms'
      refine ⟨cs, trailing, ?_, ht, ?_⟩
      · rw [← e, Tile.join_cons, List.append_assoc]
      · rw [← hc, Pending.ofBytes_append_singleton hb]
        rfl
    | instruction i =>
      have hnil : ∀ b ∈ ([] : List UInt8), IsModifier b := nofun
      obtain ⟨cs, trailing, e, ht, hc⟩ := ih hnil
      refine ⟨⟨ms, bytes, i, hms, reads⟩ :: cs, trailing, ?_, ht, ?_⟩
      · rw [List.nil_append] at e
        rw [Tile.join_cons, Chunk.join_cons, e]
        simp [Chunk.bytes]
      · rw [List.map_cons, List.map_cons, ← hc]
        rfl

/-- A stream that decodes is a row of chunks and modifying bytes after it. -/
theorem exists_chunks_of_decode_ok (h : decode bs = .ok p) :
    ∃ cs trailing, bs = Chunk.join cs ++ trailing ∧ (∀ b ∈ trailing, IsModifier b) ∧
      p = .ofInstructions (cs.map Chunk.instruction) := by
  obtain ⟨ts, rfl, rfl⟩ := exists_tiles_of_decode_ok h
  have hnil : ∀ b ∈ ([] : List UInt8), IsModifier b := nofun
  obtain ⟨cs, trailing, e, ht, hc⟩ := exists_chunks_join ts hnil
  exact ⟨cs, trailing, e, ht, congrArg Program.ofInstructions hc⟩

/-- An instruction of a decoded program is that of a chunk. -/
lemma exists_chunk_of_mem {i : Instruction} (h : decode bs = .ok p) (hi : i ∈ p.instructions) :
    ∃ c : Chunk, i = c.instruction := by
  obtain ⟨cs, -, -, -, rfl⟩ := exists_chunks_of_decode_ok h
  obtain ⟨c, -, rfl⟩ := List.mem_map.1 (List.mem_toArray.1 hi)
  exact ⟨c, rfl⟩

end I8086

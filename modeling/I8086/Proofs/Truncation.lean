import I8086.Proofs.Scan

/-!
# Cutting and extending a stream

A stream that decodes can be cut anywhere. Between instructions, and among the modifying bytes
before one, the front part decodes to the instructions that end in it; behind an opcode and before
the end of its instruction, the front part ends too early. A stream that fails because it ends too
early can be completed, and one with a meaningless opcode cannot. Main statement:
`decode_take_and_append`.
-/

namespace I8086

/-- The offsets of the opcode of an instruction and of the byte after the instruction. -/
def Placed.span? (x : Placed) : Option (Nat × Nat) :=
  match x.item with
  | .instruction _ => some (x.start, x.stop)
  | .modifier _ => none

/-- The spans of the instructions of a stream. -/
def spans (bytes : List UInt8) : List (Nat × Nat) :=
  (scan bytes).filterMap Placed.span?

/-- The number of instructions that end at an offset or before it. -/
def completed (bytes : List UInt8) (offset : Nat) : Nat :=
  (spans bytes).countP (·.2 ≤ offset)

/-- An offset lies behind the opcode of an instruction and before the end of the instruction. -/
def Inside (bytes : List UInt8) (index offset : Nat) : Prop :=
  ∃ start stop, (spans bytes)[index]? = some (start, stop) ∧ start < offset ∧ offset < stop

/-- The spans of a row of tiles, the first of which stands at an offset. -/
def Tile.spansFrom (p : Nat) (ts : List Tile) : List (Nat × Nat) :=
  (place p ts).filterMap Placed.span?

namespace Tile

variable {ts us : List Tile} {p k : Nat}

/-- A row of tiles has its spans. -/
lemma spans_join (ts : List Tile) : spans (join ts) = spansFrom 0 ts := by
  unfold spans spansFrom
  rw [scan_join]

/-- The spans of two rows, one after the other. -/
lemma spansFrom_append (p : Nat) (ts us : List Tile) :
    spansFrom p (ts ++ us) = spansFrom p ts ++ spansFrom (p + (join ts).length) us := by
  induction ts generalizing p with
  | nil => rfl
  | cons t ts ih =>
    unfold spansFrom at ih ⊢
    simp only [List.cons_append, place, List.filterMap_cons, ih, join_cons, List.length_append,
      Nat.add_assoc]
    split <;> rfl

/-- A row of tiles has one span for each instruction. -/
lemma length_spansFrom (q : Pending) :
    (spansFrom p ts).length = (q.collect (ts.map Tile.item)).length := by
  induction ts generalizing p q with
  | nil => rfl
  | cons t ts ih =>
    obtain ⟨bytes, item, reads⟩ := t
    cases item with
    | modifier m => exact ih (q.add m)
    | instruction i => exact congrArg (· + 1) (ih {})

/-- The spans of a row lie within it. -/
lemma snd_le_of_mem_spansFrom {e : Nat × Nat} (he : e ∈ spansFrom p ts) :
    e.2 ≤ p + (join ts).length := by
  induction ts generalizing p with
  | nil => cases he
  | cons t ts ih =>
    have hrest : e ∈ spansFrom (p + t.bytes.length) ts → e.2 ≤ p + (join (t :: ts)).length := by
      intro he
      have := ih he
      rw [join_cons, List.length_append]
      omega
    obtain ⟨bytes, item, reads⟩ := t
    cases item with
    | modifier m => exact hrest he
    | instruction i =>
      obtain rfl | he := List.mem_cons.1 he
      · simp only [join_cons, List.length_append]
        omega
      · exact hrest he

/-- The spans of a row start where it starts, and are not empty. -/
lemma lt_snd_of_mem_spansFrom {e : Nat × Nat} (he : e ∈ spansFrom p ts) :
    p ≤ e.1 ∧ e.1 < e.2 := by
  induction ts generalizing p with
  | nil => cases he
  | cons t ts ih =>
    have hrest : e ∈ spansFrom (p + t.bytes.length) ts → p ≤ e.1 ∧ e.1 < e.2 := by
      intro he
      have := ih he
      omega
    have hpos := List.length_pos_iff.2 t.bytes_ne_nil
    obtain ⟨bytes, item, reads⟩ := t
    cases item with
    | modifier m => exact hrest he
    | instruction i =>
      obtain rfl | he := List.mem_cons.1 he
      · exact ⟨Nat.le_refl p, Nat.lt_add_of_pos_right hpos⟩
      · exact hrest he

/-- The instructions of a front part of a row are the first ones of the row. -/
lemma instructions_take (ts us : List Tile) :
    (instructions (ts ++ us)).take (instructions ts).length = instructions ts := by
  unfold instructions
  rw [List.map_append, Pending.collect_append]
  exact List.take_left

/-- Every cut of a row is between two tiles or inside one. -/
lemma exists_cut (hk : k ≤ (join ts).length) :
    ∃ us vs, ts = us ++ vs ∧ ((join us).length = k ∨
      ∃ t ws, vs = t :: ws ∧ (join us).length < k ∧ k < (join us).length + t.bytes.length) := by
  induction ts generalizing k with
  | nil => exact ⟨[], [], rfl, .inl (Nat.le_zero.1 hk).symm⟩
  | cons t ts ih =>
    rw [join_cons, List.length_append] at hk
    by_cases ht : t.bytes.length ≤ k
    · obtain ⟨us, vs, rfl, h⟩ := ih (k := k - t.bytes.length) (by omega)
      refine ⟨t :: us, vs, rfl, ?_⟩
      rw [join_cons, List.length_append]
      obtain h | ⟨t', ws, rfl, h⟩ := h
      · exact .inl (by omega)
      · exact .inr ⟨t', ws, rfl, by omega, by omega⟩
    · obtain rfl | hk0 := Nat.eq_zero_or_pos k
      · exact ⟨[], t :: ts, rfl, .inl rfl⟩
      · refine ⟨[], t :: ts, rfl, .inr ⟨t, ts, rfl, hk0, ?_⟩⟩
        rw [join_nil, List.length_nil]
        omega

/-- The instructions completed at a cut, if none of the tiles behind it ends before it. -/
lemma completed_join_append (hle : (join us).length ≤ k) {vs : List Tile}
    (hgt : ∀ e ∈ spansFrom (join us).length vs, k < e.2) :
    completed (join (us ++ vs)) k = (instructions us).length := by
  unfold completed
  rw [spans_join, spansFrom_append, List.countP_append, Nat.zero_add]
  have h1 : (spansFrom 0 us).countP (·.2 ≤ k) = (spansFrom 0 us).length := by
    refine List.countP_eq_length.2 fun e he => ?_
    have := snd_le_of_mem_spansFrom he
    exact decide_eq_true (by omega)
  have h2 : (spansFrom (join us).length vs).countP (·.2 ≤ k) = 0 := by
    refine List.countP_eq_zero.2 fun e he => ?_
    have := hgt e he
    simpa using this
  rw [h1, h2, Nat.add_zero, length_spansFrom {}]
  rfl

/-- The next span at a cut is the first one behind it. -/
lemma spans_join_getElem? (us vs : List Tile) :
    (spans (join (us ++ vs)))[(instructions us).length]? =
      (spansFrom (join us).length vs)[0]? := by
  rw [spans_join, spansFrom_append, Nat.zero_add]
  have hlen : (instructions us).length = (spansFrom 0 us).length := (length_spansFrom {}).symm
  rw [hlen, List.getElem?_append_right (Nat.le_refl _), Nat.sub_self]

/-- A tile with a byte inside is that of an instruction. -/
lemma exists_instruction_of_one_lt {t : Tile} (h : 1 < t.bytes.length) :
    ∃ i, t.item = .instruction i := by
  obtain ⟨bytes, item, reads⟩ := t
  cases item with
  | instruction i => exact ⟨i, rfl⟩
  | modifier m =>
    obtain ⟨b, rfl, _⟩ := Item.reads_modifier_iff.1 reads
    exact (Nat.lt_irrefl 1 h).elim

end Tile

section Cut

variable {us vs ws : List Tile} {t : Tile} {k : Nat}

/-- A cut between two tiles keeps the instructions before it. -/
lemma decode_take_between (hk : (Tile.join us).length = k) :
    decode ((Tile.join (us ++ vs)).take k) =
      .ok (.ofInstructions ((Tile.instructions (us ++ vs)).take (Tile.instructions us).length)) := by
  rw [Tile.join_append, ← hk, List.take_left, decode_join, Tile.instructions_take]

/-- A cut inside a tile leaves its item unfinished. -/
lemma decode_take_inside (hlt : (Tile.join us).length < k)
    (hgt : k < (Tile.join us).length + t.bytes.length) :
    decode ((Tile.join (us ++ t :: ws)).take k) =
      .error (.endOfBytes k (Tile.instructions us).length) := by
  have hsplit := List.take_append_drop (k - (Tile.join us).length) t.bytes
  have htake : (Tile.join (us ++ t :: ws)).take k =
      Tile.join us ++ t.bytes.take (k - (Tile.join us).length) := by
    rw [Tile.join_append, Tile.join_cons, List.take_append, List.take_of_length_le (by omega),
      List.take_append_of_le_length (by omega)]
  have hlen : (Tile.join us ++ t.bytes.take (k - (Tile.join us).length)).length = k := by
    rw [List.length_append, List.length_take]
    omega
  have wt : Item.reader.Waits (t.bytes.take (k - (Tile.join us).length)) := by
    refine Reader.Reads.waits_of_append (hsplit ▸ t.reads) fun h => ?_
    have := congrArg List.length h
    rw [List.length_drop, List.length_nil] at this
    omega
  have hne : t.bytes.take (k - (Tile.join us).length) ≠ [] := fun h => by
    rw [h, List.append_nil] at hlen
    omega
  rw [htake, decode_join_waits hne wt, hlen]

end Cut

section Decode

variable {bytes : List UInt8} {p : Program}

/-- A cut fails inside an instruction and keeps the instructions before it elsewhere. -/
lemma decode_take {k : Nat} (h : decode bytes = .ok p) (hk : k ≤ bytes.length) :
    (Inside bytes (completed bytes k) k →
      decode (bytes.take k) = .error (.endOfBytes k (completed bytes k))) ∧
    (¬ Inside bytes (completed bytes k) k →
      decode (bytes.take k) =
        .ok (.ofInstructions (p.instructions.toList.take (completed bytes k)))) := by
  obtain ⟨ts, rfl, rfl⟩ := exists_tiles_of_decode_ok h
  obtain ⟨us, vs, rfl, hcut⟩ := Tile.exists_cut hk
  obtain hcut | ⟨t, ws, rfl, hlt, hgt⟩ := hcut
  · have hc : completed (Tile.join (us ++ vs)) k = (Tile.instructions us).length := by
      refine Tile.completed_join_append (by omega) fun e he => ?_
      have := Tile.lt_snd_of_mem_spansFrom he
      omega
    rw [hc]
    refine ⟨?_, fun _ => decode_take_between hcut⟩
    rintro ⟨start, stop, hs, hlt, _⟩
    rw [Tile.spans_join_getElem?] at hs
    have := Tile.lt_snd_of_mem_spansFrom (List.mem_of_getElem? hs)
    omega
  · obtain ⟨i, hi⟩ := Tile.exists_instruction_of_one_lt (t := t) (by omega)
    have hspans : Tile.spansFrom (Tile.join us).length (t :: ws) =
        ((Tile.join us).length, (Tile.join us).length + t.bytes.length) ::
          Tile.spansFrom ((Tile.join us).length + t.bytes.length) ws := by
      simp [Tile.spansFrom, Tile.place, Placed.span?, hi]
    have hc : completed (Tile.join (us ++ t :: ws)) k = (Tile.instructions us).length := by
      refine Tile.completed_join_append (by omega) fun e he => ?_
      rw [hspans] at he
      obtain rfl | he := List.mem_cons.1 he
      · exact hgt
      · have := Tile.lt_snd_of_mem_spansFrom he
        omega
    rw [hc]
    refine ⟨fun _ => decode_take_inside hlt hgt, fun hout => (hout ?_).elim⟩
    refine ⟨_, _, ?_, hlt, hgt⟩
    rw [Tile.spans_join_getElem?, hspans]
    rfl

/-- Bytes behind a meaningless opcode change nothing. -/
lemma decode_append_of_unsupported {opcode : UInt8} {form : Form} {offset index : Nat}
    (more : List UInt8) (h : decode bytes = .error (.unsupported opcode form offset index)) :
    decode (bytes ++ more) = .error (.unsupported opcode form offset index) := by
  obtain ⟨ts, rest, rfl, he⟩ := exists_tiles bytes
  cases he with
  | stop =>
    rw [List.append_nil, decode_join] at h
    cases h
  | waits hrest wt =>
    rw [decode_join_waits hrest wt] at h
    cases h
  | unsupported rest rd =>
    rw [decode_join_unsupported rd] at h
    rw [List.append_assoc, List.append_assoc, decode_join_unsupported rd, h]

/-- A stream that ends inside an instruction is completed by some bytes. -/
lemma exists_decode_append_of_endOfBytes {offset index : Nat}
    (h : decode bytes = .error (.endOfBytes offset index)) :
    ∃ more p, decode (bytes ++ more) = .ok p := by
  obtain ⟨ts, rest, rfl, he⟩ := exists_tiles bytes
  cases he with
  | stop =>
    rw [List.append_nil, decode_join] at h
    cases h
  | waits hrest wt =>
    obtain ⟨more, i, rd⟩ := Item.waits_extend wt hrest
    refine ⟨more, .ofInstructions (Tile.instructions (ts ++ [⟨rest ++ more, _, rd⟩])), ?_⟩
    rw [← decode_join, Tile.join_append, Tile.join_cons, Tile.join_nil, List.append_nil,
      List.append_assoc]
  | unsupported rest rd =>
    rw [decode_join_unsupported rd] at h
    cases h

end Decode

/-- A stream that decodes and is cut behind an opcode and before the end of its instruction fails at
the cut; cut elsewhere it decodes to the instructions that end before the cut, with their labels. A
meaningless opcode fails whatever follows, and a stream that ends too early can be completed. -/
theorem decode_take_and_append :
    (∀ bytes p k, decode bytes = .ok p → k ≤ bytes.length →
      (Inside bytes (completed bytes k) k →
        decode (bytes.take k) = .error (.endOfBytes k (completed bytes k))) ∧
      (¬ Inside bytes (completed bytes k) k →
        decode (bytes.take k) =
          .ok (.ofInstructions (p.instructions.toList.take (completed bytes k))))) ∧
    (∀ bytes opcode form offset index more,
      decode bytes = .error (.unsupported opcode form offset index) →
        decode (bytes ++ more) = .error (.unsupported opcode form offset index)) ∧
    (∀ bytes offset index, decode bytes = .error (.endOfBytes offset index) →
      ∃ more p, decode (bytes ++ more) = .ok p) :=
  ⟨fun _ _ _ h hk => decode_take h hk, fun _ _ _ _ _ more h => decode_append_of_unsupported more h,
    fun _ _ _ h => exists_decode_append_of_endOfBytes h⟩

/-- Cuts of `nop`, `add word cs:[bx + 4], 4660` with an override before its displacement: inside the
second instruction and before its opcode. -/
theorem decode_take_and_append_override :
    decode [0x90, 0x2E, 0x81, 0x47, 0x26] = .error (.endOfBytes 5 1) ∧
    decode [0x90, 0x2E] = .ok (.ofInstructions [⟨"nop", .nop, .bare, none, none, {}⟩]) ∧
    (∀ more, decode ([0xF6, 0x08] ++ more) = .error (.unsupported 0xF6 .unknown 0 0)) ∧
    ∃ more p, decode ([0x90, 0xF6] ++ more) = .ok p := by
  let add : Instruction := ⟨"add", .add, .rmImmediate,
    some (.memory (.based .bx 4) (some .es)), some (.immediate 0x1234), { width := .word }⟩
  let ts : List Tile :=
    [⟨[0x90], .instruction ⟨"nop", .nop, .bare, none, none, {}⟩, by repeat constructor⟩,
     ⟨[0x2E], .modifier (.segment .cs), by repeat constructor⟩,
     ⟨[0x81, 0x47, 0x26, 0x04, 0x34, 0x12], .instruction add, by repeat constructor⟩]
  have hs : decode [0x90, 0x2E, 0x81, 0x47, 0x26, 0x04, 0x34, 0x12] = _ := decode_join ts
  have hp : spans [0x90, 0x2E, 0x81, 0x47, 0x26, 0x04, 0x34, 0x12] = [(0, 1), (2, 8)] :=
    Tile.spans_join ts
  have hu : decode (Tile.join [] ++ ([0xF6, 0x08] ++ [])) =
      .error (.unsupported 0xF6 .unknown 0 0) :=
    have rd : Item.reader.Reads [0xF6, 0x08] (.error ⟨0xF6, .unknown⟩) := by repeat constructor
    decode_join_unsupported rd
  obtain ⟨hcut, hunsupported, hextend⟩ := decode_take_and_append
  refine ⟨?_, ?_, fun more => hunsupported _ _ _ _ _ more hu, hextend _ 2 1 (by cbv)⟩
  · have hc : completed [0x90, 0x2E, 0x81, 0x47, 0x26, 0x04, 0x34, 0x12] 5 = 1 := by
      rw [completed, hp]
      decide
    have h := (hcut _ _ 5 hs (by decide)).1
    rw [hc] at h
    refine h ⟨2, 8, ?_, by decide, by decide⟩
    rw [hp]
    rfl
  · have hc : completed [0x90, 0x2E, 0x81, 0x47, 0x26, 0x04, 0x34, 0x12] 2 = 1 := by
      rw [completed, hp]
      decide
    have h := (hcut _ _ 2 hs (by decide)).2
    rw [hc] at h
    refine h ?_
    rintro ⟨start, stop, hspan, hlt, _⟩
    rw [hp] at hspan
    cases hspan
    exact Nat.lt_irrefl 2 hlt

end I8086

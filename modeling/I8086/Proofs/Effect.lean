import I8086.Proofs.Executable
import I8086.Proofs.OperandSize

/-!
# The effect of what is written

The text of a decoded instruction tells what it does. Its words tell the operation, a destination is
written as its place in the register file and so tells the width, and a source is written as its place
or as its value. Main statement: `execute_eq_of_text_eq`, decoded instructions with the same text do
the same to every register file.
-/

namespace I8086

variable {labels : LabelTable} {index : Int} {w : Width} {sized sized' tagged tagged' : Bool}
variable {x x' y y' : Operand} {r : RegisterFile} {l : Location} {op : Mnemonic}

namespace Operand

lemma exists_location?_of_isDestination (h : x.isDestination op) :
    ∃ l, x.location? w = some l := by
  cases x with
  | accumulator | register | segment => exact ⟨_, rfl⟩
  | label | immediate | memory | far => cases h

lemma immediate_or_location?_of_isSource (h : x.isSource) :
    (∃ value, x = .immediate value) ∨ ∃ l, x.location? w = some l := by
  cases x with
  | immediate value => exact .inl ⟨value, rfl⟩
  | accumulator | register | segment => exact .inr ⟨_, rfl⟩
  | label | memory | far => cases h

/-- An operand in the register file has the value of its place. -/
lemma sourceValue?_of_location? (h : x.location? w = some l) :
    r.sourceValue? w x = some (r.readLocation l &&& w.mask) := by
  cases x with
  | accumulator | register | segment =>
    cases h
    rfl
  | label | immediate | memory | far => cases h

/-- Sources with the same text have the same value at one width. -/
lemma sourceValue?_eq_of_text_eq (hx : x.isSource) (hy : y.isSource)
    (h : x.text labels index w sized = y.text labels index w sized') :
    r.sourceValue? w x = r.sourceValue? w y := by
  obtain ⟨value, rfl⟩ | ⟨l, hl⟩ := immediate_or_location?_of_isSource (w := w) hx
  · have hn := location?_eq_none_of_text_eq h
    obtain ⟨value', rfl⟩ | ⟨l', hl'⟩ := immediate_or_location?_of_isSource (w := w) hy
    · rw [Int16.toInt_inj.1 (integer_injective h)]
    · cases hn.symm.trans hl'
  · obtain ⟨value', rfl⟩ | ⟨l', hl'⟩ := immediate_or_location?_of_isSource (w := w) hy
    · cases (location?_eq_none_of_text_eq h.symm).symm.trans hl
    · rw [sourceValue?_of_location? hl, sourceValue?_of_location? hl',
        location?_eq_of_text_eq hl hl' h]

end Operand

namespace Chunk

variable {c d : Chunk}

/-- An instruction whose operation is executed is skipped for an operand in memory. -/
lemma execute_of_isMemory (hop : c.instruction.op.IsExecuted)
    (hm : ∃ x ∈ c.instruction.operands, x.isMemory) (r : RegisterFile) :
    r.execute c.instruction = (.skipped .operand, r) := by
  have hout : (r.execute c.instruction).1 = .skipped .operand := by
    rw [r.execute_eq_skipped_operand_iff, c.any_operands_iff hop]
    obtain ⟨x, hx, hmem⟩ := hm
    exact ⟨hop, fun h => h x hx hmem⟩
  apply Prod.ext hout
  apply RegisterFile.execute_of_skipped
  rw [hout]
  exact Outcome.noConfusion

/-- Outside memory the first operand of an operation that is executed is a place of its width. -/
lemma exists_destination (hop : c.instruction.op.IsExecuted) (hx : c.instruction.first = some x)
    (hm : ¬ x.isMemory) : ∃ l, x.location? c.instruction.width = some l ∧
      c.instruction.destination? = some l ∧ l.width = c.instruction.width := by
  obtain ⟨a, -, ha, -, hdest, -⟩ := c.exists_operands hop
  cases ha.symm.trans hx
  have hd : x.isDestination c.instruction.op := by
    rw [hdest, Bool.eq_false_of_not_eq_true hm]
    rfl
  obtain ⟨l, hl⟩ := Operand.exists_location?_of_isDestination (w := c.instruction.width) hd
  have hl' := Instruction.destination?_eq_some_iff.2 ⟨x, hx, hd, hl⟩
  have hmem := Instruction.mem_locations_of_destination? hl'
  exact ⟨l, hl, hl', c.wellFormed.width_location (c.takes hop) hmem⟩

/-- Outside memory the second operand of an operation that is executed is a source. -/
lemma isSource_of_second (hop : c.instruction.op.IsExecuted) (hy : c.instruction.second = some y)
    (hm : ¬ y.isMemory) : y.isSource := by
  obtain ⟨-, b, -, hb, -, hsource⟩ := c.exists_operands hop
  cases hb.symm.trans hy
  rw [hsource, Bool.eq_false_of_not_eq_true hm]
  rfl

/-- Instructions of one operation do the same outside memory if their operands have the same texts. -/
lemma execute_eq_of_operands (hop : c.instruction.op = d.instruction.op)
    (hexec : c.instruction.op.IsExecuted)
    (hx : c.instruction.first = some x) (hx' : d.instruction.first = some x')
    (hy : c.instruction.second = some y) (hy' : d.instruction.second = some y')
    (ex : x.text labels index c.instruction.width sized =
      x'.text labels index d.instruction.width sized')
    (ey : y.text labels index c.instruction.width tagged =
      y'.text labels index d.instruction.width tagged')
    (hm : ¬ (x.isMemory ∨ y.isMemory)) (r : RegisterFile) :
    r.execute c.instruction = r.execute d.instruction := by
  obtain ⟨hmx, hmy⟩ := not_or.1 hm
  have hexec' : d.instruction.op.IsExecuted := hop ▸ hexec
  -- The name of the destination tells the width.
  obtain ⟨l, hl, hd, hw⟩ := exists_destination hexec hx hmx
  obtain ⟨l', hl', hd', hw'⟩ :=
    exists_destination hexec' hx' (mt (Operand.isMemory_iff_of_text_eq ex).2 hmx)
  have el : l = l' := Operand.location?_eq_of_text_eq hl hl' ex
  have ew : c.instruction.width = d.instruction.width := by rw [← hw, ← hw', el]
  -- At one width the text of a source tells its value.
  have hs := isSource_of_second hexec hy hmy
  have hs' := isSource_of_second hexec' hy' (mt (Operand.isMemory_iff_of_text_eq ey).2 hmy)
  have es : r.source? c.instruction = r.source? d.instruction := by
    rw [← ew] at ey
    unfold RegisterFile.source?
    rw [hy, hy', ← ew]
    exact Operand.sourceValue?_eq_of_text_eq hs hs' ey
  have hsome : (r.source? c.instruction).isSome := by
    rw [r.isSome_source?, hy]
    exact hs
  obtain ⟨v, hv⟩ := Option.isSome_iff_exists.1 hsome
  rw [(RegisterFile.Executes.performed hexec hd hv).execute_eq,
    (RegisterFile.Executes.performed hexec' hd' (es ▸ hv)).execute_eq, hop, ew, el]

/-- Instructions with the same text do the same. -/
lemma execute_eq (h : c.instruction.text labels index = d.instruction.text labels index)
    (r : RegisterFile) : r.execute c.instruction = r.execute d.instruction := by
  obtain ⟨-, -, hword, -, hfirst, hsecond⟩ := Instruction.text_inj c.worded d.worded h
  have hop := op_eq_of_word_eq hword
  by_cases hexec : c.instruction.op.IsExecuted
  case neg =>
    have hexec' : ¬ d.instruction.op.IsExecuted := hop ▸ hexec
    rw [(RegisterFile.Executes.opcode hexec).execute_eq,
      (RegisterFile.Executes.opcode hexec').execute_eq]
  case pos =>
    obtain ⟨x, y, hx, hy, -, -⟩ := c.exists_operands hexec
    obtain ⟨x', hx', ex⟩ := Operand.exists_of_map_text_eq hfirst hx
    obtain ⟨y', hy', ey⟩ := Operand.exists_of_map_text_eq hsecond hy
    by_cases hm : x.isMemory ∨ y.isMemory
    case pos =>
      have hm' : x'.isMemory ∨ y'.isMemory :=
        hm.imp (Operand.isMemory_iff_of_text_eq ex).1 (Operand.isMemory_iff_of_text_eq ey).1
      rw [execute_of_isMemory hexec (by simpa [Instruction.operands, hx, hy] using hm),
        execute_of_isMemory (hop ▸ hexec) (by simpa [Instruction.operands, hx', hy'] using hm')]
    case neg => exact execute_eq_of_operands hop hexec hx hx' hy hy' ex ey hm r

end Chunk

/-- Decoded instructions with the same text have the same operation, and executing either has the
same outcome and leaves the same registers. -/
theorem execute_eq_of_text_eq {bytes bytes' : List UInt8} {p q : Program} {i j : Instruction}
    (hp : decode bytes = .ok p) (hq : decode bytes' = .ok q) (hi : i ∈ p.instructions)
    (hj : j ∈ q.instructions) (h : i.text labels index = j.text labels index) :
    i.op = j.op ∧ ∀ r : RegisterFile, r.execute i = r.execute j := by
  obtain ⟨c, rfl⟩ := exists_chunk_of_mem hp hi
  obtain ⟨d, rfl⟩ := exists_chunk_of_mem hq hj
  obtain ⟨-, -, hword, -⟩ := Instruction.text_inj c.worded d.worded h
  exact ⟨Chunk.op_eq_of_word_eq hword, Chunk.execute_eq h⟩

/-- `add ax, -2` with a word behind the opcode of the accumulator, and with a sign-extended byte
behind one for any register. -/
theorem execute_eq_of_text_eq_accumulator :
    ∃ p q i j, decode [0x05, 0xFE, 0xFF] = .ok p ∧ decode [0x83, 0xC0, 0xFE] = .ok q ∧
      p.instructions = #[i] ∧ q.instructions = #[j] ∧ i.first ≠ j.first ∧ i.op = j.op ∧
      ∀ r : RegisterFile, r.execute i = r.execute j := by
  have hp := decode_join [⟨[0x05, 0xFE, 0xFF], .instruction
    ⟨"add", .add, .accumulatorImmediate, some .accumulator, some (.immediate (-2)),
      { width := .word }⟩, by repeat constructor⟩]
  have hq := decode_join [⟨[0x83, 0xC0, 0xFE], .instruction
    ⟨"add", .add, .rmSignedByte, some (.register .ax), some (.immediate (-2)),
      { width := .word }⟩, by repeat constructor⟩]
  refine ⟨_, _, _, _, hp, hq, rfl, rfl, by decide, ?_⟩
  apply execute_eq_of_text_eq hp hq (Array.mem_singleton.2 rfl) (Array.mem_singleton.2 rfl)
  show Instruction.text .empty 0 _ = Instruction.text .empty 0 _
  rfl

end I8086

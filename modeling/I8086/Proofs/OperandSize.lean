import I8086.Proofs.Wording

/-!
# The size of memory operands

Whether the text of a decoded instruction tells a byte in memory from a word. The operand beside one
in memory is an immediate, so that the size is written, or a register as wide as the operation
(`Chunk.sizes_beside`); the target of a transfer is a word. Only a shift by the count in cl writes no
size and has a register beside it that is a byte whatever is shifted. Main statements:
`text_ne_of_width_ne`, all other instructions tell the size; `text_withWidth_of_count`, these do
not.
-/

namespace I8086

variable {w w' : Width} {x y : Operand} {q : Pending} {opcode : UInt8} {bs : List UInt8}
variable {form : Form} {f : Fields} {d : Descriptor} {labels : LabelTable} {index : Int}
variable {sized sized' : Bool}

/-- An operand that fixes the width of an operation: a place of this width. -/
def Operand.FixesWidth (w : Width) (x : Operand) : Prop :=
  ∃ l, x.location? w = some l ∧ l.width = w

/-- An operand beside which one in memory is told to be a byte or a word: with an immediate the size
is written, and otherwise the operand fixes it. -/
def Operand.Sizes (w : Width) (x : Operand) : Prop :=
  (∃ value, x = .immediate value) ∨ x.FixesWidth w

/-- Of two operands, if one is in memory, the other tells its size. -/
def Sized (w : Width) (x y : Option Operand) : Prop :=
  ∀ a ∈ x, ∀ b ∈ y, (a.isMemory → b.Sizes w) ∧ (b.isMemory → a.Sizes w)

namespace Operand

/-- A register as wide as the operation tells its size. -/
lemma sizes_register {r : Register} (h : r.width = w) : (register r).Sizes w :=
  .inr ⟨.register r, rfl, h⟩

/-- The accumulator is as wide as the operation. -/
lemma sizes_accumulator : accumulator.Sizes w :=
  .inr ⟨_, rfl, Register.width_accumulator w⟩

lemma sizes_immediate (value : Int16) : (immediate value).Sizes w :=
  .inl ⟨value, rfl⟩

/-- What tells the size is not in memory. -/
lemma Sizes.not_isMemory (h : x.Sizes w) : ¬ x.isMemory := by
  obtain ⟨_, rfl⟩ | ⟨l, hl, -⟩ := h
  · exact Bool.false_ne_true
  · cases x with
    | memory => cases hl
    | _ => exact Bool.false_ne_true

/-- The modifying bytes leave an operand that tells the size. -/
lemma Sizes.operand (h : x.Sizes w) : (q.operand x).Sizes w := by
  cases x with
  | memory => exact (h.not_isMemory rfl).elim
  | _ => exact h

/-- A place that fixes the width is told by its name, from an immediate too. -/
lemma FixesWidth.width_eq (hx : x.FixesWidth w) (hy : y.Sizes w')
    (h : x.text labels index w sized = y.text labels index w' sized') : w = w' := by
  obtain ⟨l, hl, rfl⟩ := hx
  obtain ⟨value, rfl⟩ | ⟨l', hl', rfl⟩ := hy
  · cases (location?_eq_none_of_text_eq h.symm).symm.trans hl
  · rw [location?_eq_of_text_eq hl hl' h]

/-- Operands that may be absent and have the same texts. -/
lemma exists_of_map_text_eq {o o' : Option Operand}
    (h : (o.map fun z => z.text labels index w sized) =
      o'.map fun z => z.text labels index w' sized') (hx : o = some x) :
    ∃ y, o' = some y ∧ x.text labels index w sized = y.text labels index w' sized' := by
  rw [hx] at h
  obtain ⟨y, hy, e⟩ := Option.map_eq_some_iff.1 h.symm
  exact ⟨y, hy, e.symm⟩

end Operand

/-- A second operand that tells the size. -/
lemma sized_right {x : Option Operand} (hy : y.Sizes w) : Sized w x (some y) := by
  intro a _ b hb
  cases hb
  exact ⟨fun _ => hy, fun hm => (hy.not_isMemory hm).elim⟩

/-- A first operand that tells the size. -/
lemma sized_left {y : Option Operand} (hx : x.Sizes w) : Sized w (some x) y := by
  intro a ha b _
  cases ha
  exact ⟨fun hm => (hx.not_isMemory hm).elim, fun _ => hx⟩

/-- A single operand has none beside it. -/
lemma sized_none {x : Option Operand} : Sized w x none := by
  intro a _ b hb
  cases hb

/-- No size has to be told without an operand in memory. -/
lemma sized_of_not_isMemory (hx : ¬ x.isMemory) (hy : ¬ y.isMemory) :
    Sized w (some x) (some y) := by
  intro a ha b hb
  cases ha
  cases hb
  exact ⟨fun hm => (hx hm).elim, fun hm => (hy hm).elim⟩

/-- In either order an operand tells the size of the other. -/
lemma sized_directed (hy : y.Sizes w) :
    Sized w (Fields.directed opcode x y w).first (Fields.directed opcode x y w).second := by
  unfold Fields.directed
  split
  · exact sized_left hy
  · exact sized_right hy

/-- Except with a count, an operand beside one in memory tells its size. -/
lemma FieldBytes.sizes_beside (h : FieldBytes opcode form bs f) (hform : form ≠ .rmCount) :
    Sized f.width f.first f.second := by
  have hfield : ∀ {w} n, (Operand.register (.ofField w n)).Sizes w := fun n =>
    Operand.sizes_register (Register.width_ofField _ n)
  cases h with
  | rmRegister =>
    rw [width_directed]
    exact sized_directed (hfield _)
  | rmSegment =>
    rw [width_directed]
    exact sized_directed (.inr ⟨_, rfl, rfl⟩)
  | fixedPort =>
    rw [width_directed]
    exact sized_directed (Operand.sizes_immediate _)
  | variablePort =>
    -- The port may be wider than the operation, but nothing is in memory.
    unfold Fields.directed
    split <;> exact sized_of_not_isMemory Bool.false_ne_true Bool.false_ne_true
  | rmImmediate | rmSignedByte | rmOne | registerImmediate | accumulatorImmediate =>
    exact sized_right (Operand.sizes_immediate _)
  | accumulatorMemory => exact sized_left Operand.sizes_accumulator
  | memoryAccumulator => exact sized_right Operand.sizes_accumulator
  | registerMemory => exact sized_left (hfield _)
  | accumulatorRegister => exact sized_right (hfield _)
  | escape => exact sized_left (Operand.sizes_immediate _)
  | rmCount => exact (hform rfl).elim
  | _ => exact sized_none

/-- The modifying bytes change no size. -/
lemma Sized.map_operand {x y : Option Operand} (h : Sized w x y) :
    Sized w (x.map q.operand) (y.map q.operand) := by
  intro a ha b hb
  obtain ⟨a', ha', rfl⟩ := Option.map_eq_some_iff.1 ha
  obtain ⟨b', hb', rfl⟩ := Option.map_eq_some_iff.1 hb
  have hmemory : ∀ z : Operand, (q.operand z).isMemory = z.isMemory := fun z => by
    cases z <;> rfl
  rw [hmemory, hmemory]
  obtain ⟨hab, hba⟩ := h a' ha' b' hb'
  exact ⟨fun hm => (hab hm).operand, fun hm => (hba hm).operand⟩

/-- A shift or a rotation. -/
def Mnemonic.IsShift (op : Mnemonic) : Prop :=
  op ∈ [Mnemonic.rol, .ror, .rcl, .rcr, .shl, .shr, .sar]

instance (op : Mnemonic) : Decidable op.IsShift :=
  inferInstanceAs (Decidable (_ ∈ _))

/-- Exactly the shifts and rotations have their two forms. -/
lemma isShift_member (b : UInt8) (n : Fin 8) :
    ((lookup b).member n).op.IsShift ↔ ((lookup b).member n).form ∈ [Form.rmOne, .rmCount] := by
  refine forall_member (P := fun _ d => d.op.IsShift ↔ d.form ∈ [Form.rmOne, .rmCount]) ?_ ?_ b n
  · exact forall_byte (by decide +kernel)
  · intro _ g n _
    revert n
    cases g <;> decide

/-- A transfer through an operand is one of words. -/
lemma transfer_member (b : UInt8) (n : Fin 8) :
    ((lookup b).member n).op ∈ [Mnemonic.call, .jmp] →
      ((lookup b).member n).form ∈ [Form.nearTarget, .farTarget, .shortTarget] ∨
        ((lookup b).member n).form ∈ [Form.rm, .rmFar] ∧ Fields.widthOf b = .word := by
  have hgroup : ∀ b, (lookup b).group? = some .indirect → Fields.widthOf b = .word :=
    forall_byte (by decide +kernel)
  have hmember : ∀ (g : OpcodeGroup) (n : Fin 8), (g.members.get n).op ∈ [Mnemonic.call, .jmp] →
      g = .indirect ∧ (g.members.get n).form ∈ [Form.rm, .rmFar] := by
    intro g
    cases g <;> decide
  refine forall_member (P := fun b d => d.op ∈ [Mnemonic.call, .jmp] →
    d.form ∈ [Form.nearTarget, .farTarget, .shortTarget] ∨
      d.form ∈ [Form.rm, .rmFar] ∧ Fields.widthOf b = .word) ?_ ?_ b n
  · exact forall_byte (by decide +kernel)
  · intro b g n hg h
    obtain ⟨rfl, hform⟩ := hmember g n h
    exact .inr ⟨hform, hgroup b hg⟩

/-- A form without an operand in memory has none after modifying bytes. -/
lemma FieldBytes.not_isMemory (h : FieldBytes opcode form bs f)
    (hform : form ∈ [Form.string, .nearTarget, .farTarget, .shortTarget]) :
    ∀ x ∈ (q.finish d f).operands, ¬ x.isMemory := by
  intro x hx
  obtain ⟨y, hy, rfl⟩ := Pending.mem_operands_finish hx
  cases h with
  | string => exact hy.elim nofun nofun
  | nearTarget | farTarget | shortTarget =>
    obtain hy | hy := hy
    · cases hy
      exact Bool.false_ne_true
    · cases hy
  | _ => exact absurd hform (by decide)

namespace Chunk

variable {c d : Chunk}

/-- Except with a count, an operand beside one in memory tells its size. -/
lemma sizes_beside (c : Chunk) (h : c.instruction.form ≠ .rmCount) :
    Sized c.instruction.width c.instruction.first c.instruction.second := by
  obtain ⟨q, b, v, f, -, hf, hi⟩ := c.exists_finish
  rw [hi] at h ⊢
  exact (hf.sizes_beside h).map_operand

/-- Shifts and rotations have their two forms only. -/
lemma isShift_iff (c : Chunk) :
    c.instruction.op.IsShift ↔ c.instruction.form ∈ [Form.rmOne, .rmCount] := by
  obtain ⟨q, b, v, f, -, -, hi⟩ := c.exists_finish
  rw [hi, descriptorAt_eq_member]
  exact isShift_member b _

/-- A shift by one has this count. -/
lemma second_of_rmOne (c : Chunk) (h : c.instruction.form = .rmOne) :
    c.instruction.second = some (.immediate 1) := by
  obtain ⟨q, b, v, f, -, hf, hi⟩ := c.exists_finish
  rw [hi] at h ⊢
  change (descriptorAt b v).form = .rmOne at h
  rw [h] at hf
  cases hf
  rfl

/-- An instruction with an operand in memory is no string operation. -/
lemma stringOp_of_isMemory (h : ∃ x ∈ c.instruction.operands, x.isMemory) :
    c.instruction.modifiers.stringOp = false := by
  by_contra hs
  have hform := c.wellFormed.stringOp.1 (Bool.eq_true_of_not_eq_false hs)
  obtain ⟨x, hx, hm⟩ := h
  obtain ⟨q, b, v, f, -, hf, hi⟩ := c.exists_finish
  rw [hi] at hform hx
  refine hf.not_isMemory ?_ x hx hm
  rw [show (descriptorAt b v).form = .string from hform]
  decide

/-- A transfer to a target in memory reads a word. -/
lemma width_of_transfer (hop : c.instruction.op ∈ [Mnemonic.call, .jmp])
    (h : ∃ x ∈ c.instruction.operands, x.isMemory) : c.instruction.width = .word := by
  obtain ⟨x, hx, hm⟩ := h
  obtain ⟨q, b, v, f, -, hf, hi⟩ := c.exists_finish
  rw [hi] at hop hx ⊢
  change f.width = .word
  obtain hform | ⟨hform, hw⟩ := transfer_member b _ (descriptorAt_eq_member b v ▸ hop)
  · rw [← descriptorAt_eq_member] at hform
    exact (hf.not_isMemory (List.mem_cons_of_mem _ hform) x hx hm).elim
  · rw [← descriptorAt_eq_member] at hform
    generalize (descriptorAt b v).form = form at hf hform
    cases hf with
    | rm | rmFar => exact hw
    | _ => exact absurd hform (by decide)

/-- An instruction that shows no size is a transfer of control. -/
lemma op_of_showsSize (h : c.instruction.showsSize = false) :
    c.instruction.op ∈ [Mnemonic.call, .jmp] := by
  unfold Instruction.showsSize at h
  simp only [Bool.and_eq_false_iff, bne_eq_false_iff_eq] at h
  simpa using h

/-- What has the operation of an instruction whose second operand fixes the width is no shift by a
count, unless that is one. -/
lemma form_ne_of_fixesWidth (hc : c.instruction.form ≠ .rmCount)
    (hop : c.instruction.op = d.instruction.op) (hx : c.instruction.second = some x)
    (hw : x.FixesWidth w) : d.instruction.form ≠ .rmCount := by
  intro hd
  -- It would be a shift, and in its other form the count is an immediate.
  have hshift : c.instruction.op.IsShift := by
    rw [hop, d.isShift_iff, hd]
    decide
  obtain hone | hcount := List.mem_pair.1 (c.isShift_iff.1 hshift)
  · cases hx.symm.trans (c.second_of_rmOne hone)
    obtain ⟨l, hl, -⟩ := hw
    cases hl
  · exact hc hcount

/-- The text of an instruction with an operand in memory tells its width, unless it is a shift by a
count. -/
theorem width_eq_of_text_eq (hc : ∃ x ∈ c.instruction.operands, x.isMemory)
    (hd : ∃ x ∈ d.instruction.operands, x.isMemory) (hform : c.instruction.form ≠ .rmCount)
    (h : c.instruction.text labels index = d.instruction.text labels index) :
    c.instruction.width = d.instruction.width := by
  obtain ⟨-, -, hword, -, hfirst, hsecond⟩ := Instruction.text_inj c.worded d.worded h
  have hop := op_eq_of_word_eq hword
  cases hshow : c.instruction.showsSize with
  | false =>
    have htransfer := op_of_showsSize hshow
    rw [width_of_transfer htransfer hc, width_of_transfer (hop ▸ htransfer) hd]
  | true =>
    obtain ⟨x, hx, hm⟩ := hc
    obtain hx | hx := List.mem_append.1 hx
    · -- The size is shown with the first operand, or the second one fixes it.
      have hx := Option.mem_toList.1 hx
      obtain ⟨x', hx', ex⟩ := Operand.exists_of_map_text_eq hfirst hx
      have hshown (hs : c.instruction.firstSized) : c.instruction.width = d.instruction.width := by
        rw [hs] at ex
        exact Operand.width_eq_of_text_memory_eq hm ex
      cases hy : c.instruction.second with
      | none => exact hshown (by simp [Instruction.firstSized, hshow, hy])
      | some y =>
        obtain ⟨value, rfl⟩ | hfix := (c.sizes_beside hform x hx y hy).1 hm
        · exact hshown (by simp [Instruction.firstSized, Instruction.isImmediate, hshow, hy])
        · obtain ⟨y', hy', ey⟩ := Operand.exists_of_map_text_eq hsecond hy
          have hm' := (Operand.isMemory_iff_of_text_eq ex).1 hm
          have hd := form_ne_of_fixesWidth hform hop hy hfix
          exact hfix.width_eq ((d.sizes_beside hd x' hx' y' hy').1 hm') ey
    · -- The size is shown with the second operand, or the first one fixes it.
      have hx := Option.mem_toList.1 hx
      obtain ⟨x', hx', ex⟩ := Operand.exists_of_map_text_eq hsecond hx
      have hm' := (Operand.isMemory_iff_of_text_eq ex).1 hm
      cases hy : c.instruction.first with
      | none => cases hx.symm.trans (c.wellFormed.second hy)
      | some y =>
        obtain ⟨value, rfl⟩ | hfix := (c.sizes_beside hform y hy x hx).2 hm
        · have hs : c.instruction.secondSized := by
            simp [Instruction.secondSized, Instruction.isImmediate, hshow, hy]
          rw [hs] at ex
          exact Operand.width_eq_of_text_memory_eq hm ex
        · obtain ⟨y', hy', ey⟩ := Operand.exists_of_map_text_eq hfirst hy
          have hd : d.instruction.form ≠ .rmCount := fun hd => by
            cases hx'.symm.trans (d.wellFormed.count hd).1
            cases hm'
          exact hfix.width_eq ((d.sizes_beside hd y' hy' x' hx').2 hm') ey

end Chunk

/-- Decoded instructions with an operand in memory and of different widths have different texts,
unless both are shifts by the count in cl. -/
theorem text_ne_of_width_ne {bytes bytes' : List UInt8} {p q : Program} {i j : Instruction}
    (hp : decode bytes = .ok p) (hq : decode bytes' = .ok q) (hi : i ∈ p.instructions)
    (hj : j ∈ q.instructions) (hmi : ∃ x ∈ i.operands, x.isMemory)
    (hmj : ∃ x ∈ j.operands, x.isMemory) (hw : i.width ≠ j.width)
    (hcount : ¬ (i.form = .rmCount ∧ j.form = .rmCount)) (labels : LabelTable) (index : Int) :
    i.text labels index ≠ j.text labels index := by
  obtain ⟨c, rfl⟩ := exists_chunk_of_mem hp hi
  obtain ⟨d, rfl⟩ := exists_chunk_of_mem hq hj
  intro h
  by_cases hform : c.instruction.form = .rmCount
  · exact hw (Chunk.width_eq_of_text_eq hmj hmi (fun hd => hcount ⟨hform, hd⟩) h.symm).symm
  · exact hw (Chunk.width_eq_of_text_eq hmi hmj hform h)

/-- `inc byte [bx]` and `inc word [bx]`. -/
theorem text_ne_of_width_ne_inc :
    ∃ p q i j, decode [0xFE, 0x07] = .ok p ∧ decode [0xFF, 0x07] = .ok q ∧
      p.instructions = #[i] ∧ q.instructions = #[j] ∧ i.width ≠ j.width ∧
      ∀ labels index, i.text labels index ≠ j.text labels index := by
  have hp := decode_join [⟨[0xFE, 0x07], .instruction
    ⟨"inc", .inc, .rm, some (.memory (.based .bx 0) none), none, {}⟩, by repeat constructor⟩]
  have hq := decode_join [⟨[0xFF, 0x07], .instruction
    ⟨"inc", .inc, .rm, some (.memory (.based .bx 0) none), none, { width := .word }⟩,
    by repeat constructor⟩]
  refine ⟨_, _, _, _, hp, hq, rfl, rfl, by decide, ?_⟩
  exact text_ne_of_width_ne hp hq (Array.mem_singleton.2 rfl) (Array.mem_singleton.2 rfl)
    ⟨_, List.mem_cons_self, rfl⟩ ⟨_, List.mem_cons_self, rfl⟩ (by decide) (by decide)

/-- `shl [bx], cl` is the text of the shift of a byte and of the shift of a word. -/
theorem text_eq_of_count :
    ∃ p q i j, decode [0xD2, 0x27] = .ok p ∧ decode [0xD3, 0x27] = .ok q ∧
      p.instructions = #[i] ∧ q.instructions = #[j] ∧ (∃ x ∈ i.operands, x.isMemory) ∧
      (∃ x ∈ j.operands, x.isMemory) ∧ i.width ≠ j.width ∧
      ∀ labels index, i.text labels index = "shl [bx], cl" ∧
        j.text labels index = "shl [bx], cl" := by
  have hp := decode_join [⟨[0xD2, 0x27], .instruction
    ⟨"shl", .shl, .rmCount, some (.memory (.based .bx 0) none), some (.register .cl), {}⟩,
    by repeat constructor⟩]
  have hq := decode_join [⟨[0xD3, 0x27], .instruction
    ⟨"shl", .shl, .rmCount, some (.memory (.based .bx 0) none), some (.register .cl),
      { width := .word }⟩, by repeat constructor⟩]
  exact ⟨_, _, _, _, hp, hq, rfl, rfl, ⟨_, List.mem_cons_self, rfl⟩, ⟨_, List.mem_cons_self, rfl⟩,
    by decide, fun labels index => ⟨by rfl, by rfl⟩⟩

/-- A shift of an operand in memory by the count in cl does not tell its width: at any other it
would have the same text. -/
theorem text_withWidth_of_count {bytes : List UInt8} {p : Program} {i : Instruction}
    (hp : decode bytes = .ok p) (hi : i ∈ p.instructions) (hform : i.form = .rmCount)
    (hm : ∃ x ∈ i.operands, x.isMemory) (w : Width) (labels : LabelTable) (index : Int) :
    { i with modifiers := { i.modifiers with width := w } : Instruction }.text labels index =
      i.text labels index := by
  obtain ⟨c, rfl⟩ := exists_chunk_of_mem hp hi
  obtain ⟨hsecond, -⟩ := c.wellFormed.count hform
  have hstring := Chunk.stringOp_of_isMemory hm
  obtain ⟨x, hx, hmem⟩ := hm
  generalize c.instruction = i at hsecond hstring hx
  obtain ⟨name, op, form, first, second, m⟩ := i
  change m.stringOp = false at hstring
  obtain hx | hx := List.mem_append.1 hx
  · cases Option.mem_toList.1 hx
    cases hsecond
    obtain ⟨a, s, rfl⟩ := Operand.exists_of_isMemory hmem
    have hsized (m : Modifiers) : Instruction.firstSized
        ⟨name, op, form, some (.memory a s), some (.register .cl), m⟩ = false :=
      Bool.and_false _
    simp only [Instruction.text, Instruction.head, hsized, hstring]
    rfl
  · cases Option.mem_toList.1 hx
    cases hsecond
    cases hmem

end I8086

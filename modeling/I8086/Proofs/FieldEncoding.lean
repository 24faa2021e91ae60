import I8086.Proofs.Finish

/-!
# Encoding the fields of an instruction

For every form, the bytes that the encoder writes after an opcode are fields that tell the
instruction, if the opcode agrees with it. The rules of the fields that were read give the operands,
and the rules for the new opcode take them up, in the other order if the new opcode has them so. Main
statements: `encodes_of_fieldBytes` and `agrees_of_fieldBytes`, the opcode that was read is one that
agrees.
-/

namespace I8086

open Reader

variable {w : Width} {x y : Operand} {q : Pending} {opcode opcode' pad : UInt8} {reg : Fin 8}
variable {bs : List UInt8} {form : Form} {f : Fields} {d : Descriptor} {i : Instruction}

/-- What is read with a mod-r/m byte is an operand that one can name. -/
lemma RmBytes.rmOperand (h : RmBytes w bs x reg) : RmOperand w x := by
  obtain ⟨m, h⟩ := h
  exact h.rmOperand

/-- Modifying bytes leave it such an operand, at the width of any opcode of the same width. -/
lemma RmBytes.rmOperand_finish {w' : Width} (h : RmBytes w bs x reg) (q : Pending)
    (hw : w = w') : RmOperand w' (q.operand x) := by
  subst hw
  exact Pending.rmOperand_operand h.rmOperand

/-- The register field of the first byte is that which is read. -/
lemma RmBytes.registerField_headD (h : RmBytes w bs x reg) : registerField (bs.headD 0) = reg := by
  obtain ⟨m, h⟩ := h
  exact congrArg ModRm.reg m.ofByte_toByte

/-- The register field of the first byte stays if more follows. -/
lemma RmBytes.registerField_append (h : RmBytes w bs x reg) (v : List UInt8) :
    registerField ((bs ++ v).headD 0) = reg := by
  obtain ⟨m, h⟩ := h
  exact congrArg ModRm.reg m.ofByte_toByte

/-- The forms whose mod-r/m byte may select the operation. -/
def Form.Selects : Form → Prop
  | .rm | .rmFar | .rmImmediate | .rmSignedByte | .rmOne | .rmCount => True
  | _ => False

/-- The bytes after an opcode tell the instruction, and the register field that selects the
operation is in them. -/
def Encodes (i : Instruction) (opcode : UInt8) (reg : Fin 8) (pad : UInt8) : Prop :=
  ∃ f, FieldBytes opcode i.form (i.fieldBytes opcode reg pad) f ∧ f.Tells i ∧
    (i.form.Selects → registerField ((i.fieldBytes opcode reg pad).headD 0) = reg)

section Encodes

variable {name : String} {op : Mnemonic}

/-- Nothing follows an operand that a mod-r/m byte alone names. -/
lemma RmOperand.rmBytes_append_nil (hx : RmOperand w x) (reg : Fin 8) :
    RmBytes w (x.rmBytes reg ++ []) x.inlined reg := by
  rw [List.append_nil]
  exact hx.rmBytes reg

/-- Two operands of which a mod-r/m byte can name each are encoded in the order that the opcode
says. -/
lemma encodes_rmRegister (hx : RmOperand w x) (hy : RmOperand w y)
    (ha : (q.finish ⟨name, op, .rmRegister⟩
      { first := some x, second := some y, width := w }).agrees opcode reg) :
    Encodes (q.finish ⟨name, op, .rmRegister⟩
      { first := some x, second := some y, width := w }) opcode reg pad := by
  obtain ⟨hw, hr⟩ := of_decide_eq_true ha
  have hw' : w = Fields.widthOf opcode := hw
  rw [hw'] at hx hy
  -- Either operand can be the one that the mod-r/m byte names: the direction bit says which.
  have hx' := Pending.rmOperand_operand (q := q) hx
  have hy' := Pending.rmOperand_operand (q := q) hy
  have hc := FieldBytes.rmRegister (hx'.rmBytes_append_nil reg)
  have hc' := FieldBytes.rmRegister (hy'.rmBytes_append_nil reg)
  unfold Encodes Instruction.fieldBytes Instruction.rmOperand?
  unfold Fields.directed at hc hc'
  by_cases hd : Fields.reversed opcode
  · simp only [hd, if_true] at hr hc' ⊢
    exact ⟨_, hc', ⟨.inl hr.symm, tells_inlined _, hw.symm, rfl, rfl⟩, False.elim⟩
  · simp only [hd] at hr hc ⊢
    exact ⟨_, hc, ⟨tells_inlined _, .inl hr.symm, hw.symm, rfl, rfl⟩, False.elim⟩

/-- No mod-r/m byte names a segment register. -/
lemma not_rmOperand_of_segment {s : SegmentRegister}
    (h : some (q.operand x) = some (.segment s)) : ¬ RmOperand w x := by
  intro hx
  cases hx <;> cases h

/-- A mod-r/m operand and a segment register are encoded in the order that the opcode says. -/
lemma encodes_rmSegment (hxy : RmOperand .word x ∨ RmOperand .word y)
    (ha : (q.finish ⟨name, op, .rmSegment⟩
      { first := some x, second := some y, width := .word }).agrees opcode reg) :
    Encodes (q.finish ⟨name, op, .rmSegment⟩
      { first := some x, second := some y, width := .word }) opcode reg pad := by
  have hr := of_decide_eq_true ha
  unfold Encodes Instruction.fieldBytes Instruction.rmOperand?
  -- Here only one operand can be, so the opcode directs them like the one that was read.
  by_cases hd : Fields.reversed opcode
  · rw [if_pos hd] at hr
    have hy := hxy.resolve_left (not_rmOperand_of_segment hr)
    have hy' := Pending.rmOperand_operand (q := q) hy
    have hc : FieldBytes opcode .rmSegment _ _ := .rmSegment (hy'.rmBytes_append_nil reg)
    unfold Fields.directed at hc
    simp only [hd, if_true] at hc ⊢
    exact ⟨_, hc, ⟨.inl hr.symm, tells_inlined _, rfl, rfl, rfl⟩, False.elim⟩
  · rw [if_neg hd] at hr
    have hx := hxy.resolve_right (not_rmOperand_of_segment hr)
    have hx' := Pending.rmOperand_operand (q := q) hx
    have hc : FieldBytes opcode .rmSegment _ _ := .rmSegment (hx'.rmBytes_append_nil reg)
    unfold Fields.directed at hc
    simp only [hd] at hc ⊢
    exact ⟨_, hc, ⟨tells_inlined _, .inl hr.symm, rfl, rfl, rfl⟩, False.elim⟩

/-- The width of directed operands. -/
@[simp] lemma width_directed : (Fields.directed opcode x y w).width = w := by
  unfold Fields.directed
  split <;> rfl

/-- An opcode agrees with the place of the accumulator only if it directs operands like the one that
was read. -/
lemma directed_of_accumulator (hy : q.operand y ≠ .accumulator)
    (ha : (if Fields.reversed opcode' then
        (q.finish d (Fields.directed opcode .accumulator y w)).second
      else (q.finish d (Fields.directed opcode .accumulator y w)).first) = some .accumulator) :
    Fields.reversed opcode' = Fields.reversed opcode := by
  have hne : some (q.operand y) ≠ some .accumulator := fun h => hy (Option.some.inj h)
  unfold Fields.directed at ha
  cases hd : Fields.reversed opcode <;> cases hd' : Fields.reversed opcode'
  · rfl
  · rw [hd, hd'] at ha
    exact (hne ha).elim
  · rw [hd, hd'] at ha
    exact (hne ha).elim
  · rfl

/-- Directed operands outside memory are told by themselves. -/
lemma tell_directed (hx : q.operand x = x) (hy : q.operand y = y) :
    (Fields.directed opcode x y w).Tells (q.finish d (Fields.directed opcode x y w)) := by
  have hx' : TellsOperand (some x) (some (q.operand x)) := .inl (congrArg some hx.symm)
  have hy' : TellsOperand (some y) (some (q.operand y)) := .inl (congrArg some hy.symm)
  unfold Fields.directed
  split
  · exact ⟨hy', hx', rfl, rfl, rfl⟩
  · exact ⟨hx', hy', rfl, rfl, rfl⟩

/-- The first of two directed operands, wherever it stands. -/
lemma first_directed :
    (if Fields.reversed opcode then (q.finish d (Fields.directed opcode x y w)).second
      else (q.finish d (Fields.directed opcode x y w)).first) = some (q.operand x) := by
  unfold Fields.directed
  split <;> rfl

/-- The second of two directed operands, wherever it stands. -/
lemma second_directed :
    (if Fields.reversed opcode then (q.finish d (Fields.directed opcode x y w)).first
      else (q.finish d (Fields.directed opcode x y w)).second) = some (q.operand y) := by
  unfold Fields.directed
  split <;> rfl

/-- The accumulator and a port number are encoded in the order that the opcode says. -/
lemma encodes_fixedPort {b : UInt8} (ha : (q.finish ⟨name, op, .fixedPort⟩
      (Fields.directed opcode .accumulator (.immediate b.toUInt16.toInt16)
        (Fields.widthOf opcode))).agrees opcode' reg) :
    Encodes (q.finish ⟨name, op, .fixedPort⟩
      (Fields.directed opcode .accumulator (.immediate b.toUInt16.toInt16)
        (Fields.widthOf opcode))) opcode' reg pad := by
  obtain ⟨hw, hr⟩ := of_decide_eq_true ha
  have hw' : Fields.widthOf opcode = Fields.widthOf opcode' := width_directed.symm.trans hw
  have hd := directed_of_accumulator (y := .immediate b.toUInt16.toInt16) nofun hr
  have hf : FieldBytes opcode' .fixedPort [b] _ := .fixedPort b
  unfold Fields.directed at hf
  rw [hd, ← hw'] at hf
  have hv : (q.finish ⟨name, op, .fixedPort⟩ (Fields.directed opcode .accumulator
      (.immediate b.toUInt16.toInt16) (Fields.widthOf opcode))).fieldBytes opcode' reg pad =
      [b] := by
    show [] ++ Option.elim (if Fields.reversed opcode' then _ else _) [] _ = [b]
    rw [hd, second_directed]
    show [lowByte b.toUInt16] = [b]
    rw [lowByte_zeroExtend]
  refine ⟨_, ?_, tell_directed rfl rfl, False.elim⟩
  rw [hv]
  exact hf

/-- The fields of an instruction that was read, under any modifying bytes, are encoded for every
opcode and register field that agree with it. -/
lemma encodes_of_fieldBytes (h : FieldBytes opcode d.form bs f)
    (hs : d.form = .rmSignedByte → opcode.toNat.testBit 1 ∧ opcode'.toNat.testBit 1)
    (ha : (q.finish d f).agrees opcode' reg) (pad : UInt8) :
    Encodes (q.finish d f) opcode' reg pad := by
  obtain ⟨name, op, form⟩ := d
  cases h with
  | bare => exact ⟨_, .bare, ⟨.inl rfl, .inl rfl, rfl, rfl, rfl⟩, False.elim⟩
  | string =>
    have hw : Fields.widthOf opcode = Fields.widthOf opcode' := of_decide_eq_true ha
    exact ⟨_, .string, ⟨.inl rfl, .inl rfl, hw.symm, rfl, rfl⟩, False.elim⟩
  | padded b => exact ⟨_, .padded pad, ⟨.inl rfl, .inl rfl, rfl, rfl, rfl⟩, False.elim⟩
  | @rmRegister _ x r h =>
    have hr : RmOperand (Fields.widthOf opcode)
        (.register (.ofField (Fields.widthOf opcode) r)) :=
      .register _ (Register.width_ofField _ r)
    unfold Fields.directed at ha ⊢
    split at ha
    · next hd =>
      rw [if_pos hd]
      exact encodes_rmRegister hr h.rmOperand ha
    · next hd =>
      rw [if_neg hd]
      exact encodes_rmRegister h.rmOperand hr ha
  | rmImmediate h hn =>
    have hw : Fields.widthOf opcode = Fields.widthOf opcode' := of_decide_eq_true ha
    have hx := h.rmOperand_finish q hw
    rw [hw] at hn
    have hr := hx.rmBytes reg
    exact ⟨_, .rmImmediate hr hn.bytes, ⟨tells_inlined _, .inl rfl, hw.symm, rfl, rfl⟩,
      fun _ => hr.registerField_append _⟩
  | @rmSignedByte _ _ x _ n h hn =>
    have hw : Fields.widthOf opcode = Fields.widthOf opcode' := of_decide_eq_true ha
    have hx := h.rmOperand_finish q hw
    obtain ⟨hb, hb'⟩ := hs rfl
    rw [if_pos hb] at hn
    have hr := hx.rmBytes reg
    have hn' : ImmediateBytes
        (if opcode'.toNat.testBit 1 then .byte else Fields.widthOf opcode')
        (Width.byte.bytes n.toUInt16) n := by
      rw [if_pos hb']
      exact hn.bytes
    exact ⟨_, .rmSignedByte hr hn', ⟨tells_inlined _, .inl rfl, hw.symm, rfl, rfl⟩,
      fun _ => hr.registerField_append _⟩
  | registerImmediate hn =>
    obtain ⟨hw, hr⟩ := of_decide_eq_true ha
    have hw' : Fields.registerWidth opcode = Fields.registerWidth opcode' := hw
    rw [hw'] at hn
    exact ⟨_, .registerImmediate hn.bytes, ⟨.inl hr.symm, .inl rfl, hw.symm, rfl, rfl⟩,
      False.elim⟩
  | accumulatorMemory low high =>
    have hw : Fields.widthOf opcode = Fields.widthOf opcode' := of_decide_eq_true ha
    have hm : FieldBytes opcode' .accumulatorMemory _ _ :=
      .accumulatorMemory (lowByte (wordOfBytes low high)) (highByte (wordOfBytes low high))
    rw [wordOfBytes_bytes] at hm
    exact ⟨_, hm, ⟨.inl rfl, tells_memory _, hw.symm, rfl, rfl⟩, False.elim⟩
  | memoryAccumulator low high =>
    have hw : Fields.widthOf opcode = Fields.widthOf opcode' := of_decide_eq_true ha
    have hm : FieldBytes opcode' .memoryAccumulator _ _ :=
      .memoryAccumulator (lowByte (wordOfBytes low high)) (highByte (wordOfBytes low high))
    rw [wordOfBytes_bytes] at hm
    exact ⟨_, hm, ⟨tells_memory _, .inl rfl, hw.symm, rfl, rfl⟩, False.elim⟩
  | accumulatorImmediate hn =>
    have hw : Fields.widthOf opcode = Fields.widthOf opcode' := of_decide_eq_true ha
    rw [hw] at hn
    exact ⟨_, .accumulatorImmediate hn.bytes, ⟨.inl rfl, .inl rfl, hw.symm, rfl, rfl⟩,
      False.elim⟩
  | rm h =>
    have hw : Fields.widthOf opcode = Fields.widthOf opcode' := of_decide_eq_true ha
    have hx := h.rmOperand_finish q hw
    exact ⟨_, .rm (hx.rmBytes_append_nil reg), ⟨tells_inlined _, .inl rfl, hw.symm, rfl, rfl⟩,
      fun _ => (hx.rmBytes reg).registerField_append _⟩
  | rmFar h =>
    have hw : Fields.widthOf opcode = Fields.widthOf opcode' := of_decide_eq_true ha
    have hx := h.rmOperand_finish q hw
    exact ⟨_, .rmFar (hx.rmBytes_append_nil reg), ⟨tells_inlined _, .inl rfl, hw.symm, rfl, rfl⟩,
      fun _ => (hx.rmBytes reg).registerField_append _⟩
  | registerMemory h =>
    have hr := of_decide_eq_true ha
    have hx := h.rmOperand_finish q rfl
    exact ⟨_, .registerMemory (hx.rmBytes_append_nil reg),
      ⟨.inl hr.symm, tells_inlined _, rfl, rfl, rfl⟩, False.elim⟩
  | rmOne h =>
    have hw : Fields.widthOf opcode = Fields.widthOf opcode' := of_decide_eq_true ha
    have hx := h.rmOperand_finish q hw
    exact ⟨_, .rmOne (hx.rmBytes_append_nil reg), ⟨tells_inlined _, .inl rfl, hw.symm, rfl, rfl⟩,
      fun _ => (hx.rmBytes reg).registerField_append _⟩
  | rmCount h =>
    have hw : Fields.widthOf opcode = Fields.widthOf opcode' := of_decide_eq_true ha
    have hx := h.rmOperand_finish q hw
    exact ⟨_, .rmCount (hx.rmBytes_append_nil reg), ⟨tells_inlined _, .inl rfl, hw.symm, rfl, rfl⟩,
      fun _ => (hx.rmBytes reg).registerField_append _⟩
  | register =>
    have hr := of_decide_eq_true ha
    exact ⟨_, .register, ⟨.inl hr.symm, .inl rfl, rfl, rfl, rfl⟩, False.elim⟩
  | segmentRegister =>
    have hr := of_decide_eq_true ha
    exact ⟨_, .segmentRegister, ⟨.inl hr.symm, .inl rfl, rfl, rfl, rfl⟩, False.elim⟩
  | accumulatorRegister =>
    have hr := of_decide_eq_true ha
    exact ⟨_, .accumulatorRegister, ⟨.inl rfl, .inl hr.symm, rfl, rfl, rfl⟩, False.elim⟩
  | byteImmediate hn =>
    exact ⟨_, .byteImmediate hn.bytes, ⟨.inl rfl, .inl rfl, rfl, rfl, rfl⟩, False.elim⟩
  | wordImmediate hn =>
    exact ⟨_, .wordImmediate hn.bytes, ⟨.inl rfl, .inl rfl, rfl, rfl, rfl⟩, False.elim⟩
  | nearTarget hn =>
    exact ⟨_, .nearTarget hn.bytes, ⟨.inl rfl, .inl rfl, rfl, rfl, rfl⟩, False.elim⟩
  | farTarget hip hcs =>
    have hm : FieldBytes opcode' .farTarget _ _ := .farTarget hip.bytes hcs.bytes
    exact ⟨_, hm, ⟨.inl rfl, .inl rfl, rfl, rfl, rfl⟩, False.elim⟩
  | shortTarget b =>
    exact ⟨_, .shortTarget b, ⟨.inl rfl, .inl rfl, rfl, rfl, rfl⟩, False.elim⟩
  | escape h =>
    obtain ⟨hw, hr⟩ := of_decide_eq_true ha
    have hx := h.rmOperand_finish q hw
    exact ⟨_, .escape (hx.rmBytes_append_nil reg),
      ⟨.inl hr.symm, tells_inlined _, hw.symm, rfl, rfl⟩, False.elim⟩
  | @rmSegment _ x r h =>
    unfold Fields.directed at ha ⊢
    split at ha
    · next hd =>
      rw [if_pos hd]
      exact encodes_rmSegment (.inr h.rmOperand) ha
    · next hd =>
      rw [if_neg hd]
      exact encodes_rmSegment (.inl h.rmOperand) ha
  | fixedPort b => exact encodes_fixedPort ha
  | variablePort =>
    obtain ⟨hw, hr⟩ := of_decide_eq_true ha
    have hw' : Fields.widthOf opcode = Fields.widthOf opcode' := width_directed.symm.trans hw
    have hd := directed_of_accumulator (y := .register .dx) nofun hr
    have hf : FieldBytes opcode' .variablePort [] _ := .variablePort
    unfold Fields.directed at hf
    rw [hd, ← hw'] at hf
    exact ⟨_, hf, tell_directed rfl rfl, False.elim⟩

/-- The opcode that was read and the register field after it agree with the instruction. -/
lemma agrees_of_fieldBytes (h : FieldBytes opcode d.form bs f) :
    (q.finish d f).agrees opcode (registerField (bs.headD 0)) := by
  obtain ⟨name, op, form⟩ := d
  cases h with
  | string | rmImmediate | rmSignedByte | rm | rmFar | rmOne | rmCount | accumulatorMemory
  | memoryAccumulator | accumulatorImmediate | register | segmentRegister
  | accumulatorRegister => exact decide_eq_true rfl
  | registerImmediate => exact decide_eq_true ⟨rfl, rfl⟩
  | rmRegister h =>
    refine decide_eq_true ⟨width_directed, ?_⟩
    rw [second_directed, h.registerField_headD]
    rfl
  | registerMemory h =>
    rw [h.registerField_headD]
    exact decide_eq_true rfl
  | escape h =>
    rw [h.registerField_headD]
    exact decide_eq_true ⟨rfl, rfl⟩
  | rmSegment h =>
    refine decide_eq_true ?_
    rw [second_directed, h.registerField_headD]
    rfl
  | fixedPort | variablePort => exact decide_eq_true ⟨width_directed, first_directed⟩
  | _ => rfl

end Encodes

end I8086

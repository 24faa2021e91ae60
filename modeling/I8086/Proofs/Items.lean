import I8086.Encoding.Item
import I8086.Proofs.Reading

/-!
# What an item reads

Inversion of the item reader. A modifying byte is an item of its own (`Item.reads_modifier_iff`), an
instruction is an opcode and the fields of its form (`Item.reads_instruction_iff`), what is read as
neither has no instruction (`Item.reads_unsupported_iff`), and an item that was started can always be
finished (`Item.waits_extend`) unless its opcode has no instruction.
-/

namespace I8086

open Reader

/-- The descriptor that an opcode has in front of these bytes. -/
def descriptorAt (opcode : UInt8) (rest : List UInt8) : Descriptor :=
  (lookup opcode).resolve (rest.headD 0)

/-- The descriptor of an opcode, given the register field of the byte that follows it. -/
def Entry.member (e : Entry) (n : Fin 8) : Descriptor :=
  match e with
  | .single d => d
  | .shared g => g.members.get n

/-- A shared opcode has the member that the register field of the next byte selects. -/
lemma Entry.resolve_eq (e : Entry) (second : UInt8) :
    e.resolve second = e.member (registerField second) := by
  cases e <;> rfl

/-- The descriptor in front of some bytes is the one that the register field of the first selects. -/
lemma descriptorAt_eq_member (b : UInt8) (v : List UInt8) :
    descriptorAt b v = (lookup b).member (registerField (v.headD 0)) :=
  Entry.resolve_eq _ _

/-- A property of all descriptors of the opcode map, checked for the opcodes that are not shared and
for the members of the groups. -/
lemma forall_member {P : UInt8 → Descriptor → Prop}
    (hsingle : ∀ b, (lookup b).group? = none → P b (lookup b).descriptor)
    (hshared : ∀ b g n, (lookup b).group? = some g → P b (g.members.get n)) (b : UInt8)
    (n : Fin 8) : P b ((lookup b).member n) := by
  have hb := hsingle b
  have hg := hshared b
  unfold Entry.member
  cases hl : lookup b with
  | single d =>
    rw [hl] at hb
    exact hb rfl
  | shared g =>
    rw [hl] at hg
    exact hg g n rfl

/-- The modifying byte that a byte is, if it is one. -/
def modifierByte? (b : UInt8) : Option ModifierByte :=
  (lookup b).descriptor.modifier? b

namespace Descriptor

variable {d : Descriptor} {b : UInt8} {v : List UInt8} {y : Except Unsupported Item}

/-- The descriptor of a modifying byte reads nothing more. -/
lemma reads_reader_of_modifier {m : ModifierByte} (h : d.modifier? b = some m) :
    (d.reader b).Reads v y ↔ v = [] ∧ y = .ok (.modifier m) := by
  simp [reader, h]

/-- The descriptor of an instruction reads the fields of its form. -/
lemma reads_reader_of_fields {r : Reader Fields} (h : d.modifier? b = none)
    (hr : d.form.fields? b = some r) :
    (d.reader b).Reads v y ↔ ∃ f, r.Reads v f ∧ y = .ok (.instruction (d.instruction f)) := by
  simp only [reader, h, hr, bind_eq, reads_bind_iff, pure_eq, reads_done_iff]
  constructor
  · rintro ⟨u, w, f, rfl, rd, rfl, rfl⟩
    exact ⟨f, by rwa [List.append_nil], rfl⟩
  · rintro ⟨f, rd, rfl⟩
    exact ⟨v, [], f, (List.append_nil v).symm, rd, rfl, rfl⟩

/-- A descriptor without fields reads nothing more and stands for no instruction. -/
lemma reads_reader_of_none (h : d.modifier? b = none) (hr : d.form.fields? b = none) :
    (d.reader b).Reads v y ↔ v = [] ∧ y = .error ⟨b, d.form⟩ := by
  simp [reader, h, hr]

/-- A descriptor that waits for bytes is that of an instruction. -/
lemma fields_of_waits (wt : (d.reader b).Waits v) :
    d.modifier? b = none ∧ ∃ r, d.form.fields? b = some r := by
  cases h : d.modifier? b with
  | some m => simp [reader, h] at wt
  | none =>
    cases hr : d.form.fields? b with
    | none => simp [reader, h, hr] at wt
    | some r => exact ⟨rfl, r, rfl⟩

/-- A descriptor that waits for bytes reads an instruction if it is given enough of them. -/
lemma exists_reads_append (wt : (d.reader b).Waits v) :
    ∃ w i, (d.reader b).Reads (v ++ w) (.ok (.instruction i)) := by
  obtain ⟨h, r, hr⟩ := fields_of_waits wt
  obtain ⟨w, y, rd⟩ := wt.extend
  obtain ⟨f, _, rfl⟩ := (reads_reader_of_fields h hr).1 rd
  exact ⟨w, _, rd⟩

/-- A descriptor reads nothing that is no instruction but where it has no fields. -/
lemma reads_reader_error_iff {u : Unsupported} :
    (d.reader b).Reads v (.error u) ↔
      v = [] ∧ u = ⟨b, d.form⟩ ∧ d.modifier? b = none ∧ d.form.fields? b = none := by
  cases h : d.modifier? b with
  | some m => simp [reads_reader_of_modifier h]
  | none =>
    cases hr : d.form.fields? b with
    | some r => simp [reads_reader_of_fields h hr]
    | none => simp [reads_reader_of_none h hr]

/-- A descriptor that neither modifies nor has fields is that of bytes without an instruction. -/
lemma form_eq_unknown (hs : d.form ≠ .shared) (hm : d.modifier? b = none)
    (hf : d.form.fields? b = none) : d.form = .unknown := by
  obtain ⟨name, op, form⟩ := d
  cases form with
  | unknown => rfl
  | shared => exact (hs rfl).elim
  | segmentOverride => cases hm
  | _ => cases hf

/-- Any byte can be the first of those that a descriptor waits for. -/
lemma exists_reads_cons (wt : (d.reader b).Waits []) (c : UInt8) :
    ∃ w i, (d.reader b).Reads (c :: w) (.ok (.instruction i)) := by
  obtain ⟨h, r, hr⟩ := fields_of_waits wt
  obtain ⟨u, w, y, e, rd⟩ | wt' := reads_or_waits (d.reader b) [c]
  · cases u with
    | nil => exact (rd.not_waits_append (v := []) wt).elim
    | cons c' u =>
      obtain ⟨rfl, et⟩ := List.cons.inj e
      obtain ⟨rfl, _⟩ := List.append_eq_nil_iff.1 et.symm
      obtain ⟨f, _, rfl⟩ := (reads_reader_of_fields h hr).1 rd
      exact ⟨[], _, rd⟩
  · exact exists_reads_append wt'

end Descriptor

/-- The members of the groups have a mod-r/m operand, or no instruction. -/
lemma form_members (g : OpcodeGroup) (n : Fin 8) :
    (g.members.get n).form ∈
      [Form.unknown, .rm, .rmFar, .rmImmediate, .rmSignedByte, .rmOne, .rmCount] := by
  revert n
  cases g <;> decide

/-- No member of a group is a modifying byte. -/
lemma modifier?_members (g : OpcodeGroup) (n : Fin 8) (b : UInt8) :
    (g.members.get n).modifier? b = none := by
  have hf := form_members g n
  generalize g.members.get n = d at hf ⊢
  obtain ⟨name, op, form⟩ := d
  simp only [List.mem_cons, List.not_mem_nil, or_false] at hf
  obtain rfl | rfl | rfl | rfl | rfl | rfl | rfl := hf <;> rfl

/-- Whether a byte is a modifying one does not depend on the byte after it. -/
lemma modifier?_descriptorAt (b : UInt8) (v : List UInt8) :
    (descriptorAt b v).modifier? b = modifierByte? b := by
  unfold descriptorAt modifierByte?
  cases lookup b with
  | single d => rfl
  | shared g => exact modifier?_members g _ b

/-- Only an opcode with the sign bit has an immediate of one sign-extended byte. -/
lemma testBit_of_rmSignedByte (b : UInt8) (n : Fin 8) :
    ((lookup b).member n).form = .rmSignedByte → b.toNat.testBit 1 := by
  have hgroup : ∀ b, (lookup b).group? = some .signedByte → b.toNat.testBit 1 :=
    forall_byte (by decide +kernel)
  have hmember : ∀ (g : OpcodeGroup) (n : Fin 8),
      (g.members.get n).form = .rmSignedByte → g = .signedByte := by
    intro g
    cases g <;> decide
  refine forall_member (P := fun b d => d.form = .rmSignedByte → b.toNat.testBit 1) ?_ ?_ b n
  · exact forall_byte (by decide +kernel)
  · intro b g n hg h
    rw [hmember g n h] at hg
    exact hgroup b hg

/-- What the next byte selects is not shared any more. -/
lemma form_member_ne_shared (b : UInt8) (n : Fin 8) : ((lookup b).member n).form ≠ .shared := by
  refine forall_member (P := fun _ d => d.form ≠ .shared) ?_ ?_ b n
  · intro b hb h
    rw [form_lookup_eq_shared_iff, hb] at h
    cases h
  · intro _ g n _ h
    have hg := form_members g n
    rw [h] at hg
    exact absurd hg (by decide)

/-- The first member of each group is an instruction. -/
lemma form_members_zero (g : OpcodeGroup) : (g.members.get 0).form ≠ .unknown := by
  cases g <;> decide

/-- A member of a group waits for the byte that selected it, or has no instruction. -/
lemma reader_members (g : OpcodeGroup) (n : Fin 8) (b : UInt8) :
    (g.members.get n).form = .unknown ∨ ∃ go, (g.members.get n).reader b = .next go := by
  have hf := form_members g n
  generalize g.members.get n = d at hf ⊢
  obtain ⟨name, op, form⟩ := d
  simp only [List.mem_cons, List.not_mem_nil, or_false] at hf
  obtain rfl | rfl | rfl | rfl | rfl | rfl | rfl := hf
  · exact .inl rfl
  all_goals exact .inr ⟨_, rfl⟩

/-- A descriptor without an instruction is no modifying byte and has no fields. -/
lemma reader_of_unknown {d : Descriptor} {b : UInt8} (h : d.form = .unknown) :
    d.reader b = .done (.error ⟨b, .unknown⟩) := by
  obtain ⟨name, op, form⟩ := d
  cases h
  rfl

namespace Item

variable {b : UInt8} {bs v : List UInt8} {y : Except Unsupported Item}

/-- What follows the opcode of an item. -/
def afterOpcode (opcode : UInt8) : Reader (Except Unsupported Item) :=
  match lookup opcode with
  | .single d => d.reader opcode
  | .shared g => .next fun second => (((Entry.shared g).resolve second).reader opcode).feed second

/-- An item starts with its opcode. -/
lemma reader_eq : Item.reader = .next afterOpcode := by
  refine congrArg Reader.next (funext fun b => ?_)
  show (match lookup b with
    | .single d => d.reader b
    | .shared g => _) = afterOpcode b
  unfold afterOpcode
  cases lookup b <;> rfl

/-- No item is empty. -/
lemma ne_nil_of_reads (rd : Item.reader.Reads bs y) : bs ≠ [] := by
  rintro rfl
  rw [reader_eq] at rd
  exact not_reads_next_nil rd

/-- After the opcode of a readable item come the bytes that its descriptor reads. -/
lemma reads_afterOpcode_ok_iff {x : Item} :
    (afterOpcode b).Reads v (.ok x) ↔ ((descriptorAt b v).reader b).Reads v (.ok x) := by
  unfold afterOpcode descriptorAt
  cases lookup b with
  | single d => rfl
  | shared g =>
    obtain hu | ⟨go, hgo⟩ := reader_members g (registerField (v.headD 0)) b
    · simp only [Entry.resolve, reader_of_unknown hu, reads_done_iff, reduceCtorEq, and_false,
        iff_false]
      cases v with
      | nil => exact not_reads_next_nil
      | cons c v =>
        rw [List.headD_cons] at hu
        rw [reads_next_cons_iff, reader_of_unknown hu, reads_feed_iff]
        simp
    · cases v with
      | nil =>
        simp only [Entry.resolve, hgo]
        exact iff_of_false not_reads_next_nil not_reads_next_nil
      | cons c v =>
        rw [List.headD_cons] at hgo ⊢
        simp only [Entry.resolve, reads_next_cons_iff, hgo, feed]

/-- A modifying byte is an item of its own. -/
theorem reads_modifier_iff {m : ModifierByte} :
    Item.reader.Reads bs (.ok (.modifier m)) ↔ ∃ b, bs = [b] ∧ modifierByte? b = some m := by
  rw [reader_eq]
  constructor
  · intro rd
    cases rd with
    | @next _ b v _ rd =>
      rw [reads_afterOpcode_ok_iff] at rd
      cases h : (descriptorAt b v).modifier? b with
      | some m' =>
        obtain ⟨rfl, e⟩ := (Descriptor.reads_reader_of_modifier h).1 rd
        cases e
        exact ⟨b, rfl, by rw [← modifier?_descriptorAt, h]⟩
      | none =>
        cases hr : (descriptorAt b v).form.fields? b with
        | some r =>
          obtain ⟨f, _, e⟩ := (Descriptor.reads_reader_of_fields h hr).1 rd
          cases e
        | none =>
          obtain ⟨_, e⟩ := (Descriptor.reads_reader_of_none h hr).1 rd
          cases e
  · rintro ⟨b, rfl, h⟩
    rw [← modifier?_descriptorAt b []] at h
    rw [reads_next_cons_iff, reads_afterOpcode_ok_iff]
    exact (Descriptor.reads_reader_of_modifier h).2 ⟨rfl, rfl⟩

/-- An instruction is an opcode that modifies nothing and the fields of its form. -/
theorem reads_instruction_iff {i : Instruction} :
    Item.reader.Reads bs (.ok (.instruction i)) ↔
      ∃ b v r f, bs = b :: v ∧ modifierByte? b = none ∧
        (descriptorAt b v).form.fields? b = some r ∧ r.Reads v f ∧
        i = (descriptorAt b v).instruction f := by
  rw [reader_eq]
  constructor
  · intro rd
    cases rd with
    | @next _ b v _ rd =>
      rw [reads_afterOpcode_ok_iff] at rd
      cases h : (descriptorAt b v).modifier? b with
      | some m' =>
        obtain ⟨_, e⟩ := (Descriptor.reads_reader_of_modifier h).1 rd
        cases e
      | none =>
        cases hr : (descriptorAt b v).form.fields? b with
        | some r =>
          obtain ⟨f, rdf, e⟩ := (Descriptor.reads_reader_of_fields h hr).1 rd
          cases e
          exact ⟨b, v, r, f, rfl, by rw [← modifier?_descriptorAt, h], hr, rdf, rfl⟩
        | none =>
          obtain ⟨_, e⟩ := (Descriptor.reads_reader_of_none h hr).1 rd
          cases e
  · rintro ⟨b, v, r, f, rfl, h, hr, rd, rfl⟩
    rw [← modifier?_descriptorAt b v] at h
    rw [reads_next_cons_iff, reads_afterOpcode_ok_iff]
    exact (Descriptor.reads_reader_of_fields h hr).2 ⟨f, rd, rfl⟩

/-- What is read as no item is an opcode without an instruction, or a shared opcode and a byte that
selects none. -/
theorem reads_unsupported_iff {u : Unsupported} :
    Item.reader.Reads bs (.error u) ↔ ∃ b, u = ⟨b, .unknown⟩ ∧
      (((lookup b).descriptor.form = .unknown ∧ bs = [b]) ∨
        ((lookup b).descriptor.form = .shared ∧
          ∃ second, bs = [b, second] ∧ ((lookup b).resolve second).form = .unknown)) := by
  rw [reader_eq]
  constructor
  · intro rd
    cases rd with
    | @next _ b v _ rd =>
      refine ⟨b, ?_⟩
      unfold afterOpcode at rd
      have hb := form_lookup_eq_shared_iff b
      cases hl : lookup b with
      | single d =>
        rw [hl] at rd hb
        obtain ⟨rfl, rfl, hm, hf⟩ := Descriptor.reads_reader_error_iff.1 rd
        have hu := Descriptor.form_eq_unknown (fun h => Bool.false_ne_true (hb.1 h)) hm hf
        exact ⟨congrArg (Unsupported.mk b) hu, .inl ⟨hu, rfl⟩⟩
      | shared g =>
        rw [hl] at rd
        cases rd with
        | @next _ c v _ rd =>
          obtain hu | ⟨go, hgo⟩ := reader_members g (registerField c) b
          · simp only [Entry.resolve, reader_of_unknown hu, feed, reads_done_iff,
              Except.error.injEq] at rd
            obtain ⟨rfl, rfl⟩ := rd
            exact ⟨rfl, .inr ⟨rfl, c, rfl, hu⟩⟩
          · simp only [Entry.resolve, hgo, feed] at rd
            rw [← reads_next_cons_iff, ← hgo, Descriptor.reads_reader_error_iff] at rd
            cases rd.1
  · rintro ⟨b, rfl, ⟨hu, rfl⟩ | ⟨hs, second, rfl, hu⟩⟩
    · rw [reads_next_cons_iff]
      unfold afterOpcode
      cases hl : lookup b with
      | single d =>
        rw [hl] at hu
        show (d.reader b).Reads [] _
        rw [reader_of_unknown (show d.form = .unknown from hu)]
        exact .done _
      | shared g =>
        rw [hl] at hu
        cases hu
    · rw [reads_next_cons_iff]
      unfold afterOpcode
      cases hl : lookup b with
      | single d =>
        have hb := (form_lookup_eq_shared_iff b).1 hs
        rw [hl] at hb
        cases hb
      | shared g =>
        rw [hl] at hu
        rw [reads_next_cons_iff, reader_of_unknown hu]
        exact .done _

/-- An item that was started and has an instruction so far is finished by some bytes. -/
theorem waits_extend (wt : Item.reader.Waits bs) (hbs : bs ≠ []) :
    ∃ w i, Item.reader.Reads (bs ++ w) (.ok (.instruction i)) := by
  rw [reader_eq] at wt ⊢
  cases wt with
  | start => exact (hbs rfl).elim
  | @next _ b v wt =>
    unfold afterOpcode at wt
    simp only [List.cons_append, reads_next_cons_iff]
    unfold afterOpcode
    cases hb : lookup b with
    | single d =>
      rw [hb] at wt
      exact Descriptor.exists_reads_append wt
    | shared g =>
      rw [hb] at wt
      cases wt with
      | start =>
        -- The opcode is all there is: the first member of its group goes on with a zero byte.
        obtain hu | ⟨go, hgo⟩ := reader_members g (registerField 0) b
        · exact (form_members_zero g hu).elim
        · have wt0 : ((g.members.get (registerField 0)).reader b).Waits [] := hgo ▸ .start go
          obtain ⟨w, i, rd⟩ := Descriptor.exists_reads_cons wt0 0
          exact ⟨0 :: w, i, reads_next_cons_iff.2 (reads_feed_iff.2 (.inl rd))⟩
      | @next _ c v wt =>
        obtain hu | ⟨go, hgo⟩ := reader_members g (registerField c) b
        · simp [Entry.resolve, reader_of_unknown hu, feed] at wt
        · simp only [Entry.resolve, hgo, feed] at wt
          have wtc : ((g.members.get (registerField c)).reader b).Waits (c :: v) := by
            rw [hgo]
            exact .next wt
          obtain ⟨w, i, rd⟩ := Descriptor.exists_reads_append wtc
          exact ⟨w, i, reads_next_cons_iff.2 (reads_feed_iff.2 (.inl rd))⟩

end Item

end I8086

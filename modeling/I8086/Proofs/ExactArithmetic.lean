import I8086.Proofs.OldFlags
import Mathlib.Algebra.Group.Nat.Even
import Mathlib.Data.Nat.Bitwise

/-!
# Exact arithmetic

The values of a width are the numbers below a power of two, and each also has a signed reading. What
addition and subtraction work out is the exact result up to the width, and their carry, overflow and
auxiliary flags tell what is lost of it (`Arithmetic.add_exact`, `Arithmetic.sub_exact`). So the
flags of a comparison decide the order of its operands, with and without signs. Main statements:
`execute_of_add_or_sub` and `execute_of_cmp`, what arithmetic on a register leaves in the registers.
-/

namespace I8086

variable {r : RegisterFile} {i : Instruction} {w : Width} {op : Mnemonic} {a b v : UInt16}
variable {x : Register} {y : Operand} {n : Nat}

/-- The number of bits that an operation of this width works on. -/
def Width.bits : Width → Nat
  | .byte => 8
  | .word => 16

/-- A number in two's complement. -/
def Width.signed (w : Width) (n : Nat) : Int :=
  (n : Int).bmod (2 ^ w.bits)

/-- An integer is one that the width holds in two's complement. -/
def Width.Holds (w : Width) (z : Int) : Prop :=
  -2 ^ (w.bits - 1) ≤ z ∧ z ≤ 2 ^ (w.bits - 1) - 1

instance (w : Width) (z : Int) : Decidable (w.Holds z) :=
  inferInstanceAs (Decidable (_ ∧ _))

/-- The number of set bits of a number. -/
def setBitCount (n : Nat) : Nat :=
  n.bits.count true

/-- The number that a source operand stands for in a width: a register holds one, and an immediate
is one in two's complement. -/
def RegisterFile.number (r : RegisterFile) (w : Width) : Operand → Nat
  | .immediate value => (value.toInt % 2 ^ w.bits).toNat
  | .register x => (r.read x).toNat % 2 ^ w.bits
  | .accumulator => (r.read (.accumulator w)).toNat % 2 ^ w.bits
  | .segment s => (r.readSegment s).toNat % 2 ^ w.bits
  | _ => 0

lemma Mnemonic.IsArithmetic.isExecuted (h : op.IsArithmetic) : op.IsExecuted :=
  List.mem_cons_of_mem _ h

/-- An instruction with a register as its first operand works on it. -/
lemma Instruction.destination?_of_register? (h : i.register? = some x) :
    i.destination? = some (.register x) := by
  unfold Instruction.register? at h
  rw [Instruction.destination?_eq_some_iff]
  split at h
  · next y hy =>
    cases h
    exact ⟨_, hy, rfl, rfl⟩
  · next hy =>
    cases h
    exact ⟨_, hy, rfl, rfl⟩
  · cases h

/-- What is within a mask is the number up to the width. -/
lemma toNat_and_mask (v : UInt16) (w : Width) : (v &&& w.mask).toNat = v.toNat % 2 ^ w.bits := by
  rw [UInt16.toNat_and]
  cases w with
  | byte => exact Nat.and_two_pow_sub_one_eq_mod v.toNat 8
  | word => exact Nat.and_two_pow_sub_one_eq_mod v.toNat 16

lemma toNat_lt_of_and_mask (h : v &&& w.mask = v) : v.toNat < 2 ^ w.bits := by
  rw [← h, toNat_and_mask]
  exact Nat.mod_lt _ (Nat.two_pow_pos _)

lemma toNat_mask (w : Width) : w.mask.toNat = 2 ^ w.bits - 1 := by
  cases w <;> rfl

/-- The sign bit is the last one of the width. -/
lemma and_signBit_ne_zero (v : UInt16) (w : Width) :
    (v &&& w.signBit != 0) = v.toNat.testBit (w.bits - 1) := by
  have hs : w.signBit.toNat = 2 ^ (w.bits - 1) := by cases w <;> rfl
  have hv : v &&& w.signBit = 0 ↔ v.toNat.testBit (w.bits - 1) = false := by
    rw [← UInt16.toNat_inj, UInt16.toNat_and, hs, Nat.and_two_pow]
    cases v.toNat.testBit (w.bits - 1) <;> simp
  cases hb : v.toNat.testBit (w.bits - 1) with
  | false => exact bne_eq_false_iff_eq.2 (hv.2 hb)
  | true => exact bne_iff_ne.2 fun h => Bool.noConfusion (hb.symm.trans (hv.1 h))

/-- The sign bit tells the upper half of the values. -/
lemma testBit_sign_iff (h : n < 2 ^ w.bits) :
    n.testBit (w.bits - 1) ↔ 2 ^ (w.bits - 1) ≤ n := by
  rw [Nat.testBit_eq_decide_div_mod_eq, decide_eq_true_iff]
  cases w with
  | byte =>
    have hn : n < 256 := h
    show n / 128 % 2 = 1 ↔ 128 ≤ n
    omega
  | word =>
    have hn : n < 65536 := h
    show n / 32768 % 2 = 1 ↔ 32768 ≤ n
    omega

/-- The upper half of the values is negative. -/
lemma signed_cases (h : n < 2 ^ w.bits) :
    n < 2 ^ (w.bits - 1) ∧ w.signed n = n ∨
      2 ^ (w.bits - 1) ≤ n ∧ w.signed n = (n : Int) - 2 ^ w.bits := by
  unfold Width.signed
  rw [Int.bmod_def]
  by_cases hn : n < 2 ^ (w.bits - 1)
  · refine .inl ⟨hn, ?_⟩
    rw [if_pos] <;> cases w <;> simp only [Width.bits] at * <;> omega
  · refine .inr ⟨Nat.le_of_not_lt hn, ?_⟩
    rw [if_neg] <;> cases w <;> simp only [Width.bits] at * <;> omega

/-- The lowest four bits. -/
lemma toNat_and_nibble (v : UInt16) : (v &&& 0xF).toNat = v.toNat % 16 :=
  Nat.and_two_pow_sub_one_eq_mod v.toNat 4

lemma setBitCount_bit (n : Nat) (b : Bool) :
    setBitCount (Nat.bit b n) = b.toNat + setBitCount n := by
  unfold setBitCount
  by_cases h : n = 0 → b = true
  · rw [Nat.bits_append_bit n b h, List.count_cons]
    cases b <;> simp [Nat.add_comm]
  · obtain ⟨rfl, hb⟩ := Classical.not_imp.1 h
    rw [Bool.eq_false_of_not_eq_true hb]
    rfl

/-- The set bits of a number below a place are counted one by one. -/
lemma countP_testBit (n k : Nat) : (List.range k).countP n.testBit = setBitCount (n % 2 ^ k) := by
  induction k generalizing n with
  | zero =>
    rw [Nat.pow_zero, Nat.mod_one]
    rfl
  | succ k ih =>
    have hsucc : n.testBit ∘ Nat.succ = (n / 2).testBit := funext fun j => Nat.testBit_succ n j
    have hbit : n % 2 ^ (k + 1) = Nat.bit (n.testBit 0) (n / 2 % 2 ^ k) := by
      rw [Nat.pow_succ', Nat.mod_mul, Nat.bit_val, Nat.testBit_zero]
      obtain h | h := Nat.mod_two_eq_zero_or_one n <;> simp [h, Nat.add_comm]
    rw [List.range_succ_eq_map, List.countP_cons, List.countP_map, hsucc, ih, hbit, setBitCount_bit,
      Nat.add_comm]
    cases n.testBit 0 <;> rfl

/-- Sign bits differ if one number is in the upper half of the values and the other is not. -/
lemma testBit_sign_xor_iff (ha : a.toNat < 2 ^ w.bits) (hb : b.toNat < 2 ^ w.bits) :
    (a ^^^ b).toNat.testBit (w.bits - 1) ↔
      ¬ (2 ^ (w.bits - 1) ≤ a.toNat ↔ 2 ^ (w.bits - 1) ≤ b.toNat) := by
  rw [UInt16.toNat_xor, Nat.testBit_xor, bne_iff_ne, ne_eq, Bool.eq_iff_iff, testBit_sign_iff ha,
    testBit_sign_iff hb]

namespace Arithmetic

/-- A sum up to the width, with what is lost of the exact one. -/
lemma add_exact (ha : a.toNat < 2 ^ w.bits) (hb : b.toNat < 2 ^ w.bits) :
    (add w a b).value.toNat = (a.toNat + b.toNat) % 2 ^ w.bits ∧
      ((add w a b).carry ↔ 2 ^ w.bits ≤ a.toNat + b.toNat) ∧
      ((add w a b).overflow ↔ ¬ w.Holds (w.signed a.toNat + w.signed b.toNat)) ∧
      ((add w a b).auxiliary ↔ 15 < a.toNat % 16 + b.toNat % 16) := by
  have hv : ((a + b) &&& w.mask).toNat = (a.toNat + b.toNat) % 2 ^ w.bits := by
    rw [toNat_and_mask, UInt16.toNat_add]
    cases w with
    | byte => exact Nat.mod_mod_of_dvd _ (by decide)
    | word => exact Nat.mod_mod _ _
  have hlt : ((a + b) &&& w.mask).toNat < 2 ^ w.bits := toNat_lt_of_and_mask (and_mask_and_mask _ w)
  refine ⟨hv, ?_, ?_, ?_⟩
  · show decide (w.mask.toNat < a.toNat + b.toNat) = true ↔ _
    rw [decide_eq_true_iff, toNat_mask]
    cases w <;> simp only [Width.bits] <;> omega
  · show ((a ^^^ _) &&& (b ^^^ _) &&& w.signBit != 0) = true ↔ _
    rw [and_signBit_ne_zero, UInt16.toNat_and, Nat.testBit_and, Bool.and_eq_true,
      testBit_sign_xor_iff ha hlt, testBit_sign_xor_iff hb hlt, hv]
    obtain ⟨na, sa⟩ | ⟨na, sa⟩ := signed_cases ha <;>
      obtain ⟨nb, sb⟩ | ⟨nb, sb⟩ := signed_cases hb <;>
      rw [sa, sb] <;> cases w <;> simp only [Width.bits, Width.Holds] at * <;> omega
  · show decide (0xF < (a &&& 0xF) + (b &&& 0xF)) = true ↔ _
    rw [decide_eq_true_iff, UInt16.lt_iff_toNat_lt, UInt16.toNat_add, toNat_and_nibble,
      toNat_and_nibble]
    show 15 < _ ↔ _
    omega

/-- A difference up to the width, with what is lost of the exact one. -/
lemma sub_exact (ha : a.toNat < 2 ^ w.bits) (hb : b.toNat < 2 ^ w.bits) :
    ((sub w a b).value.toNat : Int) = ((a.toNat : Int) - b.toNat) % 2 ^ w.bits ∧
      ((sub w a b).carry ↔ a.toNat < b.toNat) ∧
      ((sub w a b).overflow ↔ ¬ w.Holds (w.signed a.toNat - w.signed b.toNat)) ∧
      ((sub w a b).auxiliary ↔ a.toNat % 16 < b.toNat % 16) := by
  have hv : (((a - b) &&& w.mask).toNat : Int) = ((a.toNat : Int) - b.toNat) % 2 ^ w.bits := by
    rw [toNat_and_mask, UInt16.toNat_sub]
    cases w <;> simp only [Width.bits] at * <;> omega
  have hlt : ((a - b) &&& w.mask).toNat < 2 ^ w.bits := toNat_lt_of_and_mask (and_mask_and_mask _ w)
  refine ⟨hv, ?_, ?_, ?_⟩
  · show decide (a < b) = true ↔ _
    rw [decide_eq_true_iff, UInt16.lt_iff_toNat_lt]
  · show ((a ^^^ b) &&& (a ^^^ _) &&& w.signBit != 0) = true ↔ _
    rw [and_signBit_ne_zero, UInt16.toNat_and, Nat.testBit_and, Bool.and_eq_true,
      testBit_sign_xor_iff ha hb, testBit_sign_xor_iff ha hlt]
    obtain ⟨na, sa⟩ | ⟨na, sa⟩ := signed_cases ha <;>
      obtain ⟨nb, sb⟩ | ⟨nb, sb⟩ := signed_cases hb <;>
      rw [sa, sb] <;> cases w <;> simp only [Width.bits, Width.Holds] at * <;> omega
  · show decide ((a &&& 0xF) < (b &&& 0xF)) = true ↔ _
    rw [decide_eq_true_iff, UInt16.lt_iff_toNat_lt, toNat_and_nibble, toNat_and_nibble]

/-- A difference of values of the width is zero if they are equal. -/
lemma sub_value_eq_zero_iff (ha : a.toNat < 2 ^ w.bits) (hb : b.toNat < 2 ^ w.bits) :
    (sub w a b).value = 0 ↔ a.toNat = b.toNat := by
  obtain ⟨hv, -⟩ := sub_exact ha hb
  have hz : (sub w a b).value = 0 ↔ ((sub w a b).value.toNat : Int) = 0 := by
    rw [← UInt16.toNat_inj, UInt16.toNat_zero, Int.natCast_eq_zero]
  rw [hz, hv]
  cases w <;> simp only [Width.bits] at * <;> omega

/-- The sign of a difference and its overflow together tell the order of the signed readings. -/
lemma sub_sign_ne_overflow_iff (ha : a.toNat < 2 ^ w.bits) (hb : b.toNat < 2 ^ w.bits) :
    ((sub w a b).value &&& w.signBit != 0) ≠ (sub w a b).overflow ↔
      w.signed a.toNat < w.signed b.toNat := by
  obtain ⟨hv, -, ho, -⟩ := sub_exact ha hb
  have hlt : (sub w a b).value.toNat < 2 ^ w.bits := toNat_lt_of_and_mask (and_mask_and_mask _ w)
  rw [and_signBit_ne_zero, ne_eq, Bool.eq_iff_iff, testBit_sign_iff hlt, ho]
  obtain ⟨na, sa⟩ | ⟨na, sa⟩ := signed_cases ha <;>
    obtain ⟨nb, sb⟩ | ⟨nb, sb⟩ := signed_cases hb <;>
    rw [sa, sb] <;> cases w <;> simp only [Width.bits, Width.Holds] at * <;> omega

/-- What the status flags are after an operation. -/
lemma contains_flags (t : Arithmetic) (w : Width) (old : Flags) :
    let f := t.flags w old
    f.contains .zero = (t.value == 0) ∧ f.contains .sign = (t.value &&& w.signBit != 0) ∧
      f.contains .parity = evenParity t.value ∧ f.contains .carry = t.carry ∧
      f.contains .overflow = t.overflow ∧ f.contains .auxiliary = t.auxiliary := by
  simp [flags, Flags.contains_set]

/-- The zero, sign and parity flags tell about the value. -/
lemma contains_flags_of_value {t : Arithmetic} (ht : t.value &&& w.mask = t.value) (old : Flags) :
    ((t.flags w old).contains .zero ↔ t.value.toNat = 0) ∧
      ((t.flags w old).contains .sign ↔ 2 ^ (w.bits - 1) ≤ t.value.toNat) ∧
      ((t.flags w old).contains .parity ↔ Even (setBitCount (t.value.toNat % 256))) := by
  obtain ⟨hz, hs, hp, -⟩ := t.contains_flags w old
  rw [hz, hs, hp]
  refine ⟨?_, ?_, ?_⟩
  · rw [beq_iff_eq, ← UInt16.toNat_inj]
    rfl
  · rw [and_signBit_ne_zero, testBit_sign_iff (toNat_lt_of_and_mask ht)]
  · rw [evenParity, countP_testBit, beq_iff_eq, Nat.even_iff]
    rfl

end Arithmetic

namespace RegisterFile

/-- A word that holds a signed one is the same number up to the width. -/
lemma toNat_toUInt16_mod (value : Int16) (w : Width) :
    value.toUInt16.toNat % 2 ^ w.bits = (value.toInt % 2 ^ w.bits).toNat := by
  have hv : value.toInt = (value.toUInt16.toNat : Int).bmod (2 ^ 16) :=
    BitVec.toInt_eq_toNat_bmod value.toBitVec
  rw [hv, Int.bmod_def]
  split <;> cases w <;> simp only [Width.bits] <;> omega

/-- A source has the value of the number that it stands for. -/
lemma exists_sourceValue? (r : RegisterFile) (w : Width) (hs : y.isSource) :
    ∃ v, r.sourceValue? w y = some v ∧ v.toNat = r.number w y := by
  cases y with
  | immediate value => exact ⟨_, rfl, (toNat_and_mask _ w).trans (toNat_toUInt16_mod value w)⟩
  | register | accumulator | segment => exact ⟨_, rfl, toNat_and_mask _ w⟩
  | label | memory | far => cases hs

/-- Arithmetic on a register with a source is performed. -/
lemma exists_perform_of_source (hop : i.op.IsArithmetic) (hx : i.register? = some x)
    (hy : i.second = some y) (hs : y.isSource) :
    ∃ v, v.toNat = r.number i.width y ∧ v &&& i.width.mask = v ∧
      r.execute i = (.executed, r.perform i.op i.width (.register x) v) := by
  obtain ⟨v, hv, hn⟩ := r.exists_sourceValue? i.width hs
  have hsource : r.source? i = some v := by rw [source?, hy, Option.bind_some, hv]
  have hd : i.destination? = some (.register x) := Instruction.destination?_of_register? hx
  exact ⟨v, hn, source?_and_mask hsource, (Executes.performed hop.isExecuted hd hsource).execute_eq⟩

lemma read_and_mask (r : RegisterFile) (hw : x.width = w) : r.read x &&& w.mask = r.read x := by
  subst hw
  exact r.readLocation_and_mask (.register x)

/-- Arithmetic sets the flags by what the register and the source hold. -/
lemma flags_perform_register (r : RegisterFile) (hop : op.IsArithmetic) (hw : x.width = w)
    (v : UInt16) :
    (r.perform op w (.register x) v).flags =
      (op.arithmetic w (r.read x) v).flags w r.flags := by
  rw [flags_perform hop]
  exact congrArg (fun a => (op.arithmetic w a v).flags w r.flags) (r.read_and_mask hw)

/-- The register holds the value that addition or subtraction works out. -/
lemma read_perform_register (r : RegisterFile) (hop : op = .add ∨ op = .sub) (hw : x.width = w)
    (hv : v &&& w.mask = v) :
    (r.perform op w (.register x) v).read x = (op.arithmetic w (r.read x) v).value := by
  have hop' : op.IsExecuted := by
    obtain rfl | rfl := hop <;> decide
  have h : (r.perform op w (.register x) v).read x = op.result w (r.read x) v :=
    readLocation_perform (l := .register x) hop' hw hv
  rw [h]
  obtain rfl | rfl := hop <;> rfl

/-- An operation on a register leaves the bytes that this does not cover, and the segment
registers. -/
lemma perform_register_frame (r : RegisterFile) (hop : op.IsExecuted) (w : Width) (x : Register)
    (v : UInt16) :
    (∀ cell half, ¬ x.slot.Covers cell half →
      (r.perform op w (.register x) v).byte cell half = r.byte cell half) ∧
    ∀ s, (r.perform op w (.register x) v).readSegment s = r.readSegment s := by
  obtain ⟨flags, h | ⟨-, value, h⟩⟩ := r.perform_eq hop w (.register x) v
  · rw [h]
    exact ⟨fun _ _ _ => rfl, fun _ => rfl⟩
  · rw [h]
    refine ⟨fun cell half hc => byte_writeSlot _ value hc, fun s => ?_⟩
    by_contra hs
    cases readSegment_writeLocation (r := r.replaceFlags flags) hs

end RegisterFile

/-- An addition or subtraction of a register, which is as wide as the operation, and a source is
executed. The register then holds the exact sum or difference up to the width. The carry tells that
the exact result is not one of its values, the overflow that the result with signed readings is not,
the auxiliary flag a carry or borrow at the lowest four bits; the zero, sign and parity flags tell
about what the register holds. No other byte, segment register or flag changes. -/
theorem execute_of_add_or_sub (r : RegisterFile) (hop : i.op = .add ∨ i.op = .sub)
    (hx : i.register? = some x) (hw : x.width = i.width) (hy : i.second = some y)
    (hs : y.isSource) :
    let w := i.width
    let a := (r.read x).toNat
    let b := r.number w y
    ∃ after, r.execute i = (.executed, after) ∧
      (i.op = .add → (after.read x).toNat = (a + b) % 2 ^ w.bits ∧
        (after.testFlag .carry ↔ 2 ^ w.bits ≤ a + b) ∧
        (after.testFlag .overflow ↔ ¬ w.Holds (w.signed a + w.signed b)) ∧
        (after.testFlag .auxiliary ↔ 15 < a % 16 + b % 16)) ∧
      (i.op = .sub → ((after.read x).toNat : Int) = ((a : Int) - b) % 2 ^ w.bits ∧
        (after.testFlag .carry ↔ a < b) ∧
        (after.testFlag .overflow ↔ ¬ w.Holds (w.signed a - w.signed b)) ∧
        (after.testFlag .auxiliary ↔ a % 16 < b % 16)) ∧
      (after.testFlag .zero ↔ (after.read x).toNat = 0) ∧
      (after.testFlag .sign ↔ 2 ^ (w.bits - 1) ≤ (after.read x).toNat) ∧
      (after.testFlag .parity ↔ Even (setBitCount ((after.read x).toNat % 256))) ∧
      (∀ cell half, ¬ x.slot.Covers cell half → after.byte cell half = r.byte cell half) ∧
      (∀ s, after.readSegment s = r.readSegment s) ∧
      ∀ k < 16, (∀ f ∈ Flag.status, k ≠ f.position) →
        after.flags.bits.toNat.testBit k = r.flags.bits.toNat.testBit k := by
  intro w a b
  have harith : i.op.IsArithmetic := by
    obtain h | h := hop <;> rw [h] <;> decide
  obtain ⟨v, hv, hmask, he⟩ := r.exists_perform_of_source harith hx hy hs
  obtain ⟨hbytes, hsegments⟩ := r.perform_register_frame harith.isExecuted w x v
  have hread := r.read_perform_register hop hw hmask
  have hflags := r.flags_perform_register harith hw v
  have ha : a < 2 ^ w.bits := toNat_lt_of_and_mask (r.read_and_mask hw)
  have hb : v.toNat < 2 ^ w.bits := toNat_lt_of_and_mask hmask
  refine ⟨_, he, ?_⟩
  generalize r.perform i.op i.width (.register x) v = after at *
  unfold RegisterFile.testFlag
  rw [hread, hflags]
  have ht : (i.op.arithmetic w (r.read x) v).value &&& w.mask =
      (i.op.arithmetic w (r.read x) v).value := by
    rw [← hread, after.read_and_mask hw]
  obtain ⟨hz, hsign, hp⟩ := Arithmetic.contains_flags_of_value ht r.flags
  obtain ⟨-, -, -, hc, ho, haux⟩ := (i.op.arithmetic w (r.read x) v).contains_flags w r.flags
  rw [hc, ho, haux]
  refine ⟨fun h => ?_, fun h => ?_, hz, hsign, hp, hbytes, hsegments,
    fun k hk h => Arithmetic.testBit_flags _ w r.flags hk h⟩
  · have hadd := Arithmetic.add_exact ha hb
    rw [hv] at hadd
    rw [h]
    exact hadd
  · have hsub := Arithmetic.sub_exact ha hb
    rw [hv] at hsub
    rw [h]
    exact hsub

/-- `sub al, ah` with 128 in `al`: the difference 127 of a byte and its other half overflows. -/
theorem execute_of_add_or_sub_halves :
    let r : RegisterFile := { cells := .replicate 8 0x0180 }
    let i : Instruction :=
      ⟨"sub", .sub, .rmRegister, some (.register .al), some (.register .ah), {}⟩
    (i.op = .add ∨ i.op = .sub) ∧ i.register? = some .al ∧ Register.al.width = i.width ∧
      i.second = some (.register .ah) ∧ (Operand.register .ah).isSource ∧
      ∃ after, r.execute i = (.executed, after) ∧ ((after.read .al).toNat : Int) = 127 ∧
        after.testFlag .overflow ∧ after.testFlag .auxiliary ∧ ¬ after.testFlag .carry ∧
        after.byte 0 .high = 1 := by
  intro r i
  have hop : i.op = .add ∨ i.op = .sub := .inr rfl
  obtain ⟨after, he, -, hsub, -, -, -, hbytes, -⟩ :=
    execute_of_add_or_sub r hop (x := .al) rfl rfl rfl rfl
  obtain ⟨hv, hc, ho, haux⟩ := hsub rfl
  have hah : ¬ (Register.slot .al).Covers 0 .high := by simp [Register.slot, Slot.Covers]
  exact ⟨hop, rfl, rfl, rfl, rfl, after, he, hv.trans (by decide), ho.2 (by decide),
    haux.2 (by decide), mt hc.1 (by decide), (hbytes 0 .high hah).trans (by decide)⟩

/-- A comparison of a register, which is as wide as the operation, and a source is executed. It
changes flags only and leaves those of the subtraction of the same operands. The zero flag then
tells whether the values are equal, the carry their order, and the sign together with the overflow
the order of their signed readings. -/
theorem execute_of_cmp (r : RegisterFile) (hop : i.op = .cmp) (hx : i.register? = some x)
    (hw : x.width = i.width) (hy : i.second = some y) (hs : y.isSource) :
    let w := i.width
    let a := (r.read x).toNat
    let b := r.number w y
    ∃ after, r.execute i = (.executed, after) ∧ r.SameRegisters after ∧
      (∀ j : Instruction, j.op = .sub → j.first = i.first → j.second = i.second →
        j.modifiers = i.modifiers → after.flags = (r.execute j).2.flags) ∧
      (after.testFlag .zero ↔ a = b) ∧ (after.testFlag .carry ↔ a < b) ∧
      (after.testFlag .sign ≠ after.testFlag .overflow ↔ w.signed a < w.signed b) := by
  intro w a b
  have harith : i.op.IsArithmetic := hop ▸ by decide
  obtain ⟨v, hv, hmask, he⟩ := r.exists_perform_of_source harith hx hy hs
  rw [hop] at he
  have ha : a < 2 ^ w.bits := toNat_lt_of_and_mask (r.read_and_mask hw)
  have hb : v.toNat < 2 ^ w.bits := toNat_lt_of_and_mask hmask
  -- The value of the register has no bits beyond the width.
  have hflags : (r.perform .cmp w (.register x) v).flags =
      (Arithmetic.sub w (r.read x) v).flags w r.flags :=
    r.flags_perform_register (by decide) hw v
  refine ⟨_, he, ⟨rfl, rfl⟩, fun j hj hfirst hsecond hmodifiers => ?_, ?_⟩
  · have hwidth : j.width = w := congrArg Modifiers.width hmodifiers
    have hx' : j.register? = some x := by
      unfold Instruction.register? at hx ⊢
      rw [hfirst, hwidth, hx]
    obtain ⟨v', hv', -, he'⟩ :=
      r.exists_perform_of_source (hj ▸ by decide) hx' (hsecond.trans hy) hs
    rw [hwidth] at hv' he'
    obtain rfl : v' = v := UInt16.toNat_inj.1 (hv'.trans hv.symm)
    have hflags' : (r.perform .sub w (.register x) v').flags =
        (Arithmetic.sub w (r.read x) v').flags w r.flags :=
      r.flags_perform_register (by decide) hw v'
    rw [hflags, he', hj, hflags']
  · unfold RegisterFile.testFlag
    rw [hflags]
    obtain ⟨hz, hsign, -, hc, ho, -⟩ := (Arithmetic.sub w (r.read x) v).contains_flags w r.flags
    rw [hz, hc, hsign, ho, beq_iff_eq, Arithmetic.sub_value_eq_zero_iff ha hb,
      (Arithmetic.sub_exact ha hb).2.1, Arithmetic.sub_sign_ne_overflow_iff ha hb, hv]
    exact ⟨Iff.rfl, Iff.rfl, Iff.rfl⟩

/-- `cmp ax, -32768` with one in `ax`: less as it stands, but greater with signs. -/
theorem execute_of_cmp_least :
    let r : RegisterFile := { cells := .replicate 8 1 }
    let i : Instruction := ⟨"cmp", .cmp, .accumulatorImmediate, some .accumulator,
      some (.immediate (-32768)), { width := .word }⟩
    let j : Instruction := { i with op := .sub }
    i.op = .cmp ∧ i.register? = some .ax ∧ Register.ax.width = i.width ∧
      i.second = some (.immediate (-32768)) ∧ (Operand.immediate (-32768)).isSource ∧
      ∃ after, r.execute i = (.executed, after) ∧ r.SameRegisters after ∧
        after.flags = (r.execute j).2.flags ∧ ¬ after.testFlag .zero ∧ after.testFlag .carry ∧
        after.testFlag .sign = after.testFlag .overflow := by
  intro r i j
  obtain ⟨after, he, hr, hsub, hz, hc, hlt⟩ :=
    execute_of_cmp r (i := i) (x := .ax) rfl rfl rfl rfl rfl
  exact ⟨rfl, rfl, rfl, rfl, rfl, after, he, hr, hsub j rfl rfl rfl rfl, mt hz.1 (by decide),
    hc.2 (by decide), not_not.1 (mt hlt.1 (by decide))⟩

end I8086

import I8086.Proofs.Stream
import Mathlib.Order.Bounds.Defs

/-!
# Where decoding fails

A stream without a program has an opcode without an instruction behind a front part that decodes, or
it ends inside an instruction. The two cannot be confused: the opcode is found even if bytes that
would belong to it are missing, and a shared opcode at the end of the stream is one that waits. Main
statement: `decode_eq_error_iff`, both errors are told by the front parts of the stream that decode
and by the opcode map.
-/

namespace I8086

open Reader

/-- At an offset stands an opcode without an instruction: it has none itself, or it is shared and the
byte after it selects none. -/
def UndefinedAt (bytes : List UInt8) (offset : Nat) (opcode : UInt8) : Prop :=
  bytes[offset]? = some opcode ∧
    ((lookup opcode).descriptor.form = .unknown ∨
      ((lookup opcode).descriptor.form = .shared ∧
        ∃ second, bytes[offset + 1]? = some second ∧
          ((lookup opcode).resolve second).form = .unknown))

/-- The lengths of the front parts of a stream that decode. -/
def decodedLengths (bytes : List UInt8) : Set Nat :=
  {k | k ≤ bytes.length ∧ ∃ p, decode (bytes.take k) = .ok p}

variable {bytes us bs rest : List UInt8} {opcode : UInt8} {offset index : Nat} {ts : List Tile}

lemma undefinedAt_append : UndefinedAt (us ++ bs) us.length opcode ↔ UndefinedAt bs 0 opcode := by
  unfold UndefinedAt
  rw [List.getElem?_append_right (Nat.le_refl _), List.getElem?_append_right (Nat.le_add_right _ 1),
    Nat.sub_self, Nat.add_sub_cancel_left]

/-- At the start of a stream stands an opcode without an instruction exactly if an item is read there
that is none. -/
lemma undefinedAt_zero_iff : UndefinedAt bs 0 opcode ↔
    ∃ u v, bs = u ++ v ∧ Item.reader.Reads u (.error ⟨opcode, .unknown⟩) := by
  constructor
  · rintro ⟨hb, h⟩
    cases bs with
    | nil => cases hb
    | cons b bs =>
      obtain rfl : b = opcode := Option.some.inj hb
      obtain hu | ⟨hs, second, hsecond, hu⟩ := h
      · exact ⟨[b], bs, rfl, Item.reads_unsupported_iff.2 ⟨b, rfl, .inl ⟨hu, rfl⟩⟩⟩
      · cases bs with
        | nil => cases hsecond
        | cons c bs =>
          obtain rfl : c = second := Option.some.inj hsecond
          exact ⟨[b, c], bs, rfl,
            Item.reads_unsupported_iff.2 ⟨b, rfl, .inr ⟨hs, c, rfl, hu⟩⟩⟩
  · rintro ⟨u, v, rfl, rd⟩
    obtain ⟨b, e, h⟩ := Item.reads_unsupported_iff.1 rd
    cases e
    obtain ⟨hu, rfl⟩ | ⟨hs, second, rfl, hu⟩ := h
    · exact ⟨rfl, .inl hu⟩
    · exact ⟨rfl, .inr ⟨hs, second, rfl, hu⟩⟩

/-- Decoding fails at an opcode exactly if the bytes before it decode and it has no instruction. -/
theorem decode_eq_unsupported_iff {form : Form} :
    decode bytes = .error (.unsupported opcode form offset index) ↔
      (∃ p, decode (bytes.take offset) = .ok p ∧ p.size = index) ∧ form = .unknown ∧
        UndefinedAt bytes offset opcode := by
  constructor
  · intro h
    -- Of the ways in which a row of tiles can end, one gives this error.
    obtain ⟨ts, rest, rfl, he⟩ := exists_tiles bytes
    cases he with
    | stop =>
      rw [List.append_nil, decode_join] at h
      cases h
    | waits hrest wt =>
      rw [decode_join_waits hrest wt] at h
      cases h
    | unsupported more rd =>
      rw [decode_join_unsupported rd] at h
      obtain ⟨b, rfl, -⟩ := Item.reads_unsupported_iff.1 rd
      cases h
      refine ⟨⟨.ofInstructions (Tile.instructions ts), ?_, List.size_toArray⟩, rfl, ?_⟩
      · rw [List.take_left, decode_join]
      · exact undefinedAt_append.2 (undefinedAt_zero_iff.2 ⟨_, more, rfl, rd⟩)
  · rintro ⟨⟨p, hp, rfl⟩, rfl, hu⟩
    -- The bytes in front are a row of tiles, so the item behind them is the next one to be read.
    obtain ⟨ts, htake, rfl⟩ := exists_tiles_of_decode_ok hp
    have hlen : (Tile.join ts).length = offset := by
      obtain ⟨hlt, -⟩ := List.getElem?_eq_some_iff.1 hu.1
      rw [← htake, List.length_take]
      omega
    rw [← List.take_append_drop offset bytes, htake, ← hlen] at hu ⊢
    obtain ⟨u, v, hdrop, rd⟩ := undefinedAt_zero_iff.1 (undefinedAt_append.1 hu)
    rw [hdrop, decode_join_unsupported rd]
    exact congrArg (fun n => Except.error (DecodeError.unsupported _ _ _ n)) List.size_toArray.symm

/-- A cut behind a row of tiles leaves an item that waits unfinished. -/
lemma decode_take_of_waits {k : Nat} (wt : Item.reader.Waits rest)
    (hlt : (Tile.join ts).length < k) (hk : k ≤ (Tile.join ts ++ rest).length) :
    decode ((Tile.join ts ++ rest).take k) = .error (.endOfBytes k (Tile.instructions ts).length) := by
  have hlen : ((Tile.join ts ++ rest).take k).length = k := by
    rw [List.length_take]
    omega
  rw [List.take_append, List.take_of_length_le (by omega)] at hlen ⊢
  have hne : rest.take (k - (Tile.join ts).length) ≠ [] := by
    intro e
    rw [e, List.append_nil] at hlen
    omega
  have wt' : Item.reader.Waits (rest.take (k - (Tile.join ts).length)) :=
    Waits.of_append (v := rest.drop _) (by rwa [List.take_append_drop])
  rw [decode_join_waits hne wt', hlen]

/-- Decoding that fails at the end of a stream has seen the instructions of the longest front part
that decodes. -/
lemma isGreatest_of_endOfBytes (h : decode bytes = .error (.endOfBytes offset index)) :
    offset = bytes.length ∧ ∃ k p, IsGreatest (decodedLengths bytes) k ∧
      decode (bytes.take k) = .ok p ∧ p.size = index := by
  obtain ⟨ts, rest, rfl, he⟩ := exists_tiles bytes
  cases he with
  | stop =>
    rw [List.append_nil, decode_join] at h
    cases h
  | unsupported more rd =>
    rw [decode_join_unsupported rd] at h
    cases h
  | waits hrest wt =>
    rw [decode_join_waits hrest wt] at h
    cases h
    have htake : decode ((Tile.join ts ++ rest).take (Tile.join ts).length) =
        .ok (.ofInstructions (Tile.instructions ts)) := by
      rw [List.take_left, decode_join]
    have hle : (Tile.join ts).length ≤ (Tile.join ts ++ rest).length := by
      rw [List.length_append]
      exact Nat.le_add_right _ _
    refine ⟨rfl, (Tile.join ts).length, _, ⟨⟨hle, _, htake⟩, ?_⟩, htake, List.size_toArray⟩
    -- A longer front part ends in the item that the whole stream leaves unfinished.
    rintro k ⟨hk, p, hp⟩
    refine Nat.le_of_not_lt fun hlt => ?_
    rw [decode_take_of_waits wt hlt hk] at hp
    cases hp

/-- Decoding fails at an opcode exactly if the bytes before it decode, to as many instructions as it
tells, and neither the opcode nor, if it is shared, the byte after it has an instruction. It fails at
the end exactly if there is no program and no such opcode, and then it tells the instructions of the
longest front part that decodes. -/
theorem decode_eq_error_iff (bytes : List UInt8) :
    (∀ opcode form offset index,
      decode bytes = .error (.unsupported opcode form offset index) ↔
        (∃ p, decode (bytes.take offset) = .ok p ∧ p.size = index) ∧ form = .unknown ∧
          UndefinedAt bytes offset opcode) ∧
    ((∃ offset index, decode bytes = .error (.endOfBytes offset index)) ↔
      (∀ p, decode bytes ≠ .ok p) ∧
        ∀ opcode offset p, decode (bytes.take offset) = .ok p → ¬ UndefinedAt bytes offset opcode) ∧
    (∀ offset index, decode bytes = .error (.endOfBytes offset index) →
      offset = bytes.length ∧ ∃ k p, IsGreatest (decodedLengths bytes) k ∧
        decode (bytes.take k) = .ok p ∧ p.size = index) := by
  refine ⟨fun _ _ _ _ => decode_eq_unsupported_iff, ⟨?_, ?_⟩, fun _ _ => isGreatest_of_endOfBytes⟩
  · rintro ⟨offset, index, h⟩
    refine ⟨fun p hp => ?_, fun opcode k p hp hu => ?_⟩
    · rw [h] at hp
      cases hp
    · have hf := decode_eq_unsupported_iff.2 ⟨⟨p, hp, rfl⟩, rfl, hu⟩
      rw [h] at hf
      cases hf
  · rintro ⟨hok, hundefined⟩
    cases h : decode bytes with
    | ok p => exact (hok p h).elim
    | error e =>
      cases e with
      | endOfBytes offset index => exact ⟨offset, index, rfl⟩
      | unsupported opcode form offset index =>
        obtain ⟨⟨p, hp, -⟩, -, hu⟩ := decode_eq_unsupported_iff.1 h
        exact (hundefined opcode offset p hp hu).elim

/-- Behind `nop` and an override, a shared opcode whose second byte selects nothing fails although
its displacement is missing; the shared opcode alone fails at the end. -/
theorem decode_eq_error_iff_shared :
    decode [0x90, 0x2E, 0xF6, 0x48] = .error (.unsupported 0xF6 .unknown 2 1) ∧
    decode [0x90, 0x2E, 0xF6] = .error (.endOfBytes 3 1) ∧
    IsGreatest (decodedLengths [0x90, 0x2E, 0xF6]) 2 := by
  have hnop : decode [0x90, 0x2E] = .ok (.ofInstructions [⟨"nop", .nop, .bare, none, none, {}⟩]) :=
    decode_join
      [⟨[0x90], .instruction ⟨"nop", .nop, .bare, none, none, {}⟩, by repeat constructor⟩,
       ⟨[0x2E], .modifier (.segment .cs), by repeat constructor⟩]
  have hend : decode [0x90, 0x2E, 0xF6] = .error (.endOfBytes 3 1) := by cbv
  refine ⟨?_, hend, ?_⟩
  · refine ((decode_eq_error_iff _).1 0xF6 .unknown 2 1).2 ⟨⟨_, hnop, rfl⟩, rfl, rfl, .inr ⟨?_, ?_⟩⟩
    · decide +kernel
    · exact ⟨0x48, rfl, by decide +kernel⟩
  · obtain ⟨-, k, p, hk, -⟩ := (decode_eq_error_iff _).2.2 3 1 hend
    have h2 : 2 ≤ k := hk.2 ⟨by decide, _, hnop⟩
    have h3 : k ≠ 3 := by
      rintro rfl
      obtain ⟨-, p, hp⟩ := hk.1
      cases hp.symm.trans hend
    have hle : k ≤ 3 := hk.1.1
    obtain rfl : k = 2 := by omega
    exact hk

end I8086

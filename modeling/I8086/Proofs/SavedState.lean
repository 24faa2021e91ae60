import I8086.Saved.State
import Mathlib.Tactic.Lemma

/-!
# Saving and loading

Which values load as a machine state. `RegisterFile.SavedAs` says it without reading: the register
file is an object with the words of its three parts as members, or a list of the three. The readers
of words, of lists of words, of members and of parts read exactly such values, by one lemma each.
Main statement: `loadState_spec`, a state loads exactly if its registers are so saved, what is saved
loads again, and the registers change only if all of the state is read.
-/

namespace I8086

variable {ε α β : Type} {j : Json} {ws : List UInt16} {members : List (String × Json)}

/-- A computation succeeds if its first step does and then the rest of it does. -/
lemma bind_eq_ok_iff {x : Except ε α} {f : α → Except ε β} {b : β} :
    x >>= f = .ok b ↔ ∃ a, x = .ok a ∧ f a = .ok b := by
  cases x with
  | ok a => exact ⟨fun h => ⟨a, rfl, h⟩, fun ⟨_, h, hf⟩ => Except.ok.inj h ▸ hf⟩
  | error e => exact ⟨(nomatch ·), fun ⟨_, h, _⟩ => (nomatch h)⟩

namespace Json

/-- A word as JSON. -/
def word (w : UInt16) : Json :=
  .nat w.toNat

/-- A list of words as JSON. -/
def words (ws : List UInt16) : Json :=
  .list (ws.map word)

/-- What reads as a word is that word. -/
lemma readWord_eq_ok_iff {w : UInt16} : j.readWord = .ok w ↔ j = .word w := by
  constructor
  · intro h
    cases j with
    | integer n =>
      rw [readWord] at h
      split at h
      next hn =>
        obtain rfl := Except.ok.inj h
        have hw : (UInt16.ofNat n.toNat).toNat = n.toNat := by
          rw [UInt16.toNat_ofNat']
          omega
        rw [word, nat, hw, Int.toNat_of_nonneg hn.1]
      next => cases h
    | _ => cases h
  · rintro rfl
    have hw := w.toNat_lt
    rw [word, nat, readWord, if_pos (by omega), Int.toNat_natCast, UInt16.ofNat_toNat]

/-- What reads as words one by one are those words. -/
lemma mapM_readWord_eq_ok_iff {items : List Json} :
    items.mapM readWord = .ok ws ↔ items = ws.map word := by
  induction items generalizing ws with
  | nil =>
    rw [List.mapM_nil, eq_comm (a := [])]
    constructor
    · rintro h
      rw [← Except.ok.inj h, List.map_nil]
    · intro h
      rw [List.map_eq_nil_iff.1 h]
      rfl
  | cons j items ih =>
    simp only [List.mapM_cons, bind_eq_ok_iff, readWord_eq_ok_iff, ih]
    constructor
    · rintro ⟨w, rfl, ws, rfl, h⟩
      rw [← Except.ok.inj h, List.map_cons]
    · intro h
      obtain ⟨w, ws, rfl, rfl, rfl⟩ := List.map_eq_cons_iff.1 h.symm
      exact ⟨w, rfl, ws, rfl, rfl⟩

/-- A value reads as a given number of words if it is a list of those words and of no others. -/
lemma readWords_eq_ok_iff {size : Nat} {expected : Expected} {v : Vector UInt16 size} :
    j.readWords size expected = .ok v ↔ j = .words v.toList := by
  constructor
  · intro h
    cases j with
    | list items =>
      obtain ⟨ws, hws, h⟩ := bind_eq_ok_iff.1 h
      rw [mapM_readWord_eq_ok_iff] at hws
      split at h
      next hsize =>
        split at h
        next hitems =>
          obtain rfl := Except.ok.inj h
          rw [List.take_of_length_le (Nat.le_of_eq hitems)] at hws
          rw [words, hws]
          rfl
        next => cases h
      next => cases h
    | _ => cases h
  · rintro rfl
    have hv : v.toList.length = size := v.length_toList
    have hws : ((v.toList.map word).take size).mapM readWord = .ok v.toList := by
      have hlen : (v.toList.map word).length = size := by rw [List.length_map, hv]
      rw [mapM_readWord_eq_ok_iff, List.take_of_length_le (Nat.le_of_eq hlen)]
    rw [words, readWords, hws]
    show (if h : v.toList.length = size then _ else _) = _
    rw [dif_pos hv, if_pos (by rw [List.length_map, hv])]
    rfl

end Json

namespace RegisterFile

variable {r s : RegisterFile}

/-- The values that a register file is saved as: an object in which the members of these names are its
parts, whatever its other members are, or a list of the parts. -/
inductive SavedAs (r : RegisterFile) : Json → Prop where
  | object {members : List (String × Json)}
      (hcells : members.lookup "cells" = some (.words r.cells.toList))
      (hsegments : members.lookup "segments" = some (.words r.segments.toList))
      (hflags : members.lookup "flags" = some (.word r.flags.bits)) :
      SavedAs r (.object members)
  | list : SavedAs r
      (.list [.words r.cells.toList, .words r.segments.toList, .word r.flags.bits])

/-- A register file is saved as what is written of it. -/
lemma savedAs_toJson (r : RegisterFile) : r.SavedAs r.toJson :=
  .object rfl rfl rfl

/-- A part that has to be there is there. -/
lemma require_eq_ok_iff {name : String} {m : Option α} {a : α} :
    require name m = .ok a ↔ m = some a := by
  cases m with
  | none => exact ⟨(nomatch ·), (nomatch ·)⟩
  | some b =>
    exact ⟨fun h => congrArg some (Except.ok.inj h), fun h => congrArg _ (Option.some.inj h)⟩

/-- A part of an object is read from the member with its name. -/
lemma readMember?_eq_ok_some_iff {name : String} {read : Json → Except LoadError α} {a : α} :
    readMember? members name read = .ok (some a) ↔
      ∃ j, members.lookup name = some j ∧ read j = .ok a := by
  unfold readMember?
  cases members.lookup name with
  | none => exact ⟨(nomatch ·), fun ⟨_, h, _⟩ => (nomatch h)⟩
  | some j =>
    cases hj : read j <;> simp [Except.map, hj]

/-- An object reads as the register file whose parts are its members. -/
lemma readMembers_eq_ok_iff : readMembers members = .ok r ↔ r.SavedAs (.object members) := by
  unfold readMembers
  simp only [bind_eq_ok_iff, require_eq_ok_iff]
  constructor
  · rintro ⟨_, hc, _, hf, _, hs, cells, rfl, segments, rfl, flags, rfl, h⟩
    obtain rfl := Except.ok.inj h
    obtain ⟨_, hlc, hc⟩ := readMember?_eq_ok_some_iff.1 hc
    obtain ⟨_, hlf, hf⟩ := readMember?_eq_ok_some_iff.1 hf
    obtain ⟨_, hls, hs⟩ := readMember?_eq_ok_some_iff.1 hs
    rw [Json.readWords_eq_ok_iff.1 hc] at hlc
    rw [Json.readWord_eq_ok_iff.1 hf] at hlf
    rw [Json.readWords_eq_ok_iff.1 hs] at hls
    exact .object hlc hls hlf
  · rintro (⟨hc, hs, hf⟩ | _)
    exact ⟨_, readMember?_eq_ok_some_iff.2 ⟨_, hc, Json.readWords_eq_ok_iff.2 rfl⟩,
      _, readMember?_eq_ok_some_iff.2 ⟨_, hf, Json.readWord_eq_ok_iff.2 rfl⟩,
      _, readMember?_eq_ok_some_iff.2 ⟨_, hs, Json.readWords_eq_ok_iff.2 rfl⟩,
      _, rfl, _, rfl, _, rfl, rfl⟩

/-- A list reads as the register file whose parts are its items. -/
lemma readParts_eq_ok_iff {parts : List Json} :
    readParts parts = .ok r ↔ r.SavedAs (.list parts) := by
  constructor
  · intro h
    obtain _ | ⟨cells, parts⟩ := parts
    · cases h
    obtain ⟨c, hc, h⟩ := bind_eq_ok_iff.1 h
    obtain _ | ⟨segments, parts⟩ := parts
    · cases h
    obtain ⟨s, hs, h⟩ := bind_eq_ok_iff.1 h
    obtain _ | ⟨flags, parts⟩ := parts
    · cases h
    obtain ⟨f, hf, h⟩ := bind_eq_ok_iff.1 h
    obtain _ | ⟨_, _⟩ := parts
    · obtain rfl := Except.ok.inj h
      rw [Json.readWords_eq_ok_iff.1 hc, Json.readWords_eq_ok_iff.1 hs,
        Json.readWord_eq_ok_iff.1 hf]
      exact .list
    · cases h
  · rintro ⟨⟩
    exact bind_eq_ok_iff.2 ⟨_, Json.readWords_eq_ok_iff.2 rfl,
      bind_eq_ok_iff.2 ⟨_, Json.readWords_eq_ok_iff.2 rfl,
        bind_eq_ok_iff.2 ⟨_, Json.readWord_eq_ok_iff.2 rfl, rfl⟩⟩⟩

/-- A value reads as the register file that is saved as it. -/
lemma ofJson_eq_ok_iff : ofJson j = .ok r ↔ r.SavedAs j := by
  cases j with
  | object => exact readMembers_eq_ok_iff
  | list => exact readParts_eq_ok_iff
  | _ => exact ⟨(nomatch ·), (nomatch ·)⟩

/-- What becomes of the registers that a loaded state holds. -/
lemma loadState_of_registers {state : Json} (h : state.member? "registers" = some j) :
    (∀ s, r.loadState state = (.ok (), s) ↔ s.SavedAs j) ∧
      ((∀ s : RegisterFile, ¬ s.SavedAs j) → ∃ e, r.loadState state = (.error e, r)) := by
  have hload : r.load state = ofJson j := by rw [load, h]
  rw [loadState, hload]
  constructor
  · intro s
    rw [← ofJson_eq_ok_iff]
    cases ofJson j with
    | ok s => simp
    | error e => simp
  · intro hs
    cases hj : ofJson j with
    | ok s => exact (hs s (ofJson_eq_ok_iff.1 hj)).elim
    | error e => exact ⟨e, rfl⟩

/-- A member without a given name is not looked up by it. -/
lemma lookup_filter_ne {name other : String} (h : name ≠ other) :
    (members.filter (·.1 ≠ other)).lookup name = members.lookup name := by
  induction members with
  | nil => rfl
  | cons m members ih =>
    obtain ⟨key, j⟩ := m
    by_cases hk : key = other
    · have hb : (name == key) = false := by simpa [hk] using h
      rw [List.filter_cons_of_neg (by simpa using hk), ih, List.lookup_cons, hb]
    · rw [List.filter_cons_of_pos (by simpa using hk), List.lookup_cons, List.lookup_cons, ih]

/-- Saved registers load as they were, into any machine. A state that is not an object, or has no
member for the registers, loads and changes nothing. Any other state loads exactly if that member is
what some register file is saved as, which the registers then are; if it is not, the answer is an
error and the registers are those from before. The version does not count, whatever it is. -/
theorem loadState_spec :
    (∀ r s : RegisterFile, r.loadState s.save = (.ok (), s)) ∧
    (∀ (r : RegisterFile) state, state.member? "registers" = none →
      r.loadState state = (.ok (), r)) ∧
    (∀ (r : RegisterFile) state j, state.member? "registers" = some j →
      (∀ s, r.loadState state = (.ok (), s) ↔ s.SavedAs j) ∧
        ((∀ s : RegisterFile, ¬ s.SavedAs j) → ∃ e, r.loadState state = (.error e, r))) ∧
    ∀ (r : RegisterFile) members, r.loadState (.object members) =
      r.loadState (.object (members.filter (·.1 ≠ "version"))) := by
  refine ⟨fun r s => ?_, fun r state h => ?_, fun r state j => loadState_of_registers,
    fun r members => ?_⟩
  · exact ((loadState_of_registers rfl).1 s).2 s.savedAs_toJson
  · rw [loadState, load, h]
  · have h : (Json.object members).member? "registers" =
        (Json.object (members.filter (·.1 ≠ "version"))).member? "registers" :=
      (lookup_filter_ne (by decide)).symm
    rw [loadState, loadState, load, load, h]

/-- A state that is null, one with the parts in a list and a version in words, and one whose registers
are not all there. -/
theorem loadState_spec_parts :
    let r : RegisterFile := {}
    let s : RegisterFile := ⟨.replicate 8 0x1234, .replicate 4 0xFFFF, ⟨0x8002⟩⟩
    let parts := Json.list
      [.words (List.replicate 8 0x1234), .words (List.replicate 4 0xFFFF), .word 0x8002]
    let cells := Json.object [("cells", .words (List.replicate 8 0x1234))]
    r.loadState .null = (.ok (), r) ∧
      r.loadState (.object [("version", .string "one"), ("registers", parts)]) = (.ok (), s) ∧
      ∃ e, r.loadState (.object [("registers", cells)]) = (.error e, r) := by
  intro r s parts cells
  obtain ⟨-, hnone, hsome, -⟩ := loadState_spec
  have hs (s : RegisterFile) : ¬ s.SavedAs cells := by
    intro (h : s.SavedAs (.object _))
    cases h with
    | object _ hsegments _ => cases hsegments
  exact ⟨hnone r _ rfl, ((hsome r _ parts rfl).1 s).2 .list, (hsome r _ cells rfl).2 hs⟩

end RegisterFile

end I8086

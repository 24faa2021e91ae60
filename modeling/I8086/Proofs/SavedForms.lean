import I8086.Proofs.SavedOperands
import I8086.Proofs.SavedState
import I8086.Saved.Trace

/-!
# Saved forms

The shapes of traces and of register files, beside those of operands and modifiers. A register file
is read with reasons for failing, by the readers of which `RegisterFile.SavedAs` tells the values;
that these are the values with a normal form is `RegisterFile.exists_savedAs_iff`. Main statement:
`saved_forms`, all types that are saved are saved in their shapes: written values are read as they
were, what is read is written in normal form, and numbers out of range, missing parts, unknown names
and variants with no member or several are not read, however deep they stand.
-/

namespace I8086

open Shape (Saves)

def SkipReason.shape : Shape :=
  .variants (all.map id) []

lemma SkipReason.saves : shape.Saves (fun _ => True) toJson ofJson? :=
  .names fun s => by cases s <;> rfl

namespace Outcome

def shape : Shape :=
  .variants ["Executed"] [("Skipped", SkipReason.shape)]

lemma saves : shape.Saves (fun _ => True) toJson ofJson? := by
  refine .of_normal (fun x _ => ?_) (fun _ _ _ => trivial) fun j => ?_
  · cases x with
    | executed => rfl
    | skipped reason => cases reason <;> rfl
  · by_cases h : j.tag? = some "Executed"
    · rw [ofJson?, if_pos h, shape, Shape.normal?_plain h (List.mem_singleton_self _)]
      rfl
    · rw [ofJson?, if_neg h, shape, Shape.normal?_variants (by simpa using h)]
      cases j.tagged? with
      | none => rfl
      | some variant =>
        obtain ⟨name, content⟩ := variant
        rw [Option.bind_some]
        split
        case h_1 _ reason h =>
          cases h
          refine SkipReason.saves.map_tagged ?_ content
          exact fun _ => rfl
        case h_2 h =>
          have hname : name ≠ "Skipped" := fun hname => h content (by rw [hname])
          have hnone : [("Skipped", SkipReason.shape)].lookup name = none := by
            rw [List.lookup_eq_none_iff]
            simpa using hname
          dsimp only
          rw [hnone]
          rfl

end Outcome

/-- Flags are saved as the word that they are. -/
lemma Flags.saves :
    Shape.word.Saves (fun _ => True) (fun f : Flags => .nat f.bits.toNat)
      (fun j => j.uint16?.map Flags.mk) := by
  refine .of_normal (fun f _ => ?_) (fun _ _ _ => trivial) fun j => ?_
  · exact congrArg (Option.map Flags.mk) (Saves.word.read_write f.bits trivial)
  · rw [← Saves.word.map_write_read, Option.map_map]
    rfl

namespace TraceEntry

def parts : List (String × Shape) :=
  [("index", .nat64), ("outcome", Outcome.shape), ("flags", .word)]

def shape : Shape :=
  .record true parts

lemma map_ofParts? (index outcome flags : Json) : (ofParts? index outcome flags).map toJson =
    (Shape.normalParts? parts [index, outcome, flags]).map .sorted := by
  simp only [parts, Shape.normalParts?_cons, Shape.normalParts?_nil, ← Saves.nat64.map_write_read,
    ← Outcome.saves.map_write_read, ← Saves.word.map_write_read, ofParts?]
  simp [Option.map_bind, Option.bind_map, Function.comp_def, toJson, Json.sorted]

lemma index_lt_of_ofParts? {index outcome flags : Json} {e : TraceEntry}
    (h : ofParts? index outcome flags = some e) : e.index < UInt64.size := by
  obtain ⟨n, hn, h⟩ := Option.bind_eq_some_iff.1 h
  obtain ⟨x, -, h⟩ := Option.bind_eq_some_iff.1 h
  obtain ⟨w, -, h⟩ := Option.bind_eq_some_iff.1 h
  cases h
  exact (Saves.nat64.read_again index n hn).1

/-- No part of an entry may be null, so one that is missing may count as null. -/
lemma ofJson?_object (members : List (String × Json)) : ofJson? (.object members) =
    ofParts? ((members.lookup "index").getD .null) ((members.lookup "outcome").getD .null)
      ((members.lookup "flags").getD .null) := by
  show (members.lookup "index" >>= fun index => members.lookup "outcome" >>= fun outcome =>
    members.lookup "flags" >>= fun flags => ofParts? index outcome flags) = _
  cases members.lookup "index" with
  | none => rfl
  | some index =>
    cases members.lookup "outcome" with
    | none => simp [ofParts?, Outcome.ofJson?, Json.tag?, Json.tagged?]
    | some outcome =>
      cases members.lookup "flags" with
      | none => simp [ofParts?, Json.uint16?, Json.integer?]
      | some flags => rfl

lemma saves : shape.Saves (fun e => e.index < UInt64.size) toJson ofJson? := by
  refine .of_normal (fun e he => ?_) (fun j e he => ?_) fun j => ?_
  · have hindex := Saves.nat64.read_write e.index he
    have houtcome := Outcome.saves.read_write e.outcome trivial
    have hflags := Saves.word.read_write e.flags.bits trivial
    simp [toJson, ofJson?_object, List.lookup_cons, ofParts?, hindex, houtcome, hflags]
  · unfold ofJson? at he
    split at he
    case h_1 => exact index_lt_of_ofParts? he
    case h_2 =>
      obtain ⟨index, -, he⟩ := Option.bind_eq_some_iff.1 he
      obtain ⟨outcome, -, he⟩ := Option.bind_eq_some_iff.1 he
      obtain ⟨flags, -, he⟩ := Option.bind_eq_some_iff.1 he
      exact index_lt_of_ofParts? he
  · cases j with
    | object members =>
      rw [ofJson?_object, map_ofParts?, shape, Shape.normal?_object]
      rfl
    | list js =>
      simp only [shape, Shape.normal?]
      by_cases hjs : js.length = parts.length
      · obtain ⟨index, outcome, flags, rfl⟩ := List.length_eq_three.1 hjs
        exact map_ofParts? index outcome flags
      · rw [Shape.normalParts?_of_length hjs]
        unfold ofJson?
        split
        case h_1 index outcome flags h =>
          cases h
          exact (hjs rfl).elim
        case h_2 => rfl
    | _ => rfl

end TraceEntry

namespace Trace

def parts : List (String × Shape) :=
  [("entries", .list none TraceEntry.shape)]

def shape : Shape :=
  .record true parts

lemma saves_entries : (Shape.list none TraceEntry.shape).Saves
    (fun t => ∀ e ∈ t.entries, e.index < UInt64.size)
    (fun t => .list (t.entries.toList.map TraceEntry.toJson)) ofEntries? := by
  refine .of_normal (fun t ht => ?_) (fun j t h => ?_) fun j => ?_
  · have hread := TraceEntry.saves.mapM_read_map fun e he => ht e (Array.mem_toList_iff.1 he)
    rw [ofEntries?, hread]
    rfl
  · cases j with
    | list js =>
      obtain ⟨es, hes, rfl⟩ := Option.map_eq_some_iff.1 h
      exact fun e he => TraceEntry.saves.valid_of_mapM hes e (List.mem_toArray.1 he)
    | _ => cases h
  · cases j with
    | list js =>
      simp only [Shape.normal?]
      rw [← TraceEntry.saves.map_mapM_read js, ofEntries?, Option.map_map, Option.map_map]
      rfl
    | _ => rfl

lemma map_ofEntries? (entries : Json) :
    (ofEntries? entries).map toJson = (Shape.normalParts? parts [entries]).map .sorted := by
  rw [parts, Shape.normalParts?_cons, Shape.normalParts?_nil, ← saves_entries.map_write_read]
  cases ofEntries? entries <;> rfl

lemma ofJson?_object (members : List (String × Json)) :
    ofJson? (.object members) = ofEntries? ((members.lookup "entries").getD .null) := by
  show (members.lookup "entries").bind ofEntries? = _
  cases members.lookup "entries" <;> rfl

lemma saves : shape.Saves (fun t => ∀ e ∈ t.entries, e.index < UInt64.size) toJson ofJson? := by
  refine .of_normal saves_entries.read_write (fun j t h => ?_) fun j => ?_
  · unfold ofJson? at h
    split at h
    case h_1 entries => exact (saves_entries.read_again entries t h).1
    case h_2 =>
      obtain ⟨entries, -, h⟩ := Option.bind_eq_some_iff.1 h
      exact (saves_entries.read_again entries t h).1
  · cases j with
    | object members =>
      rw [ofJson?_object, map_ofEntries?, shape, Shape.normal?_object]
      rfl
    | list js =>
      simp only [shape, Shape.normal?]
      by_cases hjs : js.length = parts.length
      · obtain ⟨entries, rfl⟩ := List.length_eq_one_iff.1 hjs
        exact map_ofEntries? entries
      · rw [Shape.normalParts?_of_length hjs]
        unfold ofJson?
        split
        case h_1 entries h =>
          cases h
          exact (hjs rfl).elim
        case h_2 => rfl
    | _ => rfl

end Trace

namespace Json

variable {j k : Json}

/-- What reads as a word is that word. -/
lemma uint16?_eq_some_iff {w : UInt16} : j.uint16? = some w ↔ j = .word w := by
  rw [← readWord_eq_ok_iff]
  cases j with
  | integer n =>
    have hbounds : (0 ≤ n ∧ n ≤ 65535) ↔ (0 ≤ n ∧ n < 65536) := by omega
    simp only [uint16?, integer?, readWord, hbounds]
    split <;> simp
  | _ => simp [uint16?, integer?, readWord]

lemma mapM_uint16?_eq_some {js : List Json} {ws : List UInt16}
    (h : js.mapM uint16? = some ws) : js = ws.map word := by
  induction js generalizing ws with
  | nil =>
    cases h
    rfl
  | cons j js ih =>
    rw [List.mapM_cons] at h
    obtain ⟨w, hw, h⟩ := Option.bind_eq_some_iff.1 h
    obtain ⟨ws, hws, h⟩ := Option.bind_eq_some_iff.1 h
    cases h
    rw [List.map_cons, ← uint16?_eq_some_iff.1 hw, ← ih hws]

lemma normal?_word_eq_some_iff :
    Shape.word.normal? j = some k ↔ ∃ w, j = .word w ∧ .word w = k := by
  rw [← Saves.word.map_write_read, Option.map_eq_some_iff]
  simp only [uint16?_eq_some_iff]
  rfl

lemma normal?_words_eq_some_iff {size : Nat} :
    (Shape.list (some size) .word).normal? j = some k ↔
      ∃ v : Vector UInt16 size, j = .words v.toList ∧ .words v.toList = k := by
  constructor
  · intro h
    cases j with
    | list js =>
      simp only [Shape.normal?] at h
      split at h
      case isTrue hsize =>
        rw [← Saves.word.map_mapM_read, Option.map_map] at h
        obtain ⟨ws, hws, rfl⟩ := Option.map_eq_some_iff.1 h
        obtain rfl := mapM_uint16?_eq_some hws
        have hlength : size = ws.length := by simpa using hsize
        exact ⟨⟨ws.toArray, hlength.symm⟩, rfl, rfl⟩
      case isFalse => cases h
    | _ => simp [Shape.normal?] at h
  · rintro ⟨v, rfl, rfl⟩
    have hsize : (v.toList.map word).length = size := by rw [List.length_map, v.length_toList]
    have hread : (v.toList.map word).mapM uint16? = some v.toList :=
      Saves.word.mapM_read_map fun _ _ => trivial
    rw [words, Shape.normal?, if_pos (by simp [hsize]), ← Saves.word.map_mapM_read, hread]
    rfl

/-- A member that may be missing is a value other than null exactly if it is that value. -/
lemma getD_null_eq_iff {m : Option Json} (hj : j ≠ .null) : m.getD .null = j ↔ m = some j := by
  cases m with
  | none => exact ⟨fun h => (hj h.symm).elim, nofun⟩
  | some j' => exact ⟨congrArg some, Option.some.inj⟩

end Json

namespace RegisterFile

variable {j k : Json}

def parts : List (String × Shape) :=
  [("cells", .list (some 8) .word), ("segments", .list (some 4) .word), ("flags", .word)]

def shape : Shape :=
  .record true parts

lemma toJson_eq_sorted (r : RegisterFile) : r.toJson = .sorted
    [("cells", .words r.cells.toList), ("segments", .words r.segments.toList),
     ("flags", .word r.flags.bits)] := by
  simp [Json.sorted, toJson, Json.words, Json.word]

lemma map_normalParts?_eq_some_iff {cells segments flags : Json} :
    (Shape.normalParts? parts [cells, segments, flags]).map .sorted = some k ↔
      ∃ r : RegisterFile, (cells = .words r.cells.toList ∧ segments = .words r.segments.toList ∧
        flags = .word r.flags.bits) ∧ r.toJson = k := by
  simp only [parts, Shape.normalParts?_cons, Shape.normalParts?_nil, Option.map_some,
    Option.map_eq_some_iff, Option.bind_eq_some_iff, Option.some.injEq,
    Json.normal?_words_eq_some_iff, Json.normal?_word_eq_some_iff]
  constructor
  · rintro ⟨_, ⟨_, ⟨c, rfl, rfl⟩, _, ⟨_, ⟨s, rfl, rfl⟩, _, ⟨_, ⟨w, rfl, rfl⟩, rfl⟩, rfl⟩, rfl⟩, rfl⟩
    exact ⟨⟨c, s, ⟨w⟩⟩, ⟨rfl, rfl, rfl⟩, toJson_eq_sorted _⟩
  · rintro ⟨r, ⟨rfl, rfl, rfl⟩, rfl⟩
    exact ⟨_, ⟨_, ⟨r.cells, rfl, rfl⟩, _, ⟨_, ⟨r.segments, rfl, rfl⟩, _,
      ⟨_, ⟨r.flags.bits, rfl, rfl⟩, rfl⟩, rfl⟩, rfl⟩, (toJson_eq_sorted r).symm⟩

/-- The values that a register file is saved as are those with what is written of it as their normal
form. -/
lemma exists_savedAs_iff :
    (∃ r : RegisterFile, r.SavedAs j ∧ r.toJson = k) ↔ shape.normal? j = some k := by
  cases j with
  | object members =>
    rw [shape, Shape.normal?_object]
    refine Iff.trans ?_ map_normalParts?_eq_some_iff.symm
    refine exists_congr fun r => and_congr_left' ?_
    have hword (w : UInt16) : Json.word w ≠ .null := nofun
    have hwords (ws : List UInt16) : Json.words ws ≠ .null := nofun
    simp only [Json.getD_null_eq_iff (hword _), Json.getD_null_eq_iff (hwords _)]
    constructor
    · rintro ⟨hcells, hsegments, hflags⟩
      exact ⟨hcells, hsegments, hflags⟩
    · rintro ⟨hcells, hsegments, hflags⟩
      exact .object hcells hsegments hflags
  | list js =>
    simp only [shape, Shape.normal?]
    by_cases hjs : js.length = parts.length
    · obtain ⟨cells, segments, flags, rfl⟩ := List.length_eq_three.1 hjs
      refine Iff.trans ?_ map_normalParts?_eq_some_iff.symm
      refine exists_congr fun r => and_congr_left' ?_
      constructor
      · rintro ⟨⟩
        exact ⟨rfl, rfl, rfl⟩
      · rintro ⟨rfl, rfl, rfl⟩
        exact .list
    · rw [Shape.normalParts?_of_length hjs]
      constructor
      · rintro ⟨r, ⟨⟩, -⟩
        exact (hjs rfl).elim
      · nofun
  | _ =>
    simp only [shape, Shape.normal?]
    constructor
    · rintro ⟨r, ⟨⟩, -⟩
    · nofun

lemma saves : shape.Saves (fun _ => True) toJson fun j => (ofJson j).toOption := by
  have hsome (j : Json) (r : RegisterFile) : (ofJson j).toOption = some r ↔ r.SavedAs j := by
    rw [← ofJson_eq_ok_iff]
    cases ofJson j <;> simp [Except.toOption]
  refine .of_normal (fun r _ => (hsome _ r).2 r.savedAs_toJson) (fun _ _ _ => trivial) fun j => ?_
  refine Option.ext fun k => ?_
  rw [← exists_savedAs_iff, Option.map_eq_some_iff]
  simp only [hsome]

end RegisterFile

/-- Operands, modifiers, register files and traces, and what stands inside of these, are saved in
their shapes. What is written of a value is read as this value; of a trace only if each index has at
most 64 bits, which those that are read do. What is read is read again from what is written of it,
the normal form of what was read: missing segments are null there and other members are dropped. No
misfit is read. -/
theorem saved_forms :
    Operand.shape.Saves (fun _ => True) Operand.toJson Operand.ofJson? ∧
    Modifiers.shape.Saves (fun _ => True) Modifiers.toJson Modifiers.ofJson? ∧
    RegisterFile.shape.Saves (fun _ => True) RegisterFile.toJson
      (fun j => (RegisterFile.ofJson j).toOption) ∧
    Trace.shape.Saves (fun t => ∀ e ∈ t.entries, e.index < UInt64.size) Trace.toJson Trace.ofJson? ∧
    TraceEntry.shape.Saves (fun e => e.index < UInt64.size) TraceEntry.toJson TraceEntry.ofJson? ∧
    Outcome.shape.Saves (fun _ => True) Outcome.toJson Outcome.ofJson? ∧
    SkipReason.shape.Saves (fun _ => True) SkipReason.toJson SkipReason.ofJson? ∧
    Shape.word.Saves (fun _ => True) (fun f : Flags => .nat f.bits.toNat)
      (fun j => j.uint16?.map Flags.mk) ∧
    Register.shape.Saves (fun _ => True) Register.toJson Register.ofJson? ∧
    SegmentRegister.shape.Saves (fun _ => True) SegmentRegister.toJson SegmentRegister.ofJson? ∧
    AddressBase.shape.Saves (fun _ => True) AddressBase.toJson AddressBase.ofJson? :=
  ⟨Operand.saves, Modifiers.saves, RegisterFile.saves, Trace.saves, TraceEntry.saves,
    Outcome.saves, SkipReason.saves, Flags.saves, Register.saves, SegmentRegister.saves,
    AddressBase.saves⟩

/-- An address without a segment and with a member that is no part, a trace with the last index, and
traces with an index below zero and with an outcome of no known name. -/
theorem saved_forms_of_parts :
    let address := Json.tagged "EffectiveAddress" (.object
      [("displacement", .integer (-32768)), ("size", .nat 2), ("base", .tagged "Bp" .null)])
    let trace : Trace := ⟨#[⟨UInt64.size - 1, .skipped .operand, ⟨0xFFFF⟩⟩]⟩
    (Operand.ofJson? address).map Operand.toJson = some (.tagged "EffectiveAddress" (.object
      [("base", .string "Bp"), ("displacement", .integer (-32768)), ("segment", .null)])) ∧
    Trace.ofJson? trace.toJson = some trace ∧
    Trace.ofJson? (.object [("entries", .list [.object [("index", .integer (-1))]])]) = none ∧
    Trace.ofJson? (.list [.list [.list [.nat 0, .tagged "Skipped" (.string "Other"), .nat 0]]]) =
      none := by
  intro address trace
  obtain ⟨hoperand, -, -, htrace, -⟩ := saved_forms
  refine ⟨(hoperand.map_write_read address).trans rfl, htrace.read_write trace (by decide),
    htrace.read_misfit _ ?_, htrace.read_misfit _ ?_⟩
  · refine .member (s := .list none TraceEntry.shape) List.mem_cons_self rfl ?_
    refine .item List.mem_cons_self ?_
    exact .member (s := .nat64) List.mem_cons_self rfl (.range (.inl (by decide)))
  · refine .part (s := .list none TraceEntry.shape) List.mem_cons_self ?_
    refine .item List.mem_cons_self ?_
    refine .part (s := Outcome.shape) (List.mem_cons_of_mem _ List.mem_cons_self) ?_
    exact .content (s := SkipReason.shape) (by decide) rfl (.name (by decide))

end I8086

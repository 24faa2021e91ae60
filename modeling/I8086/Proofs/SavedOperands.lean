import I8086.Proofs.Shape
import I8086.Saved.Instruction

/-!
# Saved operands and modifiers

The shapes of registers, operands and modifiers. Operands are variants; those in memory and far
targets have their parts as members of an object, where a missing segment counts as null. Main
statements: `Operand.saves` and `Modifiers.saves`, both types are saved in their shapes.
-/

namespace I8086

open Shape (Saves)

def Register.shape : Shape :=
  .variants (all.map id) []

def SegmentRegister.shape : Shape :=
  .variants (all.map id) []

def AddressBase.shape : Shape :=
  .variants (all.map id) []

lemma Register.saves : shape.Saves (fun _ => True) toJson ofJson? :=
  .names fun r => by cases r <;> rfl

lemma SegmentRegister.saves : shape.Saves (fun _ => True) toJson ofJson? :=
  .names fun s => by cases s <;> rfl

lemma AddressBase.saves : shape.Saves (fun _ => True) toJson ofJson? :=
  .names fun b => by cases b <;> rfl

variable {members : List (String × Json)}

@[simp] lemma Json.member?_object (name : String) :
    (Json.object members).member? name = members.lookup name := rfl

/-- What is written of the override that an object gives. -/
lemma map_overrideOfJson? : (overrideOfJson? (.object members)).map overrideToJson =
    (Shape.optional SegmentRegister.shape).normal? ((members.lookup "segment").getD .null) := by
  rw [overrideOfJson?, Json.member?_object]
  cases members.lookup "segment" with
  | none =>
    simp only [Option.getD_none, Shape.normal?]
    rfl
  | some j =>
    -- Null is no segment register, so the reader tells it from the other values first.
    cases j with
    | null =>
      simp only [Option.getD_some, Shape.normal?]
      rfl
    | _ =>
      simp only [Option.getD_some, Shape.normal?, ← SegmentRegister.saves.map_write_read,
        Option.map_map]
      rfl

/-- An override is read from what is written of it. -/
lemma overrideOfJson?_of_lookup (override : Option SegmentRegister)
    (h : members.lookup "segment" = some (overrideToJson override)) :
    overrideOfJson? (.object members) = some override := by
  rw [overrideOfJson?, Json.member?_object, h]
  cases override with
  | none => rfl
  | some s => exact congrArg (Option.map some) (SegmentRegister.saves.read_write s trivial)

namespace Operand

/-- The parts of an address with a base. -/
def basedParts : List (String × Shape) :=
  [("base", AddressBase.shape), ("displacement", .int16),
   ("segment", .optional SegmentRegister.shape)]

/-- The parts of a fixed address. -/
def directParts : List (String × Shape) :=
  [("address", .word), ("segment", .optional SegmentRegister.shape)]

/-- The parts of a far target. -/
def farParts : List (String × Shape) :=
  [("ip", .int16), ("cs", .int16)]

/-- What the variants with content hold. -/
def contents : List (String × Shape) :=
  [("Label", .int8), ("Immediate", .int16), ("Register", Register.shape),
   ("SegmentRegister", SegmentRegister.shape), ("EffectiveAddress", .record false basedParts),
   ("DirectAccess", .record false directParts), ("FarProc", .record false farParts)]

def shape : Shape :=
  .variants ["Accumulator"] contents

-- Here `simp` reads the contents of variants.
attribute [local simp] ofTagged?

lemma map_ofTagged?_based (content : Json) : (ofTagged? content "EffectiveAddress").map toJson =
    ((Shape.record false basedParts).normal? content).map (.tagged "EffectiveAddress") := by
  have hbase := AddressBase.saves.map_bind_read nofun
  have hdisplacement := Saves.int16.map_bind_read nofun
  cases content with
  | object members =>
    simp only [basedParts, Shape.normal?_object, List.map_cons, List.map_nil,
      Shape.normalParts?_cons, Shape.normalParts?_nil, ← hbase, ← hdisplacement,
      ← map_overrideOfJson?]
    simp [Option.map_bind, Option.bind_map, Option.bind_assoc, Function.comp_def, toJson,
      Json.sorted]
  | _ => rfl

lemma map_ofTagged?_direct (content : Json) : (ofTagged? content "DirectAccess").map toJson =
    ((Shape.record false directParts).normal? content).map (.tagged "DirectAccess") := by
  have haddress := Saves.word.map_bind_read nofun
  cases content with
  | object members =>
    simp only [directParts, Shape.normal?_object, List.map_cons, List.map_nil,
      Shape.normalParts?_cons, Shape.normalParts?_nil, ← haddress, ← map_overrideOfJson?]
    simp [Option.map_bind, Option.bind_map, Option.bind_assoc, Function.comp_def, toJson,
      Json.sorted]
  | _ => rfl

lemma map_ofTagged?_far (content : Json) : (ofTagged? content "FarProc").map toJson =
    ((Shape.record false farParts).normal? content).map (.tagged "FarProc") := by
  have hword := Saves.int16.map_bind_read nofun
  cases content with
  | object members =>
    simp only [farParts, Shape.normal?_object, List.map_cons, List.map_nil,
      Shape.normalParts?_cons, Shape.normalParts?_nil, ← hword]
    simp [Option.map_bind, Option.bind_map, Option.bind_assoc, Function.comp_def, toJson,
      Json.sorted]
  | _ => rfl

/-- What is written of an operand that was read from the content of a variant. -/
lemma map_ofTagged? (content : Json) (name : String) : (ofTagged? content name).map toJson =
    ((contents.lookup name).bind (·.normal? content)).map (.tagged name) := by
  unfold ofTagged?
  split
  case h_1 =>
    refine Saves.int8.map_tagged ?_ content
    exact fun _ => rfl
  case h_2 =>
    refine Saves.int16.map_tagged ?_ content
    exact fun _ => rfl
  case h_3 =>
    refine Register.saves.map_tagged ?_ content
    exact fun _ => rfl
  case h_4 =>
    refine SegmentRegister.saves.map_tagged ?_ content
    exact fun _ => rfl
  case h_5 => exact map_ofTagged?_based content
  case h_6 => exact map_ofTagged?_direct content
  case h_7 => exact map_ofTagged?_far content
  case h_8 hlabel himmediate hregister hsegment hbased hdirect hfar =>
    have hname : contents.lookup name = none := by
      rw [List.lookup_eq_none_iff]
      simp only [contents, List.forall_mem_cons, bne_iff_ne]
      exact ⟨hlabel, himmediate, hregister, hsegment, hbased, hdirect, hfar, nofun⟩
    rw [hname]
    rfl

/-- A variant with content is read by its name. -/
lemma ofJson?_tagged {content : Json} {name : String} (h : name ≠ "Accumulator") :
    ofJson? (.tagged name content) = ofTagged? content name := by
  have htag : (Json.tagged name content).tag? ≠ some "Accumulator" := by
    intro htag
    cases content <;> cases htag
    exact h rfl
  rw [ofJson?, if_neg htag]
  rfl

lemma ofJson?_toJson (x : Operand) : ofJson? x.toJson = some x := by
  cases x with
  | accumulator => rfl
  | label offset => exact congrArg (Option.map label) (Saves.int8.read_write offset trivial)
  | immediate value => exact congrArg (Option.map immediate) (Saves.int16.read_write value trivial)
  | register r => exact congrArg (Option.map register) (Register.saves.read_write r trivial)
  | segment s => exact congrArg (Option.map segment) (SegmentRegister.saves.read_write s trivial)
  | memory address override =>
    cases address with
    | based base displacement =>
      have hbase := AddressBase.saves.read_write base trivial
      have hdisplacement := Saves.int16.read_write displacement trivial
      rw [toJson, ofJson?_tagged (by decide)]
      simp [List.lookup_cons, hbase, hdisplacement, overrideOfJson?_of_lookup override]
    | direct address =>
      have haddress := Saves.word.read_write address trivial
      rw [toJson, ofJson?_tagged (by decide)]
      simp [List.lookup_cons, haddress, overrideOfJson?_of_lookup override]
  | far ip cs =>
    have hip := Saves.int16.read_write ip trivial
    have hcs := Saves.int16.read_write cs trivial
    rw [toJson, ofJson?_tagged (by decide)]
    simp [List.lookup_cons, hip, hcs]

/-- Operands are saved in their shape. -/
lemma saves : shape.Saves (fun _ => True) toJson ofJson? := by
  refine .of_normal (fun x _ => ofJson?_toJson x) (fun _ _ _ => trivial) fun j => ?_
  by_cases h : j.tag? = some "Accumulator"
  · rw [ofJson?, if_pos h, shape, Shape.normal?_plain h (List.mem_singleton_self _)]
    rfl
  · rw [ofJson?, if_neg h, shape, Shape.normal?_variants (by simpa using h), Option.map_bind]
    congr 1
    funext ⟨name, content⟩
    exact map_ofTagged? content name

end Operand

/-- The normal form of named truth values. -/
lemma normalParts?_truth (names : List String) (js : List Json) :
    Shape.normalParts? (names.map fun name => (name, .truth)) js =
      (js.mapM Json.bool?).bind fun bits =>
        if bits.length = names.length then some (names.zip (bits.map .bool)) else none := by
  induction names generalizing js with
  | nil =>
    cases js with
    | nil => rfl
    | cons j js =>
      rw [List.mapM_cons]
      cases j.bool? with
      | none => rfl
      | some bit => cases js.mapM Json.bool? <;> rfl
  | cons name names ih =>
    cases js with
    | nil => rfl
    | cons j js =>
      rw [List.map_cons, Shape.normalParts?_cons, ← Saves.truth.map_write_read, ih, List.mapM_cons]
      cases j.bool? with
      | none => rfl
      | some bit =>
        cases js.mapM Json.bool? with
        | none => rfl
        | some bits => by_cases h : bits.length = names.length <;> simp [h]

namespace Modifiers

/-- The names of the modifiers, in the order of the structure. -/
def names : List String :=
  ["wide", "dest", "locked", "repeated", "string_op", "far"]

def shape : Shape :=
  .record true (names.map fun name => (name, .truth))

lemma map_ofBits? (bits : List Bool) : (ofBits? bits).map toJson =
    (if bits.length = names.length then some (names.zip (bits.map .bool)) else none).map
      .sorted := by
  match bits with
  | [wide, dest, locked, repeated, stringOp, far] => simp [ofBits?, names, toJson, Json.sorted]
  | [] | [_] | [_, _] | [_, _, _] | [_, _, _, _] | [_, _, _, _, _] => rfl
  | _ :: _ :: _ :: _ :: _ :: _ :: _ :: _ => simp [ofBits?, names]

/-- What is written of modifiers that were read from one value for each. -/
lemma map_mapM_bool? (js : List Json) : ((js.mapM Json.bool?).bind ofBits?).map toJson =
    (Shape.normalParts? (names.map fun name => (name, .truth)) js).map .sorted := by
  rw [normalParts?_truth, Option.map_bind, Option.map_bind]
  congr 1
  funext bits
  exact map_ofBits? bits

lemma ofJson?_object : ofJson? (.object members) =
    ((names.map fun name => (members.lookup name).getD .null).mapM Json.bool?).bind ofBits? := by
  have hread : (fun name => ((Json.object members).member? name).bind Json.bool?) =
      fun name => ((members.lookup name).getD .null).bool? := by
    funext name
    rw [Json.member?_object]
    cases members.lookup name <;> rfl
  rw [List.mapM_map, ofJson?, hread]
  · rfl
  · nofun

/-- Modifiers are saved in their shape. -/
lemma saves : shape.Saves (fun _ => True) toJson ofJson? := by
  refine .of_normal (fun m _ => ?_) (fun _ _ _ => trivial) fun j => ?_
  · obtain ⟨width, dest, locked, repeated, stringOp, far⟩ := m
    cases width <;> rfl
  · cases j with
    | object members =>
      rw [shape, Shape.normal?_object, ofJson?_object]
      exact map_mapM_bool? _
    | list js =>
      simp only [shape, Shape.normal?]
      exact map_mapM_bool? js
    | _ => rfl

end Modifiers

end I8086

import I8086.Saved.Tagged
import Mathlib.Data.List.Sort
import Mathlib.Tactic.Lemma

/-!
# Shapes of saved values

A `Shape` says how the values of a type are saved: as numbers within bounds, as lists, as records
with named parts, or as variants told by their names. `Shape.normal?` is the normal form of a value
of a shape; a value that the shape does not allow has none. `Shape.Misfit` lists the ways to miss a
shape, at any depth. `Shape.Saves` says that a type is saved in a shape: written values are read as
they were, reading and writing again gives the normal form, and misfits are not read. Main
statements: `Misfit.normal?_eq_none`, no misfit has a normal form; `Saves.of_normal`, a type is
saved in a shape if writing what was read gives the normal form; `Saves.names` and `Saves.number`,
the shapes of enumerations and of numbers.
-/

namespace I8086

/-- An object with members in the order of their names. -/
def Json.sorted (members : List (String × Json)) : Json :=
  .object (members.insertionSort fun m m' => m.1 ≤ m'.1)

/-- How the values of a type are saved. -/
inductive Shape where
  /-- A truth value. -/
  | truth
  /-- An integer between two bounds. -/
  | number (low high : Int)
  /-- A value, or null. -/
  | optional (value : Shape)
  /-- A list of values of one shape, of a given length if there is one. -/
  | list (size : Option Nat) (item : Shape)
  /-- An object with a member for each part; if `positional`, also a list of the parts in order. -/
  | record (positional : Bool) (parts : List (String × Shape))
  /-- One of several variants: a name alone, or a name with content. -/
  | variants (plain : List String) (tagged : List (String × Shape))

namespace Shape

mutual

/-- The normal form of a value of a shape. A part that is missing counts as null, members that are
no parts are dropped, and a plain name that is written as a member, null, stands alone again. -/
def normal? : Shape → Json → Option Json
  | truth, .bool value => some (.bool value)
  | number low high, .integer n => if low ≤ n ∧ n ≤ high then some (.integer n) else none
  | optional _, .null => some .null
  | optional value, j => normal? value j
  | list size item, .list js =>
    if size.all (· = js.length) then (js.mapM (normal? item)).map .list else none
  | record _ parts, .object members =>
    (normalParts? parts (parts.map fun part => (members.lookup part.1).getD .null)).map .sorted
  | record true parts, .list js => (normalParts? parts js).map .sorted
  | variants plain tagged, j =>
    match j.tag?.filter (· ∈ plain) with
    | some name => some (.string name)
    | none => j.tagged?.bind fun (name, content) =>
      (normalContent? tagged name content).map (.tagged name)
  | _, _ => none

/-- The parts of a record in normal form, from one value for each. -/
def normalParts? : List (String × Shape) → List Json → Option (List (String × Json))
  | [], [] => some []
  | (name, s) :: parts, j :: js => do
    return (name, ← normal? s j) :: (← normalParts? parts js)
  | _, _ => none

/-- The content of a variant with a given name in normal form. -/
def normalContent? : List (String × Shape) → String → Json → Option Json
  | [], _, _ => none
  | (known, s) :: tagged, name, j =>
    if name == known then normal? s j else normalContent? tagged name j

end

/-- The ways to miss a shape: a number out of its bounds or one that is no integer, a name that no
variant has, an object that does not have one member where a variant is looked for, a part that is
missing, a list of another length; and all of these inside of a value. -/
inductive Misfit : Shape → Json → Prop where
  | range {low high n} (h : n < low ∨ high < n) : Misfit (number low high) (.integer n)
  | real {low high negative x} : Misfit (number low high) (.real negative x)
  | name {plain tagged name} (h : name ∉ plain) : Misfit (variants plain tagged) (.string name)
  | tag {plain tagged name content} (hplain : name ∉ plain)
      (htagged : tagged.lookup name = none) :
      Misfit (variants plain tagged) (.tagged name content)
  | members {plain tagged members} (h : members.length ≠ 1) :
      Misfit (variants plain tagged) (.object members)
  | missing {positional parts members name s} (hpart : (name, s) ∈ parts)
      (hs : ∀ value, s ≠ optional value) (h : members.lookup name = none) :
      Misfit (record positional parts) (.object members)
  | count {positional parts js} (h : js.length ≠ parts.length) :
      Misfit (record positional parts) (.list js)
  | length {size item js} (h : js.length ≠ size) : Misfit (list (some size) item) (.list js)
  -- A misfit inside of a value is one of the value.
  | value {s j} (hj : j ≠ .null) (h : Misfit s j) : Misfit (optional s) j
  | item {size s js j} (hj : j ∈ js) (h : Misfit s j) : Misfit (list size s) (.list js)
  | member {positional parts members name s j} (hpart : (name, s) ∈ parts)
      (hj : members.lookup name = some j) (h : Misfit s j) :
      Misfit (record positional parts) (.object members)
  | part {positional parts js name s j} (hpart : ((name, s), j) ∈ parts.zip js)
      (h : Misfit s j) : Misfit (record positional parts) (.list js)
  | content {plain tagged name s j} (hplain : name ∉ plain)
      (htagged : tagged.lookup name = some s) (h : Misfit s j) :
      Misfit (variants plain tagged) (.tagged name j)

variable {α β : Type} {s : Shape} {parts tagged : List (String × Shape)} {plain : List String}
  {js : List Json} {j : Json} {members : List (String × Json)} {positional : Bool} {name : String}

-- Here `simp` computes normal forms.
attribute [local simp] normal? normalParts? normalContent?

lemma normal?_object : (record positional parts).normal? (.object members) =
    (normalParts? parts (parts.map fun part => (members.lookup part.1).getD .null)).map
      .sorted := by
  simp only [normal?]

/-- Only optional values may be null. -/
lemma normal?_null (hs : ∀ value, s ≠ optional value) : s.normal? .null = none := by
  cases s with
  | optional value => exact (hs value rfl).elim
  | _ => simp [Json.tag?, Json.tagged?]

lemma normalContent?_eq :
    normalContent? tagged name j = (tagged.lookup name).bind (·.normal? j) := by
  induction tagged with
  | nil => rfl
  | cons part tagged ih =>
    obtain ⟨known, s⟩ := part
    rw [normalContent?, List.lookup_cons, ih]
    cases name == known <;> rfl

/-- The normal form of a variant whose name stands alone. -/
lemma normal?_plain (h : j.tag? = some name) (hname : name ∈ plain) :
    (variants plain tagged).normal? j = some (.string name) := by
  have hplain : j.tag?.filter (· ∈ plain) = some name := by
    simp [h, Option.filter, hname]
  rw [normal?, hplain]

/-- The normal form of a value without the names that stand alone. -/
lemma normal?_variants (h : ∀ name ∈ plain, j.tag? ≠ some name) :
    (variants plain tagged).normal? j = j.tagged?.bind fun (name, content) =>
      ((tagged.lookup name).bind (·.normal? content)).map (.tagged name) := by
  have hplain : j.tag?.filter (· ∈ plain) = none := by
    rw [Option.filter_eq_none_iff]
    intro name hname hmem
    exact h name (of_decide_eq_true hmem) hname
  rw [normal?, hplain]
  simp only [normalContent?_eq]

/-- The normal form of a variant with content. -/
lemma normal?_tagged (h : name ∉ plain) : (variants plain tagged).normal? (.tagged name j) =
    ((tagged.lookup name).bind (·.normal? j)).map (.tagged name) := by
  refine normal?_variants fun name' hname' htag => ?_
  have hname : name = name' := by
    cases j <;> cases htag
    rfl
  exact h (hname ▸ hname')

lemma normalParts?_nil : normalParts? [] [] = some [] := by
  rw [normalParts?]

lemma normalParts?_cons : normalParts? ((name, s) :: parts) (j :: js) =
    (s.normal? j).bind fun k => (normalParts? parts js).map ((name, k) :: ·) := by
  rw [normalParts?]
  cases s.normal? j with
  | none => rfl
  | some k => cases normalParts? parts js <;> rfl

/-- A record needs as many values as it has parts. -/
lemma normalParts?_of_length (h : js.length ≠ parts.length) : normalParts? parts js = none := by
  induction parts generalizing js with
  | nil =>
    cases js with
    | nil => exact (h rfl).elim
    | cons j js => rfl
  | cons part parts ih =>
    cases js with
    | nil => rfl
    | cons j js =>
      have hrest : js.length ≠ parts.length := fun hlen => h (congrArg (· + 1) hlen)
      simp [ih hrest]

/-- A record needs a normal form of each part. -/
lemma normalParts?_of_mem (hpart : ((name, s), j) ∈ parts.zip js) (h : s.normal? j = none) :
    normalParts? parts js = none := by
  induction parts generalizing js with
  | nil => cases hpart
  | cons part parts ih =>
    obtain _ | ⟨j', js⟩ := js
    · cases hpart
    obtain hpart | hpart := List.mem_cons.1 hpart
    · cases hpart
      simp [h]
    · simp [ih hpart]

/-- A list of results needs each of them. -/
lemma mapM_of_mem {f : α → Option β} {xs : List α} {x : α} (hx : x ∈ xs) (h : f x = none) :
    xs.mapM f = none := by
  induction xs with
  | nil => cases hx
  | cons y ys ih =>
    rw [List.mapM_cons]
    obtain rfl | hx := List.mem_cons.1 hx
    · rw [h]
      rfl
    · rw [ih hx]
      cases f y <;> rfl

/-- An object needs a normal form of each part of the record. -/
lemma normal?_object_of_mem (hpart : (name, s) ∈ parts)
    (h : s.normal? ((members.lookup name).getD .null) = none) :
    (record positional parts).normal? (.object members) = none := by
  have hmem : ((name, s), (members.lookup name).getD .null) ∈
      parts.zip (parts.map fun part => (members.lookup part.1).getD .null) := by
    rw [← List.map_prod_left_eq_zip]
    exact List.mem_map_of_mem hpart
  rw [normal?_object, normalParts?_of_mem hmem h]
  rfl

/-- A list that does not give the parts has no normal form. -/
lemma normal?_list_of_parts (h : normalParts? parts js = none) :
    (record positional parts).normal? (.list js) = none := by
  cases positional with
  | false => simp only [normal?]
  | true => simp only [normal?, h, Option.map_none]

/-- No misfit has a normal form. -/
theorem Misfit.normal?_eq_none (h : Misfit s j) : s.normal? j = none := by
  induction h with
  | range h =>
    rw [normal?, if_neg]
    omega
  | real => rfl
  | name h => simp [Json.tag?, Json.tagged?, Option.filter, h]
  | tag hplain htagged =>
    rw [normal?_tagged hplain, htagged]
    rfl
  | @members _ _ members h =>
    obtain _ | ⟨m, _ | ⟨m', members⟩⟩ := members
    · simp [Json.tag?, Json.tagged?]
    · exact (h rfl).elim
    · simp [Json.tag?, Json.tagged?]
  | missing hpart hs h =>
    refine normal?_object_of_mem hpart ?_
    rw [h]
    exact normal?_null hs
  | count h => exact normal?_list_of_parts (normalParts?_of_length h)
  | length h => simp [Ne.symm h]
  | @value s j hj h ih =>
    cases j with
    | null => exact (hj rfl).elim
    | _ => simpa only [normal?] using ih
  | item hj h ih => simp [mapM_of_mem hj ih]
  | member hpart hj h ih =>
    refine normal?_object_of_mem hpart ?_
    rwa [hj]
  | part hpart h ih => exact normal?_list_of_parts (normalParts?_of_mem hpart ih)
  | content hplain htagged h ih =>
    rw [normal?_tagged hplain, htagged, Option.bind_some, ih]
    rfl

/-- A type is saved in a shape: `write` gives what is saved of a value, `read` the value of what was
saved, and all `valid` values of the type are saved. -/
structure Saves (s : Shape) (valid : α → Prop) (write : α → Json) (read : Json → Option α) :
    Prop where
  /-- What is written of a value is read as this value. -/
  read_write : ∀ x, valid x → read (write x) = some x
  /-- What is read is a valid value, and is read again from what is written of it. -/
  read_again : ∀ j x, read j = some x → valid x ∧ read (write x) = some x
  /-- Writing what was read gives the normal form. -/
  map_write_read : ∀ j, (read j).map write = s.normal? j
  /-- Misfits are not read. -/
  read_misfit : ∀ j, s.Misfit j → read j = none

namespace Saves

variable {valid : α → Prop} {write : α → Json} {read : Json → Option α}

/-- A type is saved in a shape if written values are read as they were and if reading, which gives
only valid values, and writing again gives the normal form. -/
lemma of_normal (hwrite : ∀ x, valid x → read (write x) = some x)
    (hvalid : ∀ j x, read j = some x → valid x)
    (hnormal : ∀ j, (read j).map write = s.normal? j) : s.Saves valid write read where
  read_write := hwrite
  read_again j x h := ⟨hvalid j x h, hwrite x (hvalid j x h)⟩
  map_write_read := hnormal
  read_misfit j h := Option.map_eq_none_iff.1 ((hnormal j).trans h.normal?_eq_none)

/-- An enumeration is saved by the names of its values. -/
lemma names {all : List α} {id : α → String} (hid : ∀ a, all.find? (id · == id a) = some a) :
    (variants (all.map id) []).Saves (fun _ => True) (fun a => .string (id a))
      (fun j => j.tag?.bind fun name => all.find? (id · == name)) := by
  refine of_normal (fun a _ => hid a) (fun _ _ _ => trivial) fun j => ?_
  have hcontent : (j.tagged?.bind fun (name, content) =>
      (normalContent? [] name content).map (Json.tagged name)) = none :=
    Option.bind_eq_none_iff.2 fun _ _ => rfl
  rw [normal?, hcontent]
  cases j.tag? with
  | none => rfl
  | some name =>
    by_cases hname : name ∈ all.map id
    · obtain ⟨a, -, rfl⟩ := List.mem_map.1 hname
      simp [Option.filter, hname, hid]
    · have hfind : all.find? (id · == name) = none := by
        rw [List.find?_eq_none]
        intro a ha heq
        exact hname (List.mem_map.2 ⟨a, ha, by simpa using heq⟩)
      simp [Option.filter, hname, hfind]

/-- A type of numbers is saved by the integers that they are. -/
lemma number {low high : Int} {ofInt : Int → α} {toInt : α → Int}
    (hto : ∀ a, valid a → (low ≤ toInt a ∧ toInt a ≤ high) ∧ ofInt (toInt a) = a)
    (hof : ∀ n, low ≤ n ∧ n ≤ high → valid (ofInt n) ∧ toInt (ofInt n) = n) :
    (number low high).Saves valid (fun a => .integer (toInt a))
      (fun j => (j.integer? low high).map ofInt) := by
  refine of_normal (fun a ha => ?_) (fun j a h => ?_) fun j => ?_
  · rw [Json.integer?, if_pos (hto a ha).1, Option.map_some, (hto a ha).2]
  · obtain ⟨n, hn, rfl⟩ := Option.map_eq_some_iff.1 h
    cases j with
    | integer m =>
      rw [Json.integer?] at hn
      split at hn
      case isTrue hm =>
        cases hn
        exact (hof _ hm).1
      case isFalse => cases hn
    | _ => cases hn
  · cases j with
    | integer n =>
      rw [Json.integer?, normal?]
      split
      case isTrue hn => simp only [Option.map_some, (hof n hn).2]
      case isFalse => rfl
    | _ => rfl

variable (h : s.Saves valid write read)

include h

/-- A member that is missing is not read, and counts as null. -/
lemma map_bind_read (hs : ∀ value, s ≠ optional value) (m : Option Json) :
    (m.bind read).map write = s.normal? (m.getD .null) := by
  cases m with
  | none => exact (normal?_null hs).symm
  | some j => exact h.map_write_read j

/-- A variant whose content is read is written with what is written of the content. -/
lemma map_tagged {f : α → β} {write' : β → Json} (hf : ∀ x, write' (f x) = .tagged name (write x))
    (j : Json) : ((read j).map f).map write' = (s.normal? j).map (.tagged name) := by
  rw [← h.map_write_read, Option.map_map, Option.map_map]
  exact congrArg (Option.map · _) (funext hf)

/-- A list that is written item by item is read item by item. -/
lemma mapM_read_map {xs : List α} (hxs : ∀ x ∈ xs, valid x) :
    (xs.map write).mapM read = some xs := by
  induction xs with
  | nil => rfl
  | cons x xs ih =>
    rw [List.map_cons, List.mapM_cons, h.read_write x (hxs x List.mem_cons_self),
      ih fun y hy => hxs y (List.mem_cons_of_mem _ hy)]
    rfl

/-- The items that are read are valid. -/
lemma valid_of_mapM {xs : List α} (hxs : js.mapM read = some xs) : ∀ x ∈ xs, valid x := by
  induction js generalizing xs with
  | nil =>
    cases hxs
    exact fun x hx => (nomatch hx)
  | cons j js ih =>
    rw [List.mapM_cons] at hxs
    obtain ⟨x, hx, hxs⟩ := Option.bind_eq_some_iff.1 hxs
    obtain ⟨ys, hys, hxs⟩ := Option.bind_eq_some_iff.1 hxs
    cases hxs
    exact List.forall_mem_cons.2 ⟨(h.read_again j x hx).1, ih hys⟩

/-- Writing the items that were read gives their normal forms. -/
lemma map_mapM_read (js : List Json) : (js.mapM read).map (·.map write) = js.mapM s.normal? := by
  induction js with
  | nil => rfl
  | cons j js ih =>
    rw [List.mapM_cons, List.mapM_cons, ← ih, ← h.map_write_read j]
    cases read j with
    | none => rfl
    | some x => cases js.mapM read <;> rfl

end Saves

/-- A signed byte. -/
def int8 : Shape :=
  .number (-128) 127

/-- A signed word. -/
def int16 : Shape :=
  .number (-32768) 32767

/-- A word. -/
def word : Shape :=
  .number 0 65535

/-- A natural number of at most 64 bits. -/
def nat64 : Shape :=
  .number 0 18446744073709551615

lemma Saves.truth : truth.Saves (fun _ => True) Json.bool Json.bool? := by
  refine .of_normal (fun _ _ => rfl) (fun _ _ _ => trivial) fun j => ?_
  cases j <;> rfl

lemma Saves.int8 :
    int8.Saves (fun _ => True) (fun x : Int8 => .integer x.toInt) Json.int8? := by
  refine .number (fun x _ => ⟨⟨x.le_toInt, Int.le_of_lt_add_one x.toInt_lt⟩, x.ofInt_toInt⟩) ?_
  intro n hn
  exact ⟨trivial, Int8.toInt_ofInt_of_le hn.1 (Int.lt_add_one_of_le hn.2)⟩

lemma Saves.int16 :
    int16.Saves (fun _ => True) (fun x : Int16 => .integer x.toInt) Json.int16? := by
  refine .number (fun x _ => ⟨⟨x.le_toInt, Int.le_of_lt_add_one x.toInt_lt⟩, x.ofInt_toInt⟩) ?_
  intro n hn
  exact ⟨trivial, Int16.toInt_ofInt_of_le hn.1 (Int.lt_add_one_of_le hn.2)⟩

lemma Saves.word :
    word.Saves (fun _ => True) (fun x : UInt16 => .nat x.toNat) Json.uint16? := by
  refine .number (fun x _ => ?_) fun n hn => ?_
  · have hx := x.toNat_lt
    exact ⟨by omega, UInt16.ofNat_toNat⟩
  · refine ⟨trivial, ?_⟩
    rw [UInt16.toNat_ofNat']
    omega

lemma Saves.nat64 : nat64.Saves (· < UInt64.size) Json.nat Json.nat64? := by
  unfold UInt64.size
  refine .number (fun n hn => ?_) fun n hn => ?_
  · exact ⟨by omega, Int.toNat_natCast n⟩
  · omega

end Shape

end I8086

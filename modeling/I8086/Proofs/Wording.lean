import I8086.Listing
import I8086.Proofs.Execution
import I8086.Proofs.Text
import I8086.Proofs.WellFormed

/-!
# The wording of instructions

What the text of an instruction tells about it. Operands are written without commas and those
outside memory without blanks, so the text splits into the words in front, the first operand and the
second. Main statements: `Instruction.text_inj`, instructions with the same text agree in all of
these; `Chunk.op_eq_of_word_eq`, decoded instructions with the same word have the same operation;
`Operand.location?_eq_of_text_eq`, operands with the same text name the same place in the register
file.
-/

namespace I8086

variable {labels : LabelTable} {index : Int} {w w' : Width} {sized sized' : Bool} {x y : Operand}
variable {l : Location} {n : Nat} {c : Char}

/-- The characters of operands outside memory. -/
def isWordChar (c : Char) : Bool :=
  (c.isAlphanum && c != 'f') || c ∈ ['-', ':', '?']

/-- The characters of operands. -/
def isOperandChar (c : Char) : Bool :=
  isWordChar c || c ∈ [' ', '[', ']', '+']

lemma isWordChar_of_isDigit (h : c.isDigit) : isWordChar c := by
  have hf : c ≠ 'f' := by
    rintro rfl
    exact absurd h (by decide)
  simp [isWordChar, Char.isAlphanum, h, hf]

lemma isOperandChar_of_isWordChar (h : isWordChar c) : isOperandChar c :=
  Bool.or_eq_true_iff.2 (.inl h)

/-- A signed numeral is a word. -/
lemma spelled_word_integer (z : Int) : Spelled isWordChar (toString z) := by
  refine (spelled_integer z).mono fun c hc => ?_
  obtain hc | hc := Bool.or_eq_true_iff.1 hc
  · exact isWordChar_of_isDigit hc
  · rw [eq_of_beq hc]
    decide

/-- The name of a label. -/
lemma labelName_eq (n : Nat) : labelName n = "label" ++ toString n := rfl

/-- The name of a label is a word. -/
lemma spelled_labelName (n : Nat) : Spelled isWordChar (labelName n) := by
  rw [labelName_eq, spelled_append]
  exact ⟨by decide, (spelled_natural n).mono fun c hc => isWordChar_of_isDigit hc⟩

/-- The name of a place in the register file. -/
def Location.name : Location → String
  | .register r => r.name
  | .segment s => s.name

/-- The name of a place consists of letters and is a word. -/
lemma Location.spelled_name (l : Location) :
    Spelled (fun c => c.isAlpha && isWordChar c) l.name := by
  cases l with
  | register r => cases r <;> decide
  | segment s => cases s <;> decide

/-- No two places have the same name. -/
lemma Location.name_injective : Function.Injective Location.name := by
  have hr : ∀ r : Register, Register.ofName? r.name = some r := fun r => by cases r <;> rfl
  have hs : ∀ s : SegmentRegister, SegmentRegister.ofName? s.name = some s := fun s => by
    cases s <;> rfl
  have hrs : ∀ (r : Register) (s : SegmentRegister), r.name ≠ s.name := fun r s => by
    cases s <;> cases r <;> decide
  intro l l' h
  cases l with
  | register r => cases l' with
    | register r' =>
      have := congrArg Register.ofName? h
      rw [Location.name, hr, Location.name, hr] at this
      exact congrArg Location.register (Option.some.inj this)
    | segment s => exact (hrs r s h).elim
  | segment s => cases l' with
    | register r => exact (hrs r s h.symm).elim
    | segment s' =>
      have := congrArg SegmentRegister.ofName? h
      rw [Location.name, hs, Location.name, hs] at this
      exact congrArg Location.segment (Option.some.inj this)

namespace Operand

/-- An operand in the register file has the name of its place. -/
lemma text_of_location? (h : x.location? w = some l) : x.text labels index w sized = l.name := by
  cases x with
  | accumulator | register | segment =>
    cases h
    rfl
  | _ => cases h

/-- An operand outside memory is one word. -/
lemma spelled_text (hx : ¬ x.isMemory) : Spelled isWordChar (x.text labels index w sized) := by
  have hlocation : ∀ l, x.location? w = some l →
      Spelled isWordChar (x.text labels index w sized) := fun l hl => by
    rw [text_of_location? hl]
    exact l.spelled_name.mono fun c hc => (Bool.and_eq_true_iff.1 hc).2
  cases x with
  | label offset =>
    unfold text
    dsimp only
    split
    · exact spelled_labelName _
    · decide
  | immediate value => exact spelled_word_integer _
  | accumulator | register | segment => exact hlocation _ rfl
  | memory address override => exact (hx rfl).elim
  | far ip cs =>
    show Spelled isWordChar (toString cs.toInt ++ ":" ++ toString ip.toInt)
    rw [spelled_append, spelled_append]
    exact ⟨⟨spelled_word_integer _, by decide⟩, spelled_word_integer _⟩

end Operand

/-- An address is written in brackets. -/
lemma Address.exists_text (a : Address) :
    ∃ inner, a.text = "[" ++ inner ++ "]" ∧ Spelled isOperandChar inner := by
  have hname : ∀ b : AddressBase, Spelled isOperandChar b.name := fun b => by cases b <;> decide
  have hnat : ∀ n : Nat, Spelled isOperandChar (toString n) := fun n =>
    (spelled_natural n).mono fun c hc => isOperandChar_of_isWordChar (isWordChar_of_isDigit hc)
  have hint : ∀ z : Int, Spelled isOperandChar (toString z) := fun z =>
    (spelled_word_integer z).mono fun c hc => isOperandChar_of_isWordChar hc
  cases a with
  | based base displacement =>
    unfold text
    dsimp only
    split
    · refine ⟨base.name ++ (" + " ++ toString displacement.toInt), ?_, ?_⟩
      · show "[" ++ base.name ++ " + " ++ toString displacement.toInt ++ "]" = _
        simp only [String.append_assoc]
      · rw [spelled_append, spelled_append]
        exact ⟨hname base, by decide, hint _⟩
    split
    · refine ⟨base.name ++ (" - " ++ toString displacement.toInt.natAbs), ?_, ?_⟩
      · show "[" ++ base.name ++ " - " ++ toString displacement.toInt.natAbs ++ "]" = _
        simp only [String.append_assoc]
      · rw [spelled_append, spelled_append]
        exact ⟨hname base, by decide, hnat _⟩
    · exact ⟨base.name, rfl, hname base⟩
  | direct address => exact ⟨toString address.toNat, rfl, hnat _⟩

namespace Operand

/-- The text of an operand in memory. -/
lemma text_memory (a : Address) (s : Option SegmentRegister) :
    (memory a s).text labels index w sized = (if sized then w.specifier ++ " " else "") ++
      (s.elim "" fun s => s.name ++ ":") ++ a.text := by
  cases s <;> rfl

/-- An operand in memory has an address. -/
lemma exists_of_isMemory (h : x.isMemory) : ∃ a s, x = memory a s := by
  cases x with
  | memory a s => exact ⟨a, s, rfl⟩
  | _ => cases h

/-- The characters of an operand. -/
lemma spelled_operand_text (x : Operand) :
    Spelled isOperandChar (x.text labels index w sized) := by
  by_cases hx : x.isMemory
  · obtain ⟨a, s, rfl⟩ := exists_of_isMemory hx
    obtain ⟨inner, ha, hinner⟩ := a.exists_text
    have hsize : Spelled isOperandChar (if sized then w.specifier ++ " " else "") := by
      revert sized w
      intro w sized
      cases sized <;> cases w <;> decide
    have hsegment : Spelled isOperandChar (s.elim "" fun s => s.name ++ ":") := by
      cases s with
      | none => decide
      | some s => cases s <;> decide
    rw [text_memory, ha]
    simp only [spelled_append]
    exact ⟨⟨hsize, hsegment⟩, ⟨by decide, hinner⟩, by decide⟩
  · exact (spelled_text hx).mono fun c hc => isOperandChar_of_isWordChar hc

/-- Exactly the operands in memory have a bracket. -/
lemma bracket_mem_text_iff (x : Operand) :
    '[' ∈ (x.text labels index w sized).toList ↔ x.isMemory := by
  by_cases hx : x.isMemory
  · obtain ⟨a, s, rfl⟩ := exists_of_isMemory hx
    obtain ⟨inner, ha, -⟩ := a.exists_text
    rw [text_memory, ha]
    simp [isMemory]
  · exact iff_of_false ((spelled_text hx).notMem (by decide)) hx

/-- Operands with the same text are both in memory or both not. -/
lemma isMemory_iff_of_text_eq (h : x.text labels index w sized = y.text labels index w' sized') :
    x.isMemory ↔ y.isMemory := by
  calc x.isMemory
      ↔ '[' ∈ (x.text labels index w sized).toList := (bracket_mem_text_iff x).symm
    _ ↔ '[' ∈ (y.text labels index w' sized').toList := by rw [h]
    _ ↔ y.isMemory := bracket_mem_text_iff y

/-- An operand in memory that shows its size has that of any other with the same text. -/
lemma width_eq_of_text_memory_eq (hx : x.isMemory)
    (h : x.text labels index w true = y.text labels index w' sized') : w = w' := by
  obtain ⟨a, s, rfl⟩ := exists_of_isMemory hx
  obtain ⟨a', s', rfl⟩ := exists_of_isMemory ((isMemory_iff_of_text_eq h).1 hx)
  obtain ⟨inner, ha', -⟩ := a'.exists_text
  rw [text_memory, text_memory, ha'] at h
  -- No segment register starts with the letter of a size.
  have hhead := congrArg (fun t : String => t.toList.head?) h
  revert hhead
  cases sized' <;> cases w <;> cases w' <;> try exact fun _ => rfl
  all_goals
    cases s' with
    | none => simp [Width.specifier]
    | some s' => cases s' <;> simp [Width.specifier, SegmentRegister.name]

/-- Operands with the same text that both name a place in the register file name the same. -/
lemma location?_eq_of_text_eq {l' : Location} (hx : x.location? w = some l)
    (hy : y.location? w' = some l')
    (h : x.text labels index w sized = y.text labels index w' sized') : l = l' := by
  rw [text_of_location? hx, text_of_location? hy] at h
  exact l.name_injective h

/-- An immediate is not written like a place in the register file. -/
lemma location?_eq_none_of_text_eq {value : Int16}
    (h : (immediate value).text labels index w sized = y.text labels index w' sized') :
    y.location? w' = none := by
  cases hy : y.location? w' with
  | none => rfl
  | some l =>
    have hv : Spelled (fun c => c.isDigit || c == '-') l.name := by
      rw [← text_of_location? hy, ← h]
      exact spelled_integer value.toInt
    exfalso
    revert hv
    cases l with
    | register r => cases r <;> decide
    | segment s => cases s <;> decide

end Operand

namespace Instruction

variable {i j : Instruction}

/-- The name of an instruction with the size of a string operation. -/
def word (i : Instruction) : String :=
  i.name ++ if i.modifiers.stringOp then (match i.width with | .byte => "b" | .word => "w") else ""

/-- Whether an instruction is shown to use a far pointer. -/
def showsFar (i : Instruction) : Bool :=
  i.modifiers.far && !i.namesFarTarget

/-- The text of the first operand. -/
def firstText (labels : LabelTable) (index : Int) (i : Instruction) : Option String :=
  i.first.map fun x => x.text labels index i.width i.firstSized

/-- The text of the second operand. -/
def secondText (labels : LabelTable) (index : Int) (i : Instruction) : Option String :=
  i.second.map fun x => x.text labels index i.width i.secondSized

/-- The text of an instruction up to the comma. -/
def front (labels : LabelTable) (index : Int) (i : Instruction) : String :=
  i.head ++ (i.firstText labels index).elim "" (" " ++ ·)

/-- The text goes on with a comma if there is a second operand. -/
lemma text_eq (labels : LabelTable) (index : Int) (i : Instruction) :
    i.text labels index =
      i.front labels index ++ (i.secondText labels index).elim "" (", " ++ ·) := by
  unfold text front firstText secondText
  cases i.first <;> cases i.second <;> rfl

/-- The words in front of the operands. -/
lemma head_eq (i : Instruction) :
    i.head = (if i.modifiers.locked then "lock " else "") ++
      ((if i.modifiers.repeated then "rep " else "") ++
        (i.word ++ if i.showsFar then " far" else "")) := by
  unfold head word showsFar
  simp only [String.append_assoc]
  rfl

/-- The name of an instruction is a word, and none of those that may stand in front of it. -/
structure Worded (i : Instruction) : Prop where
  /-- The name consists of letters and digits. -/
  spelled : Spelled Char.isAlphanum i.word
  /-- The name is not that of a modifier. -/
  not_modifier : i.word ∉ ["lock", "rep"]

/-- The operands are written as such. -/
lemma spelled_operandTexts (labels : LabelTable) (index : Int) (i : Instruction) :
    (∀ t ∈ i.firstText labels index, Spelled isOperandChar t) ∧
      ∀ t ∈ i.secondText labels index, Spelled isOperandChar t := by
  constructor
  all_goals
    intro t ht
    obtain ⟨x, -, rfl⟩ := Option.map_eq_some_iff.1 ht
    exact x.spelled_operand_text

/-- Up to the comma there are the characters of words and operands. -/
lemma Worded.spelled_front (h : i.Worded) :
    Spelled (fun c => c.isAlphanum || isOperandChar c) (i.front labels index) := by
  have hword : Spelled (fun c => c.isAlphanum || isOperandChar c) i.word :=
    h.spelled.mono fun c hc => Bool.or_eq_true_iff.2 (.inl hc)
  unfold front
  rw [head_eq]
  simp only [spelled_append]
  refine ⟨⟨?_, ?_, hword, ?_⟩, ?_⟩
  · cases i.modifiers.locked <;> decide
  · cases i.modifiers.repeated <;> decide
  · cases i.showsFar <;> decide
  · cases ht : i.firstText labels index with
    | none => decide
    | some t =>
      refine spelled_append.2 ⟨by decide, ?_⟩
      exact ((spelled_operandTexts labels index i).1 t ht).mono fun c hc =>
        Bool.or_eq_true_iff.2 (.inr hc)

/-- The parts of the text before and behind the comma. -/
lemma Worded.pieces_text (h : i.Worded) :
    pieces ',' (i.text labels index) =
      i.front labels index :: ((i.secondText labels index).map (" " ++ ·)).toList := by
  have hcomma : (i.secondText labels index).elim "" (", " ++ ·) =
      ((i.secondText labels index).map (" " ++ ·)).elim "" ("," ++ ·) := by
    cases i.secondText labels index with
    | none => rfl
    | some t =>
      simp only [Option.map_some, Option.elim_some, ← String.append_assoc]
      rfl
  rw [text_eq, hcomma, pieces_elim rfl (h.spelled_front.notMem (by decide))]
  cases ht : i.secondText labels index with
  | none => rfl
  | some t =>
    have hspelled : Spelled isOperandChar (" " ++ t) :=
      spelled_append.2 ⟨by decide, (spelled_operandTexts labels index i).2 t ht⟩
    exact congrArg _ (pieces_eq_singleton (hspelled.notMem (by decide)))

/-- The words up to the comma, those of the first operand among them. -/
lemma Worded.pieces_front (h : i.Worded) :
    pieces ' ' (i.front labels index) = (if i.modifiers.locked then ["lock"] else []) ++
      ((if i.modifiers.repeated then ["rep"] else []) ++
        (i.word :: ((if i.showsFar then ["far"] else []) ++
          (i.firstText labels index).elim [] (pieces ' ')))) := by
  have hblank : " ".toList = [' '] := rfl
  have hword : ' ' ∉ i.word.toList := h.spelled.notMem (by decide)
  have hfront : i.front labels index = (if i.modifiers.locked then "lock" ++ " " else "") ++
      ((if i.modifiers.repeated then "rep" ++ " " else "") ++
        (i.word ++ ((if i.showsFar then " " ++ "far" else "") ++
          (i.firstText labels index).elim "" (" " ++ ·)))) := by
    unfold front
    rw [head_eq]
    simp only [String.append_assoc]
    rfl
  rw [hfront, pieces_ite hblank (by decide), pieces_ite hblank (by decide)]
  cases i.showsFar with
  | false => rw [if_neg Bool.false_ne_true, String.empty_append, pieces_elim hblank hword]; rfl
  | true =>
    rw [if_pos rfl, String.append_assoc, pieces_append hblank hword, pieces_elim hblank (by decide)]
    rfl

/-- Two rows of words that may start with modifiers agree in all parts. -/
lemma words_inj {a b a' b' : Bool} {u u' : String} {us us' : List String}
    (hu : u ∉ ["lock", "rep"]) (hu' : u' ∉ ["lock", "rep"])
    (h : (if a then ["lock"] else []) ++ ((if b then ["rep"] else []) ++ (u :: us)) =
      (if a' then ["lock"] else []) ++ ((if b' then ["rep"] else []) ++ (u' :: us'))) :
    a = a' ∧ b = b' ∧ u = u' ∧ us = us' := by
  cases a <;> cases a' <;> cases b <;> cases b' <;> simp_all

/-- No operand is written with the word that shows a far pointer. -/
lemma pieces_elim_ne_far {text : Option String} (h : ∀ t ∈ text, Spelled isOperandChar t)
    (ts : List String) : text.elim [] (pieces ' ') ≠ "far" :: ts := by
  intro e
  cases text with
  | none => cases e
  | some t =>
    obtain ⟨rest, hrest⟩ := exists_append_of_pieces e
    have hf : 'f' ∈ t.toList := by simp [hrest]
    exact (h t rfl).notMem (by decide) hf

/-- Instructions with the same text agree in the words in front and in the texts of their
operands. -/
theorem text_inj (hi : i.Worded) (hj : j.Worded) (h : i.text labels index = j.text labels index) :
    i.modifiers.locked = j.modifiers.locked ∧ i.modifiers.repeated = j.modifiers.repeated ∧
      i.word = j.word ∧ i.showsFar = j.showsFar ∧
      i.firstText labels index = j.firstText labels index ∧
      i.secondText labels index = j.secondText labels index := by
  -- Both texts split at the same comma, and what is in front of it at the same blanks.
  have hcomma := congrArg (pieces ',') h
  rw [hi.pieces_text, hj.pieces_text] at hcomma
  obtain ⟨hfront, hsecond⟩ := List.cons.inj hcomma
  have hwords := congrArg (pieces ' ') hfront
  rw [hi.pieces_front, hj.pieces_front] at hwords
  obtain ⟨hlocked, hrepeated, hword, hrest⟩ := words_inj hi.not_modifier hj.not_modifier hwords
  -- A word that shows a far pointer cannot be taken for the start of an operand.
  have hfar := fun k : Instruction => pieces_elim_ne_far (spelled_operandTexts labels index k).1
  have hfirst : i.showsFar = j.showsFar ∧
      (i.firstText labels index).elim [] (pieces ' ') =
        (j.firstText labels index).elim [] (pieces ' ') := by
    cases hsi : i.showsFar <;> cases hsj : j.showsFar <;> rw [hsi, hsj] at hrest
    · exact ⟨rfl, hrest⟩
    · exact (hfar i _ hrest).elim
    · exact (hfar j _ hrest.symm).elim
    · exact ⟨rfl, (List.cons.inj hrest).2⟩
  have hblank : Function.Injective (" " ++ · : String → String) := fun s t e => by
    have hl := congrArg String.toList e
    simp only [String.toList_append, List.append_cancel_left_eq] at hl
    exact String.toList_inj.1 hl
  refine ⟨hlocked, hrepeated, hword, hfirst.1, elim_pieces_injective hfirst.2, ?_⟩
  have hmap := congrArg List.head? hsecond
  rw [Option.head?_toList, Option.head?_toList] at hmap
  exact Option.map_injective hblank hmap

end Instruction

namespace Mnemonic

/-- The identifier of an operation in small letters, which is the name of its instructions. -/
def letters (op : Mnemonic) : List Char :=
  op.id.toList.map Char.toLower

/-- The list of all operations is complete. -/
lemma mem_all (op : Mnemonic) : op ∈ all := by
  cases op <;> decide

/-- What stands behind the letters of an operation: the size of a string operation, or nothing. -/
def suffixes : List (List Char) :=
  [[], ['b'], ['w']]

/-- Operations are told apart by their letters. -/
lemma letters_injective : Function.Injective letters := by
  have hfind : ∀ op ∈ all, all.find? (fun o => o.letters == op.letters) = some op := by
    decide +kernel
  intro op op' h
  have hop := hfind op op.mem_all
  rw [h, hfind op' op'.mem_all] at hop
  exact (Option.some.inj hop).symm

/-- The letters of an operation with a size behind them are those of no other. -/
lemma letters_ne_append_singleton {op op' : Mnemonic} {c : Char} (hc : c ∈ ['b', 'w']) :
    op'.letters ≠ op.letters ++ [c] := by
  have hall : ∀ o' ∈ all, o'.letters.getLast? ∈ [some 'b', some 'w'] →
      ∀ o ∈ all, o.letters ≠ o'.letters.dropLast := by
    decide +kernel
  intro h
  apply hall op' op'.mem_all ?_ op op.mem_all
  · rw [h, List.dropLast_concat]
  · rw [h, List.getLast?_concat]
    exact List.mem_map_of_mem hc

/-- Operations are told apart by their letters, whatever stands behind these. -/
lemma eq_of_letters_append {op op' : Mnemonic} {size size' : List Char} (hs : size ∈ suffixes)
    (hs' : size' ∈ suffixes) (h : op.letters ++ size = op'.letters ++ size') : op = op' := by
  have hsize : ∀ size ∈ suffixes, size = [] ∨ ∃ c ∈ ['b', 'w'], size = [c] := by
    simp [suffixes]
  obtain rfl | ⟨c, hc, rfl⟩ := hsize size hs <;> obtain rfl | ⟨c', hc', rfl⟩ := hsize size' hs'
  · rw [List.append_nil, List.append_nil] at h
    exact letters_injective h
  · rw [List.append_nil] at h
    exact (letters_ne_append_singleton hc' h).elim
  · rw [List.append_nil] at h
    exact (letters_ne_append_singleton hc h.symm).elim
  · exact letters_injective (List.append_inj_left' h rfl)

/-- The letters of an operation are no modifier but that of its own, whatever size stands behind. -/
lemma letters_append (op : Mnemonic) : op.letters.all Char.isAlphanum ∧
    (op ≠ .lock → op ≠ .rep → ∀ size ∈ suffixes, ∀ m ∈ ["lock", "rep"],
      op.letters ++ size ≠ m.toList) := by
  have hall : ∀ op ∈ all, op.letters.all Char.isAlphanum ∧
      (op ≠ .lock → op ≠ .rep → ∀ size ∈ suffixes, ∀ m ∈ ["lock", "rep"],
        op.letters ++ size ≠ m.toList) := by
    decide +kernel
  exact hall op op.mem_all

end Mnemonic

namespace Chunk

/-- An instruction is named by the letters of its operation. -/
lemma toList_name (ch : Chunk) : ch.instruction.name.toList = ch.instruction.op.letters := by
  have hw := ch.wellFormed
  obtain ⟨q, b, v, f, -, -, hi⟩ := ch.exists_finish
  rw [hi, descriptorAt_eq_member] at hw ⊢
  obtain h | ⟨-, h⟩ | h := named_member b (registerField (v.headD 0))
  · exact (hw.form h).elim
  · refine (hw.op ?_).elim
    rw [show (q.finish _ f).op = .rep from h]
    decide
  · exact h

/-- The word of an instruction is made of the letters of its operation and a size. -/
lemma exists_word (ch : Chunk) : ∃ size ∈ Mnemonic.suffixes,
    ch.instruction.word.toList = ch.instruction.op.letters ++ size := by
  have hname := ch.toList_name
  generalize ch.instruction = i at hname
  unfold Instruction.word
  rw [String.toList_append, hname]
  cases i.modifiers.stringOp with
  | false => exact ⟨[], by decide, rfl⟩
  | true => cases i.width with
    | byte => exact ⟨['b'], by decide, rfl⟩
    | word => exact ⟨['w'], by decide, rfl⟩

/-- Decoded instructions with the same word have the same operation. -/
lemma op_eq_of_word_eq {c d : Chunk} (h : c.instruction.word = d.instruction.word) :
    c.instruction.op = d.instruction.op := by
  obtain ⟨size, hs, hc⟩ := c.exists_word
  obtain ⟨size', hs', hd⟩ := d.exists_word
  apply Mnemonic.eq_of_letters_append hs hs'
  rw [← hc, ← hd, h]

/-- The words of an instruction can be told apart. -/
lemma worded (ch : Chunk) : ch.instruction.Worded := by
  obtain ⟨size, hsize, hword⟩ := ch.exists_word
  have hop := ch.wellFormed.op
  generalize ch.instruction = i at hword hop
  obtain ⟨hletters, hmodifier⟩ := i.op.letters_append
  have hne : i.op ≠ .lock ∧ i.op ≠ .rep := by
    constructor <;> intro h <;> rw [h] at hop <;> exact hop (by decide)
  constructor
  case spelled =>
    have hsizes : ∀ size ∈ Mnemonic.suffixes, size.all Char.isAlphanum := by decide
    intro c hc
    rw [hword] at hc
    obtain hc | hc := List.mem_append.1 hc
    · exact List.all_eq_true.1 hletters c hc
    · exact List.all_eq_true.1 (hsizes size hsize) c hc
  case not_modifier =>
    intro hm
    apply hmodifier hne.1 hne.2 size hsize i.word hm
    exact hword.symm

end Chunk

end I8086

/-!
# Byte readers

A reader is a decision tree over bytes: it is finished with a value, or it waits for a byte and goes
on with the reader that the byte selects. It cannot look ahead, give a byte back or fail, so running
it on a stream ends in one of two ways: with a value and the unread rest, or because the stream ended
first. Main statement: `Reader.run_split`, a finished reader has split the bytes into those it read
and the rest.
-/

namespace I8086

/-- A place in a byte stream: how many bytes were read, and those that were not. -/
structure Cursor where
  /-- The number of bytes read. -/
  position : Nat
  /-- The bytes that follow. -/
  rest : List UInt8
  deriving DecidableEq, Inhabited

namespace Cursor

/-- The start of a stream. -/
def ofBytes (bytes : List UInt8) : Cursor :=
  ⟨0, bytes⟩

/-- Whether every byte was read. -/
def atEnd (c : Cursor) : Bool :=
  c.rest.isEmpty

end Cursor

/-- A decision tree over bytes. -/
inductive Reader (α : Type) where
  /-- The value is known. -/
  | done (value : α)
  /-- The next byte decides. -/
  | next (go : UInt8 → Reader α)

namespace Reader

variable {α β : Type}

/-- A reader followed by one that depends on its value. -/
def bind : Reader α → (α → Reader β) → Reader β
  | done a, f => f a
  | next go, f => next fun b => (go b).bind f

instance : Monad Reader where
  pure := done
  bind := bind

/-- Reads one byte. -/
def byte : Reader UInt8 :=
  next done

/-- Reads a signed byte. -/
def signedByte : Reader Int8 := do
  let b ← byte
  return b.toInt8

/-- The word with a given low and high byte. -/
def wordOfBytes (low high : UInt8) : UInt16 :=
  low.toUInt16 ||| (high.toUInt16 <<< (8 : UInt16))

/-- Reads a word, low byte first. -/
def word : Reader UInt16 := do
  let low ← byte
  let high ← byte
  return wordOfBytes low high

/-- Reads a signed word, low byte first. -/
def signedWord : Reader Int16 := do
  let w ← word
  return w.toInt16

/-- Gives a byte that was already read to a reader that may still wait for it. -/
def feed (b : UInt8) : Reader α → Reader α
  | done a => done a
  | next go => go b

/-- Runs a reader at a cursor. The error is the position at which a byte was missing. -/
def run : Reader α → Cursor → Except Nat (α × Cursor)
  | done a, c => .ok (a, c)
  | next _, ⟨p, []⟩ => .error p
  | next go, ⟨p, b :: bs⟩ => (go b).run ⟨p + 1, bs⟩

@[simp] theorem pure_eq (a : α) : (pure a : Reader α) = done a := rfl

@[simp] theorem bind_eq (r : Reader α) (f : α → Reader β) : (r >>= f) = r.bind f := rfl

@[simp] theorem run_done (a : α) (c : Cursor) : (done a).run c = .ok (a, c) := by
  cases c; rfl

/-- A finished reader has split the bytes: some were read, and the others are the rest. -/
theorem run_split {r : Reader α} {c d : Cursor} {a : α} (h : r.run c = .ok (a, d)) :
    ∃ used, c.rest = used ++ d.rest ∧ d.position = c.position + used.length := by
  induction r generalizing c with
  | done v =>
    rw [run_done] at h
    cases h
    exact ⟨[], rfl, rfl⟩
  | next go ih =>
    obtain ⟨p, bs⟩ := c
    cases bs with
    | nil => cases h
    | cons b bs =>
      obtain ⟨used, hrest, hpos⟩ := ih b h
      refine ⟨b :: used, congrArg (b :: ·) hrest, ?_⟩
      simp only [List.length_cons] at hpos ⊢
      omega

/-- A reader that starts with a byte leaves less than it found. -/
theorem length_rest_lt {go : UInt8 → Reader α} {c d : Cursor} {a : α}
    (h : (next go).run c = .ok (a, d)) : d.rest.length < c.rest.length := by
  obtain ⟨p, bs⟩ := c
  cases bs with
  | nil => cases h
  | cons b bs =>
    obtain ⟨used, hrest, -⟩ := run_split (r := go b) h
    have hlen : bs.length = used.length + d.rest.length := by
      rw [← List.length_append, ← hrest]
    rw [List.length_cons, hlen]
    omega

end Reader

end I8086

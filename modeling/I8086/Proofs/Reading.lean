import I8086.Encoding.Reader
import Mathlib.Tactic.Lemma

/-!
# What readers read

Running a reader mixes three things: the bytes that it takes, its value, and the stream around them.
Two relations take the stream out. `Reader.Reads r bs a` says that `r` takes exactly the bytes `bs`
and finishes with `a`, and `Reader.Waits r bs` that `r` still waits for a byte after `bs`. Main
statements: `Reader.reads_or_waits`, on every list of bytes a reader does one or the other;
`Reads.waits_of_append`, a cut leaves it waiting, and `Waits.extend`, some bytes let it finish.
`Reads.run` and `Waits.run` lead back to running.
-/

namespace I8086.Reader

variable {α β : Type} {r : Reader α} {f : α → Reader β} {go : UInt8 → Reader α}
variable {a x : α} {b c : UInt8} {bs u v : List UInt8}

/-- A reader takes exactly these bytes and finishes with a value. -/
inductive Reads : Reader α → List UInt8 → α → Prop where
  | done (a : α) : Reads (done a) [] a
  | next {go : UInt8 → Reader α} {b : UInt8} {bs : List UInt8} {a : α} :
      Reads (go b) bs a → Reads (next go) (b :: bs) a

/-- A reader takes these bytes and waits for another one. -/
inductive Waits : Reader α → List UInt8 → Prop where
  | start (go : UInt8 → Reader α) : Waits (next go) []
  | next {go : UInt8 → Reader α} {b : UInt8} {bs : List UInt8} :
      Waits (go b) bs → Waits (next go) (b :: bs)

/-- A finished reader reads nothing more. -/
@[simp] lemma reads_done_iff : (done a).Reads bs x ↔ bs = [] ∧ x = a := by
  constructor
  · intro rd
    cases rd
    exact ⟨rfl, rfl⟩
  · rintro ⟨rfl, rfl⟩
    exact .done x

/-- A waiting reader takes the next byte and goes on. -/
@[simp] lemma reads_next_cons_iff : (next go).Reads (b :: bs) x ↔ (go b).Reads bs x := by
  constructor
  · intro rd
    cases rd with
    | next rd => exact rd
  · exact .next

/-- A waiting reader cannot finish on nothing. -/
@[simp] lemma not_reads_next_nil : ¬ (next go).Reads [] x := nofun

/-- A finished reader does not wait. -/
@[simp] lemma not_waits_done : ¬ (done a).Waits bs := nofun

/-- A waiting reader takes the next byte and may go on waiting. -/
@[simp] lemma waits_next_cons_iff : (next go).Waits (b :: bs) ↔ (go b).Waits bs := by
  constructor
  · intro wt
    cases wt with
    | next wt => exact wt
  · exact .next

/-- Reading one byte. -/
@[simp] lemma reads_byte_iff : byte.Reads bs b ↔ bs = [b] := by
  cases bs with
  | nil => simp [byte]
  | cons d bs =>
    rw [byte, reads_next_cons_iff, reads_done_iff]
    constructor
    · rintro ⟨rfl, rfl⟩
      rfl
    · intro e
      cases e
      exact ⟨rfl, rfl⟩

/-- Two readers in a row take the bytes of the first and then those of the second. -/
lemma Reads.bind (rd : r.Reads u a) {y : β} (rd' : (f a).Reads v y) :
    (r.bind f).Reads (u ++ v) y := by
  induction rd with
  | done => exact rd'
  | next _ ih => exact .next (ih rd')

/-- What two readers in a row read splits into what each reads. -/
lemma reads_bind_iff {y : β} :
    (r.bind f).Reads bs y ↔ ∃ u v a, bs = u ++ v ∧ r.Reads u a ∧ (f a).Reads v y := by
  constructor
  · intro rd
    induction r generalizing bs with
    | done a => exact ⟨[], bs, a, rfl, .done a, rd⟩
    | next go ih =>
      cases rd with
      | @next _ b _ _ rd =>
        obtain ⟨u, v, a, rfl, rd1, rd2⟩ := ih b rd
        exact ⟨b :: u, v, a, rfl, .next rd1, rd2⟩
  · rintro ⟨u, v, a, rfl, rd1, rd2⟩
    exact rd1.bind rd2

/-- The second of two readers in a row may take nothing. -/
lemma Reads.bind_nil (rd : r.Reads u a) {y : β} (rd' : (f a).Reads [] y) :
    (r.bind f).Reads u y := by
  rw [← List.append_nil u]
  exact rd.bind rd'

/-- On every list of bytes a reader finishes on a front part or waits after all of them. -/
theorem reads_or_waits (r : Reader α) (bs : List UInt8) :
    (∃ u v a, bs = u ++ v ∧ r.Reads u a) ∨ r.Waits bs := by
  induction r generalizing bs with
  | done a => exact .inl ⟨[], bs, a, rfl, .done a⟩
  | next go ih =>
    cases bs with
    | nil => exact .inr (.start go)
    | cons b bs =>
      obtain ⟨u, v, a, rfl, rd⟩ | wt := ih b bs
      · exact .inl ⟨b :: u, v, a, rfl, .next rd⟩
      · exact .inr (.next wt)

/-- A reader that finishes on a list of bytes waits on every shorter front part of it. -/
theorem Reads.waits_of_append (rd : r.Reads (u ++ v) a) (hv : v ≠ []) : r.Waits u := by
  induction u generalizing r with
  | nil =>
    cases r with
    | done =>
      obtain ⟨e, _⟩ := reads_done_iff.1 rd
      exact (hv e).elim
    | next go => exact .start go
  | cons b u ih =>
    cases rd with
    | next rd => exact .next (ih rd)

/-- A reader that waits on a list of bytes waits on every front part of it. -/
lemma Waits.of_append (wt : r.Waits (u ++ v)) : r.Waits u := by
  induction u generalizing r with
  | nil =>
    cases r with
    | done => exact (not_waits_done wt).elim
    | next go => exact .start go
  | cons b u ih =>
    cases wt with
    | next wt => exact .next (ih wt)

/-- A waiting reader finishes if it is given more bytes. -/
theorem Waits.extend (wt : r.Waits u) : ∃ v a, r.Reads (u ++ v) a := by
  induction r generalizing u with
  | done => exact (not_waits_done wt).elim
  | next go ih =>
    cases wt with
    | start =>
      obtain ⟨u, v, a, _, rd⟩ | wt := reads_or_waits (go 0) []
      · exact ⟨0 :: u, a, .next rd⟩
      · obtain ⟨v, a, rd⟩ := ih 0 wt
        exact ⟨0 :: v, a, .next rd⟩
    | @next _ b bs wt =>
      obtain ⟨v, a, rd⟩ := ih b wt
      exact ⟨v, a, .next rd⟩

/-- A reader does not wait on a list that starts with all that it reads. -/
lemma Reads.not_waits_append (rd : r.Reads u a) : ¬ r.Waits (u ++ v) := by
  induction rd with
  | done => exact not_waits_done
  | next _ ih => exact fun wt => ih (waits_next_cons_iff.1 wt)

/-- Running a reader on what it reads leaves the bytes after it. -/
theorem Reads.run (rd : r.Reads u a) (p : Nat) (v : List UInt8) :
    r.run ⟨p, u ++ v⟩ = .ok (a, ⟨p + u.length, v⟩) := by
  induction rd generalizing p with
  | done a => exact run_done a _
  | next _ ih =>
    refine (ih (p + 1)).trans ?_
    rw [List.length_cons, Nat.add_assoc, Nat.add_comm 1]

/-- Running a reader on bytes that leave it waiting fails at their end. -/
theorem Waits.run (wt : r.Waits u) (p : Nat) : r.run ⟨p, u⟩ = .error (p + u.length) := by
  induction wt generalizing p with
  | start => rfl
  | next _ ih =>
    refine (ih (p + 1)).trans ?_
    rw [List.length_cons, Nat.add_assoc, Nat.add_comm 1]

/-- A reader that was given a byte it waited for reads what is left; a finished one ignores it. -/
lemma reads_feed_iff :
    (r.feed b).Reads bs x ↔ r.Reads (b :: bs) x ∨ (r = .done x ∧ bs = []) := by
  cases r with
  | done a =>
    simp only [feed, reads_done_iff, reduceCtorEq, false_and, false_or, done.injEq]
    exact ⟨fun ⟨h, e⟩ => ⟨e.symm, h⟩, fun ⟨e, h⟩ => ⟨h, e.symm⟩⟩
  | next go => simp [feed]

end I8086.Reader

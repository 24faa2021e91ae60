import I8086.Log.Journal
import I8086.Proofs.Files

/-!
# Journals over time

What a journal holds after any requests. A session is a journal with the world in which messages are
made, so that making one can be seen. The levels and the file in use are what the latest request
that sets them says (`LogSession.eq_latest`); a path that cannot be opened sets nothing. A step adds
to a file the line that it logs there and nothing else (`LogStep.content_after`). Main statement:
`content_after_requests`.
-/

namespace I8086

variable {σ α β : Type}

/-- The value of the latest element that has one. -/
def latest (f : β → Option α) (initial : α) (xs : List β) : α :=
  ((xs.filterMap f).getLast?).getD initial

/-- What is asked of a journal. Messages are made in a world, which they may read and change. -/
inductive JournalRequest (σ : Type) where
  | setGlobal (level : LogLevel)
  | setLevel (category : LogCategory) (level : LogLevel)
  | reset
  | openFile (path : String)
  | closeFile
  | log (category : LogCategory) (level : LogLevel) (message : StateM σ String)

namespace JournalRequest

/-- The global level that a request sets. -/
def global? : JournalRequest σ → Option LogLevel
  | setGlobal level => some level
  | reset => some .off
  | _ => none

/-- The level of a category that a request sets. -/
def own? (category : LogCategory) : JournalRequest σ → Option LogLevel
  | setLevel c level => if c = category then some level else none
  | reset => some .off
  | _ => none

/-- The level in force for a category after requests: the one that was set last for it, or if that
is off the global one that was set last. -/
def levelAfter (s : LogSettings) (rs : List (JournalRequest σ)) (category : LogCategory) :
    LogLevel :=
  let own := latest (own? category) (s.own category) rs
  if own = .off then latest global? s.global rs else own

end JournalRequest

/-- A journal and the world in which messages are made. -/
structure LogSession (σ : Type) where
  journal : Journal
  world : σ

/-- A request with the session that it finds. -/
structure LogStep (σ : Type) where
  before : LogSession σ
  request : JournalRequest σ

namespace LogSession

/-- The session after a request. -/
def step (s : LogSession σ) : JournalRequest σ → LogSession σ
  | .setGlobal level =>
    { s with journal := { s.journal with settings := s.journal.settings.setGlobal level } }
  | .setLevel category level =>
    { s with journal := { s.journal with settings := s.journal.settings.setLevel category level } }
  | .reset => { s with journal := s.journal.reset }
  | .openFile path =>
    match s.journal.openFile path with
    | .ok journal => { s with journal }
    | .error _ => s
  | .closeFile => { s with journal := s.journal.closeFile }
  | .log category level message =>
    let (journal, world) := (s.journal.logMessage category level message).run s.world
    { journal, world }

/-- The session after requests. -/
def after (s : LogSession σ) (rs : List (JournalRequest σ)) : LogSession σ :=
  rs.foldl step s

/-- Requests, each with the session that those before it leave. -/
def steps (s : LogSession σ) : List (JournalRequest σ) → List (LogStep σ)
  | [] => []
  | r :: rs => ⟨s, r⟩ :: (s.step r).steps rs

/-- The content of a file. -/
def content (s : LogSession σ) (names : Names) : ByteArray :=
  s.journal.fileSystem.content names

end LogSession

namespace LogStep

/-- The session after a step. -/
def after (t : LogStep σ) : LogSession σ :=
  t.before.step t.request

/-- The place for lines that a step sets, if it opens one or goes back to the error stream. -/
def sink? (t : LogStep σ) : Option (Option Place) :=
  match t.request with
  | .openFile path =>
    match t.before.journal.fileSystem.place path with
    | .ok place => some (some place)
    | .error _ => none
  | .closeFile => some none
  | _ => none

/-- The line that a step adds to a file: it logs a message that the settings let through while that
file is in use. -/
def line? (names : Names) (t : LogStep σ) : Option String :=
  match t.request with
  | .log category level message =>
    if t.before.journal.settings.allows category level ∧
        t.before.journal.sink = some (.file names) then
      some s!"[{category.name}] {(message.run t.before.world).1}\n"
    else none
  | _ => none

end LogStep

lemma latest_cons (f : β → Option α) (initial : α) (x : β) (xs : List β) :
    latest f initial (x :: xs) = latest f ((f x).getD initial) xs := by
  unfold latest
  rw [List.filterMap_cons]
  cases f x with
  | none => rfl
  | some a =>
    rw [List.getLast?_cons]
    rfl

namespace Journal

/-- Text is added to the file in use and to no other. -/
lemma content_append (j : Journal) (text : String) (names : Names) :
    (j.append text).fileSystem.content names = j.fileSystem.content names ++
      (if j.sink = some (.file names) then text else "").toUTF8 := by
  obtain ⟨settings, sink, f⟩ := j
  cases sink with
  | none => exact ByteArray.append_empty.symm
  | some place =>
    cases place with
    | file other =>
      show (f.put other (f.content other ++ text.toUTF8)).content names = _
      rw [FileSystem.content_put]
      by_cases h : names = other
      · rw [if_pos h, if_pos (by rw [h]), h]
      · have hsink : some (Place.file other) ≠ some (.file names) := fun e => h (by cases e; rfl)
        rw [if_neg h, if_neg hsink]
        exact ByteArray.append_empty.symm
    | device d =>
      rw [if_neg nofun]
      refine Eq.trans ?_ ByteArray.append_empty.symm
      cases d with
      | full =>
        unfold append FileSystem.append
        by_cases h : text.isEmpty
        · simp only [h, if_true]
        · simp only [h]
          rfl
      | null | endless | terminal | output | errors => rfl

/-- Adding text changes neither the settings nor the place for lines. -/
lemma append_frame (j : Journal) (text : String) :
    (j.append text).settings = j.settings ∧ (j.append text).sink = j.sink := by
  obtain ⟨settings, sink, f⟩ := j
  cases sink with
  | none => exact ⟨rfl, rfl⟩
  | some place =>
    unfold append
    cases h : f.append place text <;> exact ⟨by simp only [h], by simp only [h]⟩

/-- A message that is made in a world is logged, and the world changed, only if it passes. -/
lemma run_logMessage (j : Journal) (category : LogCategory) (level : LogLevel)
    (message : StateM σ String) (world : σ) :
    (j.logMessage category level message).run world =
      if j.settings.allows category level then
        (j.append (LogLine.text ⟨category, level, (message.run world).1⟩), (message.run world).2)
      else (j, world) := by
  unfold logMessage
  split <;> rfl

end Journal

namespace LogStep

/-- The session after a request to log. -/
lemma after_log (s : LogSession σ) (category : LogCategory) (level : LogLevel)
    (message : StateM σ String) :
    LogStep.after ⟨s, .log category level message⟩ =
      if s.journal.settings.allows category level then
        ⟨s.journal.append (LogLine.text ⟨category, level, (message.run s.world).1⟩),
          (message.run s.world).2⟩
      else s := by
  show (fun x : Journal × σ => LogSession.mk x.1 x.2)
    ((s.journal.logMessage category level message).run s.world) = _
  rw [Journal.run_logMessage]
  split <;> rfl

/-- A path that can be opened becomes the place for lines. -/
lemma after_openFile {s : LogSession σ} {path : String} {place : Place}
    (h : s.journal.fileSystem.place path = .ok place) :
    LogStep.after ⟨s, .openFile path⟩ = { s with
      journal := { s.journal with
        sink := some place, fileSystem := s.journal.fileSystem.touch place } } := by
  show LogSession.step s (.openFile path) = _
  unfold LogSession.step Journal.openFile
  simp only [FileSystem.openAppend_eq, h]
  rfl

/-- A path that cannot be opened changes nothing. -/
lemma after_openFile_of_error {s : LogSession σ} {path : String} {e : FileError}
    (h : s.journal.fileSystem.place path = .error e) :
    LogStep.after ⟨s, .openFile path⟩ = s := by
  show LogSession.step s (.openFile path) = _
  unfold LogSession.step Journal.openFile
  simp only [FileSystem.openAppend_eq, h]
  rfl

/-- Opening a file changes no content. -/
lemma content_openFile (s : LogSession σ) (path : String) (names : Names) :
    (LogStep.after ⟨s, .openFile path⟩).content names = s.content names := by
  cases h : s.journal.fileSystem.place path with
  | ok place =>
    rw [after_openFile h]
    exact FileSystem.content_touch ..
  | error e => rw [after_openFile_of_error h]

/-- A step adds its line to a file and nothing else. -/
theorem content_after (t : LogStep σ) (names : Names) :
    t.after.content names = t.before.content names ++ ((t.line? names).getD "").toUTF8 := by
  obtain ⟨s, r⟩ := t
  cases r with
  | setGlobal level => exact ByteArray.append_empty.symm
  | setLevel category level => exact ByteArray.append_empty.symm
  | reset => exact ByteArray.append_empty.symm
  | closeFile => exact ByteArray.append_empty.symm
  | openFile path =>
    rw [content_openFile]
    exact ByteArray.append_empty.symm
  | log category level message =>
    rw [after_log]
    by_cases hallows : s.journal.settings.allows category level
    · rw [if_pos hallows]
      refine (s.journal.content_append _ names).trans (congrArg (_ ++ String.toUTF8 ·) ?_)
      unfold line?
      simp only [hallows, true_and]
      split <;> rfl
    · rw [if_neg hallows]
      unfold line?
      simp only [hallows, Bool.false_eq_true, false_and, if_false]
      exact ByteArray.append_empty.symm

/-- A step sets the place for lines that it says. -/
lemma sink_after (t : LogStep σ) :
    t.after.journal.sink = t.sink?.getD t.before.journal.sink := by
  obtain ⟨s, r⟩ := t
  cases r with
  | setGlobal level => rfl
  | setLevel category level => rfl
  | reset => rfl
  | closeFile => rfl
  | openFile path =>
    unfold sink?
    cases h : s.journal.fileSystem.place path with
    | ok place =>
      simp only [after_openFile h, h, Option.getD_some]
    | error e => simp only [after_openFile_of_error h, h, Option.getD_none]
  | log category level message =>
    rw [after_log]
    split
    · exact (s.journal.append_frame _).2
    · rfl

/-- Requests to open a file or to log keep the settings. -/
lemma settings_after_openFile (s : LogSession σ) (path : String) :
    (LogStep.after ⟨s, .openFile path⟩).journal.settings = s.journal.settings := by
  cases h : s.journal.fileSystem.place path with
  | ok place =>
    rw [after_openFile h]
  | error e => rw [after_openFile_of_error h]

lemma settings_after_log (s : LogSession σ) (category : LogCategory) (level : LogLevel)
    (message : StateM σ String) :
    (LogStep.after ⟨s, .log category level message⟩).journal.settings = s.journal.settings := by
  rw [after_log]
  split
  · exact (s.journal.append_frame _).1
  · rfl

/-- A step sets the global level that its request says. -/
lemma global_after (t : LogStep σ) :
    t.after.journal.settings.global =
      t.request.global?.getD t.before.journal.settings.global := by
  obtain ⟨s, r⟩ := t
  cases r with
  | setGlobal level => rfl
  | setLevel category level => rfl
  | reset => rfl
  | closeFile => rfl
  | openFile path => rw [settings_after_openFile]; rfl
  | log category level message => rw [settings_after_log]; rfl

/-- A step sets the level of a category that its request says. -/
lemma own_after (t : LogStep σ) (category : LogCategory) :
    t.after.journal.settings.own category =
      (t.request.own? category).getD (t.before.journal.settings.own category) := by
  obtain ⟨s, r⟩ := t
  cases r with
  | setGlobal level => rfl
  | setLevel c level =>
    show (if category = c then level else _) = (if c = category then some level else none).getD _
    by_cases h : c = category
    · rw [if_pos h, if_pos h.symm]; rfl
    · rw [if_neg h, if_neg (Ne.symm h)]; rfl
  | reset => rfl
  | closeFile => rfl
  | openFile path => rw [settings_after_openFile]; rfl
  | log c level message => rw [settings_after_log]; rfl

end LogStep

namespace LogSession

/-- A part of the session that each step sets or keeps is what the latest step that sets it says. -/
theorem eq_latest (part : LogSession σ → α) {set? : LogStep σ → Option α}
    (h : ∀ t : LogStep σ, part t.after = (set? t).getD (part t.before))
    (s : LogSession σ) (rs : List (JournalRequest σ)) :
    part (s.after rs) = latest set? (part s) (s.steps rs) := by
  induction rs generalizing s with
  | nil => rfl
  | cons r rs ih =>
    show part ((s.step r).after rs) = latest set? (part s) (⟨s, r⟩ :: (s.step r).steps rs)
    rw [latest_cons, ← h ⟨s, r⟩, ih]
    rfl

/-- The requests of the steps are those that were made. -/
lemma map_request_steps (s : LogSession σ) (rs : List (JournalRequest σ)) :
    (s.steps rs).map LogStep.request = rs := by
  induction rs generalizing s with
  | nil => rfl
  | cons r rs ih => exact congrArg (r :: ·) (ih (s.step r))

/-- Each step finds the session that the requests before it leave. -/
lemma getElem?_steps (s : LogSession σ) (rs : List (JournalRequest σ)) (k : Nat) :
    (s.steps rs)[k]? = rs[k]?.map (LogStep.mk (s.after (rs.take k))) := by
  induction rs generalizing s k with
  | nil => rfl
  | cons r rs ih =>
    cases k with
    | zero => rfl
    | succ k => exact ih (s.step r) k

/-- What the latest request says does not depend on the sessions that the requests find. -/
lemma latest_request (f : JournalRequest σ → Option α) (initial : α) (s : LogSession σ)
    (rs : List (JournalRequest σ)) :
    latest (fun t => f t.request) initial (s.steps rs) = latest f initial rs := by
  have h := (s.steps rs).filterMap_map (f := LogStep.request) (g := f)
  rw [map_request_steps] at h
  unfold latest
  rw [h]
  rfl

/-- The level in force for a category is the one that was set last. -/
theorem effective_after (s : LogSession σ) (rs : List (JournalRequest σ))
    (category : LogCategory) :
    (s.after rs).journal.settings.effective category =
      JournalRequest.levelAfter s.journal.settings rs category := by
  have hglobal : (s.after rs).journal.settings.global =
      latest JournalRequest.global? s.journal.settings.global rs := by
    rw [← s.latest_request]
    exact eq_latest (fun s => s.journal.settings.global) LogStep.global_after s rs
  have hown : (s.after rs).journal.settings.own category =
      latest (JournalRequest.own? category) (s.journal.settings.own category) rs := by
    rw [← s.latest_request]
    exact eq_latest (fun s => s.journal.settings.own category)
      (LogStep.own_after · category) s rs
  unfold LogSettings.effective JournalRequest.levelAfter
  rw [hglobal, hown]

/-- The content of a file is its first content with the lines of the steps at its end. -/
theorem content_after (s : LogSession σ) (rs : List (JournalRequest σ)) (names : Names) :
    (s.after rs).content names = s.content names ++
      (String.join ((s.steps rs).filterMap (LogStep.line? names))).toUTF8 := by
  induction rs generalizing s with
  | nil => exact ByteArray.append_empty.symm
  | cons r rs ih =>
    show ((s.step r).after rs).content names =
      _ ++ (String.join ((⟨s, r⟩ :: (s.step r).steps rs).filterMap _)).toUTF8
    have hstep := LogStep.content_after ⟨s, r⟩ names
    rw [ih, show s.step r = LogStep.after ⟨s, r⟩ from rfl, hstep, List.filterMap_cons]
    cases LogStep.line? names ⟨s, r⟩ with
    | none => exact congrArg (· ++ _) ByteArray.append_empty
    | some line =>
      rw [String.join_cons]
      exact (ByteArray.append_assoc ..).trans (congrArg _ (String.toByteArray_append ..).symm)

end LogSession

/-- After any requests a file holds what it held first, and at its end the lines of the steps that
logged a message which passed while the file was in use. Each step finds the session that the
requests before it leave: the place for lines that was opened last or left, and for each category
the level that was set last. A message is made if and only if it passes. Turning the levels off
keeps all else, a path that cannot be opened keeps everything, and one that can keeps every
content. -/
theorem content_after_requests (s : LogSession σ) (rs : List (JournalRequest σ)) :
    (∀ names, (s.after rs).content names = s.content names ++
      (String.join ((s.steps rs).filterMap (LogStep.line? names))).toUTF8) ∧
    (∀ k : Nat, (s.steps rs)[k]? = rs[k]?.map (LogStep.mk (s.after (rs.take k)))) ∧
    (s.after rs).journal.sink = latest LogStep.sink? s.journal.sink (s.steps rs) ∧
    (∀ category level, (s.after rs).journal.settings.allows category level ↔ level ≠ .off ∧
      level.rank ≤ (JournalRequest.levelAfter s.journal.settings rs category).rank) ∧
    (∀ category level message, ((s.after rs).step (.log category level message)).world =
      if (s.after rs).journal.settings.allows category level then
        (message.run (s.after rs).world).2
      else (s.after rs).world) ∧
    (s.after rs).step .reset =
      { s.after rs with journal := { (s.after rs).journal with settings := {} } } ∧
    (∀ path e, (s.after rs).journal.fileSystem.place path = .error e →
      (s.after rs).step (.openFile path) = s.after rs) ∧
    ∀ path names, ((s.after rs).step (.openFile path)).content names =
      (s.after rs).content names := by
  refine ⟨s.content_after rs, s.getElem?_steps rs, ?sink, fun category level => ?passes,
    fun category level message => ?made, rfl, fun path e h => LogStep.after_openFile_of_error h,
    fun path names => LogStep.content_openFile _ path names⟩
  case sink => exact LogSession.eq_latest (fun s => s.journal.sink) LogStep.sink_after s rs
  case passes => rw [LogSettings.allows_iff, s.effective_after]
  case made =>
    show (LogStep.after ⟨s.after rs, .log category level message⟩).world = _
    rw [LogStep.after_log]
    split <;> rfl

/-- Two files in turn, a path that cannot be opened and messages that count how often they are
made. -/
theorem content_after_requests_in_turn :
    let message (text : String) : StateM Nat String := modifyGet fun n => (text, n + 1)
    let s : LogSession Nat :=
      ⟨{ fileSystem := FileSystem.withFile {} "a" "old\n".toUTF8 }, 0⟩
    let rs : List (JournalRequest Nat) :=
      [.setGlobal .warn, .openFile "a", .log .stubs .warn (message "one"),
        .log .stubs .info (message "two"), .openFile "b", .setLevel .stubs .debug,
        .openFile "c/d", .log .stubs .info (message "three"), .openFile "a",
        .log .stubs .debug (message "four"), .reset, .log .stubs .error (message "five")]
    (s.after (rs.take 6)).journal.fileSystem.place "c/d" = .error .notFound ∧
      (s.after (rs.take 6)).step (.openFile "c/d") = s.after (rs.take 6) ∧
      (s.after rs).content ["tmp", "work", "a"] = "old\n[Stubs] one\n[Stubs] four\n".toUTF8 ∧
      (s.after rs).content ["tmp", "work", "b"] = "[Stubs] three\n".toUTF8 ∧
      (s.after rs).world = 3 := by
  intro message s rs
  have hplace : (s.after (rs.take 6)).journal.fileSystem.place "c/d" = .error .notFound := by
    have herror : (match (s.after (rs.take 6)).journal.fileSystem.place "c/d" with
        | .error e => some e
        | .ok _ => none) = some .notFound := by decide +kernel
    split at herror
    case h_1 e he => rw [he, Option.some.inj herror]
    case h_2 => cases herror
  have ha : (s.steps rs).filterMap (LogStep.line? ["tmp", "work", "a"]) =
      ["[Stubs] one\n", "[Stubs] four\n"] := by decide +kernel
  have hb : (s.steps rs).filterMap (LogStep.line? ["tmp", "work", "b"]) =
      ["[Stubs] three\n"] := by decide +kernel
  have hcontent := (content_after_requests s rs).1
  refine ⟨hplace, (content_after_requests s (rs.take 6)).2.2.2.2.2.2.1 "c/d" _ hplace,
    (hcontent _).trans ?_, (hcontent _).trans ?_, by decide +kernel⟩
  · rw [ha]
    decide +kernel
  · rw [hb]
    decide +kernel

end I8086

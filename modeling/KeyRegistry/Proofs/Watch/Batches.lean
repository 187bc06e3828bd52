import KeyRegistry.Proofs.Watch.Forwarding
import KeyRegistry.Proofs.Watch.Noise

/-!
# Batches as sets of paths

A batch is judged event by event, and each event finds the session as the events before it have left
it: a change of the artifact by somebody else makes the guard forget the last write, by which later
events for the artifact are judged, and a path is parked unless it is parked already. Still all that
counts is which paths the batch names. Whether an event calls for a pass can be told from the
session as it was before the batch, since an event that changes the guard has called for a pass
itself; a guard that has forgotten the last write cannot forget it once more; and what is parked is
asked for by its components, which the order does not change.

Paths are compared as they are written, as the globs do that look at them. Among the parked paths,
as everywhere in a session, spellings with the same components are one path.

Main definitions:

* `Session.disowns` — whether an event shows a change of the artifact that is no echo
* `Session.Parks` — whether a path is parked, by some spelling

Main statements:

* `Session.judge_verdict`, `Session.judge_guard`, `Session.parks_judge` — what judging a batch comes
  to, said of the session before it
* `Session.judge_by_paths` — batches that name the same paths are judged alike
-/

namespace KeyRegistry

namespace Session

variable {s t : Session} {fs : FileSystem} {events a b : List FileEvent} {path p : Path}

/-! ## One event -/

/-- Whether an event of a path shows a change of the artifact that does not echo the last write. -/
def disowns (s : Session) (fs : FileSystem) (path : Path) : Bool :=
  s.running.isNone && s.guard.isOutput path && !s.guard.checkEcho fs path

/-- Whether a path is parked, by some spelling. -/
def Parks (s : Session) (path : Path) : Prop :=
  ∃ parked ∈ s.parked, parked.same path = true

/-- What an event calls for, as far as the session at hand can tell. -/
theorem judgeEvent_verdict :
    (s.judgeEvent fs path).2 = (s.disowns fs path || s.calls fs path) := by
  unfold judgeEvent disowns calls judgeArtifact
  cases s.guard.isOutput path with
  | false => simp
  | true =>
    cases s.running with
    | some pass => simp
    | none => cases s.guard.checkEcho fs path <;> simp

/-- An event makes the guard forget the last write exactly if it is disowned. -/
theorem judgeEvent_guard (s : Session) (fs : FileSystem) (path : Path) :
    (s.judgeEvent fs path).1.guard =
      if s.disowns fs path then s.guard.invalidate else s.guard := by
  unfold judgeEvent disowns judgeArtifact
  cases s.guard.isOutput path with
  | false => simp
  | true =>
    cases hRun : s.running with
    | some pass =>
      have hJudged : Judges s (s.park path) := park_judges path (by rw [hRun]; rfl)
      simpa using hJudged.guard_of_running (by rw [hRun]; rfl)
    | none => cases s.guard.checkEcho fs path <;> simp

theorem Judges.disowns (h : Judges s t) (hGuard : t.guard = s.guard) :
    t.disowns fs path = s.disowns fs path := by
  rw [Session.disowns, Session.disowns, h.running, hGuard]

theorem Judges.calls (h : Judges s t) : t.calls fs path = s.calls fs path := by
  rw [Session.calls, Session.calls, h.isOutput, h.scanner]

/-- A path that is parked once more stays parked. -/
theorem parks_park : (s.park path).Parks p ↔ s.Parks p ∨ path.same p = true := by
  unfold park
  split
  · next hAny =>
    -- a spelling of the path is there already, and it is one of whatever the path is one of
    obtain ⟨parked, hMem, hSame⟩ := List.any_eq_true.mp hAny
    refine ⟨Or.inl, ?_⟩
    rintro (hOld | hNew)
    · exact hOld
    · refine ⟨parked, hMem, ?_⟩
      rw [Path.same, decide_eq_true_iff] at hSame hNew ⊢
      rw [hSame, hNew]
  · simp [Parks, or_and_right, exists_or]

/-- An event parks its path exactly if it is for the artifact while a pass runs. -/
theorem parks_judgeEvent : (s.judgeEvent fs path).1.Parks p ↔
    s.Parks p ∨ s.running.isSome = true ∧ s.guard.isOutput path = true ∧ path.same p = true := by
  cases hRun : s.running.isSome with
  | false =>
    -- nothing is parked while no pass runs
    have hJudged : Judges s (s.judgeEvent fs path).1 := judgeEvent_judges path
    have hParked := hJudged.parked
    rw [hRun] at hParked
    simp only [Bool.false_eq_true, or_false] at hParked
    simp [Parks, hParked]
  | true =>
    cases hOutput : s.guard.isOutput path with
    | false =>
      have hSame : (s.judgeEvent fs path).1 = s := by simp [judgeEvent, hOutput]
      simp [hSame]
    | true =>
      have hPark : (s.judgeEvent fs path).1 = s.park path := by simp [judgeEvent, hOutput, hRun]
      simp [hPark, parks_park]

/-! ## One event after the other -/

/-- Whether a batch calls for a pass: whether one of its events would do so, were it the only one.
-/
theorem judge_verdict (s : Session) (fs : FileSystem) (events : List FileEvent) :
    (s.judge fs events).2 =
      events.any fun event => s.disowns fs event.path || s.calls fs event.path := by
  rw [judge_eq]
  induction events generalizing s with
  | nil => rfl
  | cons event events ih =>
    have hJudged : Judges s (s.judgeEvent fs event.path).1 := judgeEvent_judges event.path
    rw [judgeAll, ih, List.any_cons, judgeEvent_verdict]
    -- an event that leaves the guard behind as it was does not matter to the others, and the other
    -- ones have called for a pass themselves
    cases hDisowns : s.disowns fs event.path with
    | true => rfl
    | false =>
      have hGuard : (s.judgeEvent fs event.path).1.guard = s.guard := by
        rw [judgeEvent_guard, hDisowns, if_neg (by simp)]
      simp only [hJudged.disowns hGuard, hJudged.calls]

/-- After a batch the guard has forgotten the last write if one of the events alone would have made
it. -/
theorem judge_guard (s : Session) (fs : FileSystem) (events : List FileEvent) :
    (s.judge fs events).1.guard =
      if events.any fun event => s.disowns fs event.path then s.guard.invalidate else s.guard := by
  rw [judge_eq]
  induction events generalizing s with
  | nil => rfl
  | cons event events ih =>
    have hJudged : Judges s (s.judgeEvent fs event.path).1 := judgeEvent_judges event.path
    have hGuard := judgeEvent_guard s fs event.path
    rw [judgeAll, ih, List.any_cons]
    cases hDisowns : s.disowns fs event.path with
    | true =>
      -- the last write is forgotten, and forgetting it again makes no difference
      rw [hDisowns, if_pos rfl] at hGuard
      rw [hGuard, Bool.true_or, if_pos rfl]
      exact ite_self _
    | false =>
      rw [hDisowns, if_neg (by simp)] at hGuard
      simp only [hJudged.disowns hGuard, hGuard, Bool.false_or]

/-- After a batch the paths are parked that were parked before and, if a pass runs, those of the
events for the artifact. -/
theorem parks_judge (s : Session) (fs : FileSystem) (events : List FileEvent) (p : Path) :
    (s.judge fs events).1.Parks p ↔ s.Parks p ∨ s.running.isSome = true ∧
      ∃ path ∈ events.map FileEvent.path, s.guard.isOutput path = true ∧ path.same p = true := by
  rw [judge_eq]
  induction events generalizing s with
  | nil => simp [judgeAll]
  | cons event events ih =>
    have hJudged : Judges s (s.judgeEvent fs event.path).1 := judgeEvent_judges event.path
    rw [judgeAll, ih, parks_judgeEvent, hJudged.running]
    simp only [hJudged.isOutput, List.map_cons, List.exists_mem_cons_iff]
    rw [or_assoc, ← and_or_left]

/-! ## Batches with the same paths -/

/-- What one of the events shows is shown by one of the paths. -/
theorem any_of_paths (hPaths : ∀ path, path ∈ a.map FileEvent.path ↔ path ∈ b.map FileEvent.path)
    (test : Path → Bool) :
    (a.any fun event => test event.path) = b.any fun event => test event.path := by
  have hAny : ∀ events : List FileEvent, (events.any fun event => test event.path) = true ↔
      ∃ path ∈ events.map FileEvent.path, test path = true := by
    intro events
    simp [List.any_eq_true]
  rw [Bool.eq_iff_iff, hAny, hAny]
  simp only [hPaths]

/-- **A batch is judged by its set of paths.** In whatever state a session is — at rest, in a
cooldown or with a pass that runs, with any guard and any parked paths — two batches that name the
same paths, in whatever order, however often and with whatever kinds of events, get the same verdict
and leave the same guard and the same set of parked paths. Nothing else of the session is changed by
either of them. -/
theorem judge_by_paths (s : Session) (fs : FileSystem)
    (hPaths : ∀ path, path ∈ a.map FileEvent.path ↔ path ∈ b.map FileEvent.path) :
    (s.judge fs a).2 = (s.judge fs b).2 ∧
      (s.judge fs a).1.guard = (s.judge fs b).1.guard ∧
      (∀ path, (s.judge fs a).1.Parks path ↔ (s.judge fs b).1.Parks path) ∧
      { (s.judge fs a).1 with guard := s.guard, parked := s.parked } = s ∧
      { (s.judge fs b).1 with guard := s.guard, parked := s.parked } = s := by
  have hFrame :
      ∀ events, { (s.judge fs events).1 with guard := s.guard, parked := s.parked } = s := by
    intro events
    have hJudged : Judges s (s.judge fs events).1 := judge_judges events
    rw [hJudged.frame]
  refine ⟨?_, ?_, ?_, hFrame a, hFrame b⟩
  · rw [judge_verdict, judge_verdict]
    exact any_of_paths hPaths fun path => s.disowns fs path || s.calls fs path
  · rw [judge_guard, judge_guard, any_of_paths hPaths (s.disowns fs)]
  · intro path
    rw [parks_judge, parks_judge]
    simp only [hPaths]

/-- Two events for the artifact, by two spellings of its path, and one for another file. -/
def spelledEvents : List FileEvent :=
  [⟨.removed, ⟨"/r/out.d.ts"⟩⟩, ⟨.changed, ⟨"/r//out.d.ts"⟩⟩, ⟨.added, ⟨"/r/b.ts"⟩⟩]

/-- The same paths in another order, with other kinds of events, and one of them twice. -/
def shuffledEvents : List FileEvent :=
  [⟨.changed, ⟨"/r/b.ts"⟩⟩, ⟨.added, ⟨"/r//out.d.ts"⟩⟩, ⟨.changed, ⟨"/r/out.d.ts"⟩⟩,
    ⟨.removed, ⟨"/r/b.ts"⟩⟩]

/-- While a pass runs, the spelling that comes first is the one that is parked, and another spelling
of the same path is not parked again. -/
theorem judge_by_paths_of_spellings :
    ((begin Hidden.plainScanner).judge Hidden.project spelledEvents).1.parked = [⟨"/r/out.d.ts"⟩] ∧
      ((begin Hidden.plainScanner).judge Hidden.project shuffledEvents).1.parked =
        [⟨"/r//out.d.ts"⟩] ∧
      ((begin Hidden.plainScanner).judge Hidden.project spelledEvents).2 =
        ((begin Hidden.plainScanner).judge Hidden.project shuffledEvents).2 ∧
      ∀ path, ((begin Hidden.plainScanner).judge Hidden.project spelledEvents).1.Parks path ↔
        ((begin Hidden.plainScanner).judge Hidden.project shuffledEvents).1.Parks path := by
  have hPaths : ∀ path, path ∈ spelledEvents.map FileEvent.path ↔
      path ∈ shuffledEvents.map FileEvent.path := by
    intro path
    simp only [spelledEvents, shuffledEvents, List.map_cons, List.map_nil, List.mem_cons,
      List.not_mem_nil, or_false]
    tauto
  obtain ⟨hVerdict, -, hParked, -⟩ :=
    judge_by_paths (begin Hidden.plainScanner) Hidden.project hPaths
  exact ⟨by decide +kernel, by decide +kernel, hVerdict, hParked⟩

end Session

end KeyRegistry

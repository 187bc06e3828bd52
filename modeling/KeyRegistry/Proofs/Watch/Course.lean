import KeyRegistry.Proofs.Pass.Progress
import KeyRegistry.Proofs.Watch.Agreement

/-!
# The course of a session

A session is on its course while three things hold. A pass is owed, or the pass that runs heads for
the document that the files call for, or the pass that ended last came to it. The guard that counts
can be trusted about what is on disk, or it is checked again when the pass that runs has ended. And
the guard remembers the document of the pass that ended last, unless that pass failed.

Judging events, starting passes and ending them keep a session on its course. Files that change
bring it off its course; an event for what has changed brings it back.

Main definitions:

* `Session.HeadsFor`, `Session.Trusts`, `Session.Records` — the three things

Main statements:

* `Session.handle_headsFor`, `Session.handle_trusts` — an event brings a session back on its course
* `Session.complete_headsFor`, `Session.complete_trusts` — the end of a pass keeps it there
-/

namespace KeyRegistry

namespace RunningPass

variable {s : Scanner} {start pass : RunningPass}

/-- A pass keeps to the artifact that it was started for. -/
theorem Becomes.output (h : start.Becomes s pass) :
    pass.guard.root = start.guard.root ∧ pass.guard.output = start.guard.output := by
  induction h with
  | refl => exact ⟨rfl, rfl⟩
  | move _ hMove ih =>
    obtain ⟨hRoot, hOutput⟩ := (Moves.of_step? hMove).output
    exact ⟨hRoot.trans ih.1, hOutput.trans ih.2⟩

end RunningPass

namespace Session

variable {s t : Session} {fs before after : FileSystem} {path : Path} {events : List FileEvent}
  {signal : Signal} {last : Option PassReport} {pass moved : RunningPass} {report : PassReport}
  {move : PassMove}

/-- A pass is owed, or the pass that runs heads for the document that these files call for, or the
pass that ended last came to it. -/
def HeadsFor (s : Session) (fs : FileSystem) (last : Option PassReport) : Prop :=
  s.scheduler = .pendingRerun ∨
    match s.running with
    | some pass => pass.HeadsFor s.scanner fs
    | none => s.cooling = true ∨
        ∃ report, last = some report ∧ report.fingerprint = s.scanner.target fs

/-- The guard that counts can be trusted, or it is checked when the pass that runs has ended. -/
structure Trusts (s : Session) (fs : FileSystem) : Prop where
  idle : s.running = none → s.guard.Trusts fs
  pass : ∀ pass, s.running = some pass → s.parked ≠ [] ∨ pass.guard.Trusts fs

/-- At rest the guard remembers the document of the pass that ended last, unless that pass failed,
and so will the guard of the pass that runs. -/
structure Records (s : Session) (last : Option PassReport) : Prop where
  idle : s.running = none → s.cooling = false →
    ∃ report, last = some report ∧
      (report.outcome.isFailure = false → s.guard.last = some report.fingerprint)
  pass : ∀ pass, s.running = some pass → pass.Records

/-! ## Judging events -/

/-- Judging does not change which paths are those of the artifact. -/
theorem Judges.isOutput (h : Judges s t) : t.guard.isOutput path = s.guard.isOutput path := by
  rcases h.guard with hSame | ⟨-, hForgot⟩
  · rw [hSame]
  · rw [hForgot]
    rfl

/-- Judging one more event is still judging. -/
theorem judgeEvent_keeps (s t : Session) (event : FileEvent) (h : Judges s t) :
    Judges s (t.judgeEvent fs event.path).1 :=
  h.trans (judgeEvent_judges event.path)

/-- An event for a file that is heard calls for a pass. -/
theorem judge_calls {event : FileEvent} (hMem : event ∈ events)
    (hOther : s.guard.isOutput event.path = false)
    (hScannable : s.scanner.matcher.isScannable fs event.path = true) :
    (s.judge fs events).2 = true := by
  rw [judge_eq]
  refine judgeAll_calls (P := Judges s) (judgeEvent_keeps s) ?_ hMem (.refl s)
  intro t hJudged
  have hEq : t.judgeEvent fs event.path = (t, t.scanner.matcher.isScannable fs event.path) := by
    rw [judgeEvent, hJudged.isOutput, hOther, if_neg (by simp)]
  rw [hEq, hJudged.scanner, hScannable]

/-- Whatever the guard remembers of the artifact after it was judged is on disk. -/
theorem judgeArtifact_trusts : (s.judgeArtifact fs path).1.guard.Trusts fs := by
  unfold judgeArtifact
  split
  · next hEcho =>
    simp only [Guard.checkEcho, Guard.isEcho, Bool.and_eq_true, beq_iff_eq] at hEcho
    intro f hLast
    rw [hEcho.2.2, hLast]
  · intro f hLast
    cases hLast

/-- After a path was parked, some path is. -/
theorem park_ne_nil : (s.park path).parked ≠ [] := by
  unfold park
  split
  · next hAny =>
    rintro hNone
    rw [hNone] at hAny
    cases hAny
  · simp

/-- An event for the artifact restores the trust in the guard: it is parked, or the guard is checked
against the files. -/
theorem judgeEvent_trusts (s : Session) (fs : FileSystem) (path : Path)
    (h : s.guard.isOutput path = true ∨ s.Trusts fs) : (s.judgeEvent fs path).1.Trusts fs := by
  cases hOutput : s.guard.isOutput path with
  | false =>
    have hEq : s.judgeEvent fs path = (s, s.scanner.matcher.isScannable fs path) := by
      rw [judgeEvent, hOutput, if_neg (by simp)]
    rw [hEq]
    exact h.resolve_left (by simp [hOutput])
  | true =>
    cases hRunning : s.running with
    | some pass =>
      have hRun : s.running.isSome = true := by rw [hRunning]; rfl
      have hJudged : Judges s (s.park path) := park_judges path hRun
      -- the path is parked, so the artifact is looked at again when the pass has ended
      rw [judgeEvent, if_pos hOutput, if_pos hRun]
      refine ⟨fun hIdle => ?_, fun _ _ => Or.inl park_ne_nil⟩
      rw [hJudged.running, hRunning] at hIdle
      cases hIdle
    | none =>
      have hJudged : Judges s (s.judgeArtifact fs path).1 := judgeArtifact_judges path hRunning
      rw [judgeEvent, if_pos hOutput, hRunning, Option.isSome_none, if_neg (by simp)]
      refine ⟨fun _ => judgeArtifact_trusts, fun pass hOther => ?_⟩
      rw [hJudged.running, hRunning] at hOther
      cases hOther

/-- An event for the artifact makes the guard one to be trusted. -/
theorem judge_trusts (h : (∃ event ∈ events, s.guard.isOutput event.path = true) ∨ s.Trusts fs) :
    (s.judge fs events).1.Trusts fs := by
  rw [judge_eq]
  have hStays : ∀ (t : Session) (event : FileEvent), t.Trusts fs →
      (t.judgeEvent fs event.path).1.Trusts fs := fun t event hTrusts =>
    judgeEvent_trusts t fs event.path (Or.inr hTrusts)
  rcases h with ⟨event, hMem, hOutput⟩ | hTrusts
  · -- the event for the artifact makes the guard one to be trusted, and the others leave it so
    refine judgeAll_reaches (P := Judges s) (judgeEvent_keeps s)
      (fun t other _ => hStays t other) ?_
      hMem (.refl s)
    intro t hJudged
    exact judgeEvent_trusts t fs event.path (Or.inl (hJudged.isOutput.trans hOutput))
  · exact judgeAll_keeps hStays events hTrusts

/-- An event for the artifact that calls for nothing changes nothing. -/
theorem judgeArtifact_silent (hNone : (s.judgeArtifact fs path).2 = false) :
    (s.judgeArtifact fs path).1 = s := by
  unfold judgeArtifact at hNone ⊢
  split at hNone
  · next hEcho => rw [if_pos hEcho]
  · cases hNone

/-- While no pass runs, events that call for none change nothing. -/
theorem judge_silent (hIdle : s.running = none) (hNone : (s.judge fs events).2 = false) :
    (s.judge fs events).1 = s := by
  rw [judge_eq] at hNone ⊢
  refine judgeAll_silent (P := fun s => s.running = none) ?_ hIdle hNone
  intro t event hHere hOwn
  cases hOutput : t.guard.isOutput event.path with
  | false => rw [judgeEvent, hOutput, if_neg (by simp)]
  | true =>
    have hEq : t.judgeEvent fs event.path = t.judgeArtifact fs event.path := by
      rw [judgeEvent, if_pos hOutput, hHere, Option.isSome_none, if_neg (by simp)]
    rw [hEq] at hOwn ⊢
    exact judgeArtifact_silent hOwn

/-- Judging does not change what a session heads for. -/
theorem HeadsFor.judges (h : s.HeadsFor fs last) (hJudged : Judges s t) : t.HeadsFor fs last := by
  unfold HeadsFor at h ⊢
  rw [hJudged.scheduler, hJudged.running, hJudged.cooling, hJudged.scanner]
  exact h

/-! ## Calling for a pass -/

/-- After a demand a session heads for what the files call for: a pass starts, or a rerun is owed.
-/
theorem demand_headsFor (hAgrees : s.Agrees) (hAccepting : s.accepting = true) :
    s.demand.HeadsFor fs last := by
  rcases hAgrees.demand_cases hAccepting with ⟨-, -, hEq⟩ | ⟨-, hEq⟩ <;> rw [hEq]
  · exact Or.inr trivial
  · exact Or.inl rfl

/-- A pass that starts gets a guard that can be trusted. -/
theorem Trusts.demand (h : s.Trusts fs) (hAgrees : s.Agrees) (hAccepting : s.accepting = true) :
    s.demand.Trusts fs := by
  rcases hAgrees.demand_cases hAccepting with ⟨hIdle, -, hEq⟩ | ⟨-, hEq⟩ <;> rw [hEq]
  · refine ⟨(fun hNone => by cases hNone), ?_⟩
    rintro pass ⟨⟩
    exact Or.inr (h.idle hIdle)
  · exact ⟨h.idle, h.pass⟩

/-- A demand keeps what the guard remembers of the last document. -/
theorem demand_records (hAgrees : s.Agrees) (hAccepting : s.accepting = true)
    (hPass : ∀ pass, s.running = some pass → pass.Records) : s.demand.Records last := by
  rcases hAgrees.demand_cases hAccepting with ⟨-, -, hEq⟩ | ⟨hBusy, hEq⟩ <;> rw [hEq]
  · refine ⟨(fun hNone => by cases hNone), ?_⟩
    rintro pass ⟨⟩ report hReport
    cases hReport
  · exact ⟨fun hIdle hRest => absurd ⟨hIdle, hRest⟩ hBusy, hPass⟩

/-! ## Taking signals -/

/-- An event for a file that is heard brings a session on its course. -/
theorem handle_headsFor (hAgrees : s.Agrees) (hAccepting : s.accepting = true)
    (h : (∃ events, signal = .batch events ∧ ∃ event ∈ events,
        s.guard.isOutput event.path = false ∧
          s.scanner.matcher.isScannable fs event.path = true) ∨ s.HeadsFor fs last) :
    (s.handle fs signal).HeadsFor fs last := by
  cases signal with
  | trouble message =>
    rcases h with ⟨events, hEq, -⟩ | hHeads
    · cases hEq
    · exact hHeads
  | batch events =>
    have hJudged : Judges s (s.judge fs events).1 := judge_judges events
    -- a demand heads for a pass whatever was known; without one, no event of the batch mattered
    rw [handle_batch_eq]
    split
    · exact demand_headsFor (hAgrees.judges hJudged) (hJudged.accepting.trans hAccepting)
    · next hNone =>
      rcases h with ⟨_, ⟨⟩, event, hMem, hOther, hScannable⟩ | hHeads
      · exact absurd (judge_calls hMem hOther hScannable) hNone
      · exact hHeads.judges hJudged

/-- An event for the artifact brings the guard on its course. -/
theorem handle_trusts (hAgrees : s.Agrees) (hAccepting : s.accepting = true)
    (h : (∃ events, signal = .batch events ∧ ∃ event ∈ events,
        s.guard.isOutput event.path = true) ∨ s.Trusts fs) : (s.handle fs signal).Trusts fs := by
  cases signal with
  | trouble message =>
    rcases h with ⟨events, hEq, -⟩ | hTrusts
    · cases hEq
    · exact hTrusts
  | batch events =>
    have hJudged : Judges s (s.judge fs events).1 := judge_judges events
    have hTrusts : (s.judge fs events).1.Trusts fs := by
      refine judge_trusts (h.imp_left ?_)
      rintro ⟨_, ⟨⟩, hOutput⟩
      exact hOutput
    rw [handle_batch_eq]
    split
    · exact hTrusts.demand (hAgrees.judges hJudged) (hJudged.accepting.trans hAccepting)
    · exact hTrusts

/-- Taking a signal keeps what the guard remembers of the last document, or a pass starts. -/
theorem Records.handle (h : s.Records last) (hAgrees : s.Agrees) (hAccepting : s.accepting = true)
    (signal : Signal) : (s.handle fs signal).Records last := by
  cases signal with
  | trouble message => exact h
  | batch events =>
    have hJudged : Judges s (s.judge fs events).1 := judge_judges events
    rw [handle_batch_eq]
    split
    · refine demand_records (hAgrees.judges hJudged) (hJudged.accepting.trans hAccepting) ?_
      rw [hJudged.running]
      exact h.pass
    · next hNone =>
      refine ⟨fun hIdle hRest => ?_, ?_⟩
      · -- at rest, events that call for no pass change nothing
        rw [hJudged.running] at hIdle
        rw [judge_silent hIdle (by simpa using hNone)] at hRest ⊢
        exact h.idle hIdle hRest
      · rw [hJudged.running]
        exact h.pass

/-! ## Files that change -/

/-- Files that a scan sees alike call for the same document. -/
theorem HeadsFor.congr (h : s.HeadsFor before last) (hSame : s.scanner.SeesSame before after) :
    s.HeadsFor after last := by
  refine h.imp_right fun hHeads => ?_
  cases hRunning : s.running with
  | some pass =>
    rw [hRunning] at hHeads
    exact RunningPass.HeadsFor.congr hHeads hSame
  | none =>
    rw [hRunning] at hHeads
    dsimp only at hHeads ⊢
    rw [hSame.target]
    exact hHeads

/-- The trust in a guard depends on the fingerprint of the artifact alone. -/
theorem Trusts.congr (h : s.Trusts before) (hAgrees : s.Agrees)
    (hSame : after.fingerprint? s.guard.output = before.fingerprint? s.guard.output) :
    s.Trusts after where
  idle hIdle f hLast := by
    rw [hSame]
    exact h.idle hIdle f hLast
  pass pass hRunning := by
    have hOutput : pass.guard.output = s.guard.output := (hAgrees.ownGuard pass hRunning).output.2
    refine (h.pass pass hRunning).imp_right fun hTrusts f hLast => ?_
    rw [hOutput, hSame, ← hOutput]
    exact hTrusts f hLast

/-! ## Passes -/

/-- A move of the pass that runs keeps what it heads for. -/
theorem HeadsFor.moves (h : s.HeadsFor fs last) (hRunning : s.running = some pass)
    (hMoves : RunningPass.Moves s.scanner fs pass move after moved) (hTree : fs.IsTree)
    (hSame : s.scanner.SeesSame fs after) :
    { s with running := some moved }.HeadsFor after last := by
  rw [HeadsFor, hRunning] at h
  refine h.imp_right fun hHeads => ?_
  exact RunningPass.HeadsFor.moves hHeads hMoves hTree hSame

/-- A pass that headed for a document has come to it at its end, unless another pass follows. -/
theorem complete_headsFor (hAgrees : s.Agrees) (hAccepting : s.accepting = true)
    (hRunning : s.running = some pass) (hReport : pass.report? = some report)
    (h : s.HeadsFor fs last) : (s.complete fs pass.guard report).HeadsFor fs (some report) := by
  have hJudged := s.ended_judges fs pass.guard report
  have hNone : ((s.ended pass.guard report).judgeParked fs).1.running = none := hJudged.running
  rcases hAgrees.complete_cases hAccepting hRunning pass.guard report with
    ⟨-, hEq⟩ | ⟨-, hRest, hEq⟩
  · rw [hEq]
    refine Or.inr ?_
    dsimp only
    rw [hNone]
    exact Or.inl rfl
  · rw [hEq]
    refine Or.inr ?_
    dsimp only
    rw [hNone]
    refine Or.inr ⟨report, rfl, ?_⟩
    -- no rerun is owed, so the pass that ended was on its course
    have hHeads := h.resolve_left hRest
    rw [hRunning] at hHeads
    dsimp only at hHeads
    rw [RunningPass.HeadsFor, RunningPass.report?_eq_some.mp hReport] at hHeads
    rw [hJudged.scanner]
    exact hHeads

/-- What was parked is judged by the guard that the pass hands back. -/
theorem complete_trusts (hAgrees : s.Agrees) (hAccepting : s.accepting = true)
    (hRunning : s.running = some pass) (h : s.Trusts fs) :
    (s.complete fs pass.guard report).Trusts fs := by
  have hNone : ((s.ended pass.guard report).judgeParked fs).1.running = none :=
    (s.ended_judges fs pass.guard report).running
  have hGuard : ((s.ended pass.guard report).judgeParked fs).1.guard.Trusts fs := by
    rw [judgeParked_eq]
    -- either something was parked and is judged now, or the guard could be trusted anyway
    rcases h.pass pass hRunning with hParked | hTrusts
    · obtain ⟨path, hMem⟩ := List.exists_mem_of_ne_nil _ hParked
      exact judgeAll_reaches (P := fun _ => True) (Q := fun t => t.guard.Trusts fs)
        (fun _ _ _ => trivial) (fun _ _ _ _ => judgeArtifact_trusts)
        (fun _ _ => judgeArtifact_trusts) hMem trivial
    · exact judgeAll_keeps (P := fun t => t.guard.Trusts fs)
        (fun _ _ _ => judgeArtifact_trusts) s.parked hTrusts
  rcases hAgrees.complete_cases hAccepting hRunning pass.guard report with ⟨-, hEq⟩ | ⟨-, -, hEq⟩
  all_goals
    rw [hEq]
    refine ⟨fun _ => hGuard, fun other hOther => ?_⟩
    rw [hNone] at hOther
    cases hOther

/-- At the end of a pass its guard remembers the document, unless the pass failed. -/
theorem complete_records (hAgrees : s.Agrees) (hAccepting : s.accepting = true)
    (hRunning : s.running = some pass) (hReport : pass.report? = some report)
    (h : s.Records last) : (s.complete fs pass.guard report).Records (some report) := by
  have hNoPass : ∀ other, ((s.ended pass.guard report).judgeParked fs).1.running = some other →
      other.Records := by
    intro other hOther
    rw [(s.ended_judges fs pass.guard report).running] at hOther
    cases hOther
  rcases hAgrees.complete_cases hAccepting hRunning pass.guard report with
    ⟨-, hEq⟩ | ⟨hQuiet, -, hEq⟩
  · rw [hEq]
    exact ⟨(fun _ hRest => by cases hRest), hNoPass⟩
  · rw [hEq]
    refine ⟨fun _ _ => ⟨report, rfl, fun hDone => ?_⟩, hNoPass⟩
    -- nothing that was parked called for a pass, so the guard is the one that was handed back
    have hSame : ((s.ended pass.guard report).judgeParked fs).1 = s.ended pass.guard report := by
      rw [judgeParked_eq] at hQuiet ⊢
      exact judgeAll_silent (P := fun _ => True) (fun _ _ _ => judgeArtifact_silent) trivial hQuiet
    rw [hSame]
    exact h.pass pass hRunning report hReport hDone

/-- A pass that starts heads for whatever the files call for. -/
theorem resume_headsFor : s.resume.HeadsFor fs last :=
  Or.inr trivial

/-- The pass that was owed gets a guard that can be trusted. -/
theorem Trusts.resume (h : s.Trusts fs) (hAgrees : s.Agrees) (hCooling : s.cooling = true) :
    s.resume.Trusts fs := by
  refine ⟨(fun hIdle => by cases hIdle), ?_⟩
  rintro pass ⟨⟩
  exact Or.inr (h.idle (hAgrees.running_eq_none hCooling))

/-- The pass that was owed will have its guard remember its document. -/
theorem resume_records : s.resume.Records last := by
  refine ⟨(fun hIdle => by cases hIdle), ?_⟩
  rintro pass ⟨⟩ report hReport
  cases hReport

end Session

end KeyRegistry

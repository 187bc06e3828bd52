import KeyRegistry.Proofs.Pass.Commit
import KeyRegistry.Proofs.Watch.Agreement

/-!
# Noise changes nothing

A session hears of its own writes, of files that no scan reads, and of trouble with the observation.
None of that may lead to a pass. Here two courses of events are compared that differ in such noise
only: whole signals of noise, or noise among the events of a signal, put in anywhere. As long as
nobody else writes the artifact and no pass fails, both courses come to the same state, by the same
passes with the same reports.

What carries the comparison is that the guard knows the artifact whenever no pass runs: it
remembers the fingerprint that the artifact has on disk. So an event for the artifact is an echo,
whether it is judged at once or only when the pass that runs has ended.

Main definitions:

* `World.WithNoise` — a course of events with noise put into it
* `Session.Knows` — what a session knows of the artifact

Main statements:

* `World.step_knows` — every action keeps what a session knows
* `World.noise_changes_nothing` — two courses that differ in noise come to the same
-/

namespace KeyRegistry

/-! ## Noise -/

/-- An event of this path says nothing new: it is the artifact or nothing that a scan reads. -/
def Session.IsNoise (s : Session) (fs : FileSystem) (path : Path) : Prop :=
  s.guard.isOutput path = true ∨ s.scanner.matcher.isScannable fs path = false

/-- Events with noise put between them. -/
inductive Padded (noise : Path → Prop) : List FileEvent → List FileEvent → Prop
  | nil : Padded noise [] []
  | keep {events padded : List FileEvent} (event : FileEvent) :
      Padded noise events padded → Padded noise (event :: events) (event :: padded)
  | insert {events padded : List FileEvent} (event : FileEvent) (hNoise : noise event.path) :
      Padded noise events padded → Padded noise events (event :: padded)

/-- What is left of a signal without the noise in it. -/
inductive Signal.Quiets (noise : Path → Prop) : Signal → Option Signal → Prop
  | trouble (message : String) : Quiets noise (.trouble message) none
  | silent {events : List FileEvent} (hPadded : Padded noise [] events) :
      Quiets noise (.batch events) none
  | same (message : String) : Quiets noise (.trouble message) (some (.trouble message))
  | padded {events padded : List FileEvent} (hPadded : Padded noise events padded) :
      Quiets noise (.batch padded) (some (.batch events))

/-- A course of events and the same course with noise put into it, from a state of the latter. For
each signal in the queue it is kept what is left of it without noise. Whether that is so is seen
when the signal is taken, since what a scan reads depends on the files. -/
inductive World.WithNoise : World → List (Option Signal) → List Action → List Action → Prop
  | done {v : World} {marks : List (Option Signal)} : WithNoise v marks [] []
  /-- A signal is queued, maybe with noise in it. -/
  | send {v : World} {marks : List (Option Signal)} {plain noisy : List Action}
      (quiet signal : Signal)
      (hRest : WithNoise { v with queue := v.queue ++ [signal] } (marks ++ [some quiet]) plain
        noisy) :
      WithNoise v marks (.send quiet :: plain) (.send signal :: noisy)
  /-- A signal that is all noise is queued. -/
  | extra {v : World} {marks : List (Option Signal)} {plain noisy : List Action}
      (signal : Signal) (hOpen : v.canSend = true)
      (hRest : WithNoise { v with queue := v.queue ++ [signal] } (marks ++ [none]) plain noisy) :
      WithNoise v marks plain (.send signal :: noisy)
  /-- The next signal is taken, maybe with noise in it. -/
  | take {v : World} {marks : List (Option Signal)} {plain noisy : List Action}
      (quiet signal : Signal) (queue : List Signal) (hStop : v.stopRequested = false)
      (hQueue : v.queue = signal :: queue)
      (hNoise : signal.Quiets (v.session.IsNoise v.files) (some quiet))
      (hRest : WithNoise { v with session := v.session.handle v.files signal, queue } marks plain
        noisy) :
      WithNoise v (some quiet :: marks) (.notice :: plain) (.notice :: noisy)
  /-- A signal that is all noise is taken. -/
  | hear {v : World} {marks : List (Option Signal)} {plain noisy : List Action}
      (signal : Signal) (queue : List Signal) (hAccepting : v.session.accepting = true)
      (hStop : v.stopRequested = false) (hQueue : v.queue = signal :: queue)
      (hNoise : signal.Quiets (v.session.IsNoise v.files) none)
      (hRest : WithNoise { v with session := v.session.handle v.files signal, queue } marks plain
        noisy) :
      WithNoise v (none :: marks) plain (.notice :: noisy)
  /-- Everything else happens alike, and noise has to be heard before a pass or a cooldown
  ends. -/
  | both {v : World} {marks : List (Option Signal)} {plain noisy : List Action}
      (action : Action) (hSend : ∀ signal, action ≠ .send signal)
      (hNotice : action = .notice → v.stopRequested = true ∨ v.queue = [])
      (hEnd : action = .complete ∨ action = .resume → v.hasNews = false)
      (hRest : ∀ u, World.Step v action u → WithNoise u marks plain noisy) :
      WithNoise v marks (action :: plain) (action :: noisy)

/-! ## What a session knows of the artifact -/

/-- The guard remembers a write, and its fingerprint is on disk. -/
def Guard.Knows (g : Guard) (fs : FileSystem) : Prop :=
  ∃ f, g.last = some f ∧ fs.fingerprint? g.output = some f

/-- A guard that knows the artifact can be trusted. -/
theorem Guard.Knows.trusts {g : Guard} {fs : FileSystem} (h : g.Knows fs) : g.Trusts fs := by
  obtain ⟨f, hLast, hDisk⟩ := h
  intro other hOther
  rw [hLast] at hOther
  rw [hDisk, hOther]

/-- A guard that knows the artifact takes each event for it as an echo. -/
theorem Guard.Knows.checkEcho {g : Guard} {fs : FileSystem} {path : Path} (h : g.Knows fs)
    (hOutput : g.isOutput path = true) : g.checkEcho fs path = true := by
  obtain ⟨f, hLast, -⟩ := id h
  rw [h.trusts.checkEcho, hOutput, hLast]
  rfl

/-- What the guard of a pass is good for: it can be trusted until the pass ends, and then it knows
the artifact unless the pass failed. -/
def RunningPass.Knows (pass : RunningPass) (fs : FileSystem) : Prop :=
  match pass.stage with
  | .ended report => report.outcome.isFailure = false → pass.guard.Knows fs
  | _ => pass.guard.Trusts fs

namespace Session

/-- What a session knows of the artifact while nobody else writes it and no pass fails. -/
structure Knows (s : Session) (fs : FileSystem) : Prop where
  agrees : s.Agrees
  tree   : fs.Hierarchical
  /-- The guard knows the artifact whenever no pass runs. -/
  idle   : s.running = none → s.guard.Knows fs
  /-- The pass that runs is for the same artifact. -/
  sameArtifact : ∀ pass, s.running = some pass →
      pass.guard.root = s.guard.root ∧ pass.guard.output = s.guard.output
  pass   : ∀ pass, s.running = some pass → pass.Knows fs
  parked : ∀ path ∈ s.parked, s.guard.isOutput path = true

variable {s : Session} {fs after : FileSystem} {path : Path} {events padded : List FileEvent}

/-- At its start a session has nothing to know yet, since its first pass runs. -/
theorem Knows.begin {scanner : Scanner} (hTree : fs.Hierarchical) :
    (Session.begin scanner).Knows fs where
  agrees := .begin scanner
  tree := hTree
  idle hIdle := by cases hIdle
  sameArtifact := by
    rintro pass ⟨⟩
    exact ⟨rfl, rfl⟩
  pass := by
    rintro pass ⟨⟩
    -- a guard that remembers nothing
    intro f hLast
    cases hLast
  parked _ hMem := by cases hMem

/-- Files that keep the artifact as it is change nothing in what is known. -/
theorem Knows.change (h : s.Knows fs) (hTree : after.Hierarchical)
    (hSame : after.fingerprint? s.guard.output = fs.fingerprint? s.guard.output) :
    s.Knows after where
  agrees := h.agrees
  tree := hTree
  idle hIdle := by
    obtain ⟨f, hLast, hDisk⟩ := h.idle hIdle
    exact ⟨f, hLast, by rw [hSame, hDisk]⟩
  sameArtifact := h.sameArtifact
  -- the pass has a guard of its own, but for the same artifact
  pass := by
    intro pass hRunning
    obtain ⟨-, hOutput⟩ := h.sameArtifact pass hRunning
    have hPass := h.pass pass hRunning
    unfold RunningPass.Knows Guard.Knows Guard.Trusts at hPass ⊢
    rw [hOutput] at hPass ⊢
    rw [hSame]
    exact hPass
  parked := h.parked

/-! ## Judging events -/

/-- Whether an event of this path calls for a pass, while the guard knows the artifact. -/
def calls (s : Session) (fs : FileSystem) (path : Path) : Bool :=
  !s.guard.isOutput path && s.scanner.matcher.isScannable fs path

/-- Noise calls for nothing. -/
theorem IsNoise.calls (h : s.IsNoise fs path) : s.calls fs path = false := by
  rcases h with hOutput | hOther
  · simp [Session.calls, hOutput]
  · simp [Session.calls, hOther]

/-- Events with noise between them call for a pass exactly if the events do. -/
theorem calls_of_padded (h : Padded (s.IsNoise fs) events padded) :
    padded.any (fun event => s.calls fs event.path) =
      events.any (fun event => s.calls fs event.path) := by
  induction h with
  | nil => rfl
  | keep event _ ih => rw [List.any_cons, List.any_cons, ih]
  | insert event hNoise _ ih => rw [List.any_cons, hNoise.calls, ih, Bool.false_or]

/-- Judging keeps what a session knows, if the guard stays and only paths of the artifact are
parked. -/
theorem Knows.judges {t : Session} (h : s.Knows fs) (hJudged : Judges s t)
    (hGuard : t.guard = s.guard) (hParked : ∀ path ∈ t.parked, s.guard.isOutput path = true) :
    t.Knows fs where
  agrees := h.agrees.judges hJudged
  tree := h.tree
  idle hIdle := by
    rw [hJudged.running] at hIdle
    rw [hGuard]
    exact h.idle hIdle
  sameArtifact := by
    rw [hJudged.running, hGuard]
    exact h.sameArtifact
  pass := by
    rw [hJudged.running]
    exact h.pass
  parked := by
    rw [hGuard]
    exact hParked

/-- Judging an event parks a path at most. -/
theorem Knows.judgeEvent (h : s.Knows fs) (path : Path) :
    ∃ parked, s.judgeEvent fs path = ({ s with parked }, s.calls fs path) ∧
      { s with parked }.Knows fs := by
  have hJudged : Judges s (s.judgeEvent fs path).1 := judgeEvent_judges path
  cases hOutput : s.guard.isOutput path with
  | false =>
    refine ⟨s.parked, ?_, h⟩
    simp [Session.judgeEvent, Session.calls, hOutput]
  | true =>
    cases hRun : s.running.isSome with
    | true =>
      have hEq : s.judgeEvent fs path = (s.park path, false) := by
        simp [Session.judgeEvent, hOutput, hRun]
      have hCalls : s.calls fs path = false := by simp [Session.calls, hOutput]
      rw [hEq] at hJudged ⊢
      rw [hCalls]
      -- a pass runs, and the path is parked
      have hFrame : s.park path = { s with parked := (s.park path).parked } := by
        unfold park
        split <;> rfl
      refine ⟨(s.park path).parked, by rw [← hFrame], ?_⟩
      rw [← hFrame]
      refine h.judges hJudged (by rw [hFrame]) ?_
      intro other hMem
      unfold park at hMem
      split at hMem
      · exact h.parked other hMem
      · simp only [List.mem_append, List.mem_singleton] at hMem
        rcases hMem with hOld | rfl
        · exact h.parked other hOld
        · exact hOutput
    | false =>
      -- no pass runs, so the guard knows the artifact and the event is an echo
      have hIdle : s.running = none := by simpa using hRun
      have hEcho := (h.idle hIdle).checkEcho hOutput
      have hCalls : s.calls fs path = false := by simp [Session.calls, hOutput]
      refine ⟨s.parked, ?_, h⟩
      rw [hCalls, Session.judgeEvent, if_pos hOutput, if_neg (by rw [hRun]; simp), judgeArtifact,
        if_pos hEcho]

/-- Judging events parks paths at most. -/
theorem Knows.judge (h : s.Knows fs) (events : List FileEvent) :
    ∃ parked, s.judge fs events =
        ({ s with parked }, events.any fun event => s.calls fs event.path) ∧
      { s with parked }.Knows fs := by
  rw [judge_eq]
  induction events generalizing s with
  | nil => exact ⟨s.parked, rfl, h⟩
  | cons event events ih =>
    obtain ⟨parked, hHead, hKnows⟩ := h.judgeEvent event.path
    obtain ⟨later, hTail, hLater⟩ := ih hKnows
    have hSame : { s with parked }.calls fs = s.calls fs := rfl
    rw [hSame] at hTail
    refine ⟨later, ?_, hLater⟩
    rw [judgeAll, hHead, hTail, List.any_cons]

/-- What was parked turns out to be echoes. -/
theorem judgeParked_of_knows (hGuard : s.guard.Knows fs)
    (hParked : ∀ path ∈ s.parked, s.guard.isOutput path = true) :
    s.judgeParked fs = (s, false) := by
  rw [judgeParked_eq]
  -- the parked paths are the list that is judged and a part of the session too
  have hAll : ∀ paths : List Path, (∀ path ∈ paths, s.guard.isOutput path = true) →
      judgeAll (judgeArtifact · fs ·) paths s = (s, false) := by
    intro paths
    induction paths with
    | nil => intro _; rfl
    | cons path paths ih =>
      intro hOutputs
      have hHead : s.judgeArtifact fs path = (s, false) := by
        rw [judgeArtifact, if_pos (hGuard.checkEcho (hOutputs path List.mem_cons_self))]
      rw [judgeAll, hHead, ih fun other hMem => hOutputs other (List.mem_cons_of_mem _ hMem)]
      rfl
  exact hAll s.parked hParked

/-! ## Taking signals -/

/-- Parked paths make no difference to a demand. -/
theorem demand_parked (s : Session) (parked : List Path) :
    { s with parked }.demand = { s.demand with parked } := by
  unfold demand
  cases s.scheduler <;> rfl

/-- A pass that starts gets the guard of the session, which knows the artifact. -/
theorem Knows.demand (h : s.Knows fs) (hAccepting : s.accepting = true) : s.demand.Knows fs := by
  have hAgrees := h.agrees.demand hAccepting
  cases hState : s.scheduler with
  | idle =>
    have hRest := (h.agrees.idle hAccepting).mp hState
    simp only [Session.demand, hState, Scheduler.onEvent, startPass] at hAgrees ⊢
    refine ⟨hAgrees, h.tree, by simp, ?_, ?_, h.parked⟩
    · rintro pass ⟨⟩
      exact ⟨rfl, rfl⟩
    · rintro pass ⟨⟩
      exact (h.idle hRest.1).trusts
  | scanning | pendingRerun =>
    simp only [Session.demand, hState, Scheduler.onEvent] at hAgrees ⊢
    exact ⟨hAgrees, h.tree, h.idle, h.sameArtifact, h.pass, h.parked⟩

/-- What a session does with a batch: it demands a pass if an event calls for one. -/
theorem Knows.handle_batch (h : s.Knows fs) (hAccepting : s.accepting = true)
    (events : List FileEvent) :
    ∃ parked, s.handle fs (.batch events) =
        { (if events.any fun event => s.calls fs event.path then s.demand else s) with parked } ∧
      (s.handle fs (.batch events)).Knows fs := by
  obtain ⟨parked, hJudge, hKnows⟩ := h.judge events
  refine ⟨parked, ?_⟩
  -- judging moves events among the parked ones, and the batch demands a pass or not
  cases hCalls : events.any fun event => s.calls fs event.path with
  | true =>
    rw [hCalls] at hJudge
    have hEq : s.handle fs (.batch events) = { s with parked }.demand := by
      simp only [Session.handle, hJudge]
    rw [hEq]
    exact ⟨demand_parked s parked, hKnows.demand hAccepting⟩
  | false =>
    rw [hCalls] at hJudge
    have hEq : s.handle fs (.batch events) = { s with parked } := by
      simp only [Session.handle, hJudge]
    rw [hEq]
    exact ⟨rfl, hKnows⟩

/-- Taking a signal keeps what a session knows. -/
theorem Knows.handle (h : s.Knows fs) (hAccepting : s.accepting = true) (signal : Signal) :
    (s.handle fs signal).Knows fs := by
  cases signal with
  | trouble message => exact h
  | batch events =>
    obtain ⟨-, -, hKnows⟩ := h.handle_batch hAccepting events
    exact hKnows

/-- A signal that is all noise parks paths at most. -/
theorem Knows.handle_noise (h : s.Knows fs) (hAccepting : s.accepting = true) {signal : Signal}
    (hNoise : signal.Quiets (s.IsNoise fs) none) :
    ∃ parked, s.handle fs signal = { s with parked } := by
  cases hNoise with
  | trouble message => exact ⟨s.parked, rfl⟩
  | @silent events hPadded =>
    obtain ⟨parked, hEq, -⟩ := h.handle_batch hAccepting events
    rw [calls_of_padded hPadded] at hEq
    exact ⟨parked, hEq⟩

/-- Noise in a signal parks paths at most, on top of what the signal does. -/
theorem Knows.handle_padded {parked : List Path} (h : s.Knows fs)
    (hQuiet : { s with parked }.Knows fs) (hAccepting : s.accepting = true)
    {signal quiet : Signal} (hNoise : signal.Quiets (s.IsNoise fs) (some quiet)) :
    ∃ parked', { s with parked }.handle fs quiet =
      { s.handle fs signal with parked := parked' } := by
  cases hNoise with
  | same message => exact ⟨parked, rfl⟩
  | @padded events more hPadded =>
    obtain ⟨mine, hMine, -⟩ := h.handle_batch hAccepting more
    obtain ⟨other, hOther, -⟩ := hQuiet.handle_batch hAccepting events
    refine ⟨other, ?_⟩
    have hSame : { s with parked }.calls fs = s.calls fs := rfl
    rw [hMine, hOther, hSame, calls_of_padded hPadded, demand_parked]
    split <;> rfl

/-! ## Ends -/

theorem Knows.close (h : s.Knows fs) : s.close.Knows fs :=
  ⟨h.agrees.close, h.tree, h.idle, h.sameArtifact, h.pass, h.parked⟩

/-- The pass that was owed gets a guard that knows the artifact. -/
theorem Knows.resume (h : s.Knows fs) (hCooling : s.cooling = true) : s.resume.Knows fs where
  agrees := h.agrees.resume hCooling
  tree := h.tree
  idle hIdle := by cases hIdle
  sameArtifact := by
    rintro pass ⟨⟩
    exact ⟨rfl, rfl⟩
  pass := by
    rintro pass ⟨⟩
    exact (h.idle (h.agrees.running_eq_none hCooling)).trusts
  parked := h.parked

/-- A move of the pass keeps what a session knows: a write is recorded, and everything else leaves
the artifact alone. -/
theorem Knows.moves {pass moved : RunningPass} {move : PassMove} (h : s.Knows fs)
    (hRunning : s.running = some pass)
    (hMove : pass.step? s.scanner fs move = some (after, moved)) :
    { s with running := some moved }.Knows after := by
  have hMoves := RunningPass.Moves.of_step? hMove
  obtain ⟨hRoot, hOutput⟩ := h.sameArtifact pass hRunning
  have hPass := h.pass pass hRunning
  refine ⟨h.agrees.moves hRunning hMove, hMoves.hierarchical h.tree, by simp, ?_, ?_, h.parked⟩
  · rintro _ ⟨⟩
    exact ⟨hMoves.output.1.trans hRoot, hMoves.output.2.trans hOutput⟩
  · rintro _ ⟨⟩
    cases hMoves with
    | walk hStage | read path progress hStage | parse source progress hStage =>
      rw [RunningPass.Knows, hStage] at hPass
      exact hPass
    -- only the commit touches the artifact, and it hands back a guard that knows what it wrote
    | commit progress after handed report hStage _ _ hConclude =>
      rw [RunningPass.Knows, hStage] at hPass
      intro hDone
      have hOut := (Scan.conclude_output hConclude).2
      obtain ⟨hLast, hDisk⟩ := Guard.Trusts.conclude hPass h.tree hConclude hDone
      rw [← hOut] at hDisk
      exact ⟨report.fingerprint, hLast, hDisk⟩

/-- A pass that did not fail hands back a guard that knows the artifact, and what was parked is
forgotten. -/
theorem Knows.complete_eq {pass : RunningPass} {report : PassReport} (h : s.Knows fs)
    (hRunning : s.running = some pass) (hReport : pass.report? = some report)
    (hDone : report.outcome.isFailure = false) :
    pass.guard.Knows fs ∧
      s.complete fs pass.guard report =
        { s.ended pass.guard report with parked := [] }.settle := by
  have hPass := h.pass pass hRunning
  rw [RunningPass.Knows, RunningPass.report?_eq_some.mp hReport] at hPass
  have hGuard : pass.guard.Knows fs := hPass hDone
  refine ⟨hGuard, ?_⟩
  obtain ⟨hRoot, hOutput⟩ := h.sameArtifact pass hRunning
  -- what was parked is judged by a guard that knows the artifact, so none of it calls for a pass
  have hParked : ∀ path ∈ (s.ended pass.guard report).parked,
      (s.ended pass.guard report).guard.isOutput path = true := by
    intro path hMem
    show pass.guard.isOutput path = true
    rw [Guard.isOutput, hRoot, hOutput]
    exact h.parked path hMem
  have hRecheck : (s.ended pass.guard report).recheck fs = s.ended pass.guard report := by
    unfold recheck
    rw [judgeParked_of_knows hGuard hParked]
    split <;> rfl
  rw [Session.complete_eq, hRecheck]

/-- The scheduler parks nothing. -/
theorem settle_of_parked (hParked : s.parked = []) : { s.settle with parked := [] } = s.settle := by
  obtain ⟨scheduler, cooling, hSettle⟩ := exists_settle_eq s
  rw [hSettle, ← hParked]

/-- The guard that a pass hands back knows the artifact, unless the pass failed. -/
theorem Knows.complete {pass : RunningPass} {report : PassReport} (h : s.Knows fs)
    (hRunning : s.running = some pass) (hReport : pass.report? = some report)
    (hDone : report.outcome.isFailure = false) : (s.complete fs pass.guard report).Knows fs := by
  have hAgrees : (s.complete fs pass.guard report).Agrees :=
    h.agrees.complete hRunning pass.guard report
  obtain ⟨hGuard, hEq⟩ := h.complete_eq hRunning hReport hDone
  obtain ⟨scheduler, cooling, hSettle⟩ :=
    exists_settle_eq { s.ended pass.guard report with parked := [] }
  rw [hEq, hSettle] at hAgrees ⊢
  refine ⟨hAgrees, h.tree, fun _ => hGuard, ?_, ?_, ?_⟩
  · intro other hOther
    cases hOther
  · intro other hOther
    cases hOther
  · intro path hMem
    cases hMem

end Session

namespace World

variable {v w u : World} {action : Action} {actions plain noisy : List Action}
  {marks : List (Option Signal)} {parked : List Path}

/-! ## Foreign changes along a course of events -/

/-- These files hold the same artifact, in a directory like everything else. -/
structure Spares (w : World) (files : FileSystem) : Prop where
  tree : files.Hierarchical
  same : (files.read w.session.guard.output).toOption =
    (w.files.read w.session.guard.output).toOption

/-- Nobody but the session writes the artifact in a course of events. -/
def Spared (w : World) : List Action → Prop
  | [] => True
  | action :: actions =>
    (∀ files, action = .change files → w.Spares files) ∧
      ∀ v, w.step? action = some v → v.Spared actions

/-- A course of events in which nobody else writes the artifact and no pass fails. -/
structure Undisturbed (w : World) (actions : List Action) : Prop where
  spared : w.Spared actions
  done   : ∀ report ∈ w.passReports actions, report.outcome.isFailure = false

/-- What is undisturbed is so after its first step. -/
theorem Undisturbed.rest (h : w.Undisturbed (action :: actions)) (hStep : Step w action v) :
    v.Undisturbed actions := by
  refine ⟨h.spared.2 v hStep.step?, ?_⟩
  intro report hMem
  refine h.done report ?_
  rw [passReports_cons hStep]
  exact List.mem_append_right _ hMem

/-- No pass fails at the first step of what is undisturbed. -/
theorem Undisturbed.first (h : w.Undisturbed (action :: actions)) (hStep : Step w action v)
    (report : PassReport) (hReport : w.reportOf action = some report) :
    report.outcome.isFailure = false := by
  refine h.done report ?_
  rw [passReports_cons hStep, hReport]
  exact List.mem_append_left _ List.mem_cons_self

/-- Every action keeps what a session knows, if nobody else writes the artifact and no pass
fails. -/
theorem step_knows (hStep : Step w action v) (h : w.session.Knows w.files)
    (hSpared : ∀ files, action = .change files → w.Spares files)
    (hDone : ∀ report, w.reportOf action = some report → report.outcome.isFailure = false) :
    v.session.Knows v.files := by
  cases hStep with
  | change files =>
    obtain ⟨hTree, hSame⟩ := hSpared files rfl
    refine h.change hTree ?_
    rw [FileSystem.fingerprint?, FileSystem.fingerprint?, hSame]
  | send | close | requestStop | leave => exact h
  | stop | drain => exact h.close
  | take signal queue hAccepting => exact h.handle hAccepting signal
  | move move pass moved files hRunning hMove => exact h.moves hRunning hMove
  | complete pass report hRunning hReport =>
    rw [deliver_session, deliver_files]
    exact h.complete hRunning hReport (hDone report (reportOf_complete hRunning hReport))
  | resume hCooling => exact h.resume hCooling

/-! ## The same state without noise -/

/-- A state without the noise that waits in the queue, and with other paths parked. -/
def quiet (v : World) (marks : List (Option Signal)) (parked : List Path) : World :=
  { v with queue := marks.filterMap id, session := { v.session with parked } }

/-- A report is handed out alike with and without noise. -/
theorem deliver_quiet (report : PassReport) :
    (v.deliver report).quiet marks parked = (v.quiet marks parked).deliver report := by
  unfold deliver quiet
  split <;> rfl

/-- From these states, two courses of events come to states that differ in noise only, by passes
with the same reports. -/
def Matches (v : World) (marks : List (Option Signal)) (parked : List Path)
    (plain noisy : List Action) : Prop :=
  ∃ u marks' parked', v.run? noisy = some u ∧
    (v.quiet marks parked).run? plain = some (u.quiet marks' parked') ∧
    v.passReports noisy = (v.quiet marks parked).passReports plain

/-- A step that both courses make, and what follows it. -/
theorem Matches.step {other : Action} {marks' : List (Option Signal)} {parked' : List Path}
    (hStep : Step v action u)
    (hQuiet : Step (v.quiet marks parked) other (u.quiet marks' parked'))
    (hReport : v.reportOf action = (v.quiet marks parked).reportOf other)
    (hRest : Matches u marks' parked' plain noisy) :
    Matches v marks parked (other :: plain) (action :: noisy) := by
  obtain ⟨last, marks₂, parked₂, hNoisy, hPlain, hReports⟩ := hRest
  refine ⟨last, marks₂, parked₂, run?_cons_iff.mpr ⟨u, hStep, hNoisy⟩,
    run?_cons_iff.mpr ⟨_, hQuiet, hPlain⟩, ?_⟩
  rw [passReports_cons hStep, passReports_cons hQuiet, hReport, hReports]

/-- A step that the noise alone makes, and what follows it. -/
theorem Matches.extra {marks' : List (Option Signal)} {parked' : List Path}
    (hStep : Step v action u) (hSame : u.quiet marks' parked' = v.quiet marks parked)
    (hReport : v.reportOf action = none) (hRest : Matches u marks' parked' plain noisy) :
    Matches v marks parked plain (action :: noisy) := by
  obtain ⟨last, marks₂, parked₂, hNoisy, hPlain, hReports⟩ := hRest
  rw [hSame] at hPlain hReports
  refine ⟨last, marks₂, parked₂, run?_cons_iff.mpr ⟨u, hStep, hNoisy⟩, hPlain, ?_⟩
  rw [passReports_cons hStep, hReport, hReports]
  rfl

/-- If a course of events can happen, so can what follows on its first action. -/
theorem isSome_run?_of_step (hStep : Step w action v)
    (hRuns : (w.run? (action :: actions)).isSome = true) : (v.run? actions).isSome = true := by
  rw [run?, hStep.step?] at hRuns
  exact hRuns

theorem exists_step_of_run? (hRuns : (w.run? (action :: actions)).isSome = true) :
    ∃ v, Step w action v := by
  obtain ⟨last, hRun⟩ := Option.isSome_iff_exists.mp hRuns
  obtain ⟨v, hStep, -⟩ := run?_cons_iff.mp hRun
  exact ⟨v, hStep⟩

/-- What can happen without noise can happen with noise that was heard. -/
theorem Step.of_quiet (hStep : Step (v.quiet marks parked) action w)
    (hLength : marks.length = v.queue.length) (hSend : ∀ signal, action ≠ .send signal)
    (hNotice : action = .notice → v.stopRequested = true ∨ v.queue = [])
    (hEnd : action = .complete ∨ action = .resume → v.hasNews = false) : ∃ u, Step v action u := by
  cases hStep with
  | change files => exact ⟨_, .change files⟩
  | send signal => exact absurd rfl (hSend signal)
  | close => exact ⟨_, .close⟩
  | requestStop => exact ⟨_, .requestStop⟩
  | leave => exact ⟨_, .leave⟩
  | stop hAccepting hStop => exact ⟨_, .stop hAccepting hStop⟩
  | take signal queue hAccepting hStop hQueue =>
    rcases hNotice rfl with hStopped | hEmpty
    · exact absurd hStopped (by rw [show v.stopRequested = false from hStop]; simp)
    · -- nothing waits in the queue, with noise or without
      rw [hEmpty, List.length_nil, List.length_eq_zero_iff] at hLength
      rw [quiet, hLength] at hQueue
      cases hQueue
  | drain hAccepting hStop _ hClosed =>
    rcases hNotice rfl with hStopped | hEmpty
    · exact absurd hStopped (by rw [show v.stopRequested = false from hStop]; simp)
    · exact ⟨_, .drain hAccepting hStop hEmpty hClosed⟩
  | move move pass moved files hRunning hMove =>
    exact ⟨_, .move move pass moved files hRunning hMove⟩
  | complete pass report hRunning hReport =>
    exact ⟨_, .complete pass report hRunning hReport (hEnd (Or.inl rfl))⟩
  | resume hCooling => exact ⟨_, .resume hCooling (hEnd (Or.inr rfl))⟩

/-- Without noise there is no more to notice. -/
theorem hasNews_quiet (hLength : marks.length = v.queue.length) (hNews : v.hasNews = false) :
    (v.quiet marks parked).hasNews = false := by
  cases hAccepting : v.session.accepting with
  | false => simp [hasNews, quiet, hAccepting]
  | true =>
    simp only [hasNews, hAccepting, Bool.true_and, Bool.or_eq_false_iff, Bool.not_eq_false',
      List.isEmpty_iff] at hNews
    obtain ⟨⟨hStop, hEmpty⟩, hClosed⟩ := hNews
    rw [hEmpty, List.length_nil, List.length_eq_zero_iff] at hLength
    simp [hasNews, quiet, hAccepting, hStop, hLength, hClosed]

/-- What can happen with noise that was heard happens alike without it. -/
theorem Step.quiet (hStep : Step v action u) (hLength : marks.length = v.queue.length)
    (hKnows : v.session.Knows v.files)
    (hQuiet : (v.quiet marks parked).session.Knows v.files)
    (hDone : ∀ w, Step (v.quiet marks parked) action w →
      ∀ report, v.reportOf action = some report → report.outcome.isFailure = false)
    (hSend : ∀ signal, action ≠ .send signal)
    (hNotice : action = .notice → v.stopRequested = true ∨ v.queue = [])
    (hEnd : action = .complete ∨ action = .resume → v.hasNews = false) :
    marks.length = u.queue.length ∧
      ∃ parked', Step (v.quiet marks parked) action (u.quiet marks parked') := by
  cases hStep with
  | change files => exact ⟨hLength, parked, .change files⟩
  | send signal => exact absurd rfl (hSend signal)
  | close => exact ⟨hLength, parked, .close⟩
  | requestStop => exact ⟨hLength, parked, .requestStop⟩
  | leave => exact ⟨hLength, parked, .leave⟩
  | stop hAccepting hStop => exact ⟨hLength, parked, .stop hAccepting hStop⟩
  | take signal queue hAccepting hStop hQueue =>
    rcases hNotice rfl with hStopped | hEmpty
    · rw [hStopped] at hStop
      cases hStop
    · rw [hEmpty] at hQueue
      cases hQueue
  | drain hAccepting hStop hQueue hClosed =>
    refine ⟨hLength, parked, .drain hAccepting hStop ?_ hClosed⟩
    rw [hQueue, List.length_nil, List.length_eq_zero_iff] at hLength
    rw [World.quiet, hLength]
    rfl
  | move move pass moved files hRunning hMove =>
    exact ⟨hLength, parked, .move move pass moved files hRunning hMove⟩
  | complete pass report hRunning hReport hNews =>
    have hOther : (v.quiet marks parked).hasNews = false := hasNews_quiet hLength hNews
    have hGood : report.outcome.isFailure = false :=
      hDone _ (.complete pass report hRunning hReport hOther) report
        (reportOf_complete hRunning hReport)
    -- nothing is parked any more, so the sessions are the same
    have hMine := (hKnows.complete_eq hRunning hReport hGood).2
    have hPlain := (hQuiet.complete_eq hRunning hReport hGood).2
    have hSession : { v.session.complete v.files pass.guard report with parked := [] } =
        (v.quiet marks parked).session.complete v.files pass.guard report := by
      rw [hMine, hPlain]
      exact Session.settle_of_parked rfl
    refine ⟨by unfold deliver; split <;> exact hLength, [], ?_⟩
    rw [deliver_quiet]
    unfold World.quiet
    rw [hSession]
    exact .complete pass report hRunning hReport hOther
  | resume hCooling hNews => exact ⟨hLength, parked, .resume hCooling (hasNews_quiet hLength hNews)⟩

/-- Only a session that takes signals notices anything. -/
theorem accepting_of_notice (hStep : Step w .notice v) : w.session.accepting = true := by
  cases hStep with
  | stop hAccepting | take _ _ hAccepting | drain hAccepting => exact hAccepting

/-- A signal that is queued could be queued. -/
theorem canSend_of_send {signal : Signal} (hStep : Step w (.send signal) v) :
    w.canSend = true := by
  cases hStep with
  | send _ hOpen => exact hOpen

/-- A signal is queued with noise in it, and without. -/
theorem Step.send_quiet (hOpen : v.canSend = true) (signal quiet : Signal) :
    Step (v.quiet marks parked) (.send quiet)
      (World.quiet { v with queue := v.queue ++ [signal] } (marks ++ [some quiet]) parked) := by
  have hSent : Step (v.quiet marks parked) (.send quiet) _ := .send quiet hOpen
  have hQueue : (marks ++ [some quiet]).filterMap id = marks.filterMap id ++ [quiet] := by
    rw [List.filterMap_append]
    rfl
  unfold World.quiet at hSent ⊢
  rw [hQueue]
  exact hSent

/-- Without noise, nothing is queued for a signal that is all noise. -/
theorem quiet_send_noise (signal : Signal) :
    World.quiet { v with queue := v.queue ++ [signal] } (marks ++ [none]) parked =
      v.quiet marks parked := by
  have hQueue : (marks ++ [none]).filterMap id = marks.filterMap id := by
    rw [List.filterMap_append]
    exact List.append_nil _
  unfold World.quiet
  rw [hQueue]

variable {quiet signal : Signal}

/-- A signal is taken with noise in it, and without; only what is parked differs afterwards. -/
theorem Step.take_quiet (queue : List Signal) (hKnows : v.session.Knows v.files)
    (hQuiet : (v.quiet (some quiet :: marks) parked).session.Knows v.files)
    (hAccepting : v.session.accepting = true) (hStop : v.stopRequested = false)
    (hNoise : signal.Quiets (v.session.IsNoise v.files) (some quiet)) :
    ∃ parked', Step (v.quiet (some quiet :: marks) parked) .notice
      (World.quiet { v with session := v.session.handle v.files signal, queue } marks parked') := by
  obtain ⟨parked', hHandle⟩ := hKnows.handle_padded hQuiet hAccepting hNoise
  have hTaken : Step (v.quiet (some quiet :: marks) parked) .notice _ :=
    .take quiet (marks.filterMap id) hAccepting hStop rfl
  refine ⟨parked', ?_⟩
  unfold World.quiet at hTaken ⊢
  rw [hHandle] at hTaken
  exact hTaken

/-- Without noise, nothing happens when a signal is taken that is all noise. -/
theorem quiet_take_noise (queue : List Signal) (hKnows : v.session.Knows v.files)
    (hAccepting : v.session.accepting = true)
    (hNoise : signal.Quiets (v.session.IsNoise v.files) none) :
    World.quiet { v with session := v.session.handle v.files signal, queue } marks parked =
      v.quiet (none :: marks) parked := by
  obtain ⟨parked', hHandle⟩ := hKnows.handle_noise hAccepting hNoise
  rw [hHandle]
  rfl

/-- The mark of a signal leaves with the signal. -/
theorem length_marks {mark : Option Signal} {queue : List Signal}
    (hLength : (mark :: marks).length = v.queue.length)
    (hQueue : v.queue = signal :: queue) : marks.length = queue.length := by
  rw [hQueue, List.length_cons, List.length_cons] at hLength
  exact Nat.succ.inj hLength

/-- The comparison goes through the courses action by action. It is kept that both sessions know
the artifact, and that a mark belongs to each signal in the queue. -/
theorem WithNoise.matches (h : WithNoise v marks plain noisy)
    (hLength : marks.length = v.queue.length)
    (hKnows : v.session.Knows v.files) (hQuiet : (v.quiet marks parked).session.Knows v.files)
    (hPlain : (v.quiet marks parked).Undisturbed plain)
    (hRuns : ((v.quiet marks parked).run? plain).isSome = true ∨ (v.run? noisy).isSome = true) :
    Matches v marks parked plain noisy := by
  induction h generalizing parked with
  | done => exact ⟨_, _, parked, rfl, rfl, rfl⟩
  | @send v marks plain noisy quiet signal _ ih =>
    -- the queue is open in both courses or in neither
    have hOpen : v.canSend = true := by
      rcases hRuns.imp exists_step_of_run? exists_step_of_run? with ⟨_, hNext⟩ | ⟨_, hNext⟩
      · exact (canSend_of_send hNext :)
      · exact canSend_of_send hNext
    have hStep : Step v (.send signal) _ := .send signal hOpen
    have hOther : Step (v.quiet marks parked) (.send quiet) _ := Step.send_quiet hOpen signal quiet
    exact .step hStep hOther rfl (ih (by simp [hLength]) hKnows hQuiet (hPlain.rest hOther)
      (hRuns.imp (isSome_run?_of_step hOther) (isSome_run?_of_step hStep)))
  | @extra v marks plain noisy signal hOpen _ ih =>
    -- the course without noise stays where it is
    have hStep : Step v (.send signal) _ := .send signal hOpen
    have hSame : World.quiet _ (marks ++ [none]) parked = v.quiet marks parked :=
      quiet_send_noise signal
    refine .extra hStep hSame rfl (ih (by simp [hLength]) hKnows hQuiet ?_ ?_)
    · rw [hSame]
      exact hPlain
    · rw [hSame]
      exact hRuns.imp_right (isSome_run?_of_step hStep)
  | @take v marks plain noisy quiet signal queue hStop hQueue hNoise _ ih =>
    -- both sessions still take signals, or neither does
    have hAccepting : v.session.accepting = true := by
      rcases hRuns.imp exists_step_of_run? exists_step_of_run? with ⟨_, hNext⟩ | ⟨_, hNext⟩
      · exact (accepting_of_notice hNext :)
      · exact accepting_of_notice hNext
    have hStep : Step v .notice _ := .take signal queue hAccepting hStop hQueue
    obtain ⟨parked', hOther⟩ := Step.take_quiet queue hKnows hQuiet hAccepting hStop hNoise
    -- the files do not change and no pass ends where a signal is taken
    have hLater := step_knows hOther hQuiet (fun _ hChange => by cases hChange)
      (fun _ hReport => by cases hReport)
    exact .step hStep hOther rfl (ih (length_marks hLength hQueue) (hKnows.handle hAccepting signal)
      hLater (hPlain.rest hOther)
      (hRuns.imp (isSome_run?_of_step hOther) (isSome_run?_of_step hStep)))
  | @hear v marks plain noisy signal queue hAccepting hStop hQueue hNoise _ ih =>
    -- only what is parked differs, and without the noise nothing happens here
    have hStep : Step v .notice _ := .take signal queue hAccepting hStop hQueue
    have hSame : World.quiet _ marks parked = v.quiet (none :: marks) parked :=
      quiet_take_noise queue hKnows hAccepting hNoise
    refine .extra hStep hSame rfl (ih (length_marks hLength hQueue)
      (hKnows.handle hAccepting signal) ?_ ?_ ?_)
    · rw [hSame]
      exact hQuiet
    · rw [hSame]
      exact hPlain
    · rw [hSame]
      exact hRuns.imp_right (isSome_run?_of_step hStep)
  | @both v marks plain noisy action hSend hNotice hEnd _ ih =>
    obtain ⟨u, hStep⟩ : ∃ u, Step v action u := by
      rcases hRuns.imp exists_step_of_run? exists_step_of_run? with ⟨_, hNext⟩ | hNext
      · exact hNext.of_quiet hLength hSend hNotice hEnd
      · exact hNext
    have hSame : v.reportOf action = (v.quiet marks parked).reportOf action := by
      cases action <;> rfl
    -- the reports are the same, so no pass of the other course fails either
    have hDone : ∀ w, Step (v.quiet marks parked) action w →
        ∀ report, v.reportOf action = some report → report.outcome.isFailure = false := by
      intro w hOther report hReport
      rw [hSame] at hReport
      exact hPlain.first hOther report hReport
    obtain ⟨hLater, parked', hOther⟩ :=
      hStep.quiet hLength hKnows hQuiet hDone hSend hNotice hEnd
    have hSpared : ∀ files, action = .change files → v.Spares files := by
      intro files hChange
      obtain ⟨hTree, hRead⟩ := hPlain.spared.1 files hChange
      exact ⟨hTree, hRead⟩
    have hFirst := step_knows hStep hKnows hSpared (hDone _ hOther)
    have hSecond := step_knows hOther hQuiet hPlain.spared.1 (hPlain.first hOther)
    exact .step hStep hOther hSame (ih u hStep hLater hFirst hSecond (hPlain.rest hOther)
      (hRuns.imp (isSome_run?_of_step hOther) (isSome_run?_of_step hStep)))

/-- **Noise changes nothing.** Of two courses of events that differ in noise only, one can happen
exactly if the other can; they come to the same files, summary and session, but for what is parked,
by passes with the same reports. -/
theorem noise_changes_nothing {scanner : Scanner} {files : FileSystem}
    (hTree : files.Hierarchical) (hNoise : WithNoise (World.begin scanner files) [] plain noisy)
    (hPlain : (World.begin scanner files).Undisturbed plain)
    (hRuns : ((World.begin scanner files).run? plain).isSome = true ∨
      ((World.begin scanner files).run? noisy).isSome = true) :
    ∃ w v, (World.begin scanner files).run? plain = some w ∧
      (World.begin scanner files).run? noisy = some v ∧
      w = { v with queue := w.queue, session := { v.session with parked := w.session.parked } } ∧
      (World.begin scanner files).passReports noisy =
        (World.begin scanner files).passReports plain := by
  have hKnows : (World.begin scanner files).session.Knows files := Session.Knows.begin hTree
  have hMatches : Matches (World.begin scanner files) [] [] plain noisy :=
    hNoise.matches rfl hKnows hKnows hPlain hRuns
  obtain ⟨v, marks, parked, hNoisy, hQuiet, hReports⟩ := hMatches
  exact ⟨v.quiet marks parked, v, hQuiet, hNoisy, rfl, hReports⟩

/-- A directory with nothing in it. -/
def bareFiles : FileSystem where
  entries := [([.text "r"], .directory)]

/-- The first pass of a project with nothing to scan does not fail. -/
theorem bare_undisturbed : (World.begin bareScanner bareFiles).Undisturbed
    [.move .walk, .move .commit, .complete] := by
  have hNoChange : ∀ w : World, w.Spared [.move .walk, .move .commit, .complete] := by
    intro w
    refine ⟨?_, fun _ _ => ⟨?_, fun _ _ => ⟨?_, fun _ _ => trivial⟩⟩⟩
    all_goals
      intro files hChange
      cases hChange
  refine ⟨hNoChange _, ?_⟩
  have hTree : bareFiles.IsTree := FileSystem.isTree_sound (by decide)
  have hWritable : bareFiles.Writable ["r", "out.d.ts"] :=
    ⟨⟨by decide, by decide, by decide, by simp, by decide, by decide⟩, fun _ => rfl⟩
  have hOutput : bareScanner.guard.output = Route.toPath ⟨true, ["r", "out.d.ts"]⟩ := by
    decide +kernel
  -- the walk finds nothing to read, so the commit is the next move, and its report the only one
  intro report hMem
  obtain ⟨w₁, hWalk, hNone | hMem⟩ := mem_passReports_cons hMem
  · cases hNone
  cases hWalk with
  | move _ pass walked files hRunning hWalk =>
    cases hRunning
    cases RunningPass.Moves.of_step? hWalk with
    | walk =>
      obtain ⟨w₂, hCommit, hNone | hMem⟩ := mem_passReports_cons hMem
      · cases hNone
      cases hCommit with
      | move _ pass ended files hRunning hCommit =>
        cases hRunning
        cases RunningPass.Moves.of_step? hCommit with
        | commit progress after handed ending _ _ _ hConclude =>
          obtain ⟨w₃, -, hReport | hMem⟩ := mem_passReports_cons hMem
          · cases hReport
            obtain ⟨written, hDone, hWritten⟩ :=
              Scan.conclude_of_writable hTree hWritable hOutput rfl progress.toScan "m"
            have hBoth := hConclude.symm.trans hWritten
            cases hBoth
            rw [hDone]
            rfl
          · cases hMem

/-- An event for the artifact comes while the first pass runs, by another spelling of its path. -/
theorem noise_changes_nothing_of_parked :
    ∃ w v, (World.begin bareScanner bareFiles).run? [.move .walk, .move .commit, .complete] =
        some w ∧
      (World.begin bareScanner bareFiles).run? [.move .walk,
        .send (.batch [⟨.removed, ⟨"/r/./out.d.ts"⟩⟩]), .notice, .move .commit, .complete] =
          some v ∧
      w = { v with queue := w.queue, session := { v.session with parked := w.session.parked } } ∧
      (World.begin bareScanner bareFiles).passReports [.move .walk,
        .send (.batch [⟨.removed, ⟨"/r/./out.d.ts"⟩⟩]), .notice, .move .commit, .complete] =
          (World.begin bareScanner bareFiles).passReports
            [.move .walk, .move .commit, .complete] := by
  have hTree : bareFiles.IsTree := FileSystem.isTree_sound (by decide)
  refine noise_changes_nothing hTree.inside ?_ bare_undisturbed (Or.inl (by decide +kernel))
  refine .both (.move .walk) (by simp) (by simp) (by simp) ?_
  rintro u ⟨⟩
  refine .extra _ rfl (.hear _ [] rfl rfl rfl (.silent (.insert _ (Or.inl ?_) .nil)) ?_)
  · show bareScanner.guard.isOutput ⟨"/r/./out.d.ts"⟩ = true
    decide +kernel
  · refine .both (.move .commit) (by simp) (by simp) (by simp) ?_
    rintro u ⟨⟩
    exact .both .complete (by simp) (by simp) (fun _ => by simp [hasNews, World.begin])
      fun _ _ => .done

end World

end KeyRegistry

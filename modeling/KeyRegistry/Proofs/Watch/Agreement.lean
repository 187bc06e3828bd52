import KeyRegistry.Proofs.Watch.Steps

/-!
# The parts of a session agree

A session keeps five things that have to fit together: the pass that runs, the cooldown, the
scheduler, the parked paths and whether signals are taken. Here it is shown that they do, whatever
happens in whatever order. At most one pass runs and never during a cooldown, the scheduler knows
whether there is work, paths are parked only while a pass runs, and the guard of the session stays
as it was when the pass that runs was given a copy of it. So a pass is never dropped halfway, and
the guard that it hands back replaces nothing that was learned in the meantime.

Main definitions:

* `RunningPass.Becomes` — what a pass becomes by its moves
* `Session.Agrees` — the parts of a session fit together
* `Session.ended` — a session whose pass has ended, before it looks at what was parked

Main statements:

* `World.step_agrees` — every action keeps the parts in agreement
* `World.one_pass_at_a_time` — so they agree always, and a pass that runs is left to end
-/

namespace KeyRegistry

/-- What a pass becomes by its moves, whatever the files are like in between. -/
inductive RunningPass.Becomes (start : RunningPass) (scanner : Scanner) : RunningPass → Prop
  | refl : Becomes start scanner start
  | move {pass moved : RunningPass} {before after : FileSystem} {move : PassMove} :
      Becomes start scanner pass → pass.step? scanner before move = some (after, moved) →
        Becomes start scanner moved

/-- Becoming something twice is becoming it. -/
theorem RunningPass.Becomes.trans {scanner : Scanner} {start middle last : RunningPass}
    (h : start.Becomes scanner middle) (k : middle.Becomes scanner last) :
    start.Becomes scanner last := by
  induction k with
  | refl => exact h
  | move _ hMove ih => exact ih.move hMove

/-- The parts of a session fit together. -/
structure Session.Agrees (s : Session) : Prop where
  /-- No cooldown is waited out while a pass runs. -/
  exclusive : s.running.isSome = true → s.cooling = false
  /-- The scheduler is at rest exactly if no pass runs and none is owed. -/
  idle      : s.accepting = true →
                (s.scheduler = .idle ↔ s.running = none ∧ s.cooling = false)
  /-- A rerun is remembered only while a pass runs or is owed. -/
  pending   : s.accepting = true → s.scheduler = .pendingRerun →
                s.running.isSome = true ∨ s.cooling = true
  /-- Paths are parked only while a pass runs. -/
  parked    : s.parked ≠ [] → s.running.isSome = true
  /-- The pass that runs was given the guard that the session still has. -/
  ownGuard  : ∀ pass, s.running = some pass →
                RunningPass.Becomes { guard := s.guard } s.scanner pass

namespace Session

variable {s t : Session} {fs : FileSystem}

/-- No pass runs during a cooldown. -/
theorem Agrees.running_eq_none (h : s.Agrees) (hCooling : s.cooling = true) : s.running = none := by
  cases hRunning : s.running with
  | none => rfl
  | some pass =>
    have hExclusive := h.exclusive (by rw [hRunning]; rfl)
    rw [hCooling] at hExclusive
    cases hExclusive

/-- A rerun that is owed waits for a pass or for a cooldown. -/
theorem Agrees.not_owed (h : s.Agrees) (hAccepting : s.accepting = true)
    (hNoPass : s.running = none) (hNoCooldown : s.cooling = false) :
    s.scheduler ≠ .pendingRerun := by
  intro hOwed
  rcases h.pending hAccepting hOwed with hRunning | hCooling
  · rw [hNoPass] at hRunning
    cases hRunning
  · rw [hNoCooldown] at hCooling
    cases hCooling

/-- The scheduler is not at rest while a pass runs. -/
theorem Agrees.ne_idle {pass : RunningPass} (h : s.Agrees) (hAccepting : s.accepting = true)
    (hRunning : s.running = some pass) : s.scheduler ≠ .idle := by
  intro hIdle
  have hNone := ((h.idle hAccepting).mp hIdle).1
  rw [hRunning] at hNone
  cases hNone

/-- At its start the parts of a session agree. -/
theorem Agrees.begin (scanner : Scanner) : (Session.begin scanner).Agrees where
  exclusive _ := rfl
  idle _ := by simp [Session.begin, demand, Scheduler.onEvent, startPass]
  pending _ _ := Or.inl rfl
  parked _ := rfl
  ownGuard := by
    rintro pass ⟨⟩
    exact .refl

/-- Judging keeps the agreement: it parks only while a pass runs, and touches the guard only
while none does. -/
theorem Agrees.judges (h : s.Agrees) (hJudged : Judges s t) : t.Agrees where
  exclusive := by
    rw [hJudged.running, hJudged.cooling]
    exact h.exclusive
  idle := by
    rw [hJudged.accepting, hJudged.scheduler, hJudged.running, hJudged.cooling]
    exact h.idle
  pending := by
    rw [hJudged.accepting, hJudged.scheduler, hJudged.running, hJudged.cooling]
    exact h.pending
  parked := by
    intro hParked
    rw [hJudged.running]
    rcases hJudged.parked with hSame | hRun
    · exact h.parked (hSame ▸ hParked)
    · exact hRun
  ownGuard := by
    -- the guard forgets nothing while a pass runs
    intro pass hRunning
    rw [hJudged.running] at hRunning
    rw [hJudged.scanner, hJudged.guard_of_running (by rw [hRunning]; rfl)]
    exact h.ownGuard pass hRunning

/-- A pass is started only where none runs and none is owed. -/
theorem Agrees.demand (h : s.Agrees) (hAccepting : s.accepting = true) : s.demand.Agrees := by
  cases hState : s.scheduler with
  | idle =>
    -- the pass is started, with the guard that the session has
    have hRest := (h.idle hAccepting).mp hState
    refine ⟨fun _ => ?_, fun _ => ?_, fun _ => ?_, fun _ => ?_, ?_⟩ <;>
      simp only [Session.demand, hState, Scheduler.onEvent, startPass]
    · exact hRest.2
    · simp
    · simp
    · rfl
    · rintro pass ⟨⟩
      exact .refl
  | scanning | pendingRerun =>
    -- the pass is only remembered, and something is there that it waits for
    have hBusy : ¬ (s.running = none ∧ s.cooling = false) := by
      rw [← h.idle hAccepting, hState]
      simp
    simp only [Session.demand, hState, Scheduler.onEvent]
    refine ⟨h.exclusive, fun _ => ?_, fun _ _ => ?_, h.parked, h.ownGuard⟩
    · simpa using hBusy
    · cases hRunning : s.running with
      | some pass => exact Or.inl rfl
      | none => exact Or.inr (by simpa [hRunning] using hBusy)

/-- Taking a signal keeps the parts of a session in agreement. -/
theorem Agrees.handle (h : s.Agrees) (hAccepting : s.accepting = true) (signal : Signal) :
    (s.handle fs signal).Agrees := by
  cases signal with
  | trouble message => exact h
  | batch events =>
    have hJudged : Judges s (s.judge fs events).1 := judge_judges events
    simp only [Session.handle]
    split
    · next t hCase =>
      rw [hCase] at hJudged
      exact (h.judges hJudged).demand (hJudged.accepting.trans hAccepting)
    · next t hCase =>
      rw [hCase] at hJudged
      exact h.judges hJudged

theorem Agrees.close (h : s.Agrees) : s.close.Agrees where
  exclusive _ := rfl
  idle hAccepting := by cases hAccepting
  pending hAccepting := by cases hAccepting
  parked := h.parked
  ownGuard := h.ownGuard

/-- At the end of a cooldown no pass runs, so none is replaced. -/
theorem Agrees.resume (h : s.Agrees) (hCooling : s.cooling = true) : s.resume.Agrees where
  exclusive _ := rfl
  idle hAccepting := by
    -- the scheduler was not at rest during the cooldown
    have hBusy : s.scheduler ≠ .idle := by
      intro hIdle
      have := ((h.idle hAccepting).mp hIdle).2
      rw [hCooling] at this
      cases this
    simp [Session.resume, startPass, hBusy]
  pending _ _ := Or.inl rfl
  parked _ := rfl
  ownGuard := by
    rintro pass ⟨⟩
    exact .refl

/-- A move of the pass keeps the parts of a session in agreement. -/
theorem Agrees.moves {pass moved : RunningPass} {before after : FileSystem} {move : PassMove}
    (h : s.Agrees) (hRunning : s.running = some pass)
    (hMove : pass.step? s.scanner before move = some (after, moved)) :
    { s with running := some moved }.Agrees where
  exclusive _ := h.exclusive (by rw [hRunning]; rfl)
  idle hAccepting := by
    have hIdle := h.idle hAccepting
    simp only [hRunning, reduceCtorEq, false_and, iff_false] at hIdle ⊢
    exact hIdle
  pending _ _ := Or.inl rfl
  parked _ := rfl
  ownGuard := by
    rintro _ ⟨⟩
    exact (h.ownGuard pass hRunning).move hMove

/-! ## The end of a pass -/

/-- A session whose pass has ended, before it looks at what was parked. -/
def ended (s : Session) (guard : Guard) (report : PassReport) : Session :=
  { s with running := none, guard, summary := s.summary.count report.outcome }

/-- The end of a pass in three steps: the guard is taken back, what was parked is judged, and the
scheduler decides. -/
theorem complete_eq (s : Session) (fs : FileSystem) (guard : Guard) (report : PassReport) :
    s.complete fs guard report =
      { (s.ended guard report).recheck fs with parked := [] }.settle := rfl

/-- Judging what was parked changes no more than judging may. -/
theorem ended_judges (s : Session) (fs : FileSystem) (guard : Guard) (report : PassReport) :
    Judges (s.ended guard report) ((s.ended guard report).judgeParked fs).1 :=
  judgeParked_judges rfl

/-- Looking at the parked paths is judging them; the scheduler may remember a rerun for them. -/
theorem exists_recheck_eq (hIdle : s.running = none) :
    ∃ t scheduler, Judges s t ∧ s.recheck fs = { t with scheduler } := by
  have hJudged : Judges s (s.judgeParked fs).1 := judgeParked_judges hIdle
  unfold recheck
  split
  · split
    · next t hCase =>
      rw [hCase] at hJudged
      exact ⟨t, _, hJudged, rfl⟩
    · next t hCase =>
      rw [hCase] at hJudged
      exact ⟨t, _, hJudged, rfl⟩
  · exact ⟨s, _, .refl s, rfl⟩

/-- The scheduler decides whether a cooldown begins, and nothing else. -/
theorem exists_settle_eq (s : Session) :
    ∃ scheduler cooling, s.settle = { s with scheduler, cooling } := by
  unfold settle
  split
  · exact ⟨_, _, rfl⟩
  · exact ⟨_, _, rfl⟩

/-- The end of a pass takes back its guard, judges what was parked, and lets the scheduler
decide. -/
theorem exists_complete_eq (s : Session) (fs : FileSystem) (guard : Guard) (report : PassReport) :
    ∃ t scheduler cooling, Judges (s.ended guard report) t ∧
      s.complete fs guard report = { t with scheduler, cooling, parked := [] } := by
  obtain ⟨t, owed, hJudged, hRecheck⟩ : ∃ t scheduler, Judges (s.ended guard report) t ∧
      (s.ended guard report).recheck fs = { t with scheduler } := exists_recheck_eq rfl
  obtain ⟨scheduler, cooling, hSettle⟩ :=
    exists_settle_eq { t with scheduler := owed, parked := [] }
  refine ⟨t, scheduler, cooling, hJudged, ?_⟩
  rw [complete_eq, hRecheck, hSettle]

/-- When the scheduler has decided after a pass, the parts of a session agree. -/
theorem Agrees.settle (hIdle : s.running = none) (hCooling : s.cooling = false)
    (hParked : s.parked = []) : s.settle.Agrees := by
  cases hState : s.scheduler with
  | pendingRerun =>
    simp only [Session.settle, hState, Scheduler.onComplete]
    refine ⟨?_, ?_, ?_, ?_, ?_⟩ <;> simp_all
  | idle | scanning =>
    simp only [Session.settle, hState, Scheduler.onComplete]
    refine ⟨?_, ?_, ?_, ?_, ?_⟩ <;> simp_all

/-- The end of a pass keeps the parts of a session in agreement. -/
theorem Agrees.complete {pass : RunningPass} (h : s.Agrees) (hRunning : s.running = some pass)
    (guard : Guard) (report : PassReport) : (s.complete fs guard report).Agrees := by
  -- a pass ran until now, so no cooldown is waited out
  have hCooling : s.cooling = false := h.exclusive (by rw [hRunning]; rfl)
  obtain ⟨t, scheduler, hJudged, hRecheck⟩ : ∃ t scheduler, Judges (s.ended guard report) t ∧
      (s.ended guard report).recheck fs = { t with scheduler } := exists_recheck_eq rfl
  rw [complete_eq, hRecheck]
  exact Agrees.settle hJudged.running (hJudged.cooling.trans hCooling) rfl

/-- Ending a pass does not end the session. -/
theorem complete_accepting (guard : Guard) (report : PassReport) :
    (s.complete fs guard report).accepting = s.accepting := by
  obtain ⟨t, scheduler, cooling, hJudged, hEq⟩ := exists_complete_eq s fs guard report
  rw [hEq]
  exact hJudged.accepting

/-! ## What the scheduler decides while the parts agree -/

/-- A pass that is called for starts at once if all is at rest, and is owed otherwise. -/
theorem Agrees.demand_cases (h : s.Agrees) (hAccepting : s.accepting = true) :
    (s.running = none ∧ s.cooling = false ∧
      s.demand = { s with scheduler := .scanning, running := some { guard := s.guard } }) ∨
    (¬ (s.running = none ∧ s.cooling = false) ∧
      s.demand = { s with scheduler := .pendingRerun }) := by
  cases hState : s.scheduler with
  | idle =>
    obtain ⟨hNone, hCooling⟩ := (h.idle hAccepting).mp hState
    refine Or.inl ⟨hNone, hCooling, ?_⟩
    simp [Session.demand, hState, Scheduler.onEvent, startPass]
  | scanning | pendingRerun =>
    refine Or.inr ⟨?_, ?_⟩
    · rw [← h.idle hAccepting, hState]
      simp
    · simp [Session.demand, hState, Scheduler.onEvent]

/-- What a session does with a batch. -/
theorem handle_batch_eq (events : List FileEvent) :
    s.handle fs (.batch events) =
      if (s.judge fs events).2 then (s.judge fs events).1.demand else (s.judge fs events).1 := by
  simp only [Session.handle]
  split
  · next t hCase => rw [hCase, if_pos rfl]
  · next t hCase => rw [hCase, if_neg (by simp)]

/-- Once a pass has ended, the session rests if nobody called for another one in the meantime and
nobody else changed the artifact; otherwise a cooldown begins. -/
theorem Agrees.complete_cases {pass : RunningPass} (h : s.Agrees) (hAccepting : s.accepting = true)
    (hRunning : s.running = some pass) (guard : Guard) (report : PassReport) :
    ((((s.ended guard report).judgeParked fs).2 = true ∨ s.scheduler = .pendingRerun) ∧
        s.complete fs guard report = { ((s.ended guard report).judgeParked fs).1 with
          scheduler := .scanning, cooling := true, parked := [] }) ∨
      (((s.ended guard report).judgeParked fs).2 = false ∧ s.scheduler ≠ .pendingRerun ∧
        s.complete fs guard report =
          { ((s.ended guard report).judgeParked fs).1 with scheduler := .idle, parked := [] }) := by
  have hJudged := s.ended_judges fs guard report
  have hScheduler : ((s.ended guard report).judgeParked fs).1.scheduler = s.scheduler :=
    hJudged.scheduler
  have hTakes : ((s.ended guard report).judgeParked fs).1.accepting = true :=
    hJudged.accepting.trans hAccepting
  have hRecheck : (s.ended guard report).recheck fs =
      if ((s.ended guard report).judgeParked fs).2 then
        { ((s.ended guard report).judgeParked fs).1 with
          scheduler := ((s.ended guard report).judgeParked fs).1.scheduler.onEvent.1 }
      else ((s.ended guard report).judgeParked fs).1 := by
    have hEnded : (s.ended guard report).accepting = true := hAccepting
    unfold recheck
    rw [if_pos hEnded]
    split
    · next t hCase => rw [hCase, if_pos rfl]
    · next t hCase => rw [hCase, if_neg (by simp)]
  rw [complete_eq, hRecheck]
  -- what the scheduler remembers already, and what the parked paths add to it
  cases hState : s.scheduler with
  | idle => exact absurd hState (h.ne_idle hAccepting hRunning)
  | scanning =>
    cases hExternal : ((s.ended guard report).judgeParked fs).2 with
    | true =>
      refine Or.inl ⟨Or.inl rfl, ?_⟩
      simp [Session.settle, Scheduler.onEvent, Scheduler.onComplete, hScheduler, hState, hTakes]
    | false =>
      refine Or.inr ⟨rfl, by simp, ?_⟩
      simp [Session.settle, Scheduler.onComplete, hScheduler, hState]
  | pendingRerun =>
    refine Or.inl ⟨Or.inr rfl, ?_⟩
    cases ((s.ended guard report).judgeParked fs).2 <;>
      simp [Session.settle, Scheduler.onEvent, Scheduler.onComplete, hScheduler, hState, hTakes]

end Session

/-! ## Every state that a session comes to -/

namespace World

variable {scanner : Scanner} {files : FileSystem} {w v : World} {action : Action}
  {actions : List Action}

/-- Handing out a report leaves the session alone. -/
theorem deliver_session (report : PassReport) : (w.deliver report).session = w.session := by
  unfold deliver
  split <;> rfl

theorem deliver_files (report : PassReport) : (w.deliver report).files = w.files := by
  unfold deliver
  split <;> rfl

theorem deliver_queue (report : PassReport) : (w.deliver report).queue = w.queue := by
  unfold deliver
  split <;> rfl

/-- No action makes a session take signals again. -/
theorem accepting_of_step (hStep : Step w action v) (hAccepting : v.session.accepting = true) :
    w.session.accepting = true := by
  cases hStep with
  | change | send | close | requestStop | leave | move | resume => exact hAccepting
  | stop | drain => cases hAccepting
  | take _ _ hBefore => exact hBefore
  | complete pass report hRunning =>
    rw [deliver_session] at hAccepting
    exact (Session.complete_accepting pass.guard report).symm.trans hAccepting

/-- A session that takes signals has taken them all the time. -/
theorem accepting_of_run (hRun : w.run? actions = some v)
    (hAccepting : v.session.accepting = true) : w.session.accepting = true :=
  run?_induction_back (P := fun w => w.session.accepting = true) accepting_of_step hRun hAccepting

/-- Every action keeps the parts of the session in agreement. -/
theorem step_agrees (hStep : Step w action v) (h : w.session.Agrees) : v.session.Agrees := by
  cases hStep with
  | change | send | close | requestStop | leave => exact h
  | stop | drain => exact h.close
  | take signal queue hAccepting => exact h.handle hAccepting signal
  | move move pass moved files hRunning hMove => exact h.moves hRunning hMove
  | complete pass report hRunning =>
    rw [deliver_session]
    exact h.complete hRunning pass.guard report
  | resume hCooling => exact h.resume hCooling

/-- At the start of a course of events the parts of the session agree. -/
theorem begin_agrees : (World.begin scanner files).session.Agrees :=
  Session.Agrees.begin scanner

/-- The parts of a session agree all along a course of events. -/
theorem run_agrees (hRun : w.run? actions = some v) (h : w.session.Agrees) : v.session.Agrees :=
  run?_induction (P := fun w => w.session.Agrees) step_agrees hRun h

/-! ## The pass that runs -/

variable {pass : RunningPass}

/-- While a pass runs, whatever calls for a pass is only remembered. -/
theorem handle_of_running {s : Session} {fs : FileSystem} (h : s.Agrees)
    (hAccepting : s.accepting = true) (hRunning : s.running = some pass) (signal : Signal) :
    (s.handle fs signal).guard = s.guard ∧ (s.handle fs signal).running = some pass ∧
      (s.handle fs signal).scanner = s.scanner := by
  cases signal with
  | trouble message => exact ⟨rfl, hRunning, rfl⟩
  | batch events =>
    have hJudged : Session.Judges s (s.judge fs events).1 := Session.judge_judges events
    have hGuard := hJudged.guard_of_running (by rw [hRunning]; rfl)
    have hRun := hJudged.running.trans hRunning
    rw [Session.handle_batch_eq]
    split
    · -- a pass runs, so none is started
      rcases (h.judges hJudged).demand_cases (hJudged.accepting.trans hAccepting) with
        ⟨hIdle, -⟩ | ⟨-, hOwes⟩
      · rw [hRun] at hIdle
        cases hIdle
      · rw [hOwes]
        exact ⟨hGuard, hRun, hJudged.scanner⟩
    · exact ⟨hGuard, hRun, hJudged.scanner⟩

/-- Only noticing its end ends a pass; until then it goes on, and the guard of the session stays
as it is. -/
theorem step_keeps_pass (hStep : Step w action v) (h : w.session.Agrees)
    (hRunning : w.session.running = some pass) (hEnd : action ≠ .complete) :
    v.session.guard = w.session.guard ∧ v.session.scanner = w.session.scanner ∧
      ∃ moved, v.session.running = some moved ∧ pass.Becomes w.session.scanner moved := by
  cases hStep with
  | change | send | close | requestStop | leave => exact ⟨rfl, rfl, pass, hRunning, .refl⟩
  | stop | drain => exact ⟨rfl, rfl, pass, hRunning, .refl⟩
  | take signal queue hAccepting =>
    obtain ⟨hGuard, hRun, hScanner⟩ := handle_of_running h hAccepting hRunning signal
    exact ⟨hGuard, hScanner, pass, hRun, .refl⟩
  | move move other moved files hOther hMove =>
    rw [hRunning] at hOther
    cases hOther
    exact ⟨rfl, rfl, moved, rfl, RunningPass.Becomes.refl.move hMove⟩
  | complete => exact absurd rfl hEnd
  | resume hCooling =>
    -- no cooldown ends while a pass runs
    rw [h.running_eq_none hCooling] at hRunning
    cases hRunning

/-- As long as no pass ends, the guard of the session stays and the same pass runs. -/
theorem run_keeps_pass (hRun : w.run? actions = some v) (h : w.session.Agrees)
    (hRunning : w.session.running = some pass) (hEnd : Action.complete ∉ actions) :
    v.session.guard = w.session.guard ∧
      ∃ moved, v.session.running = some moved ∧ pass.Becomes w.session.scanner moved := by
  induction actions generalizing w pass with
  | nil =>
    cases hRun
    exact ⟨rfl, pass, hRunning, .refl⟩
  | cons action actions ih =>
    obtain ⟨u, hStep, hRest⟩ := run?_cons_iff.mp hRun
    rw [List.mem_cons, not_or] at hEnd
    obtain ⟨hGuard, hScanner, moved, hMoved, hFirst⟩ :=
      step_keeps_pass hStep h hRunning (Ne.symm hEnd.1)
    obtain ⟨hLater, last, hLast, hThen⟩ := ih hRest (step_agrees hStep h) hMoved hEnd.2
    rw [hScanner] at hThen
    exact ⟨hLater.trans hGuard, last, hLast, hFirst.trans hThen⟩

/-- **One pass at a time.** In every state that a session comes to, its parts agree; the pass that
runs goes on by its own moves, under a guard of the session that nobody touches, until the session
notices that it has ended. -/
theorem one_pass_at_a_time (hRun : (World.begin scanner files).run? actions = some w) :
    w.session.Agrees ∧
      ∀ pass, w.session.running = some pass →
        (∀ later v, w.run? later = some v → Action.complete ∉ later →
          v.session.guard = w.session.guard ∧
            ∃ moved, v.session.running = some moved ∧ pass.Becomes w.session.scanner moved) ∧
        ∀ v, w.step? .complete = some v → ∃ report, pass.report? = some report := by
  have hAgrees : w.session.Agrees := run_agrees hRun begin_agrees
  refine ⟨hAgrees, ?_⟩
  intro pass hRunning
  refine ⟨?_, ?_⟩
  · intro later v hLater hEnd
    exact run_keeps_pass hLater hAgrees hRunning hEnd
  · intro v hStep
    cases step_iff.mp hStep with
    | complete other report hOther hReport =>
      rw [hRunning] at hOther
      cases hOther
      exact ⟨report, hReport⟩

/-- A project with nothing to scan. -/
def bareScanner : Scanner where
  config := {
    root := ⟨"/r"⟩, includes := [], excludes := [], markers := [], output := ⟨"/r/out.d.ts"⟩,
    moduleName := "m", ignoreFile := none, respectIgnores := true, verbose := false, watch := {} }
  matcher := {
    root := ⟨"/r"⟩, output := ⟨"/r/out.d.ts"⟩, includes := [], excludes := [],
    excludedDirectories := [], ignoreFile := none, respectIgnores := true }

/-- An event for the artifact comes while the first pass runs, and then a request to stop. -/
theorem one_pass_at_a_time_of_stop :
    ∃ w, (World.begin bareScanner {}).run?
        [.send (.batch [⟨.changed, ⟨"/r/./out.d.ts"⟩⟩]), .notice, .requestStop, .notice] = some w ∧
      w.session.parked = [⟨"/r/./out.d.ts"⟩] ∧ w.session.accepting = false ∧
      w.session.Agrees := by
  have hSeen : ((World.begin bareScanner {}).run?
        [.send (.batch [⟨.changed, ⟨"/r/./out.d.ts"⟩⟩]), .notice, .requestStop, .notice]).map
      (fun w => (w.session.parked, w.session.accepting)) =
        some ([⟨"/r/./out.d.ts"⟩], false) := by decide +kernel
  obtain ⟨w, hRun, hEq⟩ := Option.map_eq_some_iff.mp hSeen
  rw [Prod.mk.injEq] at hEq
  exact ⟨w, hRun, hEq.1, hEq.2, (one_pass_at_a_time hRun).1⟩

end World

end KeyRegistry

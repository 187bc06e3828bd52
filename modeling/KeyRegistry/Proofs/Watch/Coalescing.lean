import KeyRegistry.Proofs.Watch.Stopping

/-!
# Coalescing

Batches that call for a pass while another one is under way are not counted: however many there are,
they lead to one rerun. Here a pass is under way from the moment at which the session commits to it,
that is, when it is started from rest or when its cooldown begins. At its end a rerun is owed
exactly if there was such a batch in the meantime, or if a parked event for the artifact turns out
to be somebody else's; otherwise the session rests until the next batch that calls for a pass. So
the batches and the ends of this kind pay for all passes but the first.

Main definitions:

* `World.relevantBatches`, `World.foreignEnds` — what calls for passes along a course of events
* `World.Commits` — the moments at which a session commits to a pass
* `World.OwesRerun`, `World.Rests` — what becomes of a session at the end of a pass

Main statements:

* `World.step_schedules`, `World.run_schedules` — how far the pass under way has come
* `World.run_owed` — every pass but the first is paid for
* `World.coalescing_is_exact` — both, for every pass of a session
-/

namespace KeyRegistry

namespace Session

variable {s : Session} {fs : FileSystem} {pass : RunningPass}

/-- How many passes are owed: one after a cooldown, and one more after the pass under way. -/
def owed (s : Session) : Nat :=
  (if s.cooling then 1 else 0) + (if s.scheduler = .pendingRerun then 1 else 0)

/-- The batch that a signal brings, if it calls for a pass. -/
def relevant? (s : Session) (fs : FileSystem) : Signal → Option (List FileEvent)
  | .batch events => if (s.judge fs events).2 then some events else none
  | .trouble _ => none

/-- What a signal does to the schedule. -/
theorem handle_schedules (s : Session) (fs : FileSystem) (signal : Signal) :
    (s.handle fs signal).cooling = s.cooling ∧
      (s.handle fs signal).scheduler =
        (if (s.relevant? fs signal).isSome then s.scheduler.onEvent.1 else s.scheduler) ∧
      s.startsFor fs signal =
        ((s.relevant? fs signal).isSome && decide (s.scheduler = .idle)) := by
  cases signal with
  | trouble message => exact ⟨rfl, rfl, rfl⟩
  | batch events =>
    have hJudged : Judges s (s.judge fs events).1 := judge_judges events
    rw [handle_batch_eq, startsFor, directive?, relevant?]
    -- judging leaves the scheduler alone; only its answer matters from here on
    generalize s.judge fs events = judged at hJudged ⊢
    obtain ⟨t, calls⟩ := judged
    cases calls with
    | false => exact ⟨hJudged.cooling, hJudged.scheduler, rfl⟩
    | true =>
      have hScheduler : t.scheduler = s.scheduler := hJudged.scheduler
      rw [if_pos rfl, if_pos rfl, ← hScheduler, ← show t.cooling = s.cooling from hJudged.cooling]
      dsimp only [demand]
      cases t.scheduler <;> exact ⟨rfl, rfl, rfl⟩

/-- A signal that calls for no pass starts none. -/
theorem handle_running_of_irrelevant {signal : Signal} (hNone : s.relevant? fs signal = none) :
    (s.handle fs signal).running = s.running := by
  cases signal with
  | trouble message => rfl
  | batch events =>
    rw [relevant?, ite_eq_right_iff] at hNone
    rw [handle_batch_eq, if_neg fun hCalls => Option.some_ne_none _ (hNone hCalls)]
    exact (judge_judges events).running

/-- The end of a pass takes on no more than it pays for. -/
theorem Agrees.complete_owed (h : s.Agrees) (hRunning : s.running = some pass) (fs : FileSystem)
    (report : PassReport) :
    (s.complete fs pass.guard report).owed ≤ s.owed +
      (if s.accepting && ((s.ended pass.guard report).judgeParked fs).2 then 1 else 0) := by
  have hCooling : s.cooling = false := h.exclusive (by rw [hRunning]; rfl)
  cases hAccepting : s.accepting with
  | true =>
    have hStill : ((s.ended pass.guard report).judgeParked fs).1.cooling = false :=
      (s.ended_judges fs pass.guard report).cooling.trans hCooling
    rcases h.complete_cases hAccepting hRunning pass.guard report with
      ⟨hCalled, hEq⟩ | ⟨-, -, hEq⟩
    · rw [hEq, owed, owed, Bool.true_and, hCooling]
      rcases hCalled with hCalled | hCalled
      · rw [hCalled]
        simp
      · rw [hCalled]
        simp
    · rw [hEq, owed, hStill]
      exact Nat.zero_le _
  | false =>
    -- nothing is judged any more, and no cooldown begins
    have hRecheck : (s.ended pass.guard report).recheck fs = s.ended pass.guard report :=
      if_neg (by rw [ended, hAccepting]; exact Bool.false_ne_true)
    rw [complete_eq, hRecheck, Session.settle, ended]
    cases hState : s.scheduler with
    | pendingRerun =>
      simp only [Scheduler.onComplete, owed, hAccepting]
      exact Nat.zero_le _
    | idle | scanning =>
      simp only [Scheduler.onComplete, owed, hCooling]
      exact Nat.zero_le _

end Session

namespace World

variable {scanner : Scanner} {files : FileSystem} {u v w x : World} {action : Action}
  {actions earlier during later : List Action}

/-! ## What calls for passes -/

/-- The batch that calls for a pass, if an action takes one. -/
def relevantBatch? (w : World) : Action → Option (List FileEvent)
  | .notice =>
    if w.stopRequested then none else w.queue.head?.bind (w.session.relevant? w.files)
  | _ => none

/-- The batches that call for a pass along a course of events, in order. -/
def relevantBatches (w : World) (actions : List Action) : List (List FileEvent) :=
  w.along relevantBatch? actions

/-- The report of the pass whose end an action notices, if a parked event for the artifact is
somebody else's. -/
def foreignEnd? (w : World) : Action → Option PassReport
  | .complete =>
    w.session.running.bind fun pass => pass.report?.bind fun report =>
      if w.session.accepting && ((w.session.ended pass.guard report).judgeParked w.files).2 then
        some report
      else none
  | _ => none

/-- The reports of the passes at whose end a parked event for the artifact is somebody else's. -/
def foreignEnds (w : World) (actions : List Action) : List PassReport :=
  w.along foreignEnd? actions

/-- The relevant batches along a course start with the one of its first action, if there is one. -/
theorem relevantBatches_cons (hStep : Step w action v) :
    w.relevantBatches (action :: actions) =
      (w.relevantBatch? action).toList ++ v.relevantBatches actions :=
  along_cons hStep

/-- The ends with foreign writes along a course start with the one of its first action, if it is
one. -/
theorem foreignEnds_cons (hStep : Step w action v) :
    w.foreignEnds (action :: actions) = (w.foreignEnd? action).toList ++ v.foreignEnds actions :=
  along_cons hStep

/-- Taking a signal is relevant if the session judges it so. -/
theorem relevantBatch?_take {signal : Signal} {queue : List Signal}
    (hStop : w.stopRequested = false) (hQueue : w.queue = signal :: queue) :
    w.relevantBatch? .notice = w.session.relevant? w.files signal := by
  rw [relevantBatch?, hStop, hQueue]
  rfl

/-- Taking a signal starts a pass if the session is idle and the signal is relevant. -/
theorem starts_take {signal : Signal} {queue : List Signal}
    (hStop : w.stopRequested = false) (hQueue : w.queue = signal :: queue) :
    w.starts .notice = w.session.startsFor w.files signal := by
  rw [starts, hStop, hQueue]
  rfl

/-- The end of a pass is foreign if somebody else changed the artifact meanwhile. -/
theorem foreignEnd?_complete {pass : RunningPass} {report : PassReport}
    (hRunning : w.session.running = some pass) (hReport : pass.report? = some report) :
    w.foreignEnd? .complete =
      if w.session.accepting && ((w.session.ended pass.guard report).judgeParked w.files).2 then
        some report
      else none := by
  rw [foreignEnd?, hRunning, Option.bind_some, hReport, Option.bind_some]

/-! ## The pass under way -/

/-- What an action does to the schedule before the pass under way has ended. A batch that calls for
a pass tells the scheduler, which starts a pass from rest; apart from that a pass is started when
its cooldown ends. -/
theorem step_schedules (hStep : Step w action v) (hEnd : action ≠ .complete)
    (hAccepting : v.session.accepting = true) :
    v.session.scheduler = (if (w.relevantBatch? action).isSome then w.session.scheduler.onEvent.1
        else w.session.scheduler) ∧
      ((action ≠ .resume ∧ v.session.cooling = w.session.cooling ∧
          w.starts action =
            ((w.relevantBatch? action).isSome && decide (w.session.scheduler = .idle))) ∨
        (action = .resume ∧ w.session.cooling = true ∧ v.session.cooling = false ∧
          w.starts action = true)) := by
  cases hStep with
  | change | send | close | requestStop | leave | move =>
    exact ⟨rfl, Or.inl ⟨Action.noConfusion, rfl, rfl⟩⟩
  | stop | drain => cases hAccepting
  | take signal queue hTakes hStop hQueue =>
    obtain ⟨hCooling, hScheduler, hStarts⟩ := w.session.handle_schedules w.files signal
    rw [relevantBatch?_take hStop hQueue, starts_take hStop hQueue]
    exact ⟨hScheduler, Or.inl ⟨Action.noConfusion, hCooling, hStarts⟩⟩
  | complete => exact absurd rfl hEnd
  | resume hCooling hNews => exact ⟨rfl, Or.inr ⟨rfl, hCooling, rfl, rfl⟩⟩

/-- How far the pass under way has come before its end. A rerun is owed if some batch has called for
one; and the pass itself was started when its cooldown ended, or it was started before, or its
cooldown is still waited out. -/
theorem run_schedules (hRun : u.run? during = some x) (hEnd : Action.complete ∉ during)
    (hAccepting : x.session.accepting = true) (hBusy : u.session.scheduler ≠ .idle) :
    x.session.scheduler =
        (if u.relevantBatches during = [] then u.session.scheduler else .pendingRerun) ∧
      ((Action.resume ∉ during ∧ x.session.cooling = u.session.cooling ∧ u.passStarts during = 0) ∨
        (Action.resume ∈ during ∧ u.session.cooling = true ∧ x.session.cooling = false ∧
          u.passStarts during = 1)) := by
  induction during generalizing u with
  | nil =>
    cases hRun
    exact ⟨rfl, Or.inl ⟨List.not_mem_nil, rfl, rfl⟩⟩
  | cons action during ih =>
    obtain ⟨y, hStep, hRest⟩ := run?_cons_iff.mp hRun
    rw [List.mem_cons, not_or] at hEnd
    have hTakes : y.session.accepting = true := accepting_of_run hRest hAccepting
    obtain ⟨hScheduler, hFirst⟩ := step_schedules hStep (Ne.symm hEnd.1) hTakes
    -- the scheduler is not at rest, so what calls for a pass makes it owe a rerun
    have hOwes : u.session.scheduler.onEvent.1 = .pendingRerun := by
      rw [Scheduler.onEvent_of_ne_idle hBusy]
    have hStillBusy : y.session.scheduler ≠ .idle := by
      rw [hScheduler]
      split
      · rw [hOwes]
        exact Scheduler.noConfusion
      · exact hBusy
    obtain ⟨hLater, hThen⟩ := ih hRest hEnd.2 hStillBusy
    rw [passStarts_cons hStep, List.mem_cons, relevantBatches_cons hStep]
    refine ⟨?_, ?_⟩
    · rw [hLater, hScheduler, hOwes]
      cases u.relevantBatch? action with
      | none => rfl
      | some events => split <;> rfl
    · rw [decide_eq_false hBusy, Bool.and_false] at hFirst
      rcases hFirst with ⟨hOther, hSame, hNoStart⟩ | ⟨hResume, hCooling, hOver, hStart⟩
      · rw [hNoStart, ← hSame]
        rcases hThen with ⟨hNone, hLast, hStarts⟩ | ⟨hSome, hLast, hStarts⟩
        · exact Or.inl ⟨not_or.mpr ⟨hOther.symm, hNone⟩, hLast, by rw [hStarts]; rfl⟩
        · exact Or.inr ⟨Or.inr hSome, hLast, hStarts.1, by rw [hStarts.2]; rfl⟩
      · -- after the end of the cooldown none is waited out before the pass has ended
        rcases hThen with ⟨-, hLast, hStarts⟩ | ⟨-, hAgain, -⟩
        · rw [hStart, hStarts]
          exact Or.inr ⟨Or.inl hResume.symm, hCooling, hLast.trans hOver, rfl⟩
        · rw [hOver] at hAgain
          cases hAgain

/-! ## Committing to a pass -/

/-- The moments at which a session commits to a pass: it begins with one, it starts one from rest,
or it begins a cooldown, at the end of which the pass is started. -/
inductive Commits (scanner : Scanner) (files : FileSystem) : List Action → World → Prop
  | first : Commits scanner files [] (World.begin scanner files)
  | start {earlier : List Action} {w u : World}
      (hRun : (World.begin scanner files).run? earlier = some w) (hStep : Step w .notice u)
      (hStarts : w.starts .notice = true) : Commits scanner files (earlier ++ [.notice]) u
  | cooldown {earlier : List Action} {w u : World}
      (hRun : (World.begin scanner files).run? earlier = some w) (hStep : Step w .complete u)
      (hCooling : u.session.cooling = true) : Commits scanner files (earlier ++ [.complete]) u

theorem Commits.run? (h : Commits scanner files earlier u) :
    (World.begin scanner files).run? earlier = some u := by
  cases h with
  | first => rfl
  | start hRun hStep | cooldown hRun hStep =>
    exact run?_append_iff.mpr ⟨_, hRun, run?_cons_iff.mpr ⟨u, hStep, rfl⟩⟩

/-- Only a session at rest starts a pass for a batch. -/
theorem scheduler_of_starts (hStep : Step w .notice v) (hStarts : w.starts .notice = true) :
    w.session.scheduler = .idle ∧ v.session.scheduler = .scanning := by
  have hTakes : v.session.accepting = true := by
    cases hStep with
    | stop hAccepting hStop => simp [starts, hStop] at hStarts
    | take signal queue hAccepting => exact (w.session.handle_accepting signal).trans hAccepting
    | drain hAccepting hStop hQueue => simp [starts, hQueue] at hStarts
  obtain ⟨hScheduler, ⟨-, -, hCalls⟩ | ⟨hResume, -⟩⟩ :=
    step_schedules hStep Action.noConfusion hTakes
  · rw [hStarts, eq_comm, Bool.and_eq_true, decide_eq_true_eq] at hCalls
    rw [hCalls.1, if_pos rfl, hCalls.2] at hScheduler
    exact ⟨hCalls.2, hScheduler⟩
  · cases hResume

/-- Only a batch that calls for a pass takes a session from its rest, and it starts the pass. -/
theorem starts_of_idle (hStep : Step w action v) (hEnd : action ≠ .complete)
    (hAccepting : v.session.accepting = true) (hIdle : w.session.scheduler = .idle)
    (hBusy : v.session.scheduler ≠ .idle) : action = .notice ∧ w.starts .notice = true := by
  obtain ⟨hScheduler, hStarted⟩ := step_schedules hStep hEnd hAccepting
  rw [hIdle] at hScheduler hStarted
  cases hCalls : (w.relevantBatch? action).isSome with
  | false =>
    rw [hCalls, if_neg Bool.false_ne_true] at hScheduler
    exact absurd hScheduler hBusy
  | true =>
    -- only a look at the queue takes a batch
    have hNotice : action = .notice := by
      cases action with
      | notice => rfl
      | _ => cases hCalls
    subst hNotice
    obtain ⟨-, -, hStarts⟩ | ⟨hResume, -⟩ := hStarted
    · rw [hCalls] at hStarts
      exact ⟨rfl, hStarts⟩
    · cases hResume

/-- The end of a pass leaves the session in a cooldown if a rerun is called for, and at rest
otherwise. -/
theorem complete_schedules (hStep : Step w .complete v) (h : w.session.Agrees)
    (hAccepting : v.session.accepting = true) :
    v.session.running = none ∧
      (((w.foreignEnd? .complete).isSome = true ∨ w.session.scheduler = .pendingRerun) ∧
          v.session.scheduler = .scanning ∧ v.session.cooling = true ∨
        (w.foreignEnd? .complete = none ∧ w.session.scheduler ≠ .pendingRerun) ∧
          v.session.scheduler = .idle ∧ v.session.cooling = false) := by
  have hTakes := accepting_of_step hStep hAccepting
  cases hStep with
  | complete pass report hRunning hReport hNews =>
    have hCooling : w.session.cooling = false := h.exclusive (by rw [hRunning]; rfl)
    rw [deliver_session, foreignEnd?_complete hRunning hReport, hTakes, Bool.true_and]
    refine ⟨(w.session.complete_counts w.files pass.guard report).1, ?_⟩
    -- the end of a pass has two outcomes, and the session is given in full for each
    rcases h.complete_cases hTakes hRunning pass.guard report with
      ⟨hCalled, hEq⟩ | ⟨hQuiet, hNotOwed, hEq⟩
    · rw [hEq]
      refine Or.inl ⟨hCalled.imp_left fun hForeign => ?_, rfl, rfl⟩
      rw [hForeign]
      rfl
    · rw [hEq, hQuiet]
      exact Or.inr ⟨⟨rfl, hNotOwed⟩, rfl,
        (w.session.ended_judges w.files pass.guard report).cooling.trans hCooling⟩

/-- No cooldown is left once a session has stopped. -/
theorem accepting_of_cooling (hRun : (World.begin scanner files).run? actions = some w)
    (hCooling : w.session.cooling = true) : w.session.accepting = true := by
  by_contra hStopped
  rw [Bool.not_eq_true] at hStopped
  rw [(run_closes hRun hStopped).cooling] at hCooling
  cases hCooling

/-- When a session commits to a pass, nothing is owed beyond it. -/
theorem Commits.scheduler (h : Commits scanner files earlier u) :
    u.session.scheduler = .scanning := by
  have hRun := h.run?
  cases h with
  | first => rfl
  | start hBefore hStep hStarts => exact (scheduler_of_starts hStep hStarts).2
  | cooldown hBefore hStep hCooling =>
    obtain ⟨-, ⟨-, hScheduler, -⟩ | ⟨-, -, hNone⟩⟩ :=
      complete_schedules hStep (run_agrees hBefore begin_agrees)
        (accepting_of_cooling hRun hCooling)
    · exact hScheduler
    · rw [hNone] at hCooling
      cases hCooling

/-- When the pass has come to its end, a rerun is owed exactly if some batch has called for one. -/
theorem Commits.scheduler_at_end (h : Commits scanner files earlier u)
    (hDuring : u.run? during = some w) (hEnd : Action.complete ∉ during)
    (hAccepting : w.session.accepting = true) :
    w.session.scheduler =
      if u.relevantBatches during = [] then .scanning else .pendingRerun := by
  have hCommitted := h.scheduler
  rw [← hCommitted]
  exact (run_schedules hDuring hEnd hAccepting (by rw [hCommitted]; exact Scheduler.noConfusion)).1

/-- A session that is not at rest has committed to a pass that has not ended yet. -/
theorem exists_commits (hRun : (World.begin scanner files).run? actions = some w)
    (hAccepting : w.session.accepting = true) (hBusy : w.session.scheduler ≠ .idle) :
    ∃ earlier during u, actions = earlier ++ during ∧ Commits scanner files earlier u ∧
      u.run? during = some w ∧ Action.complete ∉ during := by
  -- induction on the course from its end, back to the last moment of this kind
  induction actions using List.reverseRecOn generalizing w with
  | nil =>
    cases hRun
    exact ⟨[], [], _, rfl, .first, rfl, List.not_mem_nil⟩
  | append_singleton actions action ih =>
    obtain ⟨y, hBefore, hLast⟩ := run?_append_iff.mp hRun
    obtain ⟨_, hStep, ⟨⟩⟩ := run?_cons_iff.mp hLast
    by_cases hEnd : action = .complete
    · subst hEnd
      obtain ⟨-, ⟨-, -, hCooling⟩ | ⟨-, hIdle, -⟩⟩ :=
        complete_schedules hStep (run_agrees hBefore begin_agrees) hAccepting
      · exact ⟨_, [], w, (List.append_nil _).symm, .cooldown hBefore hStep hCooling, rfl,
          List.not_mem_nil⟩
      · exact absurd hIdle hBusy
    · by_cases hIdle : y.session.scheduler = .idle
      · -- the session was at rest, and it is not any more
        obtain ⟨rfl, hStarts⟩ := starts_of_idle hStep hEnd hAccepting hIdle hBusy
        exact ⟨_, [], w, (List.append_nil _).symm, .start hBefore hStep hStarts, rfl,
          List.not_mem_nil⟩
      · -- the moment is one before this action, which has not ended the pass
        obtain ⟨earlier, during, u, rfl, hCommits, hDuring, hNone⟩ :=
          ih hBefore (accepting_of_step hStep hAccepting) hIdle
        refine ⟨earlier, during ++ [action], u, List.append_assoc .., hCommits,
          run?_append_iff.mpr ⟨y, hDuring, hLast⟩, ?_⟩
        rw [List.mem_append, List.mem_singleton]
        exact not_or.mpr ⟨hNone, Ne.symm hEnd⟩

/-! ## After the end of a pass -/

/-- A cooldown has begun, at the end of which one pass is started: none is before, and none is
afterwards as long as that pass has not ended. -/
structure OwesRerun (v : World) : Prop where
  cooling : v.session.cooling = true
  running : v.session.running = none
  once    : ∀ later y, v.run? later = some y → Action.complete ∉ later →
              y.session.accepting = true →
                (Action.resume ∉ later ∧ y.session.cooling = true ∧ v.passStarts later = 0) ∨
                  (Action.resume ∈ later ∧ y.session.running.isSome = true ∧
                    v.passStarts later = 1)

/-- Nothing runs and nothing is owed. No pass is started before the next batch that calls for one,
and that batch starts one at once. -/
structure Rests (v : World) : Prop where
  scheduler : v.session.scheduler = .idle
  cooling   : v.session.cooling = false
  running   : v.session.running = none
  still     : ∀ later y, v.run? later = some y → v.relevantBatches later = [] →
                v.passStarts later = 0 ∧
                  ((y.relevantBatch? .notice).isSome = true → y.session.accepting = true →
                    y.starts .notice = true)

theorem OwesRerun.of_agrees (h : v.session.Agrees) (hScheduler : v.session.scheduler = .scanning)
    (hCooling : v.session.cooling = true) (hRunning : v.session.running = none) : v.OwesRerun := by
  refine ⟨hCooling, hRunning, fun later y hRun hEnd hAccepting => ?_⟩
  have hBusy : v.session.scheduler ≠ .idle := by rw [hScheduler]; exact Scheduler.noConfusion
  obtain ⟨hLater, hThen⟩ := run_schedules hRun hEnd hAccepting hBusy
  rcases hThen with ⟨hNone, hSame, hStarts⟩ | ⟨hSome, -, hOver, hStarts⟩
  · exact Or.inl ⟨hNone, hSame.trans hCooling, hStarts⟩
  · refine Or.inr ⟨hSome, ?_, hStarts⟩
    -- the scheduler is not at rest and no cooldown is waited out, so a pass runs
    have hStillBusy : y.session.scheduler ≠ .idle := by
      rw [hLater]
      split
      · exact hBusy
      · exact Scheduler.noConfusion
    rw [Ne, (run_agrees hRun h).idle hAccepting, not_and, Bool.not_eq_false] at hStillBusy
    by_contra hIdle
    rw [Bool.not_eq_true, Option.isSome_eq_false_iff, Option.isNone_iff_eq_none] at hIdle
    rw [hStillBusy hIdle] at hOver
    cases hOver

/-- Whether nothing runs and nothing is owed, now that signals are taken or later. -/
structure AtRest (w : World) : Prop where
  scheduler : w.session.accepting = true → w.session.scheduler = .idle
  cooling   : w.session.cooling = false
  running   : w.session.running = none

/-- What calls for no pass leaves a session at rest. -/
theorem AtRest.step (h : w.AtRest) (hStep : Step w action v)
    (hNone : w.relevantBatch? action = none) : v.AtRest ∧ w.starts action = false := by
  -- without a relevant batch nothing is demanded, and at rest there is no pass or cooldown whose
  -- end could start one
  cases hStep with
  | change | send | close | requestStop | leave =>
    exact ⟨⟨h.scheduler, h.cooling, h.running⟩, rfl⟩
  | stop hAccepting hStop =>
    exact ⟨⟨nofun, rfl, h.running⟩, by rw [starts, hStop]; rfl⟩
  | drain hAccepting hStop hQueue =>
    exact ⟨⟨nofun, rfl, h.running⟩, by rw [starts, hStop, hQueue]; rfl⟩
  | take signal queue hAccepting hStop hQueue =>
    rw [relevantBatch?_take hStop hQueue] at hNone
    rw [starts_take hStop hQueue]
    obtain ⟨hCooling, hScheduler, hStarts⟩ := w.session.handle_schedules w.files signal
    rw [hNone] at hScheduler hStarts
    exact ⟨⟨fun _ => hScheduler.trans (h.scheduler hAccepting), hCooling.trans h.cooling,
      (Session.handle_running_of_irrelevant hNone).trans h.running⟩, hStarts⟩
  | move move pass moved files hRunning | complete pass report hRunning =>
    rw [h.running] at hRunning
    cases hRunning
  | resume hCooling =>
    rw [h.cooling] at hCooling
    cases hCooling

/-- A session at rest stays so until something relevant is told. -/
theorem AtRest.run (h : w.AtRest) (hRun : w.run? later = some v)
    (hNone : w.relevantBatches later = []) : v.AtRest ∧ w.passStarts later = 0 := by
  induction later generalizing w with
  | nil =>
    cases hRun
    exact ⟨h, rfl⟩
  | cons action later ih =>
    obtain ⟨u, hStep, hRest⟩ := run?_cons_iff.mp hRun
    rw [relevantBatches_cons hStep, List.append_eq_nil_iff, Option.toList_eq_nil_iff] at hNone
    obtain ⟨hStill, hNoStart⟩ := h.step hStep hNone.1
    obtain ⟨hLast, hNoStarts⟩ := ih hStill hRest hNone.2
    exact ⟨hLast, by rw [passStarts_cons hStep, hNoStart, hNoStarts]; rfl⟩

/-- A session at rest starts a pass for the first batch that calls for one. -/
theorem AtRest.starts (h : w.AtRest) (hCalls : (w.relevantBatch? .notice).isSome = true)
    (hAccepting : w.session.accepting = true) : w.starts .notice = true := by
  -- a batch is taken only if no stop is asked for and the queue is not empty
  cases hStop : w.stopRequested with
  | true =>
    rw [relevantBatch?, hStop] at hCalls
    cases hCalls
  | false =>
    cases hQueue : w.queue with
    | nil =>
      rw [relevantBatch?, hStop, hQueue] at hCalls
      cases hCalls
    | cons signal queue =>
      rw [relevantBatch?_take hStop hQueue] at hCalls
      rw [starts_take hStop hQueue, (w.session.handle_schedules w.files signal).2.2, hCalls,
        h.scheduler hAccepting]
      rfl

theorem Rests.of_idle (hScheduler : v.session.scheduler = .idle)
    (hCooling : v.session.cooling = false) (hRunning : v.session.running = none) : v.Rests := by
  refine ⟨hScheduler, hCooling, hRunning, fun later y hRun hNone => ?_⟩
  have hRest : v.AtRest := ⟨fun _ => hScheduler, hCooling, hRunning⟩
  obtain ⟨hLast, hNoStarts⟩ := hRest.run hRun hNone
  exact ⟨hNoStarts, hLast.starts⟩

/-! ## What pays for passes -/

/-- An action starts and takes on no more passes than it is owed and called for. -/
theorem step_owed (hStep : Step w action v) (h : w.session.Agrees) :
    (if w.starts action then 1 else 0) + v.session.owed ≤
      w.session.owed + (w.relevantBatch? action).toList.length +
        (w.foreignEnd? action).toList.length := by
  cases hStep with
  | change | send | close | requestStop | leave | move => exact (Nat.zero_add _).le
  | stop hAccepting hStop | drain hAccepting hStop hQueue =>
    -- what was owed is forgotten
    have hNothing : w.session.close.owed = 0 := by
      rw [Session.owed, Session.close]
      cases w.session.scheduler <;> rfl
    have hNoStart : w.starts .notice = false := by simp [starts, *]
    rw [hNothing, hNoStart]
    exact Nat.zero_le _
  | take signal queue hAccepting hStop hQueue =>
    obtain ⟨hCooling, hScheduler, hStarts⟩ := w.session.handle_schedules w.files signal
    rw [relevantBatch?_take hStop hQueue, starts_take hStop hQueue, Session.owed, Session.owed,
      hCooling, hScheduler, hStarts]
    cases w.session.relevant? w.files signal with
    | none => simp
    | some events =>
      cases w.session.scheduler <;> simp [Scheduler.onEvent] <;> omega
  | complete pass report hRunning hReport hNews =>
    have hOwed := h.complete_owed hRunning w.files report
    rw [deliver_session, foreignEnd?_complete hRunning hReport]
    split at hOwed
    · next hForeign =>
      rw [if_pos hForeign]
      exact (Nat.zero_add _).le.trans hOwed
    · next hOwn =>
      rw [if_neg hOwn]
      exact (Nat.zero_add _).le.trans hOwed
  | resume hCooling hNews =>
    rw [Session.owed, Session.owed, Session.resume, Session.startPass, hCooling]
    simp only [starts, if_true, Bool.false_eq_true, if_false]
    omega

/-- Every pass that is started or owed was owed before or has been called for. -/
theorem run_owed (hRun : w.run? actions = some v) (h : w.session.Agrees) :
    w.passStarts actions + v.session.owed ≤
      w.session.owed + (w.relevantBatches actions).length + (w.foreignEnds actions).length := by
  induction actions generalizing w with
  | nil =>
    cases hRun
    exact (Nat.zero_add _).le
  | cons action actions ih =>
    obtain ⟨u, hStep, hRest⟩ := run?_cons_iff.mp hRun
    have hFirst := step_owed hStep h
    have hLater := ih hRest (step_agrees hStep h)
    rw [passStarts_cons hStep, relevantBatches_cons hStep, foreignEnds_cons hStep,
      List.length_append, List.length_append]
    omega

/-! ## The law -/

/-- **Coalescing is exact.** Let a session come to the end of a pass and not be stopped. Then there
is a moment at which it committed to this pass. If from this moment to the end of the pass some
batch has called for a pass, or a parked event for the artifact turns out to be somebody else's,
then a single rerun is owed, however many such batches there were; otherwise the session rests until
the next batch of this kind. And in every state that a session comes to, all passes but the first
are paid for by such batches and such ends. -/
theorem coalescing_is_exact (hRun : (World.begin scanner files).run? actions = some w) :
    (∀ v, Step w .complete v → v.session.accepting = true →
      (∃ earlier during u, actions = earlier ++ during ∧ Commits scanner files earlier u ∧
        u.run? during = some w ∧ Action.complete ∉ during) ∧
      ∀ earlier during u, Commits scanner files earlier u → u.run? during = some w →
        Action.complete ∉ during →
          ((u.relevantBatches during ≠ [] ∨ (w.foreignEnd? .complete).isSome = true) →
            v.OwesRerun) ∧
          (u.relevantBatches during = [] → w.foreignEnd? .complete = none → v.Rests)) ∧
    1 + (World.begin scanner files).passStarts actions ≤
      1 + ((World.begin scanner files).relevantBatches actions).length +
        ((World.begin scanner files).foreignEnds actions).length := by
  have hAgrees : w.session.Agrees := run_agrees hRun begin_agrees
  refine ⟨fun v hStep hAccepting => ?_, ?_⟩
  · have hTakes := accepting_of_step hStep hAccepting
    obtain ⟨hNone, hOutcome⟩ := complete_schedules hStep hAgrees hAccepting
    refine ⟨exists_commits hRun hTakes ?_, fun earlier during u hCommits hDuring hEnd => ?_⟩
    · cases hStep with
      | complete pass report hRunning => exact hAgrees.ne_idle hTakes hRunning
    · have hScheduler := hCommits.scheduler_at_end hDuring hEnd hTakes
      rcases hOutcome with ⟨hCalled, hBusy, hCooling⟩ | ⟨⟨hQuiet, hNotOwed⟩, hIdle, hNoCooldown⟩
      · refine ⟨fun _ => .of_agrees (step_agrees hStep hAgrees) hBusy hCooling hNone,
          fun hNoBatch hOwn => ?_⟩
        -- nothing has called for a rerun
        rw [hOwn, hScheduler, if_pos hNoBatch] at hCalled
        rcases hCalled with hCalled | hCalled <;> cases hCalled
      · refine ⟨fun hCalled => ?_, fun _ _ => .of_idle hIdle hNoCooldown hNone⟩
        rcases hCalled with hBatch | hForeign
        · rw [hScheduler, if_neg hBatch] at hNotOwed
          exact absurd rfl hNotOwed
        · rw [hQuiet] at hForeign
          cases hForeign
  · have hOwed := run_owed hRun begin_agrees
    have hNothing : (World.begin scanner files).session.owed = 0 := rfl
    omega

/-- While the first pass runs, two batches call for another one. -/
def burst : List Action :=
  [.send (.batch [⟨.added, ⟨"/r/a.ts"⟩⟩]), .notice, .send (.batch [⟨.changed, ⟨"/r/a.ts"⟩⟩]),
    .notice,
    .move .walk, .move .commit]

/-- They lead to a single rerun. -/
theorem coalescing_is_exact_of_burst :
    ∃ w v, (World.begin openScanner {}).run? burst = some w ∧ Step w .complete v ∧
      v.session.accepting = true ∧ ((World.begin openScanner {}).relevantBatches burst).length = 2 ∧
      v.OwesRerun := by
  have hSeen : (((World.begin openScanner {}).run? burst).bind (·.step? .complete)).map
      (·.session.accepting) = some true := by decide +kernel
  obtain ⟨v, hLast, hAccepting⟩ := Option.map_eq_some_iff.mp hSeen
  obtain ⟨w, hRun, hEnd⟩ := Option.bind_eq_some_iff.mp hLast
  have hStep : Step w .complete v := step_iff.mp hEnd
  have hBatches : ((World.begin openScanner {}).relevantBatches burst).length = 2 := by
    decide +kernel
  obtain ⟨hPasses, -⟩ := coalescing_is_exact hRun
  obtain ⟨-, hEvery⟩ := hPasses v hStep hAccepting
  obtain ⟨hOwes, -⟩ := hEvery [] burst _ .first hRun (by simp [burst])
  refine ⟨w, v, hRun, hStep, hAccepting, hBatches, hOwes (Or.inl fun hNone => ?_)⟩
  rw [hNone] at hBatches
  cases hBatches

end World

end KeyRegistry

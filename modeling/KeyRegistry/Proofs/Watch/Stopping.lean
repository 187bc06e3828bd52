import KeyRegistry.Proofs.Watch.Alone
import KeyRegistry.Proofs.Watch.Noise

/-!
# Stopping is clean

A session that has noticed a request to stop, or the end of its queue, winds down. It starts no pass
and takes no signal any more; a rerun that was owed is forgotten, and so is a cooldown. A pass that
runs is led to its end all the same: only noticing its end can end it, its moves do not go on
forever, and with its end the session is over. So of the passes that a session has started, none is
lost.

Main definitions:

* `World.passStarts` — how many passes are started along a course of events
* `World.WindsDown` — how a session that has stopped goes on
* `RunningPass.rank` — what is left of a pass, for counting moves

Main statements:

* `World.run_counts` — every pass that is started runs or has ended
* `World.run_windsDown` — a session that has stopped does nothing but end its pass
* `World.stops_cleanly` — both, for every state that a session comes to
-/

namespace KeyRegistry

/-! ## Passes end -/

namespace RunningPass

variable {s : Scanner} {fs after : FileSystem} {pass moved : RunningPass} {move : PassMove}

/-- What is left of a pass: whether it has still to walk, and then what is unread and unparsed. A
file that is read may have to be parsed as well, so it counts twice. -/
def rank (pass : RunningPass) : ℕ ×ₗ ℕ :=
  match pass.stage with
  | .starting => toLex (1, 0)
  | .scanning progress => toLex (0, 2 * progress.unread.length + progress.unparsed.length + 1)
  | .ended _ => toLex (0, 0)

/-- With each move less is left. -/
theorem Moves.rank_lt (h : Moves s fs pass move after moved) : moved.rank < pass.rank := by
  cases h with
  | walk hStage =>
    rw [rank, rank, hStage, Prod.Lex.toLex_lt_toLex]
    exact Or.inl Nat.zero_lt_one
  | read path progress hStage hUnread =>
    have hErased : (progress.unread.erase path).length + 1 = progress.unread.length :=
      List.length_erase_add_one hUnread
    -- a file that is read is not unread any more, but it may have to be parsed then
    have hUnparsed : (progress.read fs path).unparsed.length ≤ progress.unparsed.length + 1 := by
      unfold Progress.read
      split <;> simp
    rw [rank, rank, hStage, Prod.Lex.toLex_lt_toLex]
    refine Or.inr ⟨rfl, ?_⟩
    dsimp only
    rw [Progress.unread_read]
    omega
  | parse source progress hStage hRead hUnparsed =>
    have hErased : (progress.unparsed.erase source).length + 1 = progress.unparsed.length :=
      List.length_erase_add_one hUnparsed
    rw [rank, rank, hStage, Prod.Lex.toLex_lt_toLex]
    refine Or.inr ⟨rfl, ?_⟩
    simp only [Progress.parse]
    omega
  | commit progress after handed report hStage =>
    rw [rank, rank, hStage, Prod.Lex.toLex_lt_toLex]
    exact Or.inr ⟨rfl, Nat.succ_pos _⟩

end RunningPass

/-! ## Counting passes -/

namespace Session

variable {s : Session} {fs : FileSystem}

/-- How many passes run: one or none. -/
def inFlight (s : Session) : Nat :=
  if s.running.isSome then 1 else 0

/-- Whether a signal makes the session start a pass at once. -/
def startsFor (s : Session) (fs : FileSystem) : Signal → Bool
  | .batch events => s.directive? fs events == some .startPass
  | .trouble _ => false

/-- A signal starts at most one pass, and counts none as ended. -/
theorem Agrees.handle_counts (h : s.Agrees) (hAccepting : s.accepting = true) (fs : FileSystem)
    (signal : Signal) :
    (s.handle fs signal).inFlight = s.inFlight + (if s.startsFor fs signal then 1 else 0) ∧
      (s.handle fs signal).summary = s.summary := by
  cases signal with
  | trouble message => exact ⟨rfl, rfl⟩
  | batch events =>
    have hJudged : Judges s (s.judge fs events).1 := judge_judges events
    rw [handle_batch_eq, startsFor, directive?, inFlight, inFlight]
    generalize s.judge fs events = judged at hJudged ⊢
    obtain ⟨t, relevant⟩ := judged
    cases relevant with
    | false => exact ⟨by rw [← hJudged.running]; rfl, hJudged.summary⟩
    | true =>
      rcases (h.judges hJudged).demand_cases (hJudged.accepting.trans hAccepting) with
        ⟨hNone, hCooling, hStarts⟩ | ⟨hBusy, hOwes⟩
      · -- all was at rest, and so was the scheduler
        have hIdle : t.scheduler = .idle :=
          ((h.judges hJudged).idle (hJudged.accepting.trans hAccepting)).mpr ⟨hNone, hCooling⟩
        have hBefore : s.running = none := hJudged.running.symm.trans hNone
        rw [if_pos rfl, hStarts, hBefore]
        refine ⟨?_, hJudged.summary⟩
        simp only [hIdle]
        rfl
      -- a pass runs or a cooldown does, so the scheduler takes the demand down for later
      · have hNotIdle : t.scheduler ≠ .idle := fun hIdle =>
          hBusy (((h.judges hJudged).idle (hJudged.accepting.trans hAccepting)).mp hIdle)
        rw [if_pos rfl, hOwes]
        refine ⟨?_, hJudged.summary⟩
        simp only [Scheduler.onEvent_of_ne_idle hNotIdle, ← hJudged.running]
        rfl

/-- A signal does not end the session. -/
theorem handle_accepting (signal : Signal) : (s.handle fs signal).accepting = s.accepting := by
  cases signal with
  | trouble message => rfl
  | batch events =>
    have hJudged : Judges s (s.judge fs events).1 := judge_judges events
    rw [handle_batch_eq]
    split
    · rw [← hJudged.accepting, demand]
      split <;> rfl
    · exact hJudged.accepting

theorem complete_counts (s : Session) (fs : FileSystem) (guard : Guard) (report : PassReport) :
    (s.complete fs guard report).running = none ∧
      (s.complete fs guard report).summary = s.summary.count report.outcome := by
  obtain ⟨t, scheduler, cooling, hJudged, hEq⟩ := exists_complete_eq s fs guard report
  rw [hEq]
  exact ⟨hJudged.running, hJudged.summary⟩

end Session

theorem Summary.passes_count (s : Summary) (outcome : PassOutcome) :
    (s.count outcome).passes = s.passes + 1 := by
  cases outcome <;> rfl

namespace World

variable {scanner : Scanner} {files : FileSystem} {w v : World} {action : Action}
  {actions later : List Action}

/-- Whether an action starts a pass. -/
def starts (w : World) : Action → Bool
  | .notice => !w.stopRequested && w.queue.head?.any (w.session.startsFor w.files)
  | .resume => true
  | _ => false

/-- How many passes are started along a course of events. -/
def passStarts (w : World) : List Action → Nat
  | [] => 0
  | action :: actions =>
    match w.step? action with
    | some v => (if w.starts action then 1 else 0) + v.passStarts actions
    | none => 0

theorem passStarts_cons (hStep : Step w action v) : w.passStarts (action :: actions) =
    (if w.starts action then 1 else 0) + v.passStarts actions := by
  rw [passStarts, hStep.step?]

/-- A pass that an action starts runs, and a pass whose end it notices is counted. -/
theorem step_counts (hStep : Step w action v) (h : w.session.Agrees) :
    v.session.inFlight + (w.reportOf action).toList.length =
        w.session.inFlight + (if w.starts action then 1 else 0) ∧
      v.session.summary.passes =
        w.session.summary.passes + (w.reportOf action).toList.length := by
  cases hStep with
  | change | send | close | requestStop | leave => exact ⟨rfl, rfl⟩
  | stop hAccepting hStop =>
    rw [starts, hStop]
    exact ⟨rfl, rfl⟩
  | take signal queue hAccepting hStop hQueue =>
    obtain ⟨hFlight, hSummary⟩ := h.handle_counts hAccepting w.files signal
    rw [starts, hStop, hQueue]
    exact ⟨hFlight, congrArg Summary.passes hSummary⟩
  | drain hAccepting hStop hQueue hClosed =>
    rw [starts, hQueue, List.head?_nil, Option.any_none, Bool.and_false]
    exact ⟨rfl, rfl⟩
  | move move pass moved files hRunning hMove =>
    rw [Session.inFlight, Session.inFlight, hRunning]
    exact ⟨rfl, rfl⟩
  | complete pass report hRunning hReport hNews =>
    obtain ⟨hEnded, hSummary⟩ := w.session.complete_counts w.files pass.guard report
    rw [deliver_session, reportOf_complete hRunning hReport, Session.inFlight, Session.inFlight,
      hEnded, hRunning, hSummary, Summary.passes_count]
    exact ⟨rfl, rfl⟩
  | resume hCooling hNews =>
    -- no pass runs in a cooldown, so the one that is started is the only one
    rw [Session.inFlight, Session.inFlight, h.running_eq_none hCooling]
    exact ⟨rfl, rfl⟩

/-- Every pass that is started runs or has ended. -/
theorem run_counts (hRun : w.run? actions = some v) (h : w.session.Agrees) :
    w.session.inFlight + w.passStarts actions + w.session.summary.passes =
      v.session.summary.passes + v.session.inFlight := by
  induction actions generalizing w with
  | nil =>
    cases hRun
    rw [passStarts]
    omega
  | cons action actions ih =>
    obtain ⟨u, hStep, hRest⟩ := run?_cons_iff.mp hRun
    obtain ⟨hFlight, hPasses⟩ := step_counts hStep h
    have hLater := ih hRest (step_agrees hStep h)
    rw [passStarts_cons hStep]
    omega

/-! ## Winding down -/

/-- A session takes no signals any more, and no pass is owed. -/
structure Closed (w : World) : Prop where
  accepting : w.session.accepting = false
  cooling   : w.session.cooling = false
  owed      : w.session.scheduler ≠ .pendingRerun

/-- How a session that has stopped goes on: the pass that ran in the beginning goes on, or it has
ended, and then its report is counted and its guard is handed back. Nothing else changes. -/
def WindsDown (w : World) (actions : List Action) (v : World) : Prop :=
  match w.session.running with
  | none => v.session = w.session ∧ w.passReports actions = []
  | some pass => ∃ moved, pass.Becomes w.session.scanner moved ∧
      (v.session = { w.session with running := some moved } ∧ w.passReports actions = [] ∨
        ∃ report, moved.report? = some report ∧
          v.session = { w.session.ended moved.guard report with scheduler := .idle, parked := [] } ∧
          w.passReports actions = [report])

/-- What a session that has stopped does at the end of its pass. -/
theorem Closed.complete_eq (h : w.Closed) (fs : FileSystem) (guard : Guard) (report : PassReport) :
    w.session.complete fs guard report =
      { w.session.ended guard report with scheduler := .idle, parked := [] } := by
  -- nothing is judged, since no pass is started anyway
  have hRecheck : (w.session.ended guard report).recheck fs = w.session.ended guard report :=
    if_neg (by rw [Session.ended, h.accepting]; simp)
  rw [Session.complete_eq, hRecheck, Session.settle, Session.ended]
  cases hState : w.session.scheduler with
  | pendingRerun => exact absurd hState h.owed
  | idle | scanning => rfl

/-- With the last signal all that is owed is forgotten, and nothing is owed later on. -/
theorem step_closes (hStep : Step w action v) (h : w.session.accepting = false → w.Closed)
    (hAccepting : v.session.accepting = false) : v.Closed := by
  cases hStep with
  | change | send | close | requestStop | leave | move =>
    obtain ⟨-, hCooling, hOwed⟩ := h hAccepting
    exact ⟨hAccepting, hCooling, hOwed⟩
  | stop | drain =>
    refine ⟨rfl, rfl, ?_⟩
    show w.session.scheduler.cancelPending ≠ .pendingRerun
    cases w.session.scheduler <;> simp [Scheduler.cancelPending]
  | take signal queue hTakes =>
    -- a signal does not stop the session
    rw [Session.handle_accepting, hTakes] at hAccepting
    cases hAccepting
  | complete pass report hRunning hReport hNews =>
    rw [deliver_session, Session.complete_accepting] at hAccepting
    have hBefore := h hAccepting
    refine ⟨?_, ?_, ?_⟩ <;> rw [deliver_session, hBefore.complete_eq]
    · exact hAccepting
    · exact hBefore.cooling
    · exact Scheduler.noConfusion
  | resume hCooling hNews =>
    -- no cooldown is left that could end
    rw [(h hAccepting).cooling] at hCooling
    cases hCooling

theorem run_closes (hRun : (World.begin scanner files).run? actions = some w)
    (hAccepting : w.session.accepting = false) : w.Closed :=
  run?_induction (P := fun w => w.session.accepting = false → w.Closed) step_closes hRun
    (fun hBegin => nomatch hBegin) hAccepting

/-- A session that has stopped starts nothing and takes no signal. -/
theorem Closed.step_frame (h : w.Closed) (hStep : Step w action v) :
    w.starts action = false ∧ action ≠ .notice ∧ w.queue <+: v.queue ∧ v.Closed := by
  have hClosed : v.session.accepting = false → v.Closed := step_closes hStep fun _ => h
  -- a session that has closed does not look at its queue any more
  have hNotNotice : action ≠ .notice := by
    rintro rfl
    have hAccepting := accepting_of_notice hStep
    rw [h.accepting] at hAccepting
    cases hAccepting
  cases hStep with
  | change | close | requestStop | leave | move =>
    exact ⟨rfl, hNotNotice, List.prefix_rfl, hClosed h.accepting⟩
  | send signal => exact ⟨rfl, hNotNotice, List.prefix_append _ _, hClosed h.accepting⟩
  | stop | take | drain => exact absurd rfl hNotNotice
  | complete pass report hRunning hReport hNews =>
    refine ⟨rfl, hNotNotice, ?_, hClosed ?_⟩
    · rw [deliver_queue]
    · rw [deliver_session, Session.complete_accepting, h.accepting]
  | resume hCooling hNews =>
    rw [h.cooling] at hCooling
    cases hCooling

/-- What does not touch the session does not touch how it winds down. -/
theorem WindsDown.of_session {u : World} (h : u.WindsDown actions v)
    (hSession : u.session = w.session)
    (hReports : w.passReports later = u.passReports actions) : w.WindsDown later v := by
  unfold WindsDown at h ⊢
  rw [hReports, ← hSession]
  exact h

/-- A session that has stopped does nothing but lead its pass to its end. -/
theorem run_windsDown (hRun : w.run? actions = some v) (h : w.Closed) :
    w.passStarts actions = 0 ∧ Action.notice ∉ actions ∧ w.queue <+: v.queue ∧ v.Closed ∧
      w.WindsDown actions v := by
  induction actions generalizing w with
  | nil =>
    cases hRun
    refine ⟨rfl, by simp, List.prefix_rfl, h, ?_⟩
    unfold WindsDown
    split
    · exact ⟨rfl, rfl⟩
    · next pass hRunning => exact ⟨pass, .refl, Or.inl ⟨by rw [← hRunning], rfl⟩⟩
  | cons action actions ih =>
    obtain ⟨u, hStep, hRest⟩ := run?_cons_iff.mp hRun
    obtain ⟨hNoStart, hNotNotice, hQueue, hClosed⟩ := h.step_frame hStep
    obtain ⟨hNoStarts, hNoNotice, hQueues, hLast, hWinds⟩ := ih hRest hClosed
    have hReports := @passReports_cons _ _ _ actions hStep
    refine ⟨?_, ?_, hQueue.trans hQueues, hLast, ?_⟩
    · rw [passStarts_cons hStep, hNoStart, hNoStarts]
      rfl
    · rw [List.mem_cons, not_or]
      exact ⟨hNotNotice.symm, hNoNotice⟩
    · cases hStep with
      | change | send | close | requestStop | leave => exact hWinds.of_session rfl hReports
      | stop | take | drain => exact absurd rfl hNotNotice
      | move move pass moved files hRunning hMove =>
        -- the pass goes on from where the move has led it
        obtain ⟨last, hBecomes, hEnd⟩ := hWinds
        unfold WindsDown
        rw [hRunning, hReports]
        exact ⟨last, (RunningPass.Becomes.refl.move hMove).trans hBecomes, hEnd⟩
      | complete pass report hRunning hReport hNews =>
        -- the pass has ended, and the session is over
        have hOver :
            (World.deliver { w with session := w.session.complete w.files pass.guard report }
            report).session = { w.session.ended pass.guard report with
              scheduler := .idle, parked := [] } := by
          rw [deliver_session, h.complete_eq]
        unfold WindsDown at hWinds ⊢
        rw [hOver] at hWinds
        rw [hRunning, hReports, reportOf_complete hRunning hReport, hWinds.2]
        exact ⟨pass, .refl, Or.inr ⟨report, hReport, hWinds.1, rfl⟩⟩
      | resume hCooling hNews =>
        rw [h.cooling] at hCooling
        cases hCooling

/-! ## The end -/

/-- Nobody who still takes reports has missed one. -/
theorem step_reports (hStep : Step w action v) (hListening : v.listening = true) :
    w.listening = true ∧ v.reports = w.reports ++ (w.reportOf action).toList := by
  cases hStep with
  | change | send | close | requestStop | stop | take | drain | move | resume =>
    exact ⟨hListening, (List.append_nil _).symm⟩
  | leave => cases hListening
  | complete pass report hRunning hReport hNews =>
    unfold deliver at hListening ⊢
    split at hListening
    · next hBefore =>
      rw [if_pos hBefore, reportOf_complete hRunning hReport]
      exact ⟨hBefore, rfl⟩
    · next hBefore => exact absurd hListening hBefore

theorem run_reports (hRun : w.run? actions = some v) (hListening : v.listening = true) :
    w.listening = true ∧ v.reports = w.reports ++ w.passReports actions := by
  induction actions generalizing w with
  | nil =>
    cases hRun
    exact ⟨hListening, (List.append_nil _).symm⟩
  | cons action actions ih =>
    obtain ⟨u, hStep, hRest⟩ := run?_cons_iff.mp hRun
    obtain ⟨hMiddle, hLater⟩ := ih hRest
    obtain ⟨hStart, hFirst⟩ := step_reports hStep hMiddle
    rw [passReports_cons hStep, hLater, hFirst, List.append_assoc]
    exact ⟨hStart, rfl⟩

/-- A pass that is led to its end has a report. -/
theorem exists_report?_finish (pass : RunningPass) (s : Scanner) (fs : FileSystem) :
    ∃ report, (pass.finish s fs).2.report? = some report := by
  obtain ⟨guard, stage⟩ := pass
  cases stage with
  | starting | scanning progress => exact ⟨_, rfl⟩
  | ended report => exact ⟨report, rfl⟩

/-- A session that has stopped can be led to its end by its pass alone. -/
theorem Closed.exists_run?_over (h : w.Closed) : ∃ rest v,
    (∀ action ∈ rest, (∃ move, action = .move move) ∨ action = .complete) ∧
      w.run? rest = some v ∧ v.session.isOver = true := by
  have hNews : w.hasNews = false := by rw [hasNews, h.accepting, Bool.false_and]
  cases hRunning : w.session.running with
  | none =>
    -- nothing runs, and nothing is accepted: the session is over
    refine ⟨[], w, by simp, rfl, ?_⟩
    rw [Session.isOver, h.accepting, hRunning]
    rfl
  | some pass =>
    -- the pass is led to its end, and then the end is noticed
    obtain ⟨moves, hFinish⟩ := pass.exists_run?_finish w.session.scanner w.files
    obtain ⟨report, hReport⟩ := exists_report?_finish pass w.session.scanner w.files
    have hMoves := run?_moves hRunning hFinish
    have hEnd := Step.complete (w := { w with
      files := (pass.finish w.session.scanner w.files).1
      session := { w.session with running := some (pass.finish w.session.scanner w.files).2 } })
      _ report rfl hReport hNews
    refine ⟨moves.map .move ++ [.complete], _, fun action => move_or_complete,
      run?_append_iff.mpr ⟨_, hMoves, run?_cons_iff.mpr ⟨_, hEnd, rfl⟩⟩, ?_⟩
    rw [deliver_session, Session.isOver, Session.complete_accepting,
      (Session.complete_counts _ _ _ _).1, h.accepting]
    rfl

/-- A pass makes no moves forever. -/
theorem wellFounded_move :
    WellFounded fun later earlier : World => ∃ move, Step earlier (.move move) later := by
  let rank (w : World) : ℕ ×ₗ ℕ := w.session.running.elim (toLex (0, 0)) RunningPass.rank
  refine Subrelation.wf (r := InvImage (· < ·) rank) ?_ (InvImage.wf rank wellFounded_lt)
  rintro later earlier ⟨move, hStep⟩
  cases hStep with
  | move move pass moved files hRunning hMove =>
    show moved.rank < earlier.session.running.elim _ RunningPass.rank
    rw [hRunning]
    exact (RunningPass.Moves.of_step? hMove).rank_lt

/-- **Stopping is clean.** In every state that a session comes to, the passes that were started, the
first one included, are those that have ended and the one that runs. Once the session has noticed a
request to stop or the end of its queue, no cooldown is waited out and no rerun is owed; whatever
happens from then on, no pass is started and no signal is taken, and the pass that ran goes on until
it has ended, with its report handed out and counted. It can always be led to its end and makes no
moves forever, and with its end the session is over. -/
theorem stops_cleanly (hRun : (World.begin scanner files).run? actions = some w) :
    1 + (World.begin scanner files).passStarts actions =
        w.session.summary.passes + w.session.inFlight ∧
      (w.session.isOver = true →
        1 + (World.begin scanner files).passStarts actions = w.session.summary.passes) ∧
      (w.session.accepting = false →
        w.session.cooling = false ∧ w.session.scheduler ≠ .pendingRerun ∧
          ∀ later v, w.run? later = some v →
            w.passStarts later = 0 ∧ Action.notice ∉ later ∧ w.queue <+: v.queue ∧
              w.WindsDown later v ∧
              (v.listening = true → v.reports = w.reports ++ w.passReports later) ∧
              ∃ rest u, (∀ action ∈ rest, (∃ move, action = .move move) ∨ action = .complete) ∧
                v.run? rest = some u ∧ u.session.isOver = true) ∧
      WellFounded fun later earlier : World => ∃ move, Step earlier (.move move) later := by
  have hCounts := run_counts hRun begin_agrees
  refine ⟨hCounts, ?_, ?_, wellFounded_move⟩
  · intro hOver
    rw [Session.isOver, Bool.and_eq_true, Option.isNone_iff_eq_none] at hOver
    rw [Session.inFlight, Session.inFlight, hOver.2] at hCounts
    exact hCounts
  · intro hAccepting
    have hClosed : w.Closed := run_closes hRun hAccepting
    refine ⟨hClosed.cooling, hClosed.owed, fun later v hLater => ?_⟩
    obtain ⟨hStarts, hNotice, hQueue, hStill, hWinds⟩ := run_windsDown hLater hClosed
    exact ⟨hStarts, hNotice, hQueue, hWinds, fun hListening => (run_reports hLater hListening).2,
      hStill.exists_run?_over⟩

/-- A project of which everything in the root is scanned. -/
def openScanner : Scanner :=
  { bareScanner with
    matcher := { bareScanner.matcher with includes := [⟨[.star]⟩], respectIgnores := false } }

/-- While the first pass runs, a file is added and a rerun is owed; then the session is asked to
stop, with one more signal in its queue. -/
def stoppedCourse : List Action :=
  [.send (.batch [⟨.added, ⟨"/r/a.ts"⟩⟩]), .notice, .send (.trouble "late"), .requestStop, .notice]

/-- The rerun is never started and the last signal is never taken. -/
theorem stops_cleanly_of_owed :
    ((World.begin openScanner {}).run? (stoppedCourse.take 2)).map (·.session.scheduler) =
        some .pendingRerun ∧
      ∃ w, (World.begin openScanner {}).run? stoppedCourse = some w ∧
        w.session.inFlight = 1 ∧ w.session.scheduler ≠ .pendingRerun ∧
        ∀ later v, w.run? later = some v → w.passStarts later = 0 ∧ w.queue <+: v.queue := by
  refine ⟨by decide +kernel, ?_⟩
  have hSeen : ((World.begin openScanner {}).run? stoppedCourse).map
      (fun w => (w.session.accepting, w.session.inFlight)) = some (false, 1) := by decide +kernel
  obtain ⟨w, hRun, hEq⟩ := Option.map_eq_some_iff.mp hSeen
  rw [Prod.mk.injEq] at hEq
  obtain ⟨-, -, hStopped, -⟩ := stops_cleanly hRun
  obtain ⟨-, hOwed, hLater⟩ := hStopped hEq.1
  refine ⟨w, hRun, hEq.2, hOwed, fun later v hThen => ?_⟩
  obtain ⟨hStarts, -, hQueue, -⟩ := hLater later v hThen
  exact ⟨hStarts, hQueue⟩

end World

end KeyRegistry

import KeyRegistry.Proofs.Watch.Stopping

/-!
# The accounts of a session

A session counts its passes, and it hands out a report of each. Here both are compared with what
the passes did to the artifact. Only a commit writes, and it makes one attempt at most; the report
of a pass tells whether it made one and how it ended. So when a session is over, its numbers are
those of the attempts. Whoever takes the reports gets those of all passes that ended before he left,
and apart from the reports it makes no difference when he leaves.

Main definitions:

* `World.attempts` — the attempts to write the artifact along a course of events
* `PassReport.Tells` — what a report tells of the attempts of its pass
* `World.muted` — a state without the reports

Main statements:

* `World.step_tells`, `World.run_tells` — what is attempted in a pass, its report tells
* `World.run?_muted` — without reports a course of events goes the same way
* `World.accounts_balance` — the accounts of a session
-/

namespace KeyRegistry

/-! ## Attempts to write -/

/-- An attempt to write a document, and how it ended. -/
structure WriteAttempt where
  path : Path
  document : String
  result : Except WriteError Unit

/-- Whether the document was written. -/
def WriteAttempt.succeeded (attempt : WriteAttempt) : Bool :=
  attempt.result.isOk

/-- The files after an attempt. -/
def WriteAttempt.filesAfter (attempt : WriteAttempt) (fs : FileSystem) : FileSystem :=
  (fs.writeDocument attempt.path attempt.document).1

/-- What a report tells of the attempts that its pass made: none if the artifact was left alone, and
otherwise one, for the document of the report. -/
def PassReport.Tells (report : PassReport) (attempts : List WriteAttempt) : Prop :=
  match report.outcome with
  | .unchanged => attempts = []
  | .written => ∃ attempt, attempts = [attempt] ∧ attempt.result = .ok () ∧
      Fingerprint.ofText attempt.document = report.fingerprint
  | .failed reason => ∃ attempt e, attempts = [attempt] ∧ attempt.result = .error e ∧
      e.message = reason ∧ Fingerprint.ofText attempt.document = report.fingerprint

/-- A write is counted as often as one succeeded. -/
theorem PassReport.Tells.writes_count {report : PassReport} {attempts : List WriteAttempt}
    (h : report.Tells attempts) (s : Summary) :
    (s.count report.outcome).writes = s.writes + attempts.countP (·.succeeded) := by
  unfold PassReport.Tells at h
  -- no attempt, one that succeeded, or one that failed: each outcome has its own count
  cases hOutcome : report.outcome with
  | unchanged =>
    rw [hOutcome] at h
    rw [h]
    rfl
  | written =>
    rw [hOutcome] at h
    obtain ⟨attempt, rfl, hResult, -⟩ := h
    have hDone : attempt.succeeded = true := by rw [WriteAttempt.succeeded, hResult]; rfl
    rw [List.countP_cons_of_pos hDone]
    rfl
  | failed reason =>
    rw [hOutcome] at h
    obtain ⟨attempt, e, rfl, hResult, -⟩ := h
    have hFailed : ¬ attempt.succeeded = true := by
      rw [WriteAttempt.succeeded, hResult]
      exact Bool.false_ne_true
    rw [List.countP_cons_of_neg hFailed]
    rfl

namespace RunningPass

variable {s : Scanner} {fs after : FileSystem} {pass moved : RunningPass} {move : PassMove}

/-- The attempt that a move makes, if it makes one: a commit does, unless its document was written
last. -/
def attempt? (pass : RunningPass) (s : Scanner) (fs : FileSystem) : PassMove → Option WriteAttempt
  | .commit =>
    match pass.stage with
    | .scanning progress =>
      let rendering := progress.toScan.rendering s.config.moduleName
      if pass.guard.shouldWrite rendering.fingerprint then
        some ⟨pass.guard.output, rendering.document,
          (fs.writeDocument pass.guard.output rendering.document).2⟩
      else none
    | _ => none
  | _ => none

/-- What a pass tells of the attempts that it has made so far. -/
def Tells (pass : RunningPass) (attempts : List WriteAttempt) : Prop :=
  match pass.stage with
  | .ended report => report.Tells attempts
  | _ => attempts = []

/-- A pass that has ended tells what its report tells. -/
theorem tells_of_report {report : PassReport} {attempts : List WriteAttempt}
    (hReport : pass.report? = some report) : pass.Tells attempts ↔ report.Tells attempts := by
  rw [Tells, report?_eq_some.mp hReport]

/-- A pass that has not started has attempted nothing. -/
theorem tells_of_starting {attempts : List WriteAttempt} (hStage : pass.stage = .starting) :
    pass.Tells attempts ↔ attempts = [] := by
  rw [Tells, hStage]

/-- A commit makes the attempt that its report tells of. -/
theorem attempt?_of_commit {progress : Progress} {handed : Guard} {report : PassReport}
    (hStage : pass.stage = .scanning progress)
    (hConclude : progress.toScan.conclude s.config.moduleName pass.guard fs =
      (after, handed, report)) :
    report.Tells (pass.attempt? s fs .commit).toList ∧
      after = (pass.attempt? s fs .commit).elim fs (·.filesAfter fs) := by
  have hFingerprint := Scan.conclude_fingerprint hConclude
  -- the document is attempted exactly if it was not written last
  have hAttempt : pass.attempt? s fs .commit =
      if report.outcome = .unchanged then none
      else some ⟨pass.guard.output, (progress.toScan.rendering s.config.moduleName).document,
        (fs.writeDocument pass.guard.output
          (progress.toScan.rendering s.config.moduleName).document).2⟩ := by
    simp only [Scan.conclude_unchanged_iff hConclude, hFingerprint, attempt?, hStage,
      Guard.shouldWrite, bne_iff_ne, ne_eq, ite_not]
  rw [hAttempt]
  unfold PassReport.Tells
  rcases Scan.conclude_cases hConclude with ⟨hOutcome, -, -, rfl⟩ | ⟨hOutcome, -, hWrite⟩ |
    ⟨e, hOutcome, -, hWrite⟩
  · rw [hOutcome]
    exact ⟨rfl, rfl⟩
  · rw [hOutcome, if_neg PassOutcome.noConfusion, hWrite]
    exact ⟨⟨_, rfl, rfl, hFingerprint.symm⟩, by rw [Option.elim, WriteAttempt.filesAfter, hWrite]⟩
  · rw [hOutcome, if_neg PassOutcome.noConfusion, hWrite]
    exact ⟨⟨_, e, rfl, rfl, rfl, hFingerprint.symm⟩,
      by rw [Option.elim, WriteAttempt.filesAfter, hWrite]⟩

/-- A move adds its attempt to what its pass tells, and touches the files by this attempt alone. -/
theorem Moves.tells {attempts : List WriteAttempt} (h : Moves s fs pass move after moved)
    (hTells : pass.Tells attempts) :
    moved.Tells (attempts ++ (pass.attempt? s fs move).toList) ∧
      after = (pass.attempt? s fs move).elim fs (·.filesAfter fs) := by
  unfold Tells at hTells
  cases h with
  | walk hStage | read path progress hStage | parse source progress hStage =>
    rw [hStage] at hTells
    rw [hTells]
    exact ⟨rfl, rfl⟩
  | commit progress after handed report hStage _ _ hConclude =>
    rw [hStage] at hTells
    rw [hTells, List.nil_append]
    exact attempt?_of_commit hStage hConclude

end RunningPass

namespace Session

variable {s : Session} {fs : FileSystem} {attempts : List WriteAttempt}

/-- What the pass that runs tells of the attempts that it has made so far. -/
def Tells (s : Session) (attempts : List WriteAttempt) : Prop :=
  match s.running with
  | some pass => pass.Tells attempts
  | none => attempts = []

/-- While a pass runs, the session tells what the pass tells. -/
theorem tells_of_running {pass : RunningPass} (hRunning : s.running = some pass) :
    s.Tells attempts ↔ pass.Tells attempts := by
  rw [Tells, hRunning]

/-- While no pass runs, no attempt is open. -/
theorem tells_of_none (hIdle : s.running = none) : s.Tells attempts ↔ attempts = [] := by
  rw [Tells, hIdle]

/-- A signal leaves the pass that runs alone, and starts one only if none runs. -/
theorem Agrees.handle_running (h : s.Agrees) (hAccepting : s.accepting = true) (fs : FileSystem)
    (signal : Signal) :
    (s.handle fs signal).running = s.running ∨
      s.running = none ∧ ∃ guard, (s.handle fs signal).running = some { guard } := by
  cases signal with
  | trouble message => exact Or.inl rfl
  | batch events =>
    have hJudged : Judges s (s.judge fs events).1 := judge_judges events
    rw [handle_batch_eq]
    split
    · rcases (h.judges hJudged).demand_cases (hJudged.accepting.trans hAccepting) with
        ⟨hNone, -, hStarts⟩ | ⟨-, hOwes⟩
      · rw [hStarts]
        exact Or.inr ⟨hJudged.running.symm.trans hNone, _, rfl⟩
      · rw [hOwes]
        exact Or.inl hJudged.running
    · exact Or.inl hJudged.running

/-- Taking a signal is no attempt to write. -/
theorem Agrees.handle_tells (h : s.Agrees) (hAccepting : s.accepting = true) (fs : FileSystem)
    (signal : Signal)
    (hTells : s.Tells attempts) : (s.handle fs signal).Tells attempts := by
  rcases h.handle_running hAccepting fs signal with hSame | ⟨hNone, guard, hStarts⟩
  · unfold Tells at hTells ⊢
    rw [hSame]
    exact hTells
  · rw [tells_of_none hNone] at hTells
    rw [tells_of_running hStarts]
    exact hTells

end Session

/-! ## Attempts along a course of events -/

namespace World

variable {scanner : Scanner} {files : FileSystem} {w v : World} {action : Action}
  {actions during : List Action} {current : List WriteAttempt}

/-- The attempt to write the artifact that an action makes. -/
def attemptOf (w : World) : Action → Option WriteAttempt
  | .move move => w.session.running.bind fun pass => pass.attempt? w.session.scanner w.files move
  | _ => none

/-- The attempts to write the artifact along a course of events, in order. -/
def attempts (w : World) (actions : List Action) : List WriteAttempt :=
  w.along attemptOf actions

theorem attempts_nil : w.attempts [] = [] := rfl

/-- The attempts along a course start with the one of its first action, if there is one. -/
theorem attempts_cons (hStep : Step w action v) :
    w.attempts (action :: actions) = (w.attemptOf action).toList ++ v.attempts actions :=
  along_cons hStep

/-- Until the end of its pass is noticed, a session adds what is attempted to what the pass tells.
-/
theorem step_tells (hStep : Step w action v) (h : w.session.Agrees) (hEnd : action ≠ .complete)
    (hTells : w.session.Tells current) :
    v.session.Tells (current ++ (w.attemptOf action).toList) := by
  cases hStep with
  | change | send | close | requestStop | leave | stop | drain =>
    exact (List.append_nil current).symm ▸ hTells
  | take signal queue hAccepting =>
    have hLater := h.handle_tells hAccepting w.files signal hTells
    exact (List.append_nil current).symm ▸ hLater
  | move move pass moved files hRunning hMove =>
    rw [Session.tells_of_running hRunning] at hTells
    rw [attemptOf, hRunning]
    exact ((RunningPass.Moves.of_step? hMove).tells hTells).1
  | complete => exact absurd rfl hEnd
  | resume hCooling =>
    -- no pass ran during the cooldown, and the one that starts has made no attempt
    rw [Session.tells_of_none (h.running_eq_none hCooling)] at hTells
    rw [hTells]
    rfl

/-- At its end a pass reports what it has told, and then no pass runs. -/
theorem complete_tells (hStep : Step w .complete v) (hTells : w.session.Tells current) :
    ∃ report, w.reportOf .complete = some report ∧ report.Tells current ∧ v.session.Tells [] ∧
      v.session.summary = w.session.summary.count report.outcome := by
  cases hStep with
  | complete pass report hRunning hReport hNews =>
    obtain ⟨hEnded, hSummary⟩ := w.session.complete_counts w.files pass.guard report
    rw [Session.tells_of_running hRunning, RunningPass.tells_of_report hReport] at hTells
    refine ⟨report, reportOf_complete hRunning hReport, hTells, ?_, ?_⟩
    · rw [deliver_session, Session.tells_of_none hEnded]
    · rw [deliver_session, hSummary]

/-- A pass that has run for a while tells what was attempted in the meantime. -/
theorem run_tells (hRun : w.run? during = some v) (h : w.session.Agrees)
    (hEnd : Action.complete ∉ during) (hTells : w.session.Tells current) :
    v.session.Tells (current ++ w.attempts during) := by
  induction during generalizing w current with
  | nil =>
    cases hRun
    rw [attempts_nil, List.append_nil]
    exact hTells
  | cons action during ih =>
    obtain ⟨u, hStep, hRest⟩ := run?_cons_iff.mp hRun
    rw [List.mem_cons, not_or] at hEnd
    have hFirst := step_tells hStep h (Ne.symm hEnd.1) hTells
    rw [attempts_cons hStep, ← List.append_assoc]
    exact ih hRest (step_agrees hStep h) hEnd.2 hFirst

/-- The session touches the files by its attempts alone. -/
theorem step_files (hStep : Step w action v) (hOwn : ∀ files, action ≠ .change files) :
    v.files = (w.attemptOf action).elim w.files (·.filesAfter w.files) := by
  cases hStep with
  | change files => exact absurd rfl (hOwn files)
  | send | close | requestStop | leave | stop | take | drain | resume => rfl
  | move move pass moved files hRunning hMove =>
    have hMoves := RunningPass.Moves.of_step? hMove
    rw [attemptOf, hRunning]
    -- what the pass has told before is of no importance here
    cases hMoves with
    | walk | read | parse => rfl
    | commit progress after handed report hStage _ _ hConclude =>
      exact (RunningPass.attempt?_of_commit hStage hConclude).2
  | complete => rw [deliver_files]; rfl

/-! ## The numbers -/

/-- The numbers of a session are those of its reports. -/
theorem step_summary (hStep : Step w action v) (h : w.session.Agrees) :
    v.session.summary =
      (w.reportOf action).toList.foldl
        (fun s report => s.count report.outcome) w.session.summary := by
  cases hStep with
  | change | send | close | requestStop | leave | stop | drain | move | resume => rfl
  | take signal queue hAccepting => exact (h.handle_counts hAccepting w.files signal).2
  | complete pass report hRunning hReport hNews =>
    rw [deliver_session, reportOf_complete hRunning hReport,
      (w.session.complete_counts w.files pass.guard report).2]
    rfl

/-- The summary counts the reports along a course. -/
theorem run_summary (hRun : w.run? actions = some v) (h : w.session.Agrees) :
    v.session.summary =
      (w.passReports actions).foldl (fun s report => s.count report.outcome) w.session.summary := by
  induction actions generalizing w with
  | nil =>
    cases hRun
    rfl
  | cons action actions ih =>
    obtain ⟨u, hStep, hRest⟩ := run?_cons_iff.mp hRun
    rw [passReports_cons hStep, List.foldl_append, ← step_summary hStep h]
    exact ih hRest (step_agrees hStep h)

/-- Counting reports counts all of them, and those of passes that failed. -/
theorem foldl_count (reports : List PassReport) (s : Summary) :
    (reports.foldl (fun s report => s.count report.outcome) s).passes = s.passes + reports.length ∧
      (reports.foldl (fun s report => s.count report.outcome) s).failures =
        s.failures + reports.countP (·.outcome.isFailure) := by
  induction reports generalizing s with
  | nil => exact ⟨rfl, rfl⟩
  | cons report reports ih =>
    obtain ⟨hPasses, hFailures⟩ := ih (s.count report.outcome)
    rw [List.foldl_cons, hPasses, hFailures, List.length_cons, List.countP_cons]
    cases hOutcome : report.outcome with
    | written | unchanged | failed => simp [Summary.count, PassOutcome.isFailure]; omega

/-- What was written is counted, or the pass that runs will tell of it. -/
theorem run_writes (hRun : w.run? actions = some v) (h : w.session.Agrees)
    (hTells : w.session.Tells current) :
    ∃ later, v.session.Tells later ∧
      w.session.summary.writes + (current ++ w.attempts actions).countP (·.succeeded) =
        v.session.summary.writes + later.countP (·.succeeded) := by
  induction actions generalizing w current with
  | nil =>
    cases hRun
    exact ⟨current, hTells, by rw [attempts_nil, List.append_nil]⟩
  | cons action actions ih =>
    obtain ⟨u, hStep, hRest⟩ := run?_cons_iff.mp hRun
    have hAgrees := step_agrees hStep h
    rw [attempts_cons hStep]
    by_cases hEnd : action = .complete
    · -- the pass has told of its attempts, and they are counted now
      rw [hEnd] at hStep
      obtain ⟨report, -, hTold, hNothing, hSummary⟩ := complete_tells hStep hTells
      obtain ⟨later, hLater, hEq⟩ := ih hRest hAgrees hNothing
      refine ⟨later, hLater, ?_⟩
      have hNone : w.attemptOf .complete = none := rfl
      rw [List.nil_append, hSummary, hTold.writes_count] at hEq
      rw [hEnd, hNone, Option.toList_none, List.nil_append, List.countP_append]
      omega
    · obtain ⟨later, hLater, hEq⟩ := ih hRest hAgrees (step_tells hStep h hEnd hTells)
      refine ⟨later, hLater, ?_⟩
      have hSame : u.session.summary = w.session.summary := by
        have hNone : w.reportOf action = none := by
          cases action <;> first | rfl | exact absurd rfl hEnd
        rw [step_summary hStep h, hNone]
        rfl
      rwa [hSame, List.append_assoc] at hEq

end World

/-! ## Who takes the reports -/

/-- Whether an action is that nobody takes reports any more. -/
def Action.isLeave : Action → Bool
  | .leave => true
  | _ => false

namespace World

variable {scanner : Scanner} {files : FileSystem} {w v : World} {action : Action}
  {actions others : List Action}

/-- A state without the reports, and without anybody who takes them. -/
def muted (w : World) : World :=
  { w with listening := false, reports := [] }

/-- Nobody listens to what a muted world hands out. -/
theorem deliver_muted (report : PassReport) :
    (w.deliver report).muted = w.muted.deliver report := by
  unfold deliver
  split <;> rfl

/-- A session notices the same whether or not somebody listens. -/
theorem notice_muted : w.muted.notice = w.notice.muted := by
  obtain ⟨files, session, queue, closed, stopRequested, listening, reports⟩ := w
  cases stopRequested with
  | true => rfl
  | false => cases queue <;> rfl

/-- Nothing that can happen depends on the reports. -/
theorem step?_muted (hStays : action.isLeave = false) :
    w.muted.step? action = (w.step? action).map muted := by
  -- each action asks the same questions of both, and only the end of a pass hands out a report
  cases action with
  | change | close | requestStop => rfl
  | send signal =>
    show (if w.canSend then _ else _) = _
    rw [step?]
    split <;> rfl
  | leave => cases hStays
  | notice =>
    show (if w.hasNews then some w.muted.notice else none) = _
    rw [step?, notice_muted]
    split <;> rfl
  | move move =>
    show (w.session.running.bind fun pass => _) = _
    rw [step?]
    cases w.session.running with
    | none => rfl
    | some pass =>
      show ((pass.step? w.session.scanner w.files move).bind fun after => _) =
        Option.map _ ((pass.step? w.session.scanner w.files move).bind _)
      cases pass.step? w.session.scanner w.files move <;> rfl
  | complete =>
    show (w.session.running.bind fun pass => _) = _
    rw [step?]
    cases w.session.running with
    | none => rfl
    | some pass =>
      show (pass.report?.bind fun report => _) = Option.map _ (pass.report?.bind _)
      cases pass.report? with
      | none => rfl
      | some report =>
        show (if w.hasNews then _ else _) = Option.map _ (if w.hasNews then _ else _)
        split
        · rfl
        · have hDelivered := deliver_muted report (w :=
            { w with session := w.session.complete w.files pass.guard report })
          exact congrArg some hDelivered.symm
  | resume =>
    show (if w.session.cooling && !w.hasNews then _ else _) = _
    rw [step?]
    split <;> rfl

/-- Without reports a course of events goes the same way, and it does not matter when somebody
leaves. -/
theorem run?_muted (w : World) (actions : List Action) :
    w.muted.run? (actions.filter fun action => !action.isLeave) = (w.run? actions).map muted := by
  induction actions generalizing w with
  | nil => rfl
  | cons action actions ih =>
    cases hLeave : action.isLeave with
    | true =>
      -- nothing is left of the action
      rw [List.filter_cons_of_neg (by rw [hLeave]; simp)]
      cases action with
      | leave => exact ih { w with listening := false }
      | _ => cases hLeave
    | false =>
      rw [List.filter_cons_of_pos (by rw [hLeave]; rfl), run?, run?, step?_muted hLeave]
      cases w.step? action with
      | none => rfl
      | some v => exact ih v

/-- What is noted without regard to the reports is noted without them too. -/
theorem along_muted {α : Type} {note : World → Action → Option α} (w : World)
    (actions : List Action) (hSame : ∀ w action, note (muted w) action = note w action)
    (hLeave : ∀ w, note w .leave = none) :
    w.muted.along note (actions.filter fun action => !action.isLeave) = w.along note actions := by
  induction actions generalizing w with
  | nil => rfl
  | cons action actions ih =>
    -- an action that is left out has noted nothing
    cases hGone : action.isLeave with
    | true =>
      rw [List.filter_cons_of_neg (by rw [hGone]; simp)]
      cases action with
      | leave =>
        rw [along_cons .leave, hLeave]
        exact ih { w with listening := false }
      | _ => cases hGone
    | false =>
      rw [List.filter_cons_of_pos (by rw [hGone]; rfl), along, along, step?_muted hGone, hSame]
      cases w.step? action with
      | none => rfl
      | some v => exact congrArg _ (ih v)

/-- What is noted without regard to the reports does not depend on when somebody leaves. -/
theorem along_eq_of_filter {α : Type} {note : World → Action → Option α}
    (hMuted : ∀ w action, note (muted w) action = note w action)
    (hLeave : ∀ w, note w .leave = none)
    (hSame : (others.filter fun action => !action.isLeave) =
      (actions.filter fun action => !action.isLeave)) :
    w.along note others = w.along note actions := by
  rw [← along_muted w others hMuted hLeave, hSame, along_muted w actions hMuted hLeave]

/-- A pass reports the same whether or not somebody listens. -/
theorem reportOf_muted (w : World) (action : Action) :
    w.muted.reportOf action = w.reportOf action := by
  cases action <;> rfl

/-- A pass writes the same whether or not somebody listens. -/
theorem attemptOf_muted (w : World) (action : Action) :
    w.muted.attemptOf action = w.attemptOf action := by
  cases action <;> rfl

/-- Reports are handed out until somebody leaves. -/
theorem step_heard (hStep : Step w action v) :
    v.listening = (w.listening && !action.isLeave) ∧
      v.reports = w.reports ++ if w.listening then (w.reportOf action).toList else [] := by
  cases hStep with
  | change | send | close | requestStop | stop | take | drain | move | resume =>
    exact ⟨(Bool.and_true _).symm, by split <;> exact (List.append_nil _).symm⟩
  | leave => exact ⟨(Bool.and_false _).symm, by split <;> exact (List.append_nil _).symm⟩
  | complete pass report hRunning hReport hNews =>
    rw [reportOf_complete hRunning hReport, show (!Action.complete.isLeave) = true from rfl,
      Bool.and_true, deliver]
    cases hHeard : w.listening with
    | true => exact ⟨rfl, rfl⟩
    | false => exact ⟨rfl, (List.append_nil _).symm⟩

/-- The reports that are handed out are those of the passes that end before somebody leaves. -/
theorem run_heard (hRun : w.run? actions = some v) :
    v.reports = w.reports ++
      if w.listening then w.passReports (actions.takeWhile fun action => !action.isLeave)
      else [] := by
  induction actions generalizing w with
  | nil =>
    cases hRun
    split <;> exact (List.append_nil _).symm
  | cons action actions ih =>
    obtain ⟨u, hStep, hRest⟩ := run?_cons_iff.mp hRun
    obtain ⟨hListening, hReports⟩ := step_heard hStep
    rw [ih hRest, hReports, hListening, List.append_assoc, List.takeWhile_cons]
    cases w.listening with
    | false => rfl
    | true =>
      cases hLeave : action.isLeave with
      | true =>
        -- nobody listens from now on
        cases action with
        | leave => rfl
        | _ => cases hLeave
      | false => exact congrArg (w.reports ++ ·) (passReports_cons hStep).symm

/-- The reports along the start of a course come first. -/
theorem passReports_takeWhile (hRun : w.run? actions = some v) (test : Action → Bool) :
    w.passReports (actions.takeWhile test) <+: w.passReports actions := by
  rw [← List.takeWhile_append_dropWhile (p := test) (l := actions)] at hRun
  obtain ⟨u, hFirst, -⟩ := run?_append_iff.mp hRun
  conv_rhs => rw [← List.takeWhile_append_dropWhile (p := test) (l := actions)]
  rw [passReports_append hFirst]
  exact List.prefix_append _ _

/-! ## The accounts -/

/-- The summary has the number of reports and the number of failures among them. -/
theorem run_passes_failures (hRun : (World.begin scanner files).run? actions = some w) :
    w.session.summary.passes = ((World.begin scanner files).passReports actions).length ∧
      w.session.summary.failures =
        ((World.begin scanner files).passReports actions).countP (·.outcome.isFailure) := by
  obtain ⟨hPasses, hFailures⟩ := foldl_count ((World.begin scanner files).passReports actions)
    (World.begin scanner files).session.summary
  rw [run_summary hRun begin_agrees, hPasses, hFailures]
  exact ⟨Nat.zero_add _, Nat.zero_add _⟩

/-- When a session is over, all writes are counted. -/
theorem run_writes_of_isOver (hRun : (World.begin scanner files).run? actions = some w)
    (hOver : w.session.isOver = true) :
    w.session.summary.writes =
      ((World.begin scanner files).attempts actions).countP (·.succeeded) := by
  have hStart : (World.begin scanner files).session.Tells [] := rfl
  obtain ⟨later, hLater, hEq⟩ := run_writes hRun begin_agrees hStart
  -- no pass runs any more, so none has still to tell of a write
  rw [Session.isOver, Bool.and_eq_true, Option.isNone_iff_eq_none] at hOver
  rw [Session.tells_of_none hOver.2] at hLater
  rw [hLater] at hEq
  exact hEq.symm.trans (Nat.zero_add _)

/-- From the start of a pass to its end, exactly what its report tells of is attempted. -/
theorem tells_of_pass {pass : RunningPass} {report : PassReport} (h : w.session.Agrees)
    (hRunning : w.session.running = some pass) (hStage : pass.stage = .starting)
    (hDuring : w.run? actions = some v) (hEnd : Action.complete ∉ actions)
    (hReport : v.reportOf .complete = some report) : report.Tells (w.attempts actions) := by
  have hStart : w.session.Tells [] := by
    rw [Session.tells_of_running hRunning, RunningPass.tells_of_starting hStage]
  have hTells := run_tells hDuring h hEnd hStart
  rw [reportOf, Option.bind_eq_some_iff] at hReport
  obtain ⟨last, hLast, hReport⟩ := hReport
  rw [Session.tells_of_running hLast, RunningPass.tells_of_report hReport] at hTells
  exact hTells

/-- Nothing but who has the reports depends on when somebody leaves. -/
theorem exists_run?_of_filter (hRun : w.run? actions = some v)
    (hSame : (others.filter fun action => !action.isLeave) =
      (actions.filter fun action => !action.isLeave)) :
    ∃ u, w.run? others = some u ∧ u.muted = v.muted ∧
      w.passReports others = w.passReports actions ∧ w.attempts others = w.attempts actions := by
  have hMuted := (run?_muted w others).symm
  rw [hSame, run?_muted, hRun] at hMuted
  obtain ⟨u, hOthers, hEq⟩ := Option.map_eq_some_iff.mp hMuted
  refine ⟨u, hOthers, hEq, ?_, ?_⟩
  · rw [passReports_eq_along, passReports_eq_along]
    exact along_eq_of_filter reportOf_muted (fun _ => rfl) hSame
  · exact along_eq_of_filter attemptOf_muted (fun _ => rfl) hSame

/-- **The accounts balance.** In every state that a session comes to, it has counted the passes that
have ended and those of them that failed; and when it is over, it has counted as writes the attempts
to write the artifact that succeeded. These attempts are all that it has done to the files. From the
start of a pass to its end, exactly those are made that its report tells of: none if the artifact
was left alone. The reports that were handed out are those of the passes that ended before somebody
left, so they come first among all reports, and nothing else depends on when somebody leaves: not
the files, not the session with its numbers, and not what is reported and attempted. -/
theorem accounts_balance (hRun : (World.begin scanner files).run? actions = some w) :
    (w.session.summary.passes = ((World.begin scanner files).passReports actions).length ∧
      w.session.summary.failures =
        ((World.begin scanner files).passReports actions).countP (·.outcome.isFailure) ∧
      (w.session.isOver = true → w.session.summary.writes =
        ((World.begin scanner files).attempts actions).countP (·.succeeded))) ∧
    (∀ action v, Step w action v → (∀ files, action ≠ .change files) →
      v.files = (w.attemptOf action).elim w.files (·.filesAfter w.files)) ∧
    (∀ pass, w.session.running = some pass → pass.stage = .starting →
      ∀ during v, w.run? during = some v → Action.complete ∉ during →
        ∀ report, v.reportOf .complete = some report → report.Tells (w.attempts during)) ∧
    (w.reports = (World.begin scanner files).passReports
        (actions.takeWhile fun action => !action.isLeave) ∧
      w.reports <+: (World.begin scanner files).passReports actions ∧
      (w.listening = true → w.reports = (World.begin scanner files).passReports actions)) ∧
    ∀ others, (others.filter fun action => !action.isLeave) =
        (actions.filter fun action => !action.isLeave) →
      ∃ v, (World.begin scanner files).run? others = some v ∧ v.muted = w.muted ∧
        (World.begin scanner files).passReports others =
          (World.begin scanner files).passReports actions ∧
        (World.begin scanner files).attempts others =
          (World.begin scanner files).attempts actions := by
  obtain ⟨hPasses, hFailures⟩ := run_passes_failures hRun
  have hHeard := run_heard hRun
  refine ⟨⟨hPasses, hFailures, run_writes_of_isOver hRun⟩, ?_, ?_, ⟨hHeard, ?_, ?_⟩, ?_⟩
  · -- the attempts are all that is done to the files
    intro action v hStep hOwn
    exact step_files hStep hOwn
  · -- a pass and what its report tells of
    intro pass hRunning hStage during v hDuring hEnd report hReport
    exact tells_of_pass (run_agrees hRun begin_agrees) hRunning hStage hDuring hEnd hReport
  · -- the reports that are handed out, and those of all passes
    rw [show w.reports = _ from hHeard]
    exact passReports_takeWhile hRun _
  · intro hListening
    exact (run_reports hRun hListening).2
  · -- nothing else depends on when somebody leaves
    intro others hSame
    exact exists_run?_of_filter hRun hSame

/-- Nobody takes reports any more when the first pass ends, and then the session is asked to stop.
-/
def deafCourse : List Action :=
  [.move .walk, .move .commit, .leave, .complete, .requestStop, .notice]

/-- The pass is counted, and so is what it wrote, although its report is not handed out. -/
theorem accounts_balance_of_leave :
    ∃ w, (World.begin bareScanner bareFiles).run? deafCourse = some w ∧
      w.session.isOver = true ∧ w.session.summary.passes = 1 ∧ w.reports = [] ∧
      ((World.begin bareScanner bareFiles).passReports deafCourse).length = 1 ∧
      w.session.summary.writes =
        ((World.begin bareScanner bareFiles).attempts deafCourse).countP (·.succeeded) := by
  have hSeen : ((World.begin bareScanner bareFiles).run? deafCourse).map (·.session.isOver) =
      some true := by decide +kernel
  obtain ⟨w, hRun, hOver⟩ := Option.map_eq_some_iff.mp hSeen
  obtain ⟨⟨hCounted, -, hWritten⟩, -, -, ⟨hHeard, -⟩, -⟩ := accounts_balance hRun
  have hEnded : ((World.begin bareScanner bareFiles).passReports deafCourse).length = 1 := by
    decide +kernel
  -- no pass has ended yet when the reports stop being taken
  have hNone : (World.begin bareScanner bareFiles).passReports
      (deafCourse.takeWhile fun action => !action.isLeave) = [] :=
    List.eq_nil_of_length_eq_zero (by decide +kernel)
  exact ⟨w, hRun, hOver, hCounted.trans hEnded, hHeard.trans hNone, hEnded, hWritten hOver⟩

end World

end KeyRegistry

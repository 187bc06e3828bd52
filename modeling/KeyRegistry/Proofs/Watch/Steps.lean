import KeyRegistry.Watch.World

/-!
# Steps of a session

What each action of a session can do, said once. Judging events touches two things only: it may
park paths while a pass runs, and it may make the guard forget the last write while none runs.
`World.Step` has one case for each thing that can happen; every invariant of sessions is proved
by going through these cases.

Main definitions:

* `Session.Judges` — what judging may change
* `Session.directive?` — what a batch makes the scheduler say
* `World.Step` — one thing that can happen
* `World.passReports`, `World.along` — what is noted along a course of events

Main statements:

* `Session.judge_judges`, `Session.judgeParked_judges` — what judging leaves alone
* `World.step_iff` — the cases of `World.Step` are all that an action can do
* `World.run?_induction` — what every step keeps is kept by a course of events
-/

namespace KeyRegistry

/-- While a pass runs or is owed, what calls for one is only remembered. -/
theorem Scheduler.onEvent_of_ne_idle {s : Scheduler} (hBusy : s ≠ .idle) :
    s.onEvent = (.pendingRerun, .coalesced) := by
  cases s with
  | idle => exact absurd rfl hBusy
  | scanning | pendingRerun => rfl

namespace Session

variable {s t u : Session} {fs : FileSystem}

/-! ## What judging leaves alone -/

/-- What judging may change: paths are parked only while a pass runs, and the last write is
forgotten only while none runs. -/
structure Judges (s t : Session) : Prop where
  frame  : t = { s with guard := t.guard, parked := t.parked }
  guard  : t.guard = s.guard ∨ s.running = none ∧ t.guard = s.guard.invalidate
  parked : t.parked = s.parked ∨ s.running.isSome = true

theorem Judges.refl (s : Session) : Judges s s :=
  ⟨rfl, Or.inl rfl, Or.inl rfl⟩

theorem Judges.running (h : Judges s t) : t.running = s.running := by
  rw [h.frame]

/-- Judging leaves the scheduler alone, as it leaves everything but the guard and the parked paths.
-/
theorem Judges.scheduler (h : Judges s t) : t.scheduler = s.scheduler := by
  rw [h.frame]

theorem Judges.accepting (h : Judges s t) : t.accepting = s.accepting := by
  rw [h.frame]

theorem Judges.cooling (h : Judges s t) : t.cooling = s.cooling := by
  rw [h.frame]

theorem Judges.summary (h : Judges s t) : t.summary = s.summary := by
  rw [h.frame]

theorem Judges.scanner (h : Judges s t) : t.scanner = s.scanner := by
  rw [h.frame]

/-- A guard is not touched while a pass runs. -/
theorem Judges.guard_of_running (h : Judges s t) (hRun : s.running.isSome = true) :
    t.guard = s.guard := by
  rcases h.guard with hSame | ⟨hNone, -⟩
  · exact hSame
  · rw [hNone] at hRun
    cases hRun

/-- Judging twice is judging: a pass runs all the while or none does. -/
theorem Judges.trans (h : Judges s t) (k : Judges t u) : Judges s u := by
  refine ⟨?_, ?_, ?_⟩
  · rw [k.frame, h.frame]
  · rcases k.guard with hSame | ⟨hNone, hForgot⟩
    · rw [hSame]
      exact h.guard
    · -- judging starts and ends no pass, so none ran in the beginning either
      have hIdle : s.running = none := by rw [← h.running, hNone]
      refine Or.inr ⟨hIdle, ?_⟩
      rcases h.guard with hGuard | ⟨-, hGuard⟩ <;> rw [hForgot, hGuard]
      rfl
  · rcases k.parked with hSame | hRun
    · rw [hSame]
      exact h.parked
    · rw [h.running] at hRun
      exact Or.inr hRun

/-- Parking a path while a pass runs is all that judging does then. -/
theorem park_judges (path : Path) (hRun : s.running.isSome = true) : Judges s (s.park path) := by
  unfold park
  split
  · exact Judges.refl s
  · exact ⟨rfl, Or.inl rfl, Or.inr hRun⟩

/-- Judging the artifact while no pass runs may make the guard forget the last write. -/
theorem judgeArtifact_judges (path : Path) (hIdle : s.running = none) :
    Judges s (s.judgeArtifact fs path).1 := by
  unfold judgeArtifact
  split
  · exact Judges.refl s
  · exact ⟨rfl, Or.inr ⟨hIdle, rfl⟩, Or.inl rfl⟩

/-- Judging one event changes no more than judging may. -/
theorem judgeEvent_judges (path : Path) : Judges s (s.judgeEvent fs path).1 := by
  unfold judgeEvent
  split
  · split
    · next hRun => exact park_judges path hRun
    · next hRun => exact judgeArtifact_judges path (by simpa using hRun)
  · exact Judges.refl s

/-! ## Judging one after the other -/

section JudgeAll

variable {α : Type} {f : Session → α → Session × Bool} {P : Session → Prop}

/-- Judges some things one after the other: whether one of them calls for a pass. -/
def judgeAll (f : Session → α → Session × Bool) : List α → Session → Session × Bool
  | [], s => (s, false)
  | x :: xs, s => ((judgeAll f xs (f s x).1).1, (f s x).2 || (judgeAll f xs (f s x).1).2)

/-- A verdict that was reached before is only added to. -/
theorem foldl_eq_judgeAll (xs : List α) (relevant : Bool) :
    xs.foldl (fun (s, relevant) x => let (s, own) := f s x; (s, relevant || own)) (s, relevant) =
      ((judgeAll f xs s).1, relevant || (judgeAll f xs s).2) := by
  -- induction on what is still to be judged, whatever was said before
  induction xs generalizing s relevant with
  | nil => simp [judgeAll]
  | cons x xs ih =>
    rw [List.foldl_cons, ih]
    simp only [judgeAll, Bool.or_assoc]

/-- What every single judgement keeps, judging one after the other keeps. -/
theorem judgeAll_keeps (hKeep : ∀ s x, P s → P (f s x).1) (xs : List α) (hStart : P s) :
    P (judgeAll f xs s).1 := by
  induction xs generalizing s with
  | nil => exact hStart
  | cons x xs ih => exact ih (hKeep s x hStart)

/-- One thing that calls for a pass is enough. -/
theorem judgeAll_calls {x : α} {xs : List α} (hKeep : ∀ s y, P s → P (f s y).1)
    (hCalls : ∀ s, P s → (f s x).2 = true) (hMem : x ∈ xs) (hStart : P s) :
    (judgeAll f xs s).2 = true := by
  induction xs generalizing s with
  | nil => cases hMem
  | cons y xs ih =>
    rw [judgeAll, Bool.or_eq_true]
    rcases List.mem_cons.mp hMem with rfl | hMem
    · exact Or.inl (hCalls s hStart)
    · exact Or.inr (ih hMem (hKeep s y hStart))

/-- What judging one thing brings about, judging the others leaves. -/
theorem judgeAll_reaches {Q : Session → Prop} {x : α} {xs : List α}
    (hKeep : ∀ s y, P s → P (f s y).1) (hStays : ∀ s y, P s → Q s → Q (f s y).1)
    (hReach : ∀ s, P s → Q (f s x).1) (hMem : x ∈ xs) (hStart : P s) :
    Q (judgeAll f xs s).1 := by
  induction xs generalizing s with
  | nil => cases hMem
  | cons y xs ih =>
    rcases List.mem_cons.mp hMem with rfl | hMem
    · -- from here on both properties are kept
      have hBoth := judgeAll_keeps (P := fun s => P s ∧ Q s)
        (fun s y h => ⟨hKeep s y h.1, hStays s y h.1 h.2⟩) xs ⟨hKeep s x hStart, hReach s hStart⟩
      exact hBoth.2
    · exact ih hMem (hKeep s y hStart)

/-- If nothing calls for a pass, nothing changes. -/
theorem judgeAll_silent {xs : List α} (hSilent : ∀ s x, P s → (f s x).2 = false → (f s x).1 = s)
    (hStart : P s) (hNone : (judgeAll f xs s).2 = false) : (judgeAll f xs s).1 = s := by
  induction xs with
  | nil => rfl
  | cons x xs ih =>
    rw [judgeAll, Bool.or_eq_false_iff] at hNone
    have hHead := hSilent s x hStart hNone.1
    rw [hHead] at hNone
    rw [judgeAll, hHead]
    exact ih hNone.2

/-- Judging one after the other changes no more than judging may, if each judgement keeps what the
next one relies on. -/
theorem judgeAll_judges (hOne : ∀ s x, P s → Judges s (f s x).1 ∧ P (f s x).1) (xs : List α)
    (hStart : P s) : Judges s (judgeAll f xs s).1 := by
  -- what is kept speaks of the session in the beginning, so it is carried along with the property
  have hBoth := judgeAll_keeps (P := fun t => Judges s t ∧ P t) (f := f) ?_ xs
    ⟨Judges.refl s, hStart⟩
  · exact hBoth.1
  · rintro t x ⟨hJudged, hHere⟩
    obtain ⟨hNext, hThere⟩ := hOne t x hHere
    exact ⟨hJudged.trans hNext, hThere⟩

end JudgeAll

/-- A batch is judged event by event. -/
theorem judge_eq (events : List FileEvent) :
    s.judge fs events = judgeAll (fun s event => s.judgeEvent fs event.path) events s := by
  have h := foldl_eq_judgeAll (s := s)
    (f := fun s (event : FileEvent) => s.judgeEvent fs event.path)
    events false
  rw [Bool.false_or] at h
  exact h

/-- What was parked is judged path by path. -/
theorem judgeParked_eq : s.judgeParked fs = judgeAll (judgeArtifact · fs ·) s.parked s := by
  have h := foldl_eq_judgeAll (s := s) (f := (judgeArtifact · fs ·)) s.parked false
  rw [Bool.false_or] at h
  exact h

/-- Judging a batch changes no more than judging may. -/
theorem judge_judges (events : List FileEvent) : Judges s (s.judge fs events).1 := by
  rw [judge_eq]
  refine judgeAll_judges (P := fun _ => True) ?_ events trivial
  intro s event _
  exact ⟨judgeEvent_judges event.path, trivial⟩

/-- Judging what was parked changes no more than judging may, once the pass has ended. -/
theorem judgeParked_judges (hIdle : s.running = none) : Judges s (s.judgeParked fs).1 := by
  rw [judgeParked_eq]
  refine judgeAll_judges (P := fun s => s.running = none) ?_ s.parked hIdle
  intro s path hIdle
  have hHead : Judges s (s.judgeArtifact fs path).1 := judgeArtifact_judges path hIdle
  exact ⟨hHead, hHead.running.trans hIdle⟩

/-- What the scheduler says to a batch; nothing if the batch calls for no pass. -/
def directive? (s : Session) (fs : FileSystem) (events : List FileEvent) : Option EventDirective :=
  match s.judge fs events with
  | (s, true) => some s.scheduler.onEvent.2
  | (_, false) => none

end Session

/-! ## One action -/

namespace World

variable {w v : World} {action : Action} {actions : List Action}

/-- Everything that can happen at one instant. -/
inductive Step (w : World) : Action → World → Prop
  | change (files : FileSystem) : Step w (.change files) { w with files }
  | send (signal : Signal) (hOpen : w.canSend = true) :
      Step w (.send signal) { w with queue := w.queue ++ [signal] }
  | close : Step w .close { w with closed := true }
  | requestStop : Step w .requestStop { w with stopRequested := true }
  | leave : Step w .leave { w with listening := false }
  /-- The session notices a request to stop. -/
  | stop (hAccepting : w.session.accepting = true) (hStop : w.stopRequested = true) :
      Step w .notice { w with session := w.session.close }
  /-- The session takes the next signal. -/
  | take (signal : Signal) (queue : List Signal) (hAccepting : w.session.accepting = true)
      (hStop : w.stopRequested = false) (hQueue : w.queue = signal :: queue) :
      Step w .notice { w with session := w.session.handle w.files signal, queue }
  /-- The session notices that no more signals come. -/
  | drain (hAccepting : w.session.accepting = true) (hStop : w.stopRequested = false)
      (hQueue : w.queue = []) (hClosed : w.closed = true) :
      Step w .notice { w with session := w.session.close }
  | move (move : PassMove) (pass moved : RunningPass) (files : FileSystem)
      (hRunning : w.session.running = some pass)
      (hMove : pass.step? w.session.scanner w.files move = some (files, moved)) :
      Step w (.move move) { w with files, session := { w.session with running := some moved } }
  | complete (pass : RunningPass) (report : PassReport)
      (hRunning : w.session.running = some pass) (hReport : pass.report? = some report)
      (hNews : w.hasNews = false) :
      Step w .complete
        ({ w with session := w.session.complete w.files pass.guard report }.deliver report)
  | resume (hCooling : w.session.cooling = true) (hNews : w.hasNews = false) :
      Step w .resume { w with session := w.session.resume }

/-- What is noticed is a request to stop, the next signal or the end of the queue, in this order. -/
theorem Step.of_notice (h : w.step? .notice = some v) : Step w .notice v := by
  simp only [step?] at h
  -- in the order in which a session looks: a stop, then the queue, then the end of all senders
  split at h
  · next hNews =>
    simp only [hasNews, Bool.and_eq_true, Bool.or_eq_true] at hNews
    obtain ⟨hAccepting, hNews⟩ := hNews
    unfold notice at h
    split at h
    · next hStop =>
      cases h
      exact .stop hAccepting hStop
    · next hStop =>
      rw [Bool.not_eq_true] at hStop
      split at h
      · next signal queue hQueue =>
        cases h
        exact .take signal queue hAccepting hStop hQueue
      · next hQueue =>
        cases h
        exact .drain hAccepting hStop hQueue (by simpa [hStop, hQueue] using hNews)
  · cases h

/-- Everything that an action can do is one of the cases. -/
theorem Step.of_step? (h : w.step? action = some v) : Step w action v := by
  cases action with
  | change files => cases h; exact .change files
  -- the functional step refuses what its guard does not allow, which leaves an empty case each time
  | send signal =>
    simp only [step?] at h
    split at h
    · next hOpen => cases h; exact .send signal hOpen
    · cases h
  | close => cases h; exact .close
  | requestStop => cases h; exact .requestStop
  | leave => cases h; exact .leave
  | notice => exact Step.of_notice h
  | move move =>
    simp only [step?, Option.bind_eq_bind, Option.bind_eq_some_iff] at h
    obtain ⟨pass, hRunning, ⟨files, moved⟩, hMove, hEq⟩ := h
    cases hEq
    exact .move move pass moved files hRunning hMove
  | complete =>
    simp only [step?, Option.bind_eq_bind, Option.bind_eq_some_iff] at h
    obtain ⟨pass, hRunning, report, hReport, h⟩ := h
    split at h
    · cases h
    · next hNews =>
      cases h
      exact .complete pass report hRunning hReport (by simpa using hNews)
  | resume =>
    simp only [step?] at h
    split at h
    · next hDue =>
      simp only [Bool.and_eq_true, Bool.not_eq_true'] at hDue
      cases h
      exact .resume hDue.1 hDue.2
    · cases h

/-- Each of the cases is what its action does. -/
theorem Step.step? (h : Step w action v) : w.step? action = some v := by
  cases h with
  | change | close | requestStop | leave => rfl
  | send signal hOpen => simp [World.step?, hOpen]
  | stop hAccepting hStop => simp [World.step?, hasNews, notice, hAccepting, hStop]
  | take signal queue hAccepting hStop hQueue =>
    simp [World.step?, hasNews, notice, hAccepting, hStop, hQueue]
  | drain hAccepting hStop hQueue hClosed =>
    simp [World.step?, hasNews, notice, hAccepting, hStop, hQueue, hClosed]
  | move move pass moved files hRunning hMove => simp [World.step?, hRunning, hMove]
  | complete pass report hRunning hReport hNews =>
    simp [World.step?, hRunning, hReport, hNews]
  | resume hCooling hNews => simp [World.step?, hCooling, hNews]

/-- The cases say exactly what an action does. -/
theorem step_iff : w.step? action = some v ↔ Step w action v :=
  ⟨Step.of_step?, Step.step?⟩

/-! ## Courses of events -/

@[simp] theorem run?_nil : w.run? [] = some w := rfl

/-- A course of events starts with a step and goes on from there. -/
theorem run?_cons_iff : w.run? (action :: actions) = some v ↔
    ∃ u, Step w action u ∧ u.run? actions = some v := by
  simp only [run?, Option.bind_eq_bind, Option.bind_eq_some_iff, step_iff]

/-- One course of events after another goes through a world in between. -/
theorem run?_append_iff {later : List Action} : w.run? (actions ++ later) = some v ↔
    ∃ u, w.run? actions = some u ∧ u.run? later = some v := by
  induction actions generalizing w with
  | nil => simp
  | cons action actions ih =>
    simp only [List.cons_append, run?_cons_iff, ih]
    constructor
    · rintro ⟨x, hStep, u, hRun, hLater⟩
      exact ⟨u, ⟨x, hStep, hRun⟩, hLater⟩
    · rintro ⟨u, ⟨x, hStep, hRun⟩, hLater⟩
      exact ⟨x, hStep, u, hRun, hLater⟩

/-- What every step keeps is kept by a course of events. -/
theorem run?_induction {P : World → Prop}
    (hStep : ∀ {w v : World} {action : Action}, Step w action v → P w → P v)
    (hRun : w.run? actions = some v) (hStart : P w) : P v := by
  induction actions generalizing w with
  | nil =>
    cases hRun
    exact hStart
  | cons action actions ih =>
    obtain ⟨u, hFirst, hRest⟩ := run?_cons_iff.mp hRun
    exact ih hRest (hStep hFirst hStart)

/-- What no step brings about was there before a course of events. -/
theorem run?_induction_back {P : World → Prop}
    (hStep : ∀ {w v : World} {action : Action}, Step w action v → P v → P w)
    (hRun : w.run? actions = some v) (hEnd : P v) : P w := by
  induction actions generalizing w with
  | nil =>
    cases hRun
    exact hEnd
  | cons action actions ih =>
    obtain ⟨u, hFirst, hRest⟩ := run?_cons_iff.mp hRun
    exact hStep hFirst (ih hRest)

/-! ## Reports along a course of events -/

/-- The report of the pass whose end an action notices. -/
def reportOf (w : World) : Action → Option PassReport
  | .complete => w.session.running.bind (·.report?)
  | _ => none

/-- The end of a pass reports what the pass reports. -/
theorem reportOf_complete {pass : RunningPass} {report : PassReport}
    (hRunning : w.session.running = some pass) (hReport : pass.report? = some report) :
    w.reportOf .complete = some report := by
  rw [reportOf, hRunning, Option.bind_some, hReport]

/-- The reports of the passes that end in a course of events, in order. -/
def passReports (w : World) : List Action → List PassReport
  | [] => []
  | action :: actions =>
    match w.step? action with
    | some v => (w.reportOf action).toList ++ v.passReports actions
    | none => []

/-- The reports along a course start with the one of its first action, if it has any. -/
theorem passReports_cons (hStep : Step w action v) :
    w.passReports (action :: actions) =
      (w.reportOf action).toList ++ v.passReports actions := by
  rw [passReports, hStep.step?]

/-- The reports along two courses are those of the first and then those of the second. -/
theorem passReports_append {later : List Action} (hRun : w.run? actions = some v) :
    w.passReports (actions ++ later) = w.passReports actions ++ v.passReports later := by
  induction actions generalizing w with
  | nil =>
    cases hRun
    rfl
  | cons action actions ih =>
    obtain ⟨u, hStep, hRest⟩ := run?_cons_iff.mp hRun
    rw [List.cons_append, passReports_cons hStep, passReports_cons hStep, ih hRest,
      List.append_assoc]

/-- Only noticing the end of a pass brings a report. -/
theorem passReports_eq_nil (hEnd : Action.complete ∉ actions) : w.passReports actions = [] := by
  induction actions generalizing w with
  | nil => rfl
  | cons action actions ih =>
    rw [List.mem_cons, not_or] at hEnd
    unfold passReports
    split
    · rw [ih hEnd.2, List.append_nil]
      cases action <;> first | rfl | exact absurd rfl hEnd.1
    · rfl

/-- A report along a course is the one of its first action or comes later. -/
theorem mem_passReports_cons {report : PassReport}
    (h : report ∈ w.passReports (action :: actions)) :
    ∃ v, Step w action v ∧ (w.reportOf action = some report ∨ report ∈ v.passReports actions) := by
  unfold passReports at h
  split at h
  · next v hStep =>
    refine ⟨v, step_iff.mp hStep, ?_⟩
    rcases List.mem_append.mp h with hFirst | hLater
    · exact Or.inl (Option.mem_toList.mp hFirst)
    · exact Or.inr hLater
  · cases h

/-! ## Notes along a course of events -/

section Along

variable {α : Type} {note : World → Action → Option α}

/-- What is noted of the actions of a course of events, in order. -/
def along (note : World → Action → Option α) (w : World) : List Action → List α
  | [] => []
  | action :: actions =>
    match w.step? action with
    | some v => (note w action).toList ++ v.along note actions
    | none => []

/-- What is noted along a course starts with what its first action gives to note. -/
theorem along_cons (hStep : Step w action v) :
    w.along note (action :: actions) = (note w action).toList ++ v.along note actions := by
  rw [along, hStep.step?]

/-- Reports are one of the things that can be noted along a course. -/
theorem passReports_eq_along : w.passReports actions = w.along reportOf actions := by
  induction actions generalizing w with
  | nil => rfl
  | cons action actions ih =>
    rw [passReports, along]
    cases w.step? action with
    | none => rfl
    | some v => exact congrArg _ ih

end Along

end World

end KeyRegistry

import KeyRegistry.Pass.Running

/-!
# Watch sessions

A session keeps the artifact of a project up to date. It starts with a pass and starts another
one whenever a file of the project changes or somebody else changes the artifact. One pass runs
at a time; what happens meanwhile leads to a single further pass, after a cooldown.

An event for the artifact that comes while a pass runs is parked: whether the pass itself caused
it can be told only when the pass has handed back its guard.

Main definitions:

* `Session` — what a session knows
* `Session.judge` — whether some events call for a pass
* `Session.handle`, `Session.close`, `Session.resume`, `Session.complete` — what a session does
-/

namespace KeyRegistry

/-!
## Scheduling of passes

One pass runs at a time. What happens while a pass runs or its rerun is owed is remembered once,
however often it happens; after the pass a single rerun follows.
-/

/-- Where the sequence of passes stands. -/
inductive Scheduler where
  | idle
  | scanning
  | pendingRerun
  deriving DecidableEq, Repr

/-- What to do after an event. -/
inductive EventDirective where
  | startPass
  | coalesced
  deriving DecidableEq, Repr

/-- What to do after a pass. -/
inductive PassDirective where
  | startAfterCooldown
  | rest
  deriving DecidableEq, Repr

namespace Scheduler

/-- Takes in an event: a pass starts if none runs, otherwise a rerun is owed. -/
def onEvent : Scheduler → Scheduler × EventDirective
  | .idle => (.scanning, .startPass)
  | .scanning | .pendingRerun => (.pendingRerun, .coalesced)

/-- Takes in the end of a pass: an owed rerun follows after a cooldown. -/
def onComplete : Scheduler → Scheduler × PassDirective
  | .pendingRerun => (.scanning, .startAfterCooldown)
  | .idle | .scanning => (.idle, .rest)

/-- Forgets an owed rerun. -/
def cancelPending : Scheduler → Scheduler
  | .pendingRerun => .scanning
  | s => s

/-- Whether a pass runs or is owed. -/
def isBusy (s : Scheduler) : Bool :=
  s ≠ .idle

end Scheduler

/-!
## Events

What an observer of the files tells: which paths were touched, in batches, or that something is
wrong with the observation itself. Nobody relies on the kind of an event, since a pass looks at
all files again.
-/

/-- What happened to a path. -/
inductive ChangeKind where
  | added
  | changed
  | removed
  deriving DecidableEq, Repr

/-- Something happened to a path. -/
structure FileEvent where
  kind : ChangeKind
  path : Path
  deriving DecidableEq

/-- A message of an observer. -/
inductive Signal where
  /-- Events that are told together. -/
  | batch (events : List FileEvent)
  /-- The observation itself is in trouble. -/
  | trouble (message : String)
  deriving DecidableEq

/-- The numbers of passes. -/
structure Summary where
  /-- All passes that ended. -/
  passes : Nat := 0
  /-- Those that wrote the artifact. -/
  writes : Nat := 0
  /-- Those that failed. -/
  failures : Nat := 0
  deriving DecidableEq, Repr

/-- Counts a pass. -/
def Summary.count (s : Summary) : PassOutcome → Summary
  | .written => { s with passes := s.passes + 1, writes := s.writes + 1 }
  | .unchanged => { s with passes := s.passes + 1 }
  | .failed _ => { s with passes := s.passes + 1, failures := s.failures + 1 }

/-- What a session knows. -/
structure Session where
  scanner : Scanner
  guard : Guard
  scheduler : Scheduler := .idle
  /-- Whether signals are still taken. -/
  accepting : Bool := true
  running : Option RunningPass := none
  /-- Whether a pass is owed that waits for the end of a cooldown. -/
  cooling : Bool := false
  /-- Artifact paths to be judged when the pass that runs has ended. -/
  parked : List Path := []
  summary : Summary := {}

namespace Session

/-! ## Judging events -/

/-- Keeps a path for later, unless it is kept already. -/
def park (s : Session) (path : Path) : Session :=
  if s.parked.any (·.same path) then s else { s with parked := s.parked ++ [path] }

/-- Judges an event for the artifact: an echo of a write is nothing new, and otherwise the last
write no longer counts. -/
def judgeArtifact (s : Session) (fs : FileSystem) (path : Path) : Session × Bool :=
  if s.guard.checkEcho fs path then (s, false)
  else ({ s with guard := s.guard.invalidate }, true)

/-- Judges one event: whether it calls for a pass. -/
def judgeEvent (s : Session) (fs : FileSystem) (path : Path) : Session × Bool :=
  if s.guard.isOutput path then
    -- the pass may be writing just now, and what it writes is not known to this guard
    if s.running.isSome then (s.park path, false) else s.judgeArtifact fs path
  else (s, s.scanner.matcher.isScannable fs path)

/-- Judges events: whether one of them calls for a pass. -/
def judge (s : Session) (fs : FileSystem) (events : List FileEvent) : Session × Bool :=
  events.foldl
    (fun (s, relevant) event =>
      let (s, own) := s.judgeEvent fs event.path
      -- each event is judged with the guard as the events before it have left it
      (s, relevant || own))
    (s, false)

/-- Judges what was parked: whether somebody else changed the artifact. -/
def judgeParked (s : Session) (fs : FileSystem) : Session × Bool :=
  s.parked.foldl
    (fun (s, external) path =>
      let (s, own) := s.judgeArtifact fs path
      (s, external || own))
    (s, false)

/-! ## What a session does -/

/-- Starts a pass, which gets the guard as it is now. -/
def startPass (s : Session) : Session :=
  { s with running := some { guard := s.guard } }

/-- Lets the scheduler decide about something that calls for a pass. -/
def demand (s : Session) : Session :=
  match s.scheduler.onEvent with
  | (scheduler, .startPass) => { s with scheduler }.startPass
  | (scheduler, .coalesced) => { s with scheduler }

/-- A session at its start: the first pass runs. -/
def begin (scanner : Scanner) : Session :=
  demand { scanner, guard := scanner.guard }

/-- Takes a signal. -/
def handle (s : Session) (fs : FileSystem) : Signal → Session
  | .batch events =>
    match s.judge fs events with
    | (s, true) => s.demand
    | (s, false) => s
  -- trouble is logged, and the session goes on
  | .trouble _ => s

/-- Takes no more signals; a pass that is owed is forgotten. -/
def close (s : Session) : Session :=
  -- a pass that runs goes on to its end
  { s with accepting := false, cooling := false, scheduler := s.scheduler.cancelPending }

/-- Starts the pass that is owed, at the end of a cooldown. -/
def resume (s : Session) : Session :=
  { s with cooling := false }.startPass

/-- Judges what was parked, unless no more passes are started anyway. -/
def recheck (s : Session) (fs : FileSystem) : Session :=
  if s.accepting then
    match s.judgeParked fs with
    -- the scheduler still takes the pass for running, so a rerun is owed
    | (s, true) => { s with scheduler := s.scheduler.onEvent.1 }
    | (s, false) => s
  else s

/-- Lets the scheduler decide whether another pass is owed. -/
def settle (s : Session) : Session :=
  match s.scheduler.onComplete with
  | (scheduler, .startAfterCooldown) => { s with scheduler, cooling := s.accepting }
  | (scheduler, .rest) => { s with scheduler }

/-- Takes back the guard of a pass that ended with a report. -/
def complete (s : Session) (fs : FileSystem) (guard : Guard) (report : PassReport) : Session :=
  let s := { s with running := none, guard, summary := s.summary.count report.outcome }
  -- the guard of the pass is back in place, so its own write is told from those of others
  { s.recheck fs with parked := [] }.settle

/-- Whether a session is over: it takes no signals and no pass runs. -/
def isOver (s : Session) : Bool :=
  !s.accepting && s.running.isNone

end Session

end KeyRegistry

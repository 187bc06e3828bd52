import KeyRegistry.Watch.Observer

/-!
# Sessions in time

A timeline plays a session with a clock. Time stands still while the session has something to
do, so a pass takes no time; it goes on only when everybody waits, up to the end of a cooldown or
up to the end of somebody's patience, whichever comes first.

Whoever watches the session acts between two waits: the session does nothing until somebody waits
for a report or for its end.

Main definitions:

* `Timeline` — a session and the time
* `Timeline.next?` — the next thing that happens up to a moment
* `Timeline.report`, `Timeline.settle`, `Timeline.finish` — waiting
-/

namespace KeyRegistry

/-- A session and the time, in milliseconds. -/
structure Timeline where
  world : World
  /-- How long a cooldown takes. -/
  cooldown : Nat := 100
  started : Bool := false
  now : Nat := 0
  /-- When the last cooldown ends. -/
  due : Nat := 0
  /-- The number of reports that were taken. -/
  taken : Nat := 0
  /-- Whether the summary was taken. -/
  summarized : Bool := false

namespace Timeline

/-! ## Acting -/

/-- Lets the surroundings act; whether that was possible. -/
def act (t : Timeline) (action : Action) : Timeline × Bool :=
  match t.world.step? action with
  | some world => ({ t with world }, true)
  | none => (t, false)

/-- Lets somebody else change the files, and lets an observer tell the session of it. -/
def touch (t : Timeline) (o : Observer) (files : FileSystem) : Timeline :=
  let before := t.world.files
  let t := (t.act (.change files)).1
  match o.signal? files (before.differences files) with
  | some signal => (t.act (.send signal)).1
  | none => t

/-- Starts the session. -/
def start (t : Timeline) : Timeline :=
  { t with started := true }

/-! ## What happens by itself -/

/-- Ends the cooldown. -/
def resume (t : Timeline) : Timeline :=
  (t.act .resume).1

/-- Lets the pass that runs make all its moves, and lets the session notice its end. A cooldown
that takes no time ends at once. -/
def finishPass (t : Timeline) (pass : RunningPass) : Timeline :=
  let w := t.world
  let (files, pass) := pass.finish w.session.scanner w.files
  let w := { w with files, session := { w.session with running := some pass } }
  let t := ({ t with world := w }.act .complete).1
  let t := { t with due := t.now + t.cooldown }
  if t.cooldown = 0 then t.resume else t

/-- The next thing that happens by itself, up to a moment. -/
def next? (t : Timeline) (limit : Nat) : Option Timeline :=
  if !t.started then none
  else if t.world.hasNews then some (t.act .notice).1
  else
    match t.world.session.running with
    | some pass => some (t.finishPass pass)
    | none =>
      if t.world.session.cooling && (t.due ≤ t.now || t.due < limit) then
        some { t with now := max t.now t.due }.resume
      else none

/-- Waits until something is the case, up to a moment, for a bound on what happens until
then. -/
def waitWithin (reached : Timeline → Bool) (limit : Nat) : Nat → Timeline → Timeline
  | 0, t => t
  | bound + 1, t =>
    if reached t then t
    else
      match t.next? limit with
      | some t => waitWithin reached limit bound t
      | none => { t with now := limit }

/-- Waits until something is the case, for a time. Between two waits each signal is noticed once,
and then at most two passes and their cooldowns follow. -/
def wait (t : Timeline) (reached : Timeline → Bool) (patience : Nat) : Timeline :=
  waitWithin reached (t.now + patience) (2 * t.world.queue.length + 16) t

/-! ## Waiting -/

/-- The first report that was not taken yet. -/
def pending? (t : Timeline) : Option PassReport :=
  t.world.reports[t.taken]?

/-- Whether the session has been played to its end. -/
def isOver (t : Timeline) : Bool :=
  t.started && t.world.session.isOver

/-- Waits for a report, for a time. Nobody gets one who no longer takes reports. -/
def report (t : Timeline) (patience : Nat) : Timeline × Option PassReport :=
  let awaited (t : Timeline) : Option PassReport :=
    if t.world.listening then t.pending? else none
  let t := t.wait (fun t => (awaited t).isSome || t.isOver) patience
  match awaited t with
  | some report => ({ t with taken := t.taken + 1 }, some report)
  | none => (t, none)

/-- Collects reports until none comes for a time, for a bound on their number. -/
def settleWithin (patience : Nat) : Nat → Timeline → Timeline × List PassReport
  | 0, t => (t, [])
  | bound + 1, t =>
    match t.report patience with
    | (t, none) => (t, [])
    | (t, some report) =>
      let (t, reports) := settleWithin patience bound t
      (t, report :: reports)

/-- Collects reports until none comes for a time. -/
def settle (t : Timeline) (patience : Nat) : Timeline × List PassReport :=
  settleWithin patience (t.world.reports.length + 2 * t.world.queue.length + 16) t

/-- What somebody who waits for the end of a session gets. -/
inductive Ending where
  /-- The session was not started, or its end was told before. -/
  | nothing
  /-- The session goes on. -/
  | running
  | ended (summary : Summary)

/-- Waits for the end of the session, for a time. The end is told once. -/
def finish (t : Timeline) (patience : Nat) : Timeline × Ending :=
  if !t.started || t.summarized then (t, .nothing)
  else
    let t := t.wait (·.isOver) patience
    if t.isOver then ({ t with summarized := true }, .ended t.world.session.summary)
    else (t, .running)

end Timeline

end KeyRegistry

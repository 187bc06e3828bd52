import KeyRegistry.Watch.Session

/-!
# A session in its surroundings

A session shares the files with everybody else, and signals reach it through a queue. Everything
that can happen is an action at one instant: the surroundings change files, queue signals and ask
for an end; the session notices things, its pass makes moves, and its cooldown ends. A course of
events is a list of actions, so every way in which they can be interleaved is such a list.

A session looks at a request to stop first, then at the queue, then at the cooldown and last at
the pass that runs. So a pass ends only when there is nothing left to notice.

Reports are handed out without waiting. This takes for granted that their channel has room for one
more whenever a pass ends: a session that has to wait for a listener who holds the channel and takes
nothing from it does nothing else meanwhile, and such a wait is no action here. The queue of signals
needs no such assumption. It has no bound here either, but a signal that waits for room is the same
as one that is queued later.

Main definitions:

* `World` — a session and its surroundings
* `World.step?` — one action
* `World.run?` — a course of events
-/

namespace KeyRegistry

/-- A session and its surroundings. -/
structure World where
  files : FileSystem
  session : Session
  /-- The signals that wait to be taken, first one first. -/
  queue : List Signal := []
  /-- Whether no more signals will come. -/
  closed : Bool := false
  stopRequested : Bool := false
  /-- Whether somebody takes the reports. -/
  listening : Bool := true
  /-- The reports that were handed out, first one first. -/
  reports : List PassReport := []

/-- What can happen at one instant. -/
inductive Action where
  /-- Somebody else leaves the files like this. -/
  | change (files : FileSystem)
  /-- A signal is queued. -/
  | send (signal : Signal)
  /-- The queue is closed. -/
  | close
  /-- The session is asked to stop. -/
  | requestStop
  /-- Nobody takes reports any more. -/
  | leave
  /-- The session notices a request to stop, the next signal or the end of the queue. -/
  | notice
  /-- The pass that runs makes a move. -/
  | move (move : PassMove)
  /-- The session notices that its pass has ended. -/
  | complete
  /-- The cooldown ends. -/
  | resume

namespace World

/-- A session at its start. -/
def begin (scanner : Scanner) (files : FileSystem) : World where
  files := files
  session := Session.begin scanner

/-- Whether the session has something to notice before its cooldown and its pass. -/
def hasNews (w : World) : Bool :=
  w.session.accepting && (w.stopRequested || !w.queue.isEmpty || w.closed)

/-- Notices what comes first. -/
def notice (w : World) : World :=
  if w.stopRequested then { w with session := w.session.close }
  else
    match w.queue with
    | signal :: queue => { w with session := w.session.handle w.files signal, queue }
    -- there is news but no signal: nothing more will come
    | [] => { w with session := w.session.close }

/-- Hands out a report; the channel is taken to have room for it. -/
def deliver (w : World) (report : PassReport) : World :=
  if w.listening then { w with reports := w.reports ++ [report] } else w

/-- Whether a signal can be queued: the queue is open and the session is not over. -/
def canSend (w : World) : Bool :=
  !w.closed && !w.session.isOver

/-- One action, if it can happen now. -/
def step? (w : World) : Action → Option World
  | .change files => some { w with files }
  | .send signal => if w.canSend then some { w with queue := w.queue ++ [signal] } else none
  | .close => some { w with closed := true }
  | .requestStop => some { w with stopRequested := true }
  | .leave => some { w with listening := false }
  | .notice => if w.hasNews then some w.notice else none
  | .move move => do
    let pass ← w.session.running
    let (files, pass) ← pass.step? w.session.scanner w.files move
    some { w with files, session := { w.session with running := some pass } }
  | .complete => do
    let pass ← w.session.running
    let report ← pass.report?
    -- news are noticed before the end of a pass
    if w.hasNews then none
    else
      let session := w.session.complete w.files pass.guard report
      some ({ w with session }.deliver report)
  | .resume =>
    if w.session.cooling && !w.hasNews then some { w with session := w.session.resume } else none

/-- A course of events. -/
def run? (w : World) : List Action → Option World
  | [] => some w
  | action :: actions => do (← w.step? action).run? actions

end World

end KeyRegistry

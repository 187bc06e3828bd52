import KeyRegistry.Watch.World

/-!
# Observing files

An observer watches a directory and everything below it. It passes on only what concerns the
project, and it tells whether a path is still there by looking at the files, not by remembering
what happened.

Main definitions:

* `Scanner.concerning` — the events that concern a project
* `Observer` — an observer of a directory for a project
* `Observer.sees`, `Observer.events` — what it sees of touched paths, and what it tells
* `World.watching` — a session with an observer of its project
-/

namespace KeyRegistry

/-!
## Errors of a watch

Everything that keeps a watch from starting. A watch that runs reports what happens instead of
ending.
-/

/-- Why a watch does not start. -/
inductive WatchError where
  | pathNotFound (path : Path)
  | channelClosed
  | file (cause : FileError)
  | scan (cause : ScanError)

namespace WatchError

/-- The words for an error. -/
def message : WatchError → String
  | .pathNotFound path => "path does not exist: " ++ path.text
  | .channelClosed => "watcher thread stopped unexpectedly"
  | .file cause => "I/O error: " ++ cause.message
  | .scan cause => cause.message

/-- Whether the watch could go on; an error at the start never allows that. -/
def isRecoverable (_ : WatchError) : Bool :=
  false

/-- The path that an error is about. -/
def path? : WatchError → Option Path
  | .pathNotFound path => some path
  | .scan cause => cause.path?
  | .channelClosed | .file _ => none

/-- The error and what lies behind it, outermost first. -/
def causes (e : WatchError) : List String :=
  match e with
  | .file cause => [e.message, cause.message]
  | .scan cause => cause.causes
  | _ => [e.message]

end WatchError

/-- The paths at which two states of the files differ. -/
def FileSystem.differences (before after : FileSystem) : List Path :=
  let places := (after.entries ++ before.entries).map (·.1)
  (places.eraseDups.filter fun place => decide (before.at? place ≠ after.at? place)).filterMap
    Place.path?

/-- Of some events, those that concern the project. -/
def Scanner.concerning (s : Scanner) (fs : FileSystem) (events : List FileEvent) :
    List FileEvent :=
  events.filter fun event => s.concerns fs event.path

/-- The signal for some events: none if there is nothing to tell. -/
def Signal.ofEvents? : List FileEvent → Option Signal
  | [] => none
  | event :: events => some (.batch (event :: events))

/-- An observer of a directory for a project. -/
structure Observer where
  scanner : Scanner
  /-- The canonical path of the directory. -/
  directory : Path

namespace Observer

/-- Starts to observe a directory, which has to be there. -/
def new (scanner : Scanner) (fs : FileSystem) (directory : Path) : Except WatchError Observer :=
  if fs.contains directory then
    match fs.locate directory with
    | .ok place =>
      match Place.path? place with
      | some directory => .ok ⟨scanner, directory⟩
      | none => .error (.file (.other "path is not valid UTF-8"))
    | .error cause => .error (.file cause)
  else .error (.pathNotFound directory)

/-- Whether a path lies in the directory of an observer. -/
def covers (o : Observer) (path : Path) : Bool :=
  (path.relativeTo? o.directory).isSome

/-- What an observer sees at a path that was touched. -/
def event (fs : FileSystem) (path : Path) : FileEvent :=
  ⟨if fs.contains path then .changed else .removed, path⟩

/-- What an observer sees of paths that were touched. -/
def sees (o : Observer) (fs : FileSystem) (paths : List Path) : List FileEvent :=
  (paths.filter o.covers).map (event fs)

/-- What an observer tells about paths that were touched. -/
def events (o : Observer) (fs : FileSystem) (paths : List Path) : List FileEvent :=
  o.scanner.concerning fs (o.sees fs paths)

/-- What an observer sends after paths were touched: nothing if there is nothing to tell. -/
def signal? (o : Observer) (fs : FileSystem) (paths : List Path) : Option Signal :=
  Signal.ofEvents? (o.events fs paths)

end Observer

/-- A session for a resolved configuration, and the observer of its root. -/
def World.watching (fs : FileSystem) (config : Resolved) :
    Except WatchError (World × Observer) := do
  let scanner ← (Scanner.new fs config).mapError WatchError.scan
  let observer ← Observer.new scanner fs config.root
  return (World.begin scanner fs, observer)

end KeyRegistry

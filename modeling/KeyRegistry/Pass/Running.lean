import KeyRegistry.Pass

/-!
# Running passes

A pass takes time, and the files may change while it runs. Here a pass is taken apart into moves
that happen at one instant each: it walks over the project, reads the files one by one in any
order, takes them apart in any order, and commits the document in the end. A pass that runs has
a guard of its own, which it hands back.

Main definitions:

* `RunningPass` — a pass that runs, and how far it is
* `RunningPass.step?` — makes one move
* `RunningPass.finish` — makes all moves that are left, files in order
-/

namespace KeyRegistry

/-- What a pass has gathered so far, and what it has yet to do. -/
structure Progress where
  /-- The files that are not read yet. -/
  unread : List Path
  /-- The files that were read and not yet taken apart. -/
  unparsed : List Source := []
  patterns : PatternSet := PatternSet.empty
  filesRead : Nat := 0
  errors : List ScanError := []

namespace Progress

/-- Reads one file. -/
def read (p : Progress) (fs : FileSystem) (path : Path) : Progress :=
  match Source.read fs path with
  | .ok source =>
    { p with
      unread := p.unread.erase path
      unparsed := source :: p.unparsed
      filesRead := p.filesRead + 1 }
  | .error e => { p with unread := p.unread.erase path, errors := e :: p.errors }

/-- Takes one file apart. -/
def parse (p : Progress) (markers : List String) (source : Source) : Progress :=
  { p with
    unparsed := p.unparsed.erase source
    patterns := p.patterns.insertAll (source.patterns markers) }

/-- What was found, once nothing is left to do. -/
def toScan (p : Progress) : Scan :=
  ⟨p.patterns, p.filesRead, p.errors⟩

/-- Reads all files that are left, in order. -/
def readAll (p : Progress) (fs : FileSystem) : Progress :=
  p.unread.foldl (fun p path => p.read fs path) p

/-- Takes apart all files that are left, in order. -/
def parseAll (p : Progress) (markers : List String) : Progress :=
  p.unparsed.foldl (fun p source => p.parse markers source) p

end Progress

/-- How far a pass is. -/
inductive PassStage where
  | starting
  | scanning (progress : Progress)
  | ended (report : PassReport)

/-- What a pass does at one instant. -/
inductive PassMove where
  | walk
  | read (path : Path)
  | parse (source : Source)
  | commit
  deriving DecidableEq

/-- A pass that runs, with its own guard. -/
structure RunningPass where
  guard : Guard
  stage : PassStage := .starting

namespace RunningPass

/-- Ends a pass. -/
def commit (pass : RunningPass) (s : Scanner) (progress : Progress) (fs : FileSystem) :
    FileSystem × RunningPass :=
  let (fs, guard, report) := progress.toScan.conclude s.config.moduleName pass.guard fs
  (fs, ⟨guard, .ended report⟩)

/-- Makes one move, if it can be made now. -/
def step? (pass : RunningPass) (s : Scanner) (fs : FileSystem) :
    PassMove → Option (FileSystem × RunningPass)
  | .walk =>
    match pass.stage with
    | .starting => some (fs, { pass with stage := .scanning { unread := s.candidates fs } })
    | _ => none
  | .read path =>
    match pass.stage with
    | .scanning progress =>
      if path ∈ progress.unread then
        some (fs, { pass with stage := .scanning (progress.read fs path) })
      else none
    | _ => none
  | .parse source =>
    match pass.stage with
    | .scanning progress =>
      -- all files are read before the first one is taken apart
      if progress.unread = [] ∧ source ∈ progress.unparsed then
        some (fs, { pass with stage := .scanning (progress.parse s.config.markers source) })
      else none
    | _ => none
  | .commit =>
    match pass.stage with
    | .scanning progress =>
      if progress.unread = [] ∧ progress.unparsed = [] then some (pass.commit s progress fs)
      else none
    | _ => none

/-- Makes all moves that are left, files in order, while nobody else changes anything. -/
def finish (pass : RunningPass) (s : Scanner) (fs : FileSystem) : FileSystem × RunningPass :=
  match pass.stage with
  | .starting => conclude { unread := s.candidates fs }
  | .scanning progress => conclude progress
  | .ended _ => (fs, pass)
where
  conclude (progress : Progress) : FileSystem × RunningPass :=
    pass.commit s ((progress.readAll fs).parseAll s.config.markers) fs

/-- The report of a pass that has ended. -/
def report? (pass : RunningPass) : Option PassReport :=
  match pass.stage with
  | .ended report => some report
  | _ => none

end RunningPass

end KeyRegistry

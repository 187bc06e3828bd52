import KeyRegistry.Guard
import KeyRegistry.Scan

/-!
# Passes

A pass brings the artifact up to date: it scans the project, closes the patterns under their
parents, renders the document and lets the guard decide whether it is written. A pass never
fails as a whole; what goes wrong with the artifact is its outcome.

Main definitions:

* `PassReport` — how a pass ended and what it found
* `Scanner.pass` — a pass with a guard
* `Scanner.generate` — a single pass that starts from what is on disk
-/

namespace KeyRegistry

/-- How a pass ended. -/
inductive PassOutcome where
  /-- The artifact was written. -/
  | written
  /-- The document was the last one written already. -/
  | unchanged
  /-- The artifact could not be written. -/
  | failed (reason : String)
  deriving DecidableEq

namespace PassOutcome

/-- The words for an outcome. -/
def message : PassOutcome → String
  | .written => "written"
  | .unchanged => "unchanged"
  | .failed reason => "failed: " ++ reason

/-- Whether a pass failed. -/
def isFailure : PassOutcome → Bool
  | .failed _ => true
  | _ => false

/-- The outcome of a pass by the result of its commit. -/
def ofCommit : Except WriteError Guard.Outcome → PassOutcome
  | .ok .written => .written
  | .ok .skipped => .unchanged
  | .error e => .failed e.message

end PassOutcome

/-- How a pass ended and what it found. -/
structure PassReport where
  outcome : PassOutcome
  /-- The number of patterns in the document, parents included. -/
  patternCount : Nat
  filesRead : Nat
  fileErrors : Nat
  /-- The fingerprint of the document. -/
  fingerprint : Fingerprint
  deriving DecidableEq

/-- Whether a pass wrote the artifact. -/
def PassReport.changedArtifact (r : PassReport) : Bool :=
  r.outcome == .written

/-- The document for what a scan found. -/
def Scan.rendering (scan : Scan) (moduleName : String) : Rendering :=
  Rendering.of scan.patterns.expand moduleName

/-- Ends a pass with what its scan found. -/
def Scan.conclude (scan : Scan) (moduleName : String) (guard : Guard) (fs : FileSystem) :
    FileSystem × Guard × PassReport :=
  let rendering := scan.rendering moduleName
  let (fs, guard, result) := guard.commit fs rendering
  (fs, guard, {
    outcome := PassOutcome.ofCommit result
    patternCount := rendering.count
    filesRead := scan.filesRead
    fileErrors := scan.errors.length
    fingerprint := rendering.fingerprint })

namespace Scanner

/-- The guard of the artifact of a project, before anything is written. -/
def guard (s : Scanner) : Guard :=
  Guard.new s.config.root s.config.output

/-- Brings the artifact up to date. -/
def pass (s : Scanner) (guard : Guard) (fs : FileSystem) : FileSystem × Guard × PassReport :=
  (s.scan fs).conclude s.config.moduleName guard fs

/-- Brings the artifact up to date once; an artifact that is up to date is left alone. -/
def generate (s : Scanner) (fs : FileSystem) : FileSystem × PassReport :=
  -- the guard serves this pass alone
  let (fs, _, report) := s.pass (s.guard.seed fs) fs
  (fs, report)

end Scanner

end KeyRegistry

import KeyRegistry.Pattern.Set
import KeyRegistry.Scan.Walk
import KeyRegistry.Script.Marker

/-!
# Scans

A scan takes stock of a whole project: it chooses the files, reads them and collects the patterns
of their marker calls. It keeps nothing from one time to the next, so what it finds depends on
the files alone.

Main definitions:

* `Scanner` — a configuration with its globs read
* `Scanner.scan` — the patterns of a project and the files that could not be read
-/

namespace KeyRegistry

/-!
## Errors of a scan

A file that cannot be read or taken apart concerns only itself; the scan goes on without it. A
wrong configuration ends the scan before it starts.
-/

/-- What can go wrong in a scan. -/
inductive ScanError where
  | unreadable (path : Path) (cause : FileError)
  | unparsable (path : Path) (cause : ScriptError)
  | config (cause : ConfigError)

namespace ScanError

/-- The words for an error. -/
def message : ScanError → String
  | .unreadable path cause => "failed to read file " ++ path.text ++ ": " ++ cause.message
  | .unparsable path cause => "failed to parse file " ++ path.text ++ ": " ++ cause.message
  | .config cause => cause.message

/-- Whether the scan goes on without the file. -/
def isRecoverable : ScanError → Bool
  | .unreadable _ _ | .unparsable _ _ => true
  | .config _ => false

/-- The path that an error is about. -/
def path? : ScanError → Option Path
  | .unreadable path _ | .unparsable path _ => some path
  | .config cause => cause.path?

/-- The error and what lies behind it, outermost first. -/
def causes (e : ScanError) : List String :=
  match e with
  | .unreadable _ cause => [e.message, cause.message]
  | .unparsable _ cause => [e.message, cause.message]
  | .config cause => cause.causes

end ScanError

/-!
## Sources

The files of a scan are read independently of each other; one that cannot be read is reported and
left out. Bytes that are no UTF-8 do not keep a file from being read.
-/

/-- A file in memory. -/
structure Source where
  path : Path
  content : String
  deriving DecidableEq

/-- Reads one file. -/
def Source.read (fs : FileSystem) (path : Path) : Except ScanError Source :=
  match fs.read path with
  | .ok bytes => .ok ⟨path, Text.decodeLossy bytes⟩
  | .error cause => .error (.unreadable path cause)

/-- Reads files, in the order of their paths. -/
def Source.readAll (fs : FileSystem) (paths : List Path) : List Source × List ScanError :=
  let results := paths.map (Source.read fs)
  (results.filterMap Except.toOption, results.filterMap fun
    | .ok _ => none
    | .error e => some e)

/-- The patterns of the marker calls of a file, as often as they are written. -/
def Source.patterns (source : Source) (markers : List String) : List Pattern :=
  (Script.Extraction.of (Script.Dialect.ofPath source.path) source.content markers).calls.map
    (·.pattern)

/-- A configuration with its globs and its ignore file read. -/
structure Scanner where
  config : Resolved
  matcher : Matcher

/-- What a scan found. -/
structure Scan where
  /-- The patterns of all files that could be read. -/
  patterns : PatternSet
  /-- The number of files that were read. -/
  filesRead : Nat
  /-- What went wrong with the other files. -/
  errors : List ScanError

namespace Scanner

/-- Reads the globs of a configuration. -/
def new (fs : FileSystem) (config : Resolved) : Except ScanError Scanner :=
  match Matcher.new fs config with
  | .ok matcher => .ok ⟨config, matcher⟩
  | .error cause => .error (.config cause)

/-- The files that belong to the project now, in the order of their paths. -/
def candidates (s : Scanner) (fs : FileSystem) : List Path :=
  s.matcher.candidates fs

/-- Whether an event for a path says something about the project: the path is the artifact or
a file that a scan would read. -/
def concerns (s : Scanner) (fs : FileSystem) (path : Path) : Bool :=
  s.matcher.isOutput path || s.matcher.isScannable fs path

/-- The patterns of some files. -/
def patternsOf (s : Scanner) (sources : List Source) : PatternSet :=
  PatternSet.ofList (sources.flatMap fun source => source.patterns s.config.markers)

/-- Takes stock of the project. -/
def scan (s : Scanner) (fs : FileSystem) : Scan :=
  let (sources, errors) := Source.readAll fs (s.candidates fs)
  ⟨s.patternsOf sources, sources.length, errors⟩

end Scanner

end KeyRegistry

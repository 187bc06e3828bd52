import KeyRegistry.Config.Resolved
import KeyRegistry.Ignore

/-!
# Choosing files

Which paths belong to a scan. A candidate lies under the root, matches an include glob and no
exclude glob, is not ignored by the configured ignore file and is not the artifact. A scannable
path is also one that a walk would reach: nothing on the way to it is hidden or ignored by the
rules of a directory.

Main definitions:

* `Matcher.new` — reads the globs and the ignore file of a configuration
* `Matcher.isCandidate`, `Matcher.isScannable`, `Matcher.isExcludedDirectory`
-/

namespace KeyRegistry

/-- Globs and ignore rules, ready for use. -/
structure Matcher where
  root : Path
  output : Path
  includes : List Glob
  excludes : List Glob
  excludedDirectories : List Glob
  /-- The rules of the configured ignore file and the directory they are counted from. -/
  ignoreFile : Option (Path × Ignore.Rules)
  respectIgnores : Bool

/-- The names of the ignore files of a directory, those with more weight last. -/
def localIgnoreFiles : List String := [".gitignore", ".ignore"]

namespace Matcher

/-- Reads globs; the first one that is none is the answer to blame. -/
def readGlobs : List String → Except ConfigError (List Glob)
  | [] => .ok []
  | text :: texts =>
    match Glob.read false text with
    | .error fault => .error (.invalidGlob text fault.message)
    | .ok glob => (readGlobs texts).map (glob :: ·)

/-- The directory that an exclude glob covers entirely, as a glob. -/
def directoryGlob? (glob : String) : Option String :=
  let text := glob.toList
  -- with nothing in front of it, the ending covers no directory in particular
  if Ignore.endsWith ['/', '*', '*'] text ∧ 3 < text.length then
    some (String.ofList (text.take (text.length - 3)))
  else none

/-- Reads the configured ignore file. Its rules are counted from its own directory. -/
def loadIgnoreFile (fs : FileSystem) (path : Path) : Path × Ignore.Rules :=
  (path.parent?.getD path, Ignore.Rules.load fs path)

/-- Reads the globs and the ignore file of a configuration. -/
def new (fs : FileSystem) (r : Resolved) : Except ConfigError Matcher := do
  let includes ← readGlobs r.includes
  let excludes ← readGlobs r.excludes
  let excludedDirectories ← readGlobs (r.excludes.filterMap directoryGlob?)
  return {
    root := r.root
    output := r.output
    includes
    excludes
    excludedDirectories
    ignoreFile := r.ignoreFile.map (loadIgnoreFile fs)
    respectIgnores := r.respectIgnores }

/-- A path seen from the root, if it lies under it. A relative path is seen from the root
already. -/
def relative? (m : Matcher) (path : Path) : Option Path :=
  if path.isAbsolute then path.relativeTo? m.root else some path

/-- Whether a path is the artifact. -/
def isOutput (m : Matcher) (path : Path) : Bool :=
  -- compared step by step, since a path can be spelled in more than one way
  (Path.absolutize m.root path).toPath.same m.output

/-- Whether the configured ignore file ignores a path. -/
def ignoredByFile (m : Matcher) (path : Path) (isDirectory : Bool) : Bool :=
  match m.ignoreFile with
  | none => false
  | some (directory, rules) => rules.verdictUnder? directory path isDirectory == some .ignored

/-- Whether some glob of a list matches a path. -/
def matchesSome (globs : List Glob) (path : Path) : Bool :=
  globs.any fun glob => glob.matchesPath path.text

/-- Whether a path seen from the root is chosen by the globs and the configured ignore file. -/
def selects (m : Matcher) (relative : Path) : Bool :=
  matchesSome m.includes relative && !matchesSome m.excludes relative &&
    !m.ignoredByFile (m.root.join relative) false

/-- Whether a path belongs to the scan, as far as its name goes. -/
def isCandidate (m : Matcher) (path : Path) : Bool :=
  !m.isOutput path && (m.relative? path).any m.selects

/-- Whether a step of a path is hidden: its name starts with a dot. -/
def isHidden (relative : Path) : Bool :=
  relative.names.any fun name => name.toList.head? == some '.'

/-- The rules of a directory for what lies below it, one file after the other. -/
def localRules (fs : FileSystem) (directory : Path) : Ignore.Rules :=
  (localIgnoreFiles.map fun name => directory.join ⟨name⟩).flatMap fun path =>
    -- a directory of that name is passed over, and so is a file that is not there
    if fs.isFile path then Ignore.Rules.load fs path else []

/-- What the nearest directory with an opinion says about a path, of some directories given
nearest first; the root is the last one that is asked. -/
def localVerdict? (m : Matcher) (fs : FileSystem) (path : Path) :
    List Path → Option Ignore.Verdict
  | [] => none
  | directory :: above =>
    match (localRules fs directory).verdictUnder? directory path false with
    | some verdict => some verdict
    -- what lies above the root has no say
    | none => if directory.same m.root then none else localVerdict? m fs path above

/-- Whether the ignore files of directories ignore a path seen from the root. -/
def ignoredByLocalFiles (m : Matcher) (fs : FileSystem) (relative : Path) : Bool :=
  let path := m.root.join relative
  m.localVerdict? fs path path.lineage.tail == some .ignored

/-- Whether a path belongs to the scan and a walk would reach it. -/
def isScannable (m : Matcher) (fs : FileSystem) (path : Path) : Bool :=
  m.isCandidate path &&
    (!m.respectIgnores ||
      (m.relative? path).any fun relative =>
        !isHidden relative && !m.ignoredByLocalFiles fs relative)

/-- Whether a walk leaves out a directory. -/
def isExcludedDirectory (m : Matcher) (path : Path) : Bool :=
  (m.relative? path).any fun relative =>
    -- the root itself is entered in any case
    !relative.text.isEmpty &&
      (matchesSome m.excludedDirectories relative ||
        m.ignoredByFile (m.root.join relative) true)

end Matcher

end KeyRegistry

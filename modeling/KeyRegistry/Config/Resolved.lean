import KeyRegistry.Config

/-!
# Resolved configurations

Resolving checks a configuration against the file system and makes its paths absolute: the root
is the canonical path of a directory, the marker names are identifiers without repetition and
start with the one that always counts, and the standard excludes are among the excludes.

Main definitions:

* `Resolved` — a checked configuration
* `Config.resolve` — checks a configuration; the first fault found is the answer
-/

namespace KeyRegistry

/-- A checked configuration whose paths are absolute. -/
structure Resolved where
  root : Path
  includes : List String
  excludes : List String
  markers : List String
  output : Path
  moduleName : String
  ignoreFile : Option Path
  respectIgnores : Bool
  verbose : Bool
  watch : WatchConfig
  deriving DecidableEq

namespace Resolved

/-- A path seen from the root, without detours. -/
def absolutize (r : Resolved) (path : Path) : Path :=
  (Path.absolutize r.root path).toPath

/-- The output seen from the root, if it lies below it. -/
def outputRelative? (r : Resolved) : Option Path :=
  r.output.relativeTo? r.root

/-- The configuration that says what was resolved. -/
def toConfig (r : Resolved) : Config where
  scan := {
    root := r.root
    includes := r.includes
    excludes := r.excludes
    markers := r.markers
    output := r.output
    moduleName := r.moduleName
    ignoreFile := r.ignoreFile
    respectIgnores := r.respectIgnores
    verbose := r.verbose }
  watch := r.watch

end Resolved

/-- Appends what is not listed yet. -/
def appendMissing (texts : List String) (more : List String) : List String :=
  more.foldl (fun texts text => if texts.contains text then texts else texts ++ [text]) texts

/-- Checks names and drops repetitions; the first name that is no identifier is the answer to
blame. -/
def markerNames : List String → List String → Except ConfigError (List String)
  | names, [] => .ok names
  | names, name :: rest =>
    if Text.isIdentifier name then markerNames (appendMissing names [name]) rest
    else .error (.invalidOption "function_names" ("'" ++ name ++ "' is not a valid identifier"))

/-- The canonical path of the root. -/
def ScanConfig.canonicalRoot (fs : FileSystem) (c : ScanConfig) : Except ConfigError Path :=
  if fs.isDirectory c.root then
    match fs.canonicalize c.root with
    | .error cause => .error (.unreadable c.root cause)
    | .ok place =>
      match Place.path? place with
      | some path => .ok path
      | none => .error (.invalidPath (Place.shown place) "path is not valid UTF-8")
  else .error (.missingDirectory c.root)

/-- Checks a configuration and makes its paths absolute. -/
def Config.resolve (fs : FileSystem) (c : Config) : Except ConfigError Resolved := do
  let root ← c.scan.canonicalRoot fs
  if c.scan.includes.isEmpty then
    throw (.invalidOption "include" "at least one glob is required")
  if Text.isBlankText c.scan.moduleName then
    throw (.invalidOption "module_name" "must not be empty")
  let markers ← markerNames [] (defaultMarker :: c.scan.markers)
  let output := (Path.absolutize root c.scan.output).toPath
  if fs.isDirectory output then
    throw (.invalidPath output "output path is a directory")
  return {
    root
    includes := c.scan.includes
    excludes := appendMissing c.scan.excludes standardExcludes
    markers
    output
    moduleName := c.scan.moduleName
    ignoreFile := c.scan.ignoreFile.map fun path => (Path.absolutize root path).toPath
    respectIgnores := c.scan.respectIgnores
    verbose := c.scan.verbose
    watch := c.watch }

end KeyRegistry

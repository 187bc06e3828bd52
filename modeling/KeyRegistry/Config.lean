import KeyRegistry.FileSystem
import KeyRegistry.Json.Reader
import KeyRegistry.Text.Letters

/-!
# Configurations

What to scan, where the declarations go and how to watch. Every setting has a default; a
configuration says nothing about the file system until it is resolved.

Main definitions:

* `Config` — the settings of a scan and of a watch
* `Config.isDefault` — whether every setting has its default
-/

namespace KeyRegistry

/-- Settings of a scan. -/
structure ScanConfig where
  /-- The project directory. -/
  root : Path := ⟨"."⟩
  /-- Globs of the files to scan. -/
  includes : List String := ["**/*.\x7bts,tsx,js,jsx\x7d"]
  /-- Globs of the files to leave out. -/
  excludes : List String := []
  /-- Names of the functions whose calls register keys. -/
  markers : List String := ["qk"]
  /-- Where the declarations go. -/
  output : Path := ⟨".generated/query-keys.d.ts"⟩
  /-- The module that the declarations extend. -/
  moduleName : String := "typesafe-query-keys"
  /-- A further file of ignore rules. -/
  ignoreFile : Option Path := none
  /-- Whether hidden files and the ignore rules of directories count. -/
  respectIgnores : Bool := true
  /-- Whether to log in detail. -/
  verbose : Bool := false
  deriving DecidableEq

/-- Settings of a watch. -/
structure WatchConfig where
  /-- Events this many milliseconds apart are handed on together. -/
  debounce : UInt64 := 100
  deriving DecidableEq

/-- All settings. -/
structure Config where
  scan : ScanConfig := {}
  watch : WatchConfig := {}
  deriving DecidableEq

/-- The function name that always registers keys. -/
def defaultMarker : String := "qk"

/-- Globs that are left out of every scan. -/
def standardExcludes : List String := ["**/node_modules/**", "**/vite.config.*"]

/-- The names of configuration files, in the order in which they are looked for. -/
def configFileNames : List String := ["querykeys.json", ".querykeysrc.json"]

/-- Whether two settings agree, paths being compared by their components. -/
def ScanConfig.agrees (a b : ScanConfig) : Bool :=
  a.root.same b.root && a.includes == b.includes && a.excludes == b.excludes &&
    a.markers == b.markers && a.output.same b.output && a.moduleName == b.moduleName &&
    (match a.ignoreFile, b.ignoreFile with
      | none, none => true
      | some p, some q => p.same q
      | _, _ => false) &&
    a.respectIgnores == b.respectIgnores && a.verbose == b.verbose

/-- Whether every setting has its default. -/
def Config.isDefault (c : Config) : Bool :=
  c.scan.agrees {} && c.watch == {}

/-!
## Errors of configurations

What can be wrong with a configuration or with the file that holds it. Every such error ends the
work before it starts.
-/

/-- What is wrong with a configuration. -/
inductive ConfigError where
  | invalidPath (path : Path) (reason : String)
  | missingDirectory (path : Path)
  | invalidOption (option reason : String)
  | invalidGlob (glob reason : String)
  | unreadable (path : Path) (cause : FileError)
  | malformed (path : Path) (cause : Json.Failure)

namespace ConfigError

/-- The words for an error. -/
def message : ConfigError → String
  | .invalidPath path reason => "invalid path '" ++ path.text ++ "': " ++ reason
  | .missingDirectory path => "missing required directory: " ++ path.text
  | .invalidOption option reason =>
    "invalid configuration option '" ++ option ++ "': " ++ reason
  | .invalidGlob glob reason => "invalid glob pattern '" ++ glob ++ "': " ++ reason
  | .unreadable path cause =>
    "failed to read configuration " ++ path.text ++ ": " ++ cause.message
  | .malformed path cause =>
    "failed to parse configuration " ++ path.text ++ ": " ++ cause.message

/-- The path that an error is about. -/
def path? : ConfigError → Option Path
  | .invalidPath path _ | .missingDirectory path | .unreadable path _ | .malformed path _ =>
    some path
  | .invalidOption _ _ | .invalidGlob _ _ => none

/-- The error and what lies behind it, outermost first. -/
def causes (e : ConfigError) : List String :=
  match e with
  | .unreadable _ cause => [e.message, cause.message]
  | .malformed _ cause => [e.message, cause.message]
  | _ => [e.message]

end ConfigError

end KeyRegistry

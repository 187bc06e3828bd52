import KeyRegistry.CommandLine
import KeyRegistry.Config.Format
import KeyRegistry.Watch.Observer

/-!
# Executing a command line

The configuration of an invocation is the file it names, or else the one found in the root, or
else the defaults, with the settings of the command line on top: includes replace those of the
file, excludes and marker names are added to them.

Main definitions:

* `Invocation.loadConfig` — the configuration of an invocation
* `Invocation.generate`, `Invocation.watch` — what the verbs do
-/

namespace KeyRegistry

/-- Why an invocation fails. -/
inductive InvocationError where
  | config (cause : ConfigError)
  | scan (cause : ScanError)
  | watch (cause : WatchError)
  | generation (reason : String)

/-- The error and what lies behind it, outermost first. -/
def InvocationError.causes : InvocationError → List String
  | .config cause => cause.causes
  | .scan cause => cause.causes
  | .watch cause => cause.causes
  | .generation reason => ["Generation failed: " ++ reason]

namespace Invocation

/-- The configuration file of an invocation, before the settings of the command line. -/
def baseConfig (i : Invocation) (fs : FileSystem) : Except ConfigError Config :=
  match i.config with
  | some path => do
    let config ← Config.read fs path
    return match path.parent? with
      | some directory => config.withRootIn directory
      | none => config
  | none => do
    match ← Config.discover fs (i.root.getD ⟨"."⟩) with
    | some (_, config) => return config
    | none => return {}

/-- Puts the settings of the command line on top of a configuration. -/
def override (i : Invocation) (c : Config) : Config where
  scan := { c.scan with
    root := i.root.getD c.scan.root
    includes := preferred c.scan.includes i.includes
    excludes := c.scan.excludes ++ i.excludes
    markers := c.scan.markers ++ i.markers
    output := i.output.getD c.scan.output
    verbose := c.scan.verbose || i.verbose }
  watch := { c.watch with debounce := i.debounce.getD c.watch.debounce }

/-- The configuration of an invocation. -/
def loadConfig (i : Invocation) (fs : FileSystem) : Except ConfigError Config := do
  return i.override (← i.baseConfig fs)

/-- The checked configuration of an invocation. -/
def resolve (i : Invocation) (fs : FileSystem) : Except InvocationError Resolved :=
  ((i.loadConfig fs).bind fun config => config.resolve fs).mapError InvocationError.config

/-- Brings the artifact up to date once. -/
def generate (i : Invocation) (fs : FileSystem) : FileSystem × Except InvocationError Unit :=
  match i.resolve fs with
  | .error e => (fs, .error e)
  | .ok config =>
    match Scanner.new fs config with
    | .error cause => (fs, .error (.scan cause))
    | .ok scanner =>
      match scanner.generate fs with
      | (fs, report) =>
        match report.outcome with
        | .failed reason => (fs, .error (.generation reason))
        | _ => (fs, .ok ())

/-- A session that keeps the artifact up to date, and what observes the files for it. -/
def watch (i : Invocation) (fs : FileSystem) :
    Except InvocationError (World × Observer) := do
  (World.watching fs (← i.resolve fs)).mapError InvocationError.watch

end Invocation

end KeyRegistry

import KeyRegistry.Config
import KeyRegistry.Json.Decode
import KeyRegistry.Text.Shown

/-!
# Configuration files

A configuration file is a JSON object with the objects `scan` and `watch`. Every field may be
left out and then has its default. Written out, a configuration shows all fields in a fixed
order and without white space.

Main definitions:

* `Config.ofText?` — reads a configuration file
* `Config.toText` — writes one
-/

namespace KeyRegistry

open Json

namespace Config.Format

/-! ## Reading -/

/-- A path. -/
def readPath : Reader Path := do
  return ⟨← Reader.text "a UTF-8 path string"⟩

/-- A text. -/
def readText : Reader String :=
  Reader.text "a string"

/-- A list of texts. -/
def readTexts : Reader (List String) :=
  Reader.list readText

end Config.Format

open Config.Format

/-- The fields of the scan settings. -/
def ScanConfig.fields : List (Json.Field ScanConfig) := [
  ⟨"root", fun c => do return { c with root := ← readPath }⟩,
  ⟨"include", fun c => do return { c with includes := ← readTexts }⟩,
  ⟨"exclude", fun c => do return { c with excludes := ← readTexts }⟩,
  ⟨"function_names", fun c => do return { c with markers := ← readTexts }⟩,
  ⟨"output_path", fun c => do return { c with output := ← readPath }⟩,
  ⟨"module_name", fun c => do return { c with moduleName := ← readText }⟩,
  ⟨"ignore_file", fun c => do return { c with ignoreFile := ← Reader.optional readPath }⟩,
  ⟨"respect_gitignore", fun c => do return { c with respectIgnores := ← Reader.boolean }⟩,
  ⟨"verbose", fun c => do return { c with verbose := ← Reader.boolean }⟩]

/-- The fields of the watch settings. -/
def WatchConfig.fields : List (Json.Field WatchConfig) := [
  ⟨"debounce_ms", fun c => do return { c with debounce := ← Reader.natural }⟩]

/-- The two groups of settings. -/
def Config.fields : List (Json.Field Config) := [
  ⟨"scan", fun c => do
    return { c with scan := ← Reader.record "struct ScanConfig" ScanConfig.fields {} }⟩,
  ⟨"watch", fun c => do
    return { c with watch := ← Reader.record "struct WatchConfig" WatchConfig.fields {} }⟩]

/-- Reads the text of a configuration file. -/
def Config.ofText? (text : String) : Except Json.Failure Config :=
  Json.decode (Reader.record "struct Config" Config.fields {}) text

/-- Reads a configuration file. -/
def Config.read (fs : FileSystem) (path : Path) : Except ConfigError Config := do
  match fs.readText path with
  | .error cause => .error (.unreadable path cause)
  | .ok text =>
    match Config.ofText? text with
    | .error cause => .error (.malformed path cause)
    | .ok config => .ok config

/-! ## Writing -/

namespace Config.Format

/-- Items between brackets, separated by commas. -/
def bracketed (opener closer : String) (items : List String) : String :=
  opener ++ String.intercalate "," items ++ closer

/-- A member of an object. -/
def member (name value : String) : String :=
  Text.quote name ++ ":" ++ value

/-- A list of texts. -/
def textList (texts : List String) : String :=
  bracketed "[" "]" (texts.map Text.quote)

/-- A truth value. -/
def truth (value : Bool) : String :=
  if value then "true" else "false"

end Config.Format

/-- The scan settings as an object. -/
def ScanConfig.toText (c : ScanConfig) : String :=
  bracketed "\x7b" "\x7d" [
    member "root" (Text.quote c.root.text),
    member "include" (textList c.includes),
    member "exclude" (textList c.excludes),
    member "function_names" (textList c.markers),
    member "output_path" (Text.quote c.output.text),
    member "module_name" (Text.quote c.moduleName),
    member "ignore_file" ((c.ignoreFile.map fun path => Text.quote path.text).getD "null"),
    member "respect_gitignore" (truth c.respectIgnores),
    member "verbose" (truth c.verbose)]

/-- The watch settings as an object. -/
def WatchConfig.toText (c : WatchConfig) : String :=
  bracketed "\x7b" "\x7d" [member "debounce_ms" (toString c.debounce.toNat)]

/-- A configuration as a file shows it. -/
def Config.toText (c : Config) : String :=
  bracketed "\x7b" "\x7d" [member "scan" c.scan.toText, member "watch" c.watch.toText]

/-!
## Finding a configuration file

A directory's configuration is the first of the known file names that is a file there. A relative
root in it is counted from that directory.
-/

/-- Lets a relative root start at a directory. -/
def Config.withRootIn (directory : Path) (c : Config) : Config :=
  if c.scan.root.isAbsolute then c
  else { c with scan := { c.scan with root := directory.join c.scan.root } }

/-- Looks for a configuration file in a directory, among the given names. -/
def Config.discoverAmong (fs : FileSystem) (directory : Path) :
    List String → Except ConfigError (Option (Path × Config))
  | [] => .ok none
  | name :: names =>
    let path := directory.join ⟨name⟩
    if fs.isFile path then do
      let config ← Config.read fs path
      return some (path, config.withRootIn directory)
    else discoverAmong fs directory names

/-- Looks for a configuration file in a directory. -/
def Config.discover (fs : FileSystem) (directory : Path) :
    Except ConfigError (Option (Path × Config)) :=
  Config.discoverAmong fs directory configFileNames

end KeyRegistry

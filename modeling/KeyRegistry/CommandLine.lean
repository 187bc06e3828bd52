import KeyRegistry.Path

/-!
# The command line

A command line names a verb and gives settings. Settings may stand in front of the verb and
behind it; what is said behind the verb has more weight, and what the environment says has the
least. Help and the version are told as soon as they are asked for, even if something is wrong
further on.

Main definitions:

* `Given` — the settings that are given at one place
* `Invocation` — what the program is asked to do
* `Invocation.ofArguments` — reads a command line
-/

namespace KeyRegistry

/-- What the program can do. -/
inductive Verb where
  /-- Bring the artifact up to date once. -/
  | generate
  /-- Keep the artifact up to date. -/
  | watch
  deriving DecidableEq, Repr

/-- The word for a verb. -/
def Verb.name : Verb → String
  | .generate => "generate"
  | .watch => "watch"

/-- The verb that a word names. -/
def Verb.ofName? (word : String) : Option Verb :=
  [Verb.generate, Verb.watch].find? fun verb => verb.name == word

namespace CommandLine

/-- Why a command line asks for nothing to be done. -/
inductive Stop where
  | help
  /-- The version is asked for, of the program or of a verb. -/
  | version (verb : Option Verb)
  | misuse
  deriving DecidableEq, Repr

/-- The name of the program. -/
def programName : String := "qk-gen"

/-- What is told when the version is asked for. -/
def versionText (verb : Option Verb) : String :=
  programName ++ (verb.map fun verb => "-" ++ verb.name).getD "" ++ " 0.1.0\n"

/-! ## Settings -/

/-- A setting that has a value. -/
inductive Setting where
  | root
  | config
  | includes
  | excludes
  | marker
  | output
  | debounce
  deriving DecidableEq, Repr

/-- A setting without a value. -/
inductive Switch where
  | verbose
  | plain
  | help
  | version
  deriving DecidableEq, Repr

/-- The setting with a long name. One of them belongs to a verb. -/
def Setting.ofName? (verb : Option Verb) : String → Option Setting
  | "root" => some .root
  | "config" => some .config
  | "include" => some .includes
  | "exclude" => some .excludes
  | "function-name" => some .marker
  | "output" => some .output
  | "debounce-ms" => if verb = some .watch then some .debounce else none
  | _ => none

/-- The setting with a letter. -/
def Setting.ofLetter? : Char → Option Setting
  | 'r' => some .root
  | 'c' => some .config
  | 'o' => some .output
  | _ => none

/-- The switch with a long name. -/
def Switch.ofName? : String → Option Switch
  | "verbose" => some .verbose
  | "no-color" => some .plain
  | "help" => some .help
  | "version" => some .version
  | _ => none

/-- The switch with a letter. -/
def Switch.ofLetter? : Char → Option Switch
  | 'v' => some .verbose
  | 'h' => some .help
  | 'V' => some .version
  | _ => none

/-- The settings that are given at one place. -/
structure Given where
  root : Option String := none
  config : Option String := none
  includes : List String := []
  excludes : List String := []
  markers : List String := []
  output : Option String := none
  debounce : Option UInt64 := none
  verbose : Bool := false
  plain : Bool := false
  deriving DecidableEq

/-- A number of milliseconds, which may have a plus sign. -/
def readMilliseconds? (text : String) : Option UInt64 :=
  let digits := match text.toList with
    | '+' :: digits => digits
    | digits => digits
  if digits.isEmpty || !digits.all Char.isDigit then none
  else
    let number := digits.foldl (fun n c => 10 * n + (c.toNat - '0'.toNat)) 0
    if number < UInt64.size then some (UInt64.ofNat number) else none

/-- Gives a value that can be given once. -/
def once {α : Type} (old : Option α) (value : α) : Except Stop (Option α) :=
  match old with
  | none => .ok (some value)
  | some _ => .error .misuse

namespace Given

/-- Gives a setting its value, or one more value if it can have several. -/
def set (g : Given) (value : String) : Setting → Except Stop Given
  | .root => do return { g with root := ← once g.root value }
  | .config => do return { g with config := ← once g.config value }
  | .includes => .ok { g with includes := g.includes ++ [value] }
  | .excludes => .ok { g with excludes := g.excludes ++ [value] }
  | .marker => .ok { g with markers := g.markers ++ [value] }
  | .output => do return { g with output := ← once g.output value }
  | .debounce =>
    match readMilliseconds? value with
    | some number => do return { g with debounce := ← once g.debounce number }
    | none => .error .misuse

/-- Turns a switch on, which can be done once. -/
def turnOn (g : Given) (verb : Option Verb) : Switch → Except Stop Given
  | .verbose => if g.verbose then .error .misuse else .ok { g with verbose := true }
  | .plain => if g.plain then .error .misuse else .ok { g with plain := true }
  | .help => .error .help
  | .version => .error (.version verb)

end Given

/-! ## Reading arguments -/

/-- Whether an argument can be the value of a setting: it does not look like a setting. -/
def isValue (argument : String) : Bool :=
  argument == "-" || argument.toList.head? != some '-'

/-- A long argument taken apart: its name, and the value behind an equals sign. -/
def splitLong (argument : List Char) : String × Option String :=
  let name := argument.takeWhile (· != '=')
  (String.ofList name, match argument.drop name.length with
    | _ :: value => some (String.ofList value)
    | [] => none)

/-- The value that follows a letter in the same argument, behind an equals sign or not. -/
def attachedValue : List Char → Option String
  | [] => none
  | '=' :: value => some (String.ofList value)
  | value => some (String.ofList value)

/-- Reads the letters of an argument. The answer tells which setting waits for its value. -/
def readLetters (verb : Option Verb) : List Char → Given → Except Stop (Given × Option Setting)
  | [], g => .ok (g, none)
  | c :: letters, g =>
    match Setting.ofLetter? c with
    | some setting =>
      match attachedValue letters with
      | some value => do return (← g.set value setting, none)
      | none => .ok (g, some setting)
    | none =>
      match Switch.ofLetter? c with
      | some switch => do readLetters verb letters (← g.turnOn verb switch)
      | none => .error .misuse

/-- Reads one argument that starts with a hyphen. The answer tells which setting waits for its
value. -/
def readArgument (verb : Option Verb) (argument : List Char) (g : Given) :
    Except Stop (Given × Option Setting) :=
  match argument with
  | '-' :: '-' :: long =>
    let (name, value) := splitLong long
    match Setting.ofName? verb name, value with
    | some setting, some value => do return (← g.set value setting, none)
    | some setting, none => .ok (g, some setting)
    | none, some _ => .error .misuse
    | none, none =>
      match Switch.ofName? name with
      | some switch => do return (← g.turnOn verb switch, none)
      | none => .error .misuse
  | _ :: letters => readLetters verb letters g
  | [] => .error .misuse

/-- Reads settings up to the first word that is none. The answer holds the words from there
on. -/
def readSettings (verb : Option Verb) : List String → Given → Except Stop (Given × List String)
  | [], g => .ok (g, [])
  | argument :: rest, g =>
    if argument = "--" then if rest.isEmpty then .ok (g, []) else .error .misuse
    else if isValue argument then .ok (g, argument :: rest)
    else
      match readArgument verb argument.toList g with
      | .error stop => .error stop
      | .ok (g, none) => readSettings verb rest g
      | .ok (g, some setting) =>
        match rest with
        | [] => .error .misuse
        | value :: rest =>
          if isValue value then
            match g.set value setting with
            | .error stop => .error stop
            | .ok g => readSettings verb rest g
          else .error .misuse

end CommandLine

/-! ## Invocations -/

/-- What the program is asked to do. -/
structure Invocation where
  verb : Verb
  root : Option Path := none
  config : Option Path := none
  includes : List String := []
  excludes : List String := []
  markers : List String := []
  output : Option Path := none
  debounce : Option UInt64 := none
  verbose : Bool := false
  plain : Bool := false
  deriving DecidableEq

/-- What the environment says. -/
structure Environment where
  root : Option String := none
  config : Option String := none

namespace Invocation

open CommandLine

/-- The list behind the verb if something is in it, and otherwise the one in front of it. -/
def preferred (outer inner : List String) : List String :=
  if inner.isEmpty then outer else inner

/-- Brings together what is given in front of a verb and behind it. -/
def combine (environment : Environment) (verb : Verb) (outer inner : Given) : Invocation where
  verb := verb
  root := (inner.root <|> outer.root <|> environment.root).map Path.mk
  config := (inner.config <|> outer.config <|> environment.config).map Path.mk
  includes := preferred outer.includes inner.includes
  excludes := preferred outer.excludes inner.excludes
  markers := preferred outer.markers inner.markers
  output := (inner.output <|> outer.output).map Path.mk
  debounce := inner.debounce
  verbose := outer.verbose || inner.verbose
  plain := outer.plain || inner.plain

/-- Why a command line that asks for help in words asks for nothing to be done: help can be had
about a verb and about help itself. -/
def helpOn : List String → Stop
  | [] => .help
  | [topic] => if (Verb.ofName? topic).isSome || topic == "help" then .help else .misuse
  | _ => .misuse

/-- Reads a command line. -/
def ofArguments (environment : Environment) (arguments : List String) :
    Except Stop Invocation := do
  let (outer, words) ← readSettings none arguments {}
  match words with
  | [] => throw .misuse
  | word :: rest =>
    if word = "help" then throw (helpOn rest)
    else
      match Verb.ofName? word with
      | none => throw .misuse
      | some verb =>
        let (inner, words) ← readSettings (some verb) rest {}
        if words.isEmpty then return combine environment verb outer inner else throw .misuse

end Invocation

end KeyRegistry

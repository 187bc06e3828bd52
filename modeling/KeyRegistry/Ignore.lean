import KeyRegistry.FileSystem
import KeyRegistry.Glob.Reading
import KeyRegistry.Text.Letters

/-!
# Ignore rules

A file of ignore rules holds one rule a line: a glob whose paths are ignored, or allowed again if
an exclamation mark stands in front. Rules are judged from below, so the last one that matches
decides. A rule without a slash matches at any depth; one that ends in a slash matches
directories only.

Main definitions:

* `Ignore.Rule.ofLine?` — reads one line
* `Ignore.Rules.load` — reads a file of rules
* `Ignore.Rules.verdict?`, `Ignore.Rules.verdictAbove?` — judging a path, and a path together with
  the directories above it
-/

namespace KeyRegistry.Ignore

/-- What a rule says about the paths it matches. -/
inductive Verdict where
  | ignored
  | allowed
  deriving DecidableEq, Repr

/-- A rule. -/
structure Rule where
  glob : Glob
  verdict : Verdict
  directoriesOnly : Bool

/-- Rules in the order in which they are written. -/
abbrev Rules := List Rule

/-! ## Reading rules -/

/-- Whether a list of characters ends in another one. -/
def endsWith (tail text : List Char) : Bool :=
  tail.isSuffixOf text

/-- Drops white space at the end, unless the last blank is escaped. -/
def trimLine (line : List Char) : List Char :=
  if endsWith ['\\', ' '] line then line
  else (line.reverse.dropWhile Text.isBlank).reverse

/-- A line taken apart: what it says, whether its glob starts at the directory of the file, and
the rest of it. -/
structure Line where
  verdict : Verdict
  anchored : Bool
  rest : List Char

/-- Reads the signs in front of a glob. A backslash takes the meaning from the sign behind it. -/
def Line.ofChars (line : List Char) : Line :=
  match line with
  | '\\' :: '!' :: rest => ⟨.ignored, false, '!' :: rest⟩
  | '\\' :: '#' :: rest => ⟨.ignored, false, '#' :: rest⟩
  | '!' :: '/' :: rest => ⟨.allowed, true, rest⟩
  | '!' :: rest => ⟨.allowed, false, rest⟩
  | '/' :: rest => ⟨.ignored, true, rest⟩
  | rest => ⟨.ignored, false, rest⟩

/-- Takes the slash from the end of a glob that matches directories only, and a backslash in
front of it. -/
def dropDirectorySlash (glob : List Char) : List Char × Bool :=
  if glob.getLast? = some '/' then
    let glob := glob.dropLast
    (if glob.getLast? = some '\\' then glob.dropLast else glob, true)
  else (glob, false)

/-- Lets a glob match at any depth, unless it is bound to a place by its slashes. -/
def atAnyDepth (anchored : Bool) (glob : List Char) : List Char :=
  if anchored || glob.contains '/' || glob == ['*', '*'] then glob
  else ['*', '*', '/'] ++ glob

/-- Keeps a glob for everything below a directory from matching the directory. -/
def strictlyBelow (glob : List Char) : List Char :=
  if endsWith ['/', '*', '*'] glob then glob ++ ['/', '*'] else glob

/-- Reads one line; there is no rule in a blank line, a comment or a line that is no glob. -/
def Rule.ofLine? (line : List Char) : Option Rule :=
  if line.head? = some '#' then none
  else
    match trimLine line with
    | [] => none
    | chars =>
      let l := Line.ofChars chars
      let (glob, directoriesOnly) := dropDirectorySlash l.rest
      let text := strictlyBelow (atAnyDepth l.anchored glob)
      (Glob.read true (String.ofList text)).toOption.map fun glob =>
        ⟨glob, l.verdict, directoriesOnly⟩

/-- The byte that ends a line. -/
def lineFeed : UInt8 := 0x0A

/-- The texts of lines, up to the first one that is no UTF-8. -/
def readableLines : List (List UInt8) → List String
  | [] => []
  | line :: lines =>
    match String.fromUTF8? ⟨line.toArray⟩ with
    | some text => text :: readableLines lines
    | none => []

/-- Drops the carriage return in front of a line feed. The last line is not ended. -/
def dropReturns : List (List UInt8) → List (List UInt8)
  | [] => []
  | [last] => [last]
  | line :: lines =>
    (if line.getLast? = some 0x0D then line.dropLast else line) :: dropReturns lines

/-- The lines of a file. Byte order marks in front of the first one do not belong to it. -/
def linesOf (bytes : ByteArray) : List (List Char) :=
  match readableLines (dropReturns (Text.pieces lineFeed bytes.toList)) with
  | [] => []
  | first :: lines => first.toList.dropWhile (· == '\uFEFF') :: lines.map String.toList

/-- The rules in the bytes of a file. -/
def Rules.ofBytes (bytes : ByteArray) : Rules :=
  (linesOf bytes).filterMap Rule.ofLine?

/-- The rules in a file; there are none in a file that cannot be read. -/
def Rules.load (fs : FileSystem) (path : Path) : Rules :=
  match fs.read path with
  | .ok bytes => Rules.ofBytes bytes
  | .error _ => []

/-! ## Judging paths -/

/-- Whether a rule matches a path. -/
def Rule.matchesPath (rule : Rule) (path : String) (isDirectory : Bool) : Bool :=
  (isDirectory || !rule.directoriesOnly) && rule.glob.matchesPath path

/-- What the rules say about a path, seen from the directory of the rules. -/
def Rules.verdict? (rules : Rules) (path : String) (isDirectory : Bool) : Option Verdict :=
  -- the last rule that matches decides
  (rules.reverse.find? fun rule => rule.matchesPath path isDirectory).map (·.verdict)

/-- What the rules say about a path or else about the nearest directory above it for which they
say something. -/
def Rules.verdictAbove? (rules : Rules) (path : Path) (isDirectory : Bool) : Option Verdict :=
  match path.lineage with
  | [] => none
  | self :: above =>
    rules.verdict? self.text isDirectory <|>
      -- what stands above a path is a directory, whatever the path is
      above.findSome? fun directory => rules.verdict? directory.text true

/-- What the rules of a directory say about a path below it, or the directories between. -/
def Rules.verdictUnder? (rules : Rules) (directory path : Path) (isDirectory : Bool) :
    Option Verdict := do
  let relative ← path.relativeTo? directory
  -- rules say nothing about their own directory
  if relative.text.isEmpty then none else rules.verdictAbove? relative isDirectory

end KeyRegistry.Ignore

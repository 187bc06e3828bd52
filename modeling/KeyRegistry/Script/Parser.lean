import KeyRegistry.Script.Tree

/-!
# Parsers of scripts

A parser walks over a source and leaves the trees of what it has read. When it fails, it leaves
the trees that were finished before, so that a broken part of a script does not hide the sound
ones in front of it.

Between two words there may be white space and comments. A parser stands in front of a word; it
knows whether a line ends between that word and the one before it. The comments are left as trees
of their own. A comment behind the last word of a part does not belong to the part.

How a parser goes on where something is wrong is its own affair: it keeps what it has read, marks
it as an error, and starts anew behind it. What is said about the extraction of calls does not
depend on that, since it is said of all trees.

Main definitions:

* `State`, `Parser` — what a parser works on and what it is
* `attempt`, `repeatWhile` — choice and repetition
* `take`, `leafTight`, `textTight`, `missing`, `wrap` — the steps that move a parser on or leave
  trees
* `symbol`, `word`, `node` — reading signs and words, and building trees
-/

namespace KeyRegistry.Script

/-- Where a parser stands, and what it has read. -/
structure State where
  rest : List Char
  /-- The position of the rest. -/
  position : Position := .start
  /-- Whether a line ends in front of the rest. -/
  newline : Bool := false
  /-- Whether the end of a line may end a statement here. -/
  breaks : Bool := true
  /-- Whether a function without a name may have a type for its result here. -/
  resultTypes : Bool := true
  /-- What was read of the part at hand, last tree first. -/
  trees : List Node := []
  /-- Whether something was wrong that did not stop the reading. -/
  flawed : Bool := false

/-- A parser gives a value, or fails. -/
def Parser (α : Type) := State → Option α × State

namespace Parser

variable {α β : Type}

/-- Succeeds without reading. -/
protected def pure (a : α) : Parser α :=
  fun s => (some a, s)

/-- Goes on with what was read. -/
protected def bind (p : Parser α) (f : α → Parser β) : Parser β :=
  fun s => match p s with
    | (some a, s) => f a s
    | (none, s) => (none, s)

instance : Monad Parser where
  pure := Parser.pure
  bind := Parser.bind

/-- Fails. -/
def fail : Parser α :=
  fun s => (none, s)

/-- What a parser reads, or nothing, and then nothing is read. A part with flaws counts as not
read. -/
def attempt (p : Parser α) : Parser (Option α) :=
  fun s => match p s with
    | (some a, t) => if t.flawed && !s.flawed then (some none, s) else (some (some a), t)
    | (none, _) => (some none, s)

/-- Whether a parser would succeed; nothing is read. -/
def ahead (p : Parser α) : Parser Bool :=
  fun s => (some (p s).1.isSome, s)

/-- Whether a parser succeeded; nothing is read if it did not. -/
def succeeds (p : Parser α) : Parser Bool := do
  return (← attempt p).isSome

/-- Reads with the first parser, or else with the second one. -/
def either (p q : Parser α) : Parser α := do
  match ← attempt p with
  | some a => return a
  | none => q

/-- Repeats a step while it says so, for a bound on the number of steps. -/
def repeatWithin (step : Parser Bool) : Nat → Parser Unit
  | 0 => pure ()
  | bound + 1 => do
    if ← step then repeatWithin step bound else pure ()

/-- Repeats a step while it says so. Each of these steps reads something. -/
def repeatWhile (step : Parser Bool) : Parser Unit :=
  fun s => repeatWithin step (s.rest.length + 1) s

/-! ## White space and comments -/

/-- The white space of scripts. -/
def isSpace (c : Char) : Bool :=
  let code := c.toNat
  (9 ≤ code && code ≤ 13) || code == 0x20 || code == 0xA0 || code == 0x1680 ||
    (0x2000 ≤ code && code ≤ 0x200B) || code == 0x2028 || code == 0x2029 || code == 0x202F ||
    code == 0x205F || code == 0x2060 || code == 0x3000 || code == 0xFEFF

/-- Whether a character ends a line, so that it can end a statement. -/
def endsLine (c : Char) : Bool :=
  c == '\n' || c == '\u2028' || c == '\u2029'

/-- What stands between two words. -/
structure Gap where
  /-- The comments, each with the number of blanks in front of it and with its own length. -/
  comments : List (Nat × Nat)
  /-- The number of blanks behind the last comment. -/
  blanks : Nat
  /-- Whether a line ends somewhere outside of the comments. -/
  newline : Bool

/-- The number of characters of comments with the blanks in front of them. -/
def commentsLength : List (Nat × Nat) → Nat
  | [] => 0
  | (blanks, length) :: comments => blanks + length + commentsLength comments

/-- The number of characters of a gap. -/
def Gap.length (gap : Gap) : Nat :=
  commentsLength gap.comments + gap.blanks

/-- Where the reading of a gap stands; the numbers count the blanks behind the last comment, and the
characters of the comment at hand. -/
inductive GapState where
  | blank (blanks : Nat)
  | line (blanks length : Nat)
  /-- In front of the star that opens a comment. -/
  | opening (blanks : Nat)
  | block (blanks length : Nat)
  /-- In front of the slash that closes a comment. -/
  | closing (blanks length : Nat)

/-- White space and comments, given the comments so far, last one first, and whether a line has
ended. A comment that is never closed does not count. -/
def gap : GapState → List (Nat × Nat) → Bool → List Char → Gap
  | .blank blanks, comments, newline, [] => ⟨comments.reverse, blanks, newline⟩
  | .line blanks length, comments, newline, [] =>
    ⟨((blanks, length) :: comments).reverse, 0, newline⟩
  | .opening blanks, comments, newline, [] => ⟨comments.reverse, blanks, newline⟩
  | .block blanks _, comments, newline, [] => ⟨comments.reverse, blanks, newline⟩
  | .closing blanks _, comments, newline, [] => ⟨comments.reverse, blanks, newline⟩
  | .blank blanks, comments, newline, c :: rest =>
    if isSpace c then gap (.blank (blanks + 1)) comments (newline || endsLine c) rest
    -- a slash alone is an operator
    else if c = '/' ∧ rest.head? = some '/' then gap (.line blanks 1) comments newline rest
    else if c = '/' ∧ rest.head? = some '*' then gap (.opening blanks) comments newline rest
    else ⟨comments.reverse, blanks, newline⟩
  | .line blanks length, comments, newline, c :: rest =>
    if c = '\r' ∨ endsLine c then
      -- the end of the line is the first blank behind the comment
      gap (.blank 1) ((blanks, length) :: comments) (newline || endsLine c) rest
    else gap (.line blanks (length + 1)) comments newline rest
  | .opening blanks, comments, newline, _ :: rest => gap (.block blanks 2) comments newline rest
  | .block blanks length, comments, newline, c :: rest =>
    if c = '*' ∧ rest.head? = some '/' then gap (.closing blanks (length + 1)) comments newline rest
    else gap (.block blanks (length + 1)) comments newline rest
  | .closing blanks length, comments, newline, _ :: rest =>
    gap (.blank 0) ((blanks, length + 1) :: comments) newline rest

/-- Steps over a number of characters, and stays behind the last of them. -/
def take (count : Nat) : Parser Unit :=
  fun s =>
    (some (), { s with
      rest := s.rest.drop count
      position := (s.rest.take count).foldl Position.advance s.position })

/-- Takes a number of characters for a leaf, and stays behind it. -/
def leafTight (kind : Kind) (count : Nat) : Parser Unit :=
  fun s =>
    let (_, t) := take count s
    let tree := Node.leaf { kind, start := s.position, ending := t.position.offset }
    (some (), { t with
      trees := tree :: t.trees
      flawed := t.flawed || kind == .error })

/-- Takes comments with the blanks in front of them. -/
def comments : List (Nat × Nat) → Parser Unit
  | [] => pure ()
  | (blanks, length) :: others => do
    take blanks
    leafTight .comment length
    comments others

/-- Steps over white space and comments. -/
def skipGap : Parser Unit :=
  fun s =>
    let found := gap (.blank 0) [] false s.rest
    (do comments found.comments; take found.blanks) { s with newline := found.newline }

/-- Takes a number of characters for a leaf. -/
def leaf (kind : Kind) (count : Nat) : Parser Unit := do
  leafTight kind count
  skipGap

/-- Takes a sign or a word of the grammar of a number of characters. -/
def step (count : Nat) : Parser Unit :=
  leaf .sign count

/-! ## Signs and words -/

/-- What is left to read. -/
def rest : Parser (List Char) :=
  fun s => (some s.rest, s)

/-- Whether a line ends in front of the next word. -/
def newline : Parser Bool :=
  fun s => (some s.newline, s)

/-- Whether a line ends in front of the next word and may end the statement. -/
def broken : Parser Bool :=
  fun s => (some (s.newline && s.breaks), s)

/-- The next character. -/
def peek : Parser (Option Char) :=
  fun s => (some s.rest.head?, s)

/-- Whether the rest starts with some characters. -/
def startsWith (text : String) : Parser Bool :=
  fun s => (some (text.toList.isPrefixOf s.rest), s)

/-- Whether the next character is one of some. -/
def nextIn (characters : String) : Parser Bool :=
  fun s => (some (s.rest.head?.any characters.toList.contains), s)

/-- Whether nothing is left. -/
def atEnd : Parser Bool :=
  fun s => (some s.rest.isEmpty, s)

/-- Reads a sign. -/
def symbol (text : String) : Parser Unit := do
  if ← startsWith text then step text.length else fail

/-- Reads a sign and stays behind it. -/
def symbolTight (text : String) : Parser Unit := do
  if ← startsWith text then leafTight .sign text.length else fail

/-- Reads a sign if it comes next; whether it did. -/
def symbol? (text : String) : Parser Bool := do
  if ← startsWith text then
    step text.length
    return true
  else return false

/-- The characters besides white space, controls and digits that no name starts with. -/
def signs : List Char :=
  ":;\x60\"'@#.,|^&<=>+-*/\\%?!~()[]\x7b\x7d".toList

/-- Whether a name can go on with a character. -/
def isNamePart (c : Char) : Bool :=
  31 < c.toNat && !isSpace c && !signs.contains c

/-- The number of characters of an escape inside a name. -/
def nameEscapeLength (text : List Char) : Nat :=
  match text with
  | '\\' :: 'u' :: '{' :: rest =>
    let digits := rest.takeWhile fun c => c.isDigit || ('a' ≤ c && c ≤ 'f') || ('A' ≤ c && c ≤ 'F')
    if (rest.drop digits.length).head? = some '}' ∧ !digits.isEmpty then digits.length + 4 else 0
  | '\\' :: 'u' :: rest =>
    let digits := (rest.take 4).takeWhile fun c =>
      c.isDigit || ('a' ≤ c && c ≤ 'f') || ('A' ≤ c && c ≤ 'F')
    if digits.length = 4 then 6 else 0
  | _ => 0

/-- The number of characters of a name. `skip` characters are known to belong to it. -/
def nameLength (skip : Nat) : List Char → Nat
  | [] => 0
  | c :: rest =>
    match skip with
    | skip + 1 => nameLength skip rest + 1
    | 0 =>
      if isNamePart c then nameLength 0 rest + 1
      else match nameEscapeLength (c :: rest) with
        | 0 => 0
        | length + 1 => nameLength length rest + 1

/-- The name that comes next. -/
def peekName : Parser (Option String) :=
  fun s =>
    match s.rest.head? with
    | some c =>
      -- a digit goes on with a name, but starts a number
      if c.isDigit then (some none, s)
      else
        match nameLength 0 s.rest with
        | 0 => (some none, s)
        | length => (some (some (String.ofList (s.rest.take length))), s)
    | none => (some none, s)

/-- Whether a given word comes next. -/
def atWord (text : String) : Parser Bool := do
  return (← peekName) == some text

/-- Reads a given word. -/
def word (text : String) : Parser Unit := do
  if ← atWord text then step text.length else fail

/-- Reads a given word if it comes next; whether it did. -/
def word? (text : String) : Parser Bool := do
  if ← atWord text then
    step text.length
    return true
  else return false

/-- Reads one of some words if one of them comes next; whether it did. -/
def wordIn? (texts : List String) : Parser Bool := do
  match ← peekName with
  | some text =>
    if texts.contains text then
      step text.length
      return true
    else return false
  | none => return false

/-! ## Trees -/

/-- Reads a name as a leaf. -/
def name (kind : Kind) : Parser Unit := do
  match ← peekName with
  | some text => leaf kind text.length
  | none => fail

/-- Reads a name as a leaf if one comes next; whether it did. -/
def name? (kind : Kind) : Parser Bool := do
  match ← peekName with
  | some text => do
    leaf kind text.length
    return true
  | none => return false

/-- Reads the name of a member; a number sign right in front of it makes it a private one. -/
def memberName : Parser Unit := do
  if ← startsWith "#" then take 1
  name .other

/-- How many trees there are. -/
def mark : Parser Nat :=
  fun s => (some s.trees.length, s)

/-- The children of a call in the parts that they play: what is called comes first, and what it is
called with comes last. -/
def callFields : List Node → List Node
  | [] => []
  | callee :: others => callee.inField .function :: lastInField others
where
  lastInField : List Node → List Node
    | [] => []
    | [last] => [last.inField .arguments]
    | tree :: next :: others => tree :: lastInField (next :: others)

/-- Makes a part of trees, last tree first. The comments behind its last word stay outside. A part
without words stands where its comments start, or at a position if there are none. -/
def gather (kind : Kind) (position : Position) (trees : List Node) : List Node :=
  let children := (trees.dropWhile (·.kind.isExtra)).reverse
  let start := (trees.getLast?.map Node.start).getD position
  let ending := (children.getLast?.map Node.ending).getD start.offset
  trees.takeWhile (·.kind.isExtra) ++
    [.mk { kind, start, ending } (if kind = .call then callFields children else children)]

/-- Makes a part of all trees that came after a mark. -/
def wrap (kind : Kind) (mark : Nat) : Parser Unit :=
  fun s =>
    let count := s.trees.length - mark
    (some (), { s with
      trees := gather kind s.position (s.trees.take count) ++ s.trees.drop count
      flawed := s.flawed || kind == .error })

/-- Makes a part of the trees that a parser leaves. -/
def node (kind : Kind) (p : Parser Unit) : Parser Unit := do
  let start ← mark
  p
  wrap kind start

/-- Puts in a sign that the source lacks. -/
def missing : Parser Unit :=
  fun s =>
    let tree := Node.leaf {
      kind := .sign, isMissing := true, start := s.position, ending := s.position.offset }
    (some (), { s with trees := tree :: s.trees, flawed := true })

/-- Steps over comments in the manner of markup. They may stand where an operand or a statement can
start, since anywhere else their first signs are operators. -/
def skipMarkupComments : Parser Unit :=
  repeatWhile do
    if (← startsWith "<!--") || (← startsWith "-->") then do
      leaf .markupComment ((← rest).takeWhile fun c => !endsLine c).length
      return true
    else return false

/-- Whether a function may have a type for its result. -/
def resultTypes : Parser Bool :=
  fun s => (some s.resultTypes, s)

/-- Reads with a rule of its own about the ends of lines. -/
def withBreaks (breaks : Bool) (p : Parser α) : Parser α :=
  fun s =>
    let (a, t) := p { s with breaks }
    (a, { t with breaks := s.breaks })

/-- Reads without types for the results of functions. -/
def withoutResultTypes (p : Parser α) : Parser α :=
  fun s =>
    let (a, t) := p { s with resultTypes := false }
    (a, { t with resultTypes := s.resultTypes })

/-- Reads what stands inside of signs, where nothing outside matters. -/
def inside (breaks : Bool) (p : Parser α) : Parser α :=
  fun s =>
    let (a, t) := p { s with breaks, resultTypes := true }
    (a, { t with breaks := s.breaks, resultTypes := s.resultTypes })

/-- Reads what stands between two signs; lines may end there. -/
def between (opener closer : String) (p : Parser Unit) : Parser Unit := do
  symbol opener
  inside false p
  symbol closer

/-- Reads items up to a closing sign, with a comma behind each but the last; items may be left
out. -/
def listUpTo (closer : String) (item : Parser Unit) : Parser Unit :=
  repeatWhile do
    skipMarkupComments
    if ← startsWith closer then return false
    else if ← symbol? "," then return true
    else do
      item
      if ← symbol? "," then return true else return false

end Parser

end KeyRegistry.Script

import KeyRegistry.Decimal.Shortest
import KeyRegistry.Text.Shown

/-!
# Reading JSON

A reader walks over a text and either gives a value or stops with a fault and the position where
it was noticed. Lines are counted from one and columns in bytes of the line read so far.

Main definitions:

* `Json.Fault` — why reading stops, with `Fault.message`
* `Json.Cursor` — what is left of the text, and the position reached
* `Json.Reader` — the readers, with the primitives `peek`, `advance` and `skipBlanks`
-/

namespace KeyRegistry.Json

/-! ## Positions -/

/-- A line, counted from one, and the number of bytes read of it. -/
structure Position where
  line : Nat := 1
  column : Nat := 0
  deriving DecidableEq, Repr

/-- The position after a number of bytes of one character. -/
def Position.past (p : Position) (c : Char) (bytes : Nat) : Position :=
  if c = '\n' then ⟨p.line + 1, 0⟩ else ⟨p.line, p.column + bytes⟩

/-- The position after a character. -/
def Position.after (p : Position) (c : Char) : Position :=
  p.past c c.utf8Size

/-! ## Faults -/

/-- What was found in the place of a value of another kind. -/
inductive Found where
  | null
  | boolean (value : Bool)
  | integer (value : Int)
  | floating (value : Float)
  | text (value : String)
  | list
  | object

/-- How a message names what was found. -/
def Found.describe : Found → String
  | .null => "null"
  | .boolean value => "boolean \x60" ++ (if value then "true" else "false") ++ "\x60"
  | .integer value => "integer \x60" ++ toString value ++ "\x60"
  | .floating value => "floating point \x60" ++ Decimal.text value ++ "\x60"
  | .text value => "string " ++ Text.display value
  | .list => "sequence"
  | .object => "map"

/-- Why reading stops. -/
inductive Fault where
  | endInList
  | endInObject
  | endInText
  | endInValue
  | colonExpected
  | listCommaExpected
  | objectCommaExpected
  | wordExpected
  | valueExpected
  | badEscape
  | badNumber
  | numberTooLarge
  | controlInText
  | keyNotText
  | loneHalf
  | brokenPair
  | trailingComma
  | trailingText
  | wrongKind (found : Found) (expected : String)
  | wrongValue (found : Found) (expected : String)
  | repeatedField (name : String)

/-- The words for a fault. -/
def Fault.message : Fault → String
  | .endInList => "EOF while parsing a list"
  | .endInObject => "EOF while parsing an object"
  | .endInText => "EOF while parsing a string"
  | .endInValue => "EOF while parsing a value"
  | .colonExpected => "expected \x60:\x60"
  | .listCommaExpected => "expected \x60,\x60 or \x60]\x60"
  | .objectCommaExpected => "expected \x60,\x60 or \x60\x7d\x60"
  | .wordExpected => "expected ident"
  | .valueExpected => "expected value"
  | .badEscape => "invalid escape"
  | .badNumber => "invalid number"
  | .numberTooLarge => "number out of range"
  | .controlInText => "control character (\\u0000-\\u001F) found while parsing a string"
  | .keyNotText => "key must be a string"
  | .loneHalf => "lone leading surrogate in hex escape"
  | .brokenPair => "unexpected end of hex escape"
  | .trailingComma => "trailing comma"
  | .trailingText => "trailing characters"
  | .wrongKind found expected => "invalid type: " ++ found.describe ++ ", expected " ++ expected
  | .wrongValue found expected => "invalid value: " ++ found.describe ++ ", expected " ++ expected
  | .repeatedField name => "duplicate field \x60" ++ name ++ "\x60"

/-- A fault and where it was noticed. -/
structure Failure where
  fault : Fault
  position : Position

/-- The words for a failure. -/
def Failure.message (f : Failure) : String :=
  f.fault.message ++ " at line " ++ toString f.position.line ++ " column " ++
    toString f.position.column

/-! ## Readers -/

/-- What is left of a text, and the position reached. -/
structure Cursor where
  rest : List Char
  position : Position := {}

/-- The cursor at the start of a text. -/
def Cursor.start (text : String) : Cursor :=
  { rest := text.toList }

/-- Goes on while the characters pass a test. -/
def Cursor.skipWhile (test : Char → Bool) : List Char → Position → Cursor
  | [], p => ⟨[], p⟩
  | c :: rest, p => if test c then skipWhile test rest (p.after c) else ⟨c :: rest, p⟩

/-- The position after a number of bytes, if the text has so many. -/
def Cursor.positionAfter? : Nat → List Char → Position → Option Position
  | 0, _, p => some p
  | _ + 1, [], _ => none
  | bytes + 1, c :: rest, p =>
    if c.utf8Size ≤ bytes + 1 then positionAfter? (bytes + 1 - c.utf8Size) rest (p.after c)
    else some (p.past c (bytes + 1))
termination_by _ text => text.length

/-- The position at the end of the text. -/
def Cursor.endPosition (c : Cursor) : Position :=
  c.rest.foldl Position.after c.position

/-- A reader takes a cursor and gives a value and the cursor behind it, or a failure. -/
abbrev Reader := StateT Cursor (Except Failure)

namespace Reader

/-- Stops at a position. -/
def failAt {α : Type} (position : Position) (fault : Fault) : Reader α :=
  fun _ => .error ⟨fault, position⟩

/-- Stops at the position reached. -/
def failHere {α : Type} (fault : Fault) : Reader α :=
  fun c => .error ⟨fault, c.position⟩

/-- Stops one byte behind the position reached, or at the end. -/
def failPast {α : Type} (fault : Fault) : Reader α :=
  fun c => match c.rest with
    | [] => .error ⟨fault, c.position⟩
    | next :: _ => .error ⟨fault, c.position.past next 1⟩

/-- The next character, if there is one. -/
def peek : Reader (Option Char) :=
  fun c => .ok (c.rest.head?, c)

/-- Steps over one character. -/
def advance : Reader Unit :=
  fun c => match c.rest with
    | [] => .ok ((), c)
    | next :: rest => .ok ((), ⟨rest, c.position.after next⟩)

/-- Steps over the characters that pass a test and gives them. -/
def takeWhile (test : Char → Bool) : Reader (List Char) :=
  fun c => .ok (c.rest.takeWhile test, Cursor.skipWhile test c.rest c.position)

/-- The white space of JSON. -/
def isBlank (c : Char) : Bool :=
  c == ' ' || c == '\n' || c == '\t' || c == '\r'

/-- Steps over white space. -/
def skipBlanks : Reader Unit :=
  fun c => .ok ((), Cursor.skipWhile isBlank c.rest c.position)

/-- The next character behind white space. -/
def peekToken : Reader (Option Char) := do
  skipBlanks
  peek

/-- Steps over the characters of a word. -/
def word : List Char → Reader Unit
  | [] => pure ()
  | expected :: rest => do
    match ← peek with
    | none => failHere .endInValue
    | some c => if c = expected then do advance; word rest else failPast .wordExpected

/-- The number of characters that are left. -/
def remaining : Reader Nat :=
  fun c => .ok (c.rest.length, c)

end Reader

end KeyRegistry.Json

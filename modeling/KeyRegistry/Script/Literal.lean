import KeyRegistry.Script.Parser
import KeyRegistry.Text.Shown

/-!
# Literals of scripts

Texts, numbers and regular expressions. A text ends at the quote that opened it, in the same
line unless the line end is escaped; an escape that is cut short is a flaw but does not end the
text.

Main definitions:

* `textLength`, `numberLength`, `regexLength` — how far a literal reaches
* `Parser.text`, `Parser.number`, `Parser.regex` — reading literals
-/

namespace KeyRegistry.Script

/-- How far a literal reaches, in characters, and whether an escape in it is cut short. -/
structure Extent where
  length : Nat
  flawed : Bool := false

/-- The extent with some characters in front. -/
def Extent.more (e : Extent) (count : Nat) : Extent :=
  { e with length := e.length + count }

/-- The number of characters of an escape behind its backslash; none if it is cut short. -/
def escapeLength : List Char → Nat
  | [] => 0
  | 'x' :: rest => if (Text.readHex 2 0 rest).isSome then 3 else 0
  | 'u' :: '{' :: rest =>
    let digits := rest.takeWhile fun c => (Text.hexValue? c).isSome
    if (rest.drop digits.length).head? = some '}' ∧ !digits.isEmpty then digits.length + 3 else 0
  | 'u' :: rest => if (Text.readHex 4 0 rest).isSome then 5 else 0
  | '\r' :: '\n' :: _ => 2
  | _ :: _ => 1

/-- How far a text reaches behind its opening quote, the closing one included; nothing if it is
never closed. `skip` characters are known to belong to it. -/
def textLength (quote : Char) (skip : Nat) : List Char → Option Extent
  | [] => none
  | c :: rest =>
    match skip with
    | skip + 1 => (textLength quote skip rest).map (Extent.more · 1)
    | 0 =>
      if c = quote then some ⟨1, false⟩
      else if c = '\n' ∨ c = '\r' then none
      else if c = '\\' then
        match escapeLength rest with
        -- the backslash alone is flawed, and what follows it is read as usual
        | 0 => (textLength quote 0 rest).map fun e => ⟨e.length + 1, true⟩
        | length => (textLength quote length rest).map (Extent.more · 1)
      else (textLength quote 0 rest).map (Extent.more · 1)

/-- The number of characters of a number. A sign belongs to it behind the letter of an
exponent. -/
def numberLength (hexadecimal : Bool) (afterExponent : Bool) : List Char → Nat
  | [] => 0
  | c :: rest =>
    if c.isAlphanum || c == '_' || c == '.' then
      numberLength hexadecimal (!hexadecimal && (c == 'e' || c == 'E')) rest + 1
    else if afterExponent && (c == '+' || c == '-') then
      numberLength hexadecimal false rest + 1
    else 0

/-- Whether a number is written to another base than ten. -/
def hasBase : List Char → Bool
  | '0' :: c :: _ => c.isAlpha
  | _ => false

/-- The number of characters of a regular expression behind its opening slash, the closing one
included; nothing if it is never closed. A slash inside a class does not close it. -/
def regexLength (inClass escaped : Bool) : List Char → Option Nat
  | [] => none
  | c :: rest =>
    if endsLine c then none
    else if escaped then (regexLength inClass false rest).map (· + 1)
    else if c = '/' ∧ !inClass then some 1
    else
      -- a class ends at its first bracket; there are none inside of it
      let inClass := if c = '[' then true else if c = ']' then false else inClass
      (regexLength inClass (c == '\\') rest).map (· + 1)
where
  endsLine (c : Char) : Bool := c == '\n' || c == '\r'

namespace Parser

/-- Takes a text literal with its opening quote in front of it. An escape that is cut short makes
what stands between the quotes an error. -/
def textTight (extent : Extent) : Parser Unit :=
  fun s =>
    let (_, t) := take (extent.length + 1) s
    let inner := Node.leaf {
      kind := .error
      start := (take 1 s).2.position
      ending := (take extent.length s).2.position.offset }
    let tree := Node.mk { kind := .string, start := s.position, ending := t.position.offset }
      (if extent.flawed then [inner] else [])
    (some (), { t with trees := tree :: t.trees, flawed := t.flawed || extent.flawed })

/-- Reads a text literal. -/
def text : Parser Unit := do
  match ← rest with
  | quote :: tail =>
    if quote = '\x27' ∨ quote = '\x22' then
      match textLength quote 0 tail with
      | some extent => do
        textTight extent
        skipGap
      | none => fail
    else fail
  | [] => fail

/-- Reads a number. -/
def number : Parser Unit := do
  let chars ← rest
  leaf .other (numberLength (hasBase chars) false chars)

/-- Reads a regular expression with its flags. -/
def regex : Parser Unit := do
  match ← rest with
  | _ :: tail =>
    match regexLength false false tail with
    | some length => do
      let flags := (tail.drop length).takeWhile Char.isAlpha
      leaf .other (length + 1 + flags.length)
    | none => fail
  | [] => fail

end Parser

end KeyRegistry.Script

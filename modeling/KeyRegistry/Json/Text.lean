import KeyRegistry.Json.Reader

/-!
# Texts in JSON

Texts between double quotes. Besides the short escapes a character may be written by its code
unit in four hexadecimal digits; a character beyond the first plane takes two of them, a high and
a low half, and neither half may stand alone.

Main definitions:

* `Reader.textBody` — the characters up to the closing quote
* `Reader.skipTextBody` — the same without looking at what code units mean
-/

namespace KeyRegistry.Json.Reader

/-- Four hexadecimal digits. -/
def codeUnit : Reader Nat := fun c =>
  match Text.readHex 4 0 c.rest with
  | some (unit, rest) => .ok (unit, ⟨rest, { c.position with column := c.position.column + 4 }⟩)
  | none =>
    match Cursor.positionAfter? 4 c.rest c.position with
    | some position => .error ⟨.badEscape, position⟩
    | none => .error ⟨.endInText, c.endPosition⟩

/-- Steps over a character that has to come next in a pair of code units. -/
def pairLink (expected : Char) : Reader Unit := do
  match ← peek with
  | none => failHere .endInText
  | some c => if c = expected then advance else failPast .brokenPair

/-- The character that a code unit starts. -/
def codePoint : Reader Char := do
  let unit ← codeUnit
  if 0xDC00 ≤ unit ∧ unit ≤ 0xDFFF then failHere .loneHalf
  else if 0xD800 ≤ unit ∧ unit ≤ 0xDBFF then do
    -- the other half of the pair has to come at once
    pairLink '\\'
    pairLink 'u'
    let low ← codeUnit
    if 0xDC00 ≤ low ∧ low ≤ 0xDFFF then
      return Char.ofNat (0x10000 + (unit - 0xD800) * 0x400 + (low - 0xDC00))
    else failHere .loneHalf
  else return Char.ofNat unit

/-- What a letter stands for after a backslash. -/
def shortEscape? : Char → Option Char
  | '\x22' => some '\x22'
  | '\\' => some '\\'
  | '/' => some '/'
  | 'b' => some '\x08'
  | 'f' => some '\x0c'
  | 'n' => some '\n'
  | 'r' => some '\r'
  | 't' => some '\t'
  | _ => none

/-- The character of an escape, after its backslash. -/
def escape : Reader Char := do
  match ← peek with
  | none => failHere .endInText
  | some 'u' => do advance; codePoint
  | some c =>
    match shortEscape? c with
    | some value => do advance; return value
    | none => failPast .badEscape

/-- Steps over an escape, after its backslash. -/
def skipEscape : Reader Unit := do
  match ← peek with
  | none => failHere .endInText
  | some 'u' => do advance; discard codeUnit
  | some c =>
    match shortEscape? c with
    | some _ => advance
    | none => failPast .badEscape

/-- The characters up to the closing quote, for a bound on their number. -/
def textWithin : Nat → Reader (List Char)
  | 0 => failHere .endInText
  | bound + 1 => do
    match ← peek with
    | none => failHere .endInText
    | some '\x22' => do advance; return []
    | some '\\' => do
      advance
      let value ← escape
      return value :: (← textWithin bound)
    | some c =>
      if c < ' ' then failPast .controlInText
      else do
        advance
        return c :: (← textWithin bound)

/-- The text up to the closing quote. -/
def textBody : Reader String := do
  return String.ofList (← textWithin ((← remaining) + 1))

/-- Steps over characters up to the closing quote, for a bound on their number. -/
def skipTextWithin : Nat → Reader Unit
  | 0 => failHere .endInText
  | bound + 1 => do
    match ← peek with
    | none => failHere .endInText
    | some '\x22' => advance
    | some '\\' => do
      advance
      skipEscape
      skipTextWithin bound
    | some c =>
      if c < ' ' then failHere .controlInText
      else do
        advance
        skipTextWithin bound

/-- Steps over a text up to the closing quote. -/
def skipTextBody : Reader Unit := do
  skipTextWithin ((← remaining) + 1)

end KeyRegistry.Json.Reader

import KeyRegistry.Text.Shown

/-!
# Quoted literals of scripts

The value of a string literal as a script writes it, in single or double quotes, with the
escapes of the language. A code unit that is half of a surrogate pair and stands alone has no
character of its own and reads as the replacement character.

Main definitions:

* `readEscape` — what one escape denotes, after its backslash
* `decodeLiteral` — the value of a literal with its quotes

Main statements:

* `length_readEscape` — an escape takes at least one character
-/

namespace KeyRegistry.Text

/-- What stands for a code unit that is no character. -/
def replacement : Char := '\uFFFD'

/-- The character of a code point, if it has one. -/
def charOfCode? (code : Nat) : Option Char :=
  if _h : code.isValidChar then some (Char.ofNat code) else none

/-- The value of hexadecimal digits up to a closing brace, and what follows it. At least one
digit is needed, and no value may pass 32 bits on the way. -/
def readBraced (value : Nat) (seen : Bool) : List Char → Option (Nat × List Char)
  | [] => none
  | c :: rest =>
    if c = '}' then if seen then some (value, rest) else none
    else do
      let digit ← hexValue? c
      if value * 16 + digit < UInt32.size then readBraced (value * 16 + digit) true rest else none

/-- What an escape contributes, if anything, and what is left after it. -/
structure Escape where
  value : Option Char
  rest : List Char

/-- The low half of a surrogate pair, written as an escape of four digits. -/
def readLowHalf : List Char → Option (Nat × List Char)
  | '\\' :: 'u' :: rest => do
    let (unit, rest) ← readHex 4 0 rest
    if 0xDC00 ≤ unit ∧ unit ≤ 0xDFFF then some (unit, rest) else none
  | _ => none

/-- The escape of a code unit of four digits: a high half and a low half that follow each other
are one character, a half alone is the replacement character. -/
def readUnit (text : List Char) : Option Escape := do
  let (unit, rest) ← readHex 4 0 text
  if 0xD800 ≤ unit ∧ unit ≤ 0xDBFF then
    match readLowHalf rest with
    | some (low, rest) =>
      let c ← charOfCode? (0x10000 + (unit - 0xD800) * 0x400 + (low - 0xDC00))
      some ⟨some c, rest⟩
    | none => some ⟨some replacement, rest⟩
  else if 0xDC00 ≤ unit ∧ unit ≤ 0xDFFF then some ⟨some replacement, rest⟩
  else do
    let c ← charOfCode? unit
    some ⟨some c, rest⟩

/-- The escape of a code point between braces; a half of a surrogate pair is refused. -/
def readPoint (text : List Char) : Option Escape := do
  let (code, rest) ← readBraced 0 false text
  let c ← charOfCode? code
  some ⟨some c, rest⟩

/-- Reads an escape, given what follows its backslash. A line end is a continuation and
contributes nothing; a character without a meaning of its own stands for itself. -/
def readEscape : List Char → Option Escape
  | [] => none
  | 'n' :: rest => some ⟨some '\n', rest⟩
  | 'r' :: rest => some ⟨some '\r', rest⟩
  | 't' :: rest => some ⟨some '\t', rest⟩
  | 'b' :: rest => some ⟨some '\x08', rest⟩
  | 'f' :: rest => some ⟨some '\x0c', rest⟩
  | 'v' :: rest => some ⟨some '\x0b', rest⟩
  | '0' :: rest =>
    if (rest.head?.map Char.isDigit).getD false then some ⟨some '0', rest⟩
    else some ⟨some '\x00', rest⟩
  | 'x' :: rest => do
    let (code, rest) ← readHex 2 0 rest
    let c ← charOfCode? code
    some ⟨some c, rest⟩
  | 'u' :: '{' :: rest => readPoint rest
  | 'u' :: rest => readUnit rest
  | '\r' :: '\n' :: rest => some ⟨none, rest⟩
  | c :: rest =>
    if c = '\n' ∨ c = '\r' ∨ c = '\u2028' ∨ c = '\u2029' then some ⟨none, rest⟩
    else some ⟨some c, rest⟩

theorem length_readHex {count value : Nat} {text rest : List Char} {result : Nat}
    (h : readHex count value text = some (result, rest)) : rest.length ≤ text.length := by
  induction count generalizing value text with
  | zero =>
    simp only [readHex, Option.some.injEq, Prod.mk.injEq] at h
    simp [h.2]
  | succ count ih =>
    cases text with
    | nil => simp [readHex] at h
    | cons c text =>
      simp only [readHex, bind, Option.bind_eq_some_iff] at h
      obtain ⟨_, _, h⟩ := h
      have := ih h
      simp only [List.length_cons]
      omega

theorem length_readBraced {value : Nat} {seen : Bool} {text rest : List Char} {result : Nat}
    (h : readBraced value seen text = some (result, rest)) : rest.length ≤ text.length := by
  induction text generalizing value seen with
  | nil => simp [readBraced] at h
  | cons c text ih =>
    simp only [readBraced] at h
    split at h
    · split at h
      · simp only [Option.some.injEq, Prod.mk.injEq] at h
        simp [h.2]
      · simp at h
    · simp only [bind, Option.bind_eq_some_iff] at h
      obtain ⟨_, _, h⟩ := h
      split at h
      · have := ih h
        simp only [List.length_cons]
        omega
      · simp at h

theorem length_readLowHalf {text rest : List Char} {low : Nat}
    (h : readLowHalf text = some (low, rest)) : rest.length ≤ text.length := by
  unfold readLowHalf at h
  split at h
  · next tail =>
    simp only [bind, Option.bind_eq_some_iff] at h
    obtain ⟨⟨unit, after⟩, hRead, h⟩ := h
    dsimp only at h
    split at h
    · simp only [Option.some.injEq, Prod.mk.injEq] at h
      have := length_readHex hRead
      simp only [List.length_cons, ← h.2]
      omega
    · simp at h
  · simp at h

theorem length_readUnit {text : List Char} {e : Escape} (h : readUnit text = some e) :
    e.rest.length ≤ text.length := by
  simp only [readUnit, bind, Option.bind_eq_some_iff] at h
  obtain ⟨⟨unit, after⟩, hRead, h⟩ := h
  have hBehind := length_readHex hRead
  dsimp only at h
  split at h
  · split at h
    · next low rest hLow =>
      -- the second half stands behind the first one
      obtain ⟨c, -, hEscape⟩ := Option.bind_eq_some_iff.mp h
      cases hEscape
      exact Nat.le_trans (length_readLowHalf hLow) hBehind
    · cases h
      exact hBehind
  · split at h
    · cases h
      exact hBehind
    · obtain ⟨c, -, hEscape⟩ := Option.bind_eq_some_iff.mp h
      cases hEscape
      exact hBehind

theorem length_readPoint {text : List Char} {e : Escape} (h : readPoint text = some e) :
    e.rest.length ≤ text.length := by
  simp only [readPoint, bind, Option.bind_eq_some_iff] at h
  obtain ⟨⟨code, after⟩, hRead, c, -, hEscape⟩ := h
  cases hEscape
  exact length_readBraced hRead

theorem length_readEscape {text : List Char} {e : Escape} (h : readEscape text = some e) :
    e.rest.length < text.length := by
  unfold readEscape at h
  split at h
  -- most escapes take one character
  all_goals try (simp only [Option.some.injEq] at h; subst h; simp only [List.length_cons]; omega)
  · simp at h
  · split at h <;> (simp only [Option.some.injEq] at h; subst h; simp)
  -- the others take the sign of a code and its digits
  · simp only [bind, Option.bind_eq_some_iff] at h
    obtain ⟨⟨code, after⟩, hRead, c, -, hEscape⟩ := h
    cases hEscape
    have := length_readHex hRead
    simp only [List.length_cons]
    omega
  · have := length_readPoint h
    simp only [List.length_cons]
    omega
  · have := length_readUnit h
    simp only [List.length_cons]
    omega
  · split at h <;> (simp only [Option.some.injEq] at h; subst h; simp)

/-- The value of the text between the quotes. -/
def decodeBody : List Char → Option (List Char)
  | [] => some []
  | c :: rest =>
    if c = '\\' then
      match _h : readEscape rest with
      | none => none
      | some e => (decodeBody e.rest).map (e.value.toList ++ ·)
    else (decodeBody rest).map (c :: ·)
termination_by text => text.length
decreasing_by
  · have := length_readEscape _h
    simp only [List.length_cons]
    omega
  · simp

/-- What stands between the two quotes of a literal, if it has them. -/
def unquote? : List Char → Option (List Char)
  | [] => none
  | q :: rest =>
    if (q = '\x27' ∨ q = '\x22') ∧ rest.getLast? = some q then some rest.dropLast else none

/-- The value of a literal, quotes included. There is none for a text that is not quoted on both
sides or that holds a malformed escape. -/
def decodeLiteral (raw : String) : Option String := do
  let body ← unquote? raw.toList
  let value ← decodeBody body
  some (String.ofList value)

end KeyRegistry.Text

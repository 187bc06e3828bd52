import KeyRegistry.Proofs.Text.Quotation

/-!
# The parts of a literal

What stands between the quotes of a literal is a row of parts: characters that stand for
themselves, escapes of several kinds, and line ends behind a backslash, which continue the line.
The parts are given here as data, with the text that each is written as and with what a row of
them means, and neither refers to how literals are read. Reading gives the meaning, with one
exception: half of a surrogate pair that is written between braces is refused.

A part can be told apart from what follows it but for one case. A carriage return that continues
the line takes a line feed behind it along, so that in a row of parts no plain line feed may
follow it.

Main definitions:

* `HexDigit`, `LineEnd`, `Part` — the parts, and `Part.write`, `written` — their text
* `meaning` — what a row of parts stands for
* `Separate` — each part ends where the next one begins

Main statements:

* `decodeBody_written` — reading what is written gives the meaning, but for a half between braces
* `decodeLiteral_literal` — the same of a literal
-/

namespace KeyRegistry.Text

/-! ## Parts -/

/-- A hexadecimal digit as it is written, in either case. -/
structure HexDigit where
  char : Char
  value : Nat
  reads : hexValue? char = some value

/-- The number that digits make up, read on from a number. -/
def numberFrom (start : Nat) (digits : List HexDigit) : Nat :=
  digits.foldl (fun number digit => number * 16 + digit.value) start

/-- The number that digits make up. -/
def number (digits : List HexDigit) : Nat :=
  numberFrom 0 digits

/-- Digits as they are written. -/
def digitChars (digits : List HexDigit) : List Char :=
  digits.map HexDigit.char

/-- The end of a line. -/
inductive LineEnd where
  | lineFeed
  | carriageReturn
  | returnAndFeed
  | lineSeparator
  | paragraphSeparator
  deriving DecidableEq

/-- The characters that end a line. -/
def LineEnd.chars : LineEnd → List Char
  | .lineFeed => ['\n']
  | .carriageReturn => ['\r']
  | .returnAndFeed => ['\r', '\n']
  | .lineSeparator => ['\u2028']
  | .paragraphSeparator => ['\u2029']

/-- The characters that are no escape of their own behind a backslash: two of them open a code, and
the others end a line. -/
def notSingle : List Char := ['x', 'u', '\n', '\r', '\u2028', '\u2029']

/-- A part of what stands between the quotes of a literal. -/
inductive Part where
  /-- A character that stands for itself. -/
  | plain (c : Char) (notEscape : c ≠ '\\')
  /-- A backslash with one character behind it. -/
  | escaped (c : Char) (isSingle : c ∉ notSingle)
  /-- A backslash with the end of a line behind it. -/
  | continuation (lineEnd : LineEnd)
  /-- A code of two digits. -/
  | byte (digits : List HexDigit) (two : digits.length = 2)
  /-- A code of four digits. -/
  | unit (digits : List HexDigit) (four : digits.length = 4)
  /-- A code between braces. -/
  | point (digits : List HexDigit) (nonempty : digits ≠ []) (inRange : number digits ≤ 0x10FFFF)

/-- A part as it is written. -/
def Part.write : Part → List Char
  | .plain c _ => [c]
  | .escaped c _ => ['\\', c]
  | .continuation lineEnd => '\\' :: lineEnd.chars
  | .byte digits _ => '\\' :: 'x' :: digitChars digits
  | .unit digits _ => '\\' :: 'u' :: digitChars digits
  | .point digits _ _ => '\\' :: 'u' :: '{' :: (digitChars digits ++ ['}'])

/-- Parts as they are written, one behind the other. -/
def written (parts : List Part) : List Char :=
  parts.flatMap Part.write

/-- A text between two quotes of one kind. -/
def quoted (quote : Char) (body : List Char) : String :=
  String.ofList (quote :: (body ++ [quote]))

/-- A literal with the given quote and parts. -/
def literal (quote : Char) (parts : List Part) : String :=
  quoted quote (written parts)

/-- A quote of a literal. -/
def IsQuote (quote : Char) : Prop :=
  quote = '\x27' ∨ quote = '\x22'

/-! ## Meaning -/

/-- The code of the first half of a surrogate pair. -/
def IsHigh (code : Nat) : Prop :=
  0xD800 ≤ code ∧ code ≤ 0xDBFF

/-- The code of the second half of a surrogate pair. -/
def IsLow (code : Nat) : Prop :=
  0xDC00 ≤ code ∧ code ≤ 0xDFFF

instance : DecidablePred IsHigh := fun code =>
  inferInstanceAs (Decidable (0xD800 ≤ code ∧ code ≤ 0xDBFF))

instance : DecidablePred IsLow := fun code =>
  inferInstanceAs (Decidable (0xDC00 ≤ code ∧ code ≤ 0xDFFF))

/-- The code of half of a surrogate pair. -/
def IsHalf (code : Nat) : Prop :=
  IsHigh code ∨ IsLow code

instance : DecidablePred IsHalf := fun code =>
  inferInstanceAs (Decidable (IsHigh code ∨ IsLow code))

/-- The character of a code; half of a surrogate pair has none and is replaced. -/
def character (code : Nat) : Char :=
  if IsHalf code then replacement else Char.ofNat code

/-- The character of a surrogate pair. -/
def pairCharacter (high low : Nat) : Char :=
  Char.ofNat (0x10000 + (high - 0xD800) * 0x400 + (low - 0xDC00))

/-- Whether a text starts with a decimal digit. -/
def startsWithDigit (text : List Char) : Bool :=
  (text.head?.map Char.isDigit).getD false

/-- What a character stands for behind a backslash. A zero is a character of its own in front of a
digit. -/
def single (c : Char) (digitNext : Bool) : Char :=
  match c with
  | 'n' => '\n'
  | 'r' => '\r'
  | 't' => '\t'
  | 'b' => '\x08'
  | 'f' => '\x0c'
  | 'v' => '\x0b'
  | '0' => if digitNext then '0' else '\x00'
  | c => c

/-- What a row of parts stands for. Codes of four digits make up a pair if a first half and a second
half follow each other. -/
def meaning : List Part → List Char
  | [] => []
  | .plain c _ :: rest => c :: meaning rest
  | .escaped c _ :: rest => single c (startsWithDigit (written rest)) :: meaning rest
  | .continuation _ :: rest => meaning rest
  | .byte digits _ :: rest => character (number digits) :: meaning rest
  | .point digits _ _ :: rest => character (number digits) :: meaning rest
  | .unit high _ :: .unit low four :: rest =>
    if IsHigh (number high) ∧ IsLow (number low) then
      pairCharacter (number high) (number low) :: meaning rest
    else character (number high) :: meaning (.unit low four :: rest)
  | .unit digits _ :: rest => character (number digits) :: meaning rest

/-- Each part ends where the next one begins: no line feed follows a carriage return that continues
the line. -/
def Separate : List Part → Prop
  | [] => True
  | part :: rest =>
    (part = .continuation .carriageReturn → (written rest).head? ≠ some '\n') ∧ Separate rest

/-- Whether a part is a code between braces that is half of a surrogate pair. -/
def Part.isBracedHalf : Part → Bool
  | .point digits _ _ => IsHalf (number digits)
  | _ => false

variable {parts : List Part} {tail : List Char} {digits : List HexDigit} {start : Nat}

/-! ## Digits -/

/-- A digit has a value below the base. -/
theorem HexDigit.value_lt (digit : HexDigit) : digit.value < 16 := by
  obtain ⟨c, value, hReads⟩ := digit
  rw [hexValue?] at hReads
  -- the last character of each range bounds the values of its digits
  split at hReads
  · next hDigit =>
    have hBound : c.toNat ≤ 57 := hDigit.2
    cases hReads
    dsimp only
    omega
  · split at hReads
    · next hLetter =>
      have hBound : c.toNat ≤ 102 := hLetter.2
      cases hReads
      dsimp only
      omega
    · split at hReads
      · next hLetter =>
        have hBound : c.toNat ≤ 70 := hLetter.2
        cases hReads
        dsimp only
        omega
      · cases hReads

/-- A number is read digit by digit. -/
theorem numberFrom_cons (digit : HexDigit) :
    numberFrom start (digit :: digits) = numberFrom (start * 16 + digit.value) digits := rfl

/-- More digits do not make a number smaller. -/
theorem le_numberFrom : start ≤ numberFrom start digits := by
  induction digits generalizing start with
  | nil => exact Nat.le_refl start
  | cons digit digits ih =>
    have hMore : start * 16 + digit.value ≤ numberFrom (start * 16 + digit.value) digits := ih
    rw [numberFrom_cons]
    omega

/-- A number is bounded by the count of its digits. -/
theorem numberFrom_lt : numberFrom start digits < (start + 1) * Nat.pow 16 digits.length := by
  induction digits generalizing start with
  | nil => simp [numberFrom]
  | cons digit digits ih =>
    have hValue := digit.value_lt
    have hStep : start * 16 + digit.value + 1 ≤ (start + 1) * 16 := by omega
    have hPower : Nat.pow 16 (digits.length + 1) = Nat.pow 16 digits.length * 16 := rfl
    calc numberFrom start (digit :: digits)
        < (start * 16 + digit.value + 1) * Nat.pow 16 digits.length := ih
      _ ≤ (start + 1) * 16 * Nat.pow 16 digits.length := Nat.mul_le_mul_right _ hStep
      _ = (start + 1) * Nat.pow 16 (digits.length + 1) := by
        rw [hPower, Nat.mul_assoc, Nat.mul_comm 16]

/-- A given number of digits is read as what they make up. -/
theorem readHex_digitChars {count : Nat} (hCount : digits.length = count) :
    readHex count start (digitChars digits ++ tail) = some (numberFrom start digits, tail) := by
  subst hCount
  induction digits generalizing start with
  | nil => rfl
  | cons digit digits ih =>
    rw [digitChars, List.map_cons, List.length_cons, List.cons_append, readHex, digit.reads]
    exact ih

/-- So are digits in front of a brace, as long as they make up a code. -/
theorem readBraced_digitChars {seen : Bool} (hSome : digits ≠ [] ∨ seen = true)
    (hRange : numberFrom start digits ≤ 0x10FFFF) :
    readBraced start seen (digitChars digits ++ '}' :: tail) =
      some (numberFrom start digits, tail) := by
  induction digits generalizing start seen with
  | nil =>
    rw [digitChars, List.map_nil, List.nil_append, readBraced, if_pos rfl,
      if_pos (hSome.resolve_left fun hNone => hNone rfl)]
    rfl
  | cons digit digits ih =>
    have hBrace : digit.char ≠ '}' := by
      intro hEq
      have hReads := digit.reads
      rw [hEq] at hReads
      cases hReads
    -- the number grows with each digit, so it has not passed the limit on the way
    have hLimit : start * 16 + digit.value < UInt32.size := by
      have hGrows : start * 16 + digit.value ≤ numberFrom start (digit :: digits) := le_numberFrom
      have hSize : UInt32.size = 4294967296 := rfl
      omega
    rw [digitChars, List.map_cons, List.cons_append, readBraced, if_neg hBrace, digit.reads,
      Option.bind_eq_bind, Option.bind_some, if_pos hLimit]
    exact ih (Or.inr rfl) hRange

/-- Half of a pair by itself is replaced. -/
theorem character_of_half {code : Nat} (h : IsHalf code) : character code = replacement := by
  rw [character, if_pos h]

/-- A code has a character unless it is half of a surrogate pair. -/
theorem charOfCode?_eq {code : Nat} (hRange : code ≤ 0x10FFFF) :
    charOfCode? code = if IsHalf code then none else some (character code) := by
  by_cases hHalf : IsHalf code
  · have hInvalid : ¬ code.isValidChar := by
      unfold IsHalf IsHigh IsLow at hHalf
      unfold Nat.isValidChar
      omega
    rw [charOfCode?, dif_neg hInvalid, if_pos hHalf]
  · have hValid : code.isValidChar := by
      unfold IsHalf IsHigh IsLow at hHalf
      unfold Nat.isValidChar
      omega
    rw [charOfCode?, dif_pos hValid, if_neg hHalf, character, if_neg hHalf]

/-! ## Reading one part -/

/-- Behind a backslash an escape is decoded and then the rest. -/
theorem decodeBody_backslash (text : List Char) :
    decodeBody ('\\' :: text) =
      (readEscape text).bind fun e => (decodeBody e.rest).map (e.value.toList ++ ·) := by
  rw [decodeBody, if_pos rfl]
  split <;> next hRead => rw [hRead]; rfl

/-- A character that is no code and no line end is an escape of its own. -/
theorem readEscape_single {c : Char} (hSingle : c ∉ notSingle) :
    readEscape (c :: tail) = some ⟨some (single c (startsWithDigit tail)), tail⟩ := by
  simp only [notSingle, List.mem_cons, List.not_mem_nil, or_false, not_or] at hSingle
  obtain ⟨hByte, hCode, hFeed, hReturn, hLine, hParagraph⟩ := hSingle
  unfold readEscape
  split
  case h_1 hText => cases hText
  case h_2 hText | h_3 hText | h_4 hText | h_5 hText | h_6 hText | h_7 hText =>
    cases hText
    rfl
  case h_8 hText =>
    cases hText
    rw [single, startsWithDigit]
    split <;> rfl
  -- these open a code or end a line
  case h_9 hText => exact absurd (List.cons.inj hText).1 hByte
  case h_10 hText | h_11 _ hText => exact absurd (List.cons.inj hText).1 hCode
  case h_12 hText => exact absurd (List.cons.inj hText).1 hReturn
  case h_13 hNew hReturn' hTab hBack hForm hVertical hZero _ _ _ _ hText =>
    cases hText
    have hSelf : single c (startsWithDigit tail) = c := by
      unfold single
      split <;> first | rfl | contradiction
    rw [if_neg (by simp [hFeed, hReturn, hLine, hParagraph]), hSelf]

/-- A line end is taken as a whole, and contributes nothing. -/
theorem readEscape_lineEnd {lineEnd : LineEnd}
    (hEnd : lineEnd = .carriageReturn → tail.head? ≠ some '\n') :
    readEscape (lineEnd.chars ++ tail) = some ⟨none, tail⟩ := by
  cases lineEnd with
  | lineFeed | returnAndFeed | lineSeparator | paragraphSeparator => rfl
  | carriageReturn =>
    -- a line feed behind it would belong to it
    cases tail with
    | nil => rfl
    | cons c tail =>
      have hFeed : c ≠ '\n' := fun hEq => hEnd rfl (by rw [hEq]; rfl)
      simp [LineEnd.chars, readEscape, hFeed]

/-- Two digits make up a code that is no half of a pair. -/
theorem readEscape_byte (hTwo : digits.length = 2) :
    readEscape ('x' :: (digitChars digits ++ tail)) =
      some ⟨some (character (number digits)), tail⟩ := by
  have hSmall : number digits < 256 := by
    have hBound : number digits < (0 + 1) * Nat.pow 16 digits.length := numberFrom_lt
    rw [hTwo] at hBound
    exact hBound
  have hWhole : ¬ IsHalf (number digits) := by
    unfold IsHalf IsHigh IsLow
    omega
  rw [readEscape, readHex_digitChars hTwo, Option.bind_eq_bind, Option.bind_some]
  dsimp only
  rw [← number, charOfCode?_eq (by omega), if_neg hWhole]
  rfl

/-- A code between braces is refused if it is half of a pair. -/
theorem readEscape_point (hSome : digits ≠ []) (hRange : number digits ≤ 0x10FFFF) :
    readEscape ('u' :: '{' :: (digitChars digits ++ '}' :: tail)) =
      if IsHalf (number digits) then none else some ⟨some (character (number digits)), tail⟩ := by
  rw [readEscape, readPoint, readBraced_digitChars (Or.inl hSome) hRange, Option.bind_eq_bind,
    Option.bind_some]
  dsimp only
  rw [← number, charOfCode?_eq hRange]
  split <;> rfl

/-- Four digits write a number of 16 bits. -/
theorem number_unit_lt (hFour : digits.length = 4) : number digits < 0x10000 := by
  have hBound : number digits < (0 + 1) * Nat.pow 16 digits.length := numberFrom_lt
  rw [hFour] at hBound
  exact hBound

/-- Four digits do not start with a brace. -/
theorem head?_digitChars_append (hFour : digits.length = 4) :
    (digitChars digits ++ tail).head? ≠ some '{' := by
  cases digits with
  | nil => cases hFour
  | cons digit digits =>
    intro hBrace
    have hReads := digit.reads
    rw [digitChars, List.map_cons, List.cons_append, List.head?_cons, Option.some.injEq] at hBrace
    rw [hBrace] at hReads
    cases hReads

/-- Four digits are a second half if they say so. -/
theorem readLowHalf_unit (hFour : digits.length = 4) :
    readLowHalf ('\\' :: 'u' :: (digitChars digits ++ tail)) =
      if IsLow (number digits) then some (number digits, tail) else none := by
  rw [readLowHalf, readHex_digitChars hFour, Option.bind_eq_bind, Option.bind_some]
  rfl

/-- Four digits make up a code, unless they are a first half with a second half behind it. -/
theorem readEscape_unit_alone (hFour : digits.length = 4)
    (hAlone : IsHigh (number digits) → readLowHalf tail = none) :
    readEscape ('u' :: (digitChars digits ++ tail)) =
      some ⟨some (character (number digits)), tail⟩ := by
  have hBound := number_unit_lt hFour
  rw [readEscape_unit (head?_digitChars_append hFour), readUnit, readHex_digitChars hFour,
    Option.bind_eq_bind, Option.bind_some]
  dsimp only
  rw [← number]
  -- a high half finds no low one behind it, and every other unit is read alone anyway
  split
  · next hHigh => rw [hAlone hHigh, character_of_half (Or.inl hHigh)]
  · next hNotHigh =>
    split
    · next hLow => rw [character_of_half (Or.inr hLow)]
    · next hNotLow =>
      have hWhole : ¬ IsHalf (number digits) := not_or.mpr ⟨hNotHigh, hNotLow⟩
      rw [charOfCode?_eq (by omega), if_neg hWhole]
      rfl

/-- Two halves that follow each other make up a pair. -/
theorem readEscape_unit_pair {low : List HexDigit} (hFour : digits.length = 4)
    (hLowFour : low.length = 4) (hHigh : IsHigh (number digits)) (hLow : IsLow (number low)) :
    readEscape ('u' :: (digitChars digits ++ '\\' :: 'u' :: (digitChars low ++ tail))) =
      some ⟨some (pairCharacter (number digits) (number low)), tail⟩ := by
  have hRange : 0xD800 ≤ number digits ∧ number digits ≤ 0xDBFF := hHigh
  have hLowRange : 0xDC00 ≤ number low ∧ number low ≤ 0xDFFF := hLow
  have hValid :
      (0x10000 + (number digits - 0xD800) * 0x400 + (number low - 0xDC00)).isValidChar := by
    unfold Nat.isValidChar
    omega
  rw [readEscape_unit (head?_digitChars_append hFour), readUnit, readHex_digitChars hFour,
    Option.bind_eq_bind, Option.bind_some]
  dsimp only
  rw [← number, if_pos hRange, readLowHalf_unit hLowFour, if_pos hLow]
  dsimp only
  rw [charOfCode?, dif_pos hValid]
  rfl

/-! ## Reading a row of parts -/

/-- Parts are written one after the other. -/
theorem written_cons (part : Part) : written (part :: parts) = part.write ++ written parts := rfl

/-- Only four digits are read as a second half. -/
theorem readLowHalf_written (hTail : readLowHalf tail = none)
    (hNone : ∀ low four rest, parts = .unit low four :: rest → ¬ IsLow (number low)) :
    readLowHalf (written parts ++ tail) = none := by
  cases parts with
  | nil => exact hTail
  | cons part rest =>
    rw [written_cons, List.append_assoc]
    -- only an escape of four digits can be a low half, and this one is none by assumption
    cases part with
    | plain c hEscape => simp [Part.write, readLowHalf, hEscape]
    | escaped c hSingle =>
      have hCode : c ≠ 'u' := by
        rintro rfl
        exact hSingle (by decide)
      simp [Part.write, readLowHalf, hCode]
    | continuation lineEnd => cases lineEnd <;> rfl
    | byte digits two => rfl
    | unit digits four =>
      show readLowHalf ('\\' :: 'u' :: (digitChars digits ++ (written rest ++ tail))) = none
      rw [readLowHalf_unit four, if_neg (hNone digits four rest rfl)]
    | point digits nonempty inRange => rfl

/-- What follows a part is no digit, whether or not the part is empty. -/
theorem startsWithDigit_append (hTail : ∀ c ∈ tail.head?, c = '\\') (text : List Char) :
    startsWithDigit (text ++ tail) = startsWithDigit text := by
  cases text with
  | cons c text => rfl
  | nil =>
    cases tail with
    | nil => rfl
    | cons c tail =>
      rw [hTail c rfl]
      rfl

/-- What follows a part is no line end, whether or not the part is empty. -/
theorem head?_append_ne (hTail : ∀ c ∈ tail.head?, c = '\\') {text : List Char}
    (hText : text.head? ≠ some '\n') : (text ++ tail).head? ≠ some '\n' := by
  cases text with
  | cons c text => exact hText
  | nil =>
    intro hFeed
    have hEq := hTail '\n' (by rw [List.nil_append] at hFeed; exact hFeed)
    exact absurd hEq (by decide)

/-- Digits that make up no pair with what follows stand for themselves. -/
theorem meaning_unit_alone {four : digits.length = 4}
    (hAlone : ∀ low four rest, parts = .unit low four :: rest →
      ¬ (IsHigh (number digits) ∧ IsLow (number low))) :
    meaning (.unit digits four :: parts) = character (number digits) :: meaning parts := by
  cases parts with
  | nil => rfl
  | cons part rest =>
    cases part with
    | unit low four => rw [meaning, if_neg (hAlone low four rest rfl)]
    | plain | escaped | continuation | byte | point => rfl

/-- An escape contributes its value in front of what follows. -/
theorem decodeBody_of_readEscape {text rest values : List Char} {value : Option Char}
    {result : Option (List Char)} (hRead : readEscape text = some ⟨value, rest⟩)
    (hRest : decodeBody rest = result.map (values ++ ·)) :
    decodeBody ('\\' :: text) = result.map (value.toList ++ values ++ ·) := by
  rw [decodeBody_backslash, hRead, Option.bind_some]
  dsimp only
  rw [hRest, Option.map_map]
  simp only [Function.comp_def, List.append_assoc]

/-- A body is refused if an escape in it is. -/
theorem decodeBody_of_refused {text : List Char} (hRead : readEscape text = none) :
    decodeBody ('\\' :: text) = none := by
  rw [decodeBody_backslash, hRead, Option.bind_none]

/-- Reading what is written gives the meaning in front of what is read behind it, if that is set off
by a backslash and is no second half. If a half of a pair stands between braces, nothing is read. -/
theorem decodeBody_written_append (hSeparate : Separate parts)
    (hTail : ∀ c ∈ tail.head?, c = '\\') (hLow : readLowHalf tail = none) :
    decodeBody (written parts ++ tail) =
      (if parts.any Part.isBracedHalf then none else decodeBody tail).map (meaning parts ++ ·) := by
  -- the cases are those of the meaning, so that a pair is read in one step
  induction parts using meaning.induct with
  | case1 => simp [written, meaning]
  | case2 c hEscape rest ih =>
    show decodeBody (c :: (written rest ++ tail)) = _
    rw [decodeBody_of_ne hEscape, ih hSeparate.2, Option.map_map]
    rfl
  | case3 c hSingle rest ih =>
    have hRead : readEscape (c :: (written rest ++ tail)) =
        some ⟨some (single c (startsWithDigit (written rest))), written rest ++ tail⟩ := by
      rw [readEscape_single hSingle, startsWithDigit_append hTail]
    exact decodeBody_of_readEscape hRead (ih hSeparate.2)
  | case4 lineEnd rest ih =>
    have hRead : readEscape (lineEnd.chars ++ (written rest ++ tail)) =
        some ⟨none, written rest ++ tail⟩ :=
      readEscape_lineEnd fun hEnd => head?_append_ne hTail (hSeparate.1 (by rw [hEnd]))
    rw [written_cons, List.append_assoc]
    exact decodeBody_of_readEscape hRead (ih hSeparate.2)
  | case5 digits two rest ih =>
    rw [written_cons, List.append_assoc]
    exact decodeBody_of_readEscape (readEscape_byte two) (ih hSeparate.2)
  | case6 digits nonempty inRange rest ih =>
    have hWrite : written (.point digits nonempty inRange :: rest) ++ tail =
        '\\' :: 'u' :: '{' :: (digitChars digits ++ '}' :: (written rest ++ tail)) := by
      simp [written_cons, Part.write]
    have hRead : readEscape ('u' :: '{' :: (digitChars digits ++ '}' :: (written rest ++ tail))) =
        if IsHalf (number digits) then none
        else some ⟨some (character (number digits)), written rest ++ tail⟩ :=
      readEscape_point nonempty inRange
    rw [hWrite, List.any_cons, Part.isBracedHalf]
    -- half of a pair is refused between braces, whatever stands behind it
    by_cases hHalf : IsHalf (number digits)
    · rw [if_pos hHalf] at hRead
      rw [decodeBody_of_refused hRead, decide_eq_true hHalf, Bool.true_or]
      rfl
    · rw [if_neg hHalf] at hRead
      rw [decide_eq_false hHalf, Bool.false_or]
      exact decodeBody_of_readEscape hRead (ih hSeparate.2)
  | case7 high four low four' rest hPair ih =>
    have hWrite : written (.unit high four :: .unit low four' :: rest) ++ tail = '\\' :: 'u' ::
        (digitChars high ++ '\\' :: 'u' :: (digitChars low ++ (written rest ++ tail))) := by
      simp [written_cons, Part.write]
    rw [hWrite, meaning, if_pos hPair]
    exact decodeBody_of_readEscape (readEscape_unit_pair four four' hPair.1 hPair.2)
      (ih hSeparate.2.2)
  | case8 high four low four' rest hPair ih =>
    -- four more digits follow, but they are no second half
    have hAlone : IsHigh (number high) →
        readLowHalf (written (.unit low four' :: rest) ++ tail) = none := by
      intro hHigh
      refine readLowHalf_written hLow fun other _ _ hEq => ?_
      cases hEq
      exact fun hIsLow => hPair ⟨hHigh, hIsLow⟩
    rw [meaning, if_neg hPair, written_cons, List.append_assoc]
    exact decodeBody_of_readEscape (readEscape_unit_alone four hAlone) (ih hSeparate.2)
  | case9 digits four rest hNone ih =>
    have hAlone : IsHigh (number digits) → readLowHalf (written rest ++ tail) = none :=
      fun _ => readLowHalf_written hLow fun low four rest hEq => (hNone low four rest hEq).elim
    rw [meaning_unit_alone fun low four rest hEq => (hNone low four rest hEq).elim, written_cons,
      List.append_assoc]
    exact decodeBody_of_readEscape (readEscape_unit_alone four hAlone) (ih hSeparate.2)

/-- Reading what is written gives the meaning, unless a half of a pair stands between braces. -/
theorem decodeBody_written (hSeparate : Separate parts) :
    decodeBody (written parts) =
      if parts.any Part.isBracedHalf then none else some (meaning parts) := by
  have hRead : decodeBody (written parts ++ []) =
      (if parts.any Part.isBracedHalf then none else decodeBody []).map (meaning parts ++ ·) :=
    decodeBody_written_append hSeparate (by simp) rfl
  rw [List.append_nil] at hRead
  rw [hRead, decodeBody]
  split <;> simp

/-- A literal in quotes is decoded as its body. -/
theorem decodeLiteral_quoted {quote : Char} (hQuote : IsQuote quote) (body : List Char) :
    decodeLiteral (quoted quote body) = (decodeBody body).map String.ofList := by
  rw [quoted, decodeLiteral, String.toList_ofList, unquote?_of_quoted hQuote, Option.bind_eq_bind,
    Option.bind_some, Option.map_eq_bind]
  rfl

/-- A literal has the meaning of its parts for its value. -/
theorem decodeLiteral_literal {quote : Char} (hQuote : IsQuote quote) (hSeparate : Separate parts) :
    decodeLiteral (literal quote parts) =
      if parts.any Part.isBracedHalf then none else some (String.ofList (meaning parts)) := by
  rw [literal, decodeLiteral_quoted hQuote, decodeBody_written hSeparate]
  split <;> rfl

end KeyRegistry.Text

import KeyRegistry.Proofs.Text.Parts

/-!
# Spellings of a text

A character can be written between quotes in up to eight ways, each character in a way of its own,
and the line can be continued anywhere. A literal has the text for its value, whichever ways are
chosen. Two of the ways ask for care with what follows: a zero behind a backslash must not be
followed by a digit, and a line that ends in a carriage return must not go on with a line feed. The
latter cannot happen, since a line feed is always written as an escape.

Main definitions:

* `Spelling` — the ways to write a character
* `Spells` — the ways to write a text

Main statements:

* `decodeLiteral_of_spells` — a literal that spells a text has it for its value
-/

namespace KeyRegistry.Text

variable {quote c : Char} {text : List Char} {parts rest : List Part}

/-! ## Ways to write a character -/

/-- The letters that stand for another character behind a backslash, with these characters. -/
def letterEscapes : List (Char × Char) :=
  [('n', '\n'), ('r', '\r'), ('t', '\t'), ('b', '\x08'), ('f', '\x0c'), ('v', '\x0b')]

/-- The ways to write a character between quotes. -/
inductive Spelling (quote c : Char) : List Part → Prop
  /-- As it stands, if it is neither the quote nor a backslash and does not end the line. -/
  | plain (notEscape : c ≠ '\\') (notQuote : c ≠ quote) (notEnd : c ≠ '\n' ∧ c ≠ '\r') :
      Spelling quote c [.plain c notEscape]
  /-- By a letter that stands for it. -/
  | letter {name : Char} (isSingle : name ∉ notSingle) (isName : (name, c) ∈ letterEscapes) :
      Spelling quote c [.escaped name isSingle]
  /-- By a zero, if it is the character zero. -/
  | zero (isSingle : '0' ∉ notSingle) (isZero : c = '\x00') :
      Spelling quote c [.escaped '0' isSingle]
  /-- By itself behind a backslash, if this has no other meaning. -/
  | itself (isSingle : c ∉ notSingle) (notDigit : c.isDigit = false)
      (noName : ∀ other, (c, other) ∉ letterEscapes) : Spelling quote c [.escaped c isSingle]
  /-- By its code in two digits. -/
  | byte {digits : List HexDigit} (two : digits.length = 2) (isCode : number digits = c.toNat) :
      Spelling quote c [.byte digits two]
  /-- By its code in four digits. -/
  | unit {digits : List HexDigit} (four : digits.length = 4) (isCode : number digits = c.toNat) :
      Spelling quote c [.unit digits four]
  /-- By the two halves of its surrogate pair. -/
  | pair {high low : List HexDigit} (four : high.length = 4) (four' : low.length = 4)
      (beyond : 0x10000 ≤ c.toNat) (isHigh : number high = 0xD800 + (c.toNat - 0x10000) / 0x400)
      (isLow : number low = 0xDC00 + (c.toNat - 0x10000) % 0x400) :
      Spelling quote c [.unit high four, .unit low four']
  /-- By its code between braces, with any number of leading zeros. -/
  | point {digits : List HexDigit} (nonempty : digits ≠ []) (inRange : number digits ≤ 0x10FFFF)
      (isCode : number digits = c.toNat) : Spelling quote c [.point digits nonempty inRange]

/-- The ways to write a text: each character in one of its ways, and between the characters any
number of line ends behind backslashes. A zero behind a backslash is not followed by a digit. -/
inductive Spells (quote : Char) : List Char → List Part → Prop
  | done : Spells quote [] []
  | continued {text : List Char} {rest : List Part} (lineEnd : LineEnd)
      (spelled : Spells quote text rest) : Spells quote text (.continuation lineEnd :: rest)
  | write {c : Char} {text : List Char} {parts rest : List Part} (spelling : Spelling quote c parts)
      (noDigit : written parts = ['\\', '0'] → startsWithDigit (written rest) = false)
      (spelled : Spells quote text rest) : Spells quote (c :: text) (parts ++ rest)

/-! ## What is spelled -/

/-- No character is half of a pair. -/
theorem not_isHalf_toNat (c : Char) : ¬ IsHalf c.toNat := by
  have hValid : c.toNat.isValidChar := c.valid
  unfold Nat.isValidChar at hValid
  unfold IsHalf IsHigh IsLow
  omega

/-- The code of a character is decoded to it. -/
theorem character_toNat (c : Char) : character c.toNat = c := by
  rw [character, if_neg (not_isHalf_toNat c), Char.ofNat_toNat]

/-- The two halves of a character are decoded to it. -/
theorem pairCharacter_toNat (hBeyond : 0x10000 ≤ c.toNat) :
    pairCharacter (0xD800 + (c.toNat - 0x10000) / 0x400) (0xDC00 + (c.toNat - 0x10000) % 0x400) =
      c := by
  have hCode : 0x10000 + (0xD800 + (c.toNat - 0x10000) / 0x400 - 0xD800) * 0x400 +
      (0xDC00 + (c.toNat - 0x10000) % 0x400 - 0xDC00) = c.toNat := by omega
  rw [pairCharacter, hCode, Char.ofNat_toNat]

/-- A character with no letter escape of its own stands for itself behind a backslash. -/
theorem single_of_noName (hDigit : c.isDigit = false)
    (hNoName : ∀ other, (c, other) ∉ letterEscapes)
    (digitNext : Bool) : single c digitNext = c := by
  unfold single
  split
  case h_7 => cases hDigit
  case h_8 => rfl
  -- the letters are in the table
  all_goals simp [letterEscapes] at hNoName

/-- The letter of an escape is decoded to its character. -/
theorem single_of_name {name : Char} (hName : (name, c) ∈ letterEscapes) (digitNext : Bool) :
    single name digitNext = c := by
  simp only [letterEscapes, List.mem_cons, List.not_mem_nil, or_false, Prod.mk.injEq] at hName
  rcases hName with ⟨rfl, rfl⟩ | ⟨rfl, rfl⟩ | ⟨rfl, rfl⟩ | ⟨rfl, rfl⟩ | ⟨rfl, rfl⟩ | ⟨rfl, rfl⟩
    <;> rfl

/-- A spelling means its character, whatever is written behind it. -/
theorem Spelling.meaning_append (h : Spelling quote c parts)
    (hZero : written parts = ['\\', '0'] → startsWithDigit (written rest) = false) :
    meaning (parts ++ rest) = c :: meaning rest := by
  cases h with
  | plain => rfl
  | letter isSingle isName =>
    rw [List.singleton_append, meaning, single_of_name isName]
  | zero isSingle isZero =>
    rw [List.singleton_append, meaning, hZero rfl, isZero]
    rfl
  | itself isSingle notDigit noName =>
    rw [List.singleton_append, meaning, single_of_noName notDigit noName]
  | byte two isCode => rw [List.singleton_append, meaning, isCode, character_toNat]
  | unit four isCode =>
    -- the code of a character is no first half, so nothing behind it can make up a pair with it
    have hAlone : ∀ low four' more, rest = .unit low four' :: more →
        ¬ (IsHigh c.toNat ∧ IsLow (number low)) :=
      fun _ _ _ _ hPair => not_isHalf_toNat c (Or.inl hPair.1)
    rw [← isCode] at hAlone
    rw [List.singleton_append, meaning_unit_alone hAlone, isCode, character_toNat]
  | pair four four' beyond isHigh isLow =>
    have hBound : c.toNat < 0x110000 := by
      have hValid : c.toNat.isValidChar := c.valid
      unfold Nat.isValidChar at hValid
      omega
    have hPair : IsHigh (0xD800 + (c.toNat - 0x10000) / 0x400) ∧
        IsLow (0xDC00 + (c.toNat - 0x10000) % 0x400) := by
      unfold IsHigh IsLow
      omega
    rw [List.cons_append, List.singleton_append, meaning, isHigh, isLow, if_pos hPair,
      pairCharacter_toNat beyond]
  | point nonempty inRange isCode =>
    rw [List.singleton_append, meaning, isCode, character_toNat]

/-- No spelling has half of a pair between braces. -/
theorem Spelling.any_isBracedHalf (h : Spelling quote c parts) :
    parts.any Part.isBracedHalf = false := by
  cases h with
  | plain | letter | zero | itself | byte | unit | pair => rfl
  | point nonempty inRange isCode =>
    rw [List.any_cons, Part.isBracedHalf, isCode, decide_eq_false (not_isHalf_toNat c)]
    rfl

/-- A spelling does not start with a line feed. -/
theorem Spelling.head?_written (h : Spelling quote c parts) :
    ∃ first more, written parts = first :: more ∧ first ≠ '\n' := by
  cases h with
  | plain notEscape notQuote notEnd => exact ⟨c, [], rfl, notEnd.1⟩
  | letter | zero | itself | byte | unit | pair | point =>
    exact ⟨'\\', _, rfl, by decide⟩

/-- A spelling has no line end behind a backslash, and what follows it may be anything. -/
theorem Spelling.separate_append (h : Spelling quote c parts) (hRest : Separate rest) :
    Separate (parts ++ rest) := by
  have hNoEnd : ∀ part ∈ parts, part ≠ .continuation .carriageReturn := by
    cases h <;> simp
  clear h
  induction parts with
  | nil => exact hRest
  | cons part parts ih =>
    refine ⟨fun hEnd => absurd hEnd (hNoEnd part List.mem_cons_self), ih ?_⟩
    exact fun other hMem => hNoEnd other (List.mem_cons_of_mem _ hMem)

/-! ## Spelling a text -/

/-- What spells a text does not start with a line end. -/
theorem Spells.head?_written (h : Spells quote text parts) :
    (written parts).head? ≠ some '\n' := by
  cases h with
  | done => simp [written]
  | continued lineEnd spelled => simp [written_cons, Part.write]
  | write spelling noDigit spelled =>
    obtain ⟨first, more, hWritten, hFirst⟩ := spelling.head?_written
    rw [written, List.flatMap_append, ← written, ← written, hWritten]
    simpa using hFirst

/-- What spells a text is a row of parts that can be told apart, means the text and is not
refused. -/
theorem Spells.means (h : Spells quote text parts) :
    Separate parts ∧ parts.any Part.isBracedHalf = false ∧ meaning parts = text := by
  induction h with
  | done => exact ⟨trivial, rfl, rfl⟩
  | continued lineEnd spelled ih =>
    obtain ⟨hSeparate, hWhole, hMeans⟩ := ih
    exact ⟨⟨fun _ => spelled.head?_written, hSeparate⟩, hWhole, hMeans⟩
  | write spelling noDigit spelled ih =>
    obtain ⟨hSeparate, hWhole, hMeans⟩ := ih
    refine ⟨spelling.separate_append hSeparate, ?_, ?_⟩
    · rw [List.any_append, spelling.any_isBracedHalf, hWhole]
      rfl
    · rw [spelling.meaning_append noDigit, hMeans]

/-- **Spelling does not matter.** A literal that spells a text, each character in any of its ways
and with any line ends behind backslashes between them, has the text for its value. -/
theorem decodeLiteral_of_spells {value : String} (hQuote : IsQuote quote)
    (hSpells : Spells quote value.toList parts) :
    decodeLiteral (literal quote parts) = some value := by
  obtain ⟨hSeparate, hWhole, hMeans⟩ := hSpells.means
  rw [decodeLiteral_literal hQuote hSeparate, hWhole, hMeans, String.ofList_toList]
  rfl

/-! ## A literal with several spellings -/

namespace Mixed

/-- Lower-case digits. -/
def digits (values : List (Fin 16)) : List HexDigit :=
  values.map fun value => ⟨hexDigit value.val, value.val, hexValue?_hexDigit _ value.isLt⟩

/-- The quote itself, a zero in front of a line end, a code between braces with a leading zero, and
the halves of a pair. -/
def body : List Part := [
  .escaped '\x27' (by decide),
  .escaped '0' (by decide),
  .continuation .returnAndFeed,
  .point (digits [0, 6, 1]) (by decide) (by decide),
  .unit (digits [13, 8, 3, 13]) rfl,
  .unit (digits [13, 14, 0, 0]) rfl]

/-- The text that is spelled. -/
def value : String := "'\x00a😀"

theorem spells : Spells '\x27' value.toList body := by
  have hPair : Spelling '\x27' '😀' (body.drop 4) :=
    .pair rfl rfl (by decide) (by decide) (by decide)
  have hPoint : Spelling '\x27' 'a' [body[3]] := .point _ _ (by decide)
  have hZero : Spelling '\x27' '\x00' [body[1]] := .zero _ rfl
  have hQuote : Spelling '\x27' '\x27' [body[0]] :=
    .itself _ (by decide) (by simp [letterEscapes])
  exact .write hQuote (by decide) (.write hZero (by decide)
    (.continued .returnAndFeed (.write hPoint (by decide) (.write hPair (by decide) .done))))

end Mixed

/-- Its value is the text. -/
theorem decodeLiteral_of_spells_mixed :
    literal '\x27' Mixed.body = "'\\'\\0\\\r\n\\u\x7b061\x7d\\ud83d\\ude00'" ∧
      decodeLiteral (literal '\x27' Mixed.body) = some Mixed.value :=
  ⟨by decide, decodeLiteral_of_spells (Or.inl rfl) Mixed.spells⟩

end KeyRegistry.Text

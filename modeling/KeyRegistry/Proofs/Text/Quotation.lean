import KeyRegistry.Text.Literal
import KeyRegistry.Text.Shown

/-!
# Quoted texts are read back

What is written between quotes is also a literal of a script, and reading it gives the text back.
A character is written in one of two ways: as it stands, or as an escape that the reader takes for
this very character, whatever follows it.

Main definitions:

* `Text.Spelled` — what stands for a character, whatever follows

Main statements:

* `Text.spelled_spell` — quoting spells every character
* `Text.decodeLiteral_of_spelled` — a literal spelled character by character is read back
* `Text.decodeLiteral_quote` — so is a quoted text
-/

namespace KeyRegistry.Text

variable {c : Char} {text rest : List Char}

/-! ## Reading -/

/-- What is no escape stands for itself. -/
theorem decodeBody_of_ne (h : c ≠ '\\') :
    decodeBody (c :: rest) = (decodeBody rest).map (c :: ·) := by
  rw [decodeBody, if_neg h]

/-- An escape is decoded to its character. -/
theorem decodeBody_of_escape (h : readEscape text = some ⟨some c, rest⟩) :
    decodeBody ('\\' :: text) = (decodeBody rest).map (c :: ·) := by
  rw [decodeBody, if_pos rfl]
  split
  · next hNone =>
    rw [h] at hNone
    cases hNone
  · next e hSome =>
    rw [h] at hSome
    rw [← Option.some.inj hSome]
    rfl

/-- Digits are read one after the other. -/
theorem readHex_hexDigit {count value digit : Nat} (h : digit < 16) :
    readHex (count + 1) value (hexDigit digit :: rest) =
      readHex count (value * 16 + digit) rest := by
  rw [readHex, hexValue?_hexDigit digit h]
  rfl

/-- The code of a character is that of the character. -/
theorem charOfCode?_toNat (c : Char) : charOfCode? c.toNat = some c := by
  have hValid : c.toNat.isValidChar := c.valid
  rw [charOfCode?, dif_pos hValid, Char.ofNat_toNat]

/-- A code unit that is no half of a surrogate pair is read as its character. -/
theorem readUnit_of_readHex {unit : Nat} (h : readHex 4 0 text = some (unit, rest))
    (hHigh : ¬ (0xD800 ≤ unit ∧ unit ≤ 0xDBFF)) (hLow : ¬ (0xDC00 ≤ unit ∧ unit ≤ 0xDFFF)) :
    readUnit text = (charOfCode? unit).map fun c => ⟨some c, rest⟩ := by
  rw [readUnit, h, Option.bind_eq_bind, Option.bind_some]
  dsimp only
  rw [if_neg hHigh, if_neg hLow]
  cases charOfCode? unit <;> rfl

theorem readEscape_unit (h : text.head? ≠ some '{') :
    readEscape ('u' :: text) = readUnit text := by
  cases text with
  | nil => rfl
  | cons c text =>
    -- only a brace would make it a code point between braces
    have hBrace : c ≠ '{' := fun hEq => h (by rw [hEq]; rfl)
    simp [readEscape, hBrace]

/-! ## Spelling -/

/-- What stands for a character: the character as it stands, or an escape that is read as this
character, whatever follows. -/
def Spelled (c : Char) (written : List Char) : Prop :=
  (written = [c] ∧ c ≠ '\\') ∨
    ∃ escape, written = '\\' :: escape ∧
      ∀ rest, readEscape (escape ++ rest) = some ⟨some c, rest⟩

/-- A spelled character is decoded in front of anything. -/
theorem Spelled.decodeBody_append {written : List Char} (h : Spelled c written)
    (rest : List Char) : decodeBody (written ++ rest) = (decodeBody rest).map (c :: ·) := by
  rcases h with ⟨rfl, hRaw⟩ | ⟨escape, rfl, hEscape⟩
  · exact decodeBody_of_ne hRaw
  · exact decodeBody_of_escape (hEscape rest)

/-- A text is read back if every character of it is spelled. -/
theorem decodeBody_flatMap {write : Char → List Char} (hWrite : ∀ c, Spelled c (write c))
    (text : List Char) : decodeBody (text.flatMap write) = some text := by
  -- what is written for one character is followed by what is written for the others, so that a
  -- spelling has to be read back before any rest
  induction text with
  | nil => rw [List.flatMap_nil, decodeBody]
  | cons c rest ih =>
    rw [List.flatMap_cons, (hWrite c).decodeBody_append, ih]
    rfl

/-- The four digits of a control character make up its code. -/
theorem readHex_control (h : c.toNat < 32) (rest : List Char) :
    readHex 4 0 ('0' :: '0' :: hexDigit (c.toNat / 16) :: hexDigit (c.toNat % 16) :: rest) =
      some (c.toNat, rest) := by
  -- the two leading zeros are digits like the others
  have hZero : '0' = hexDigit 0 := rfl
  have hCode : (((0 * 16 + 0) * 16 + 0) * 16 + c.toNat / 16) * 16 + c.toNat % 16 = c.toNat := by
    omega
  rw [hZero, readHex_hexDigit (by omega), readHex_hexDigit (by omega),
    readHex_hexDigit (by omega), readHex_hexDigit (by omega), readHex, hCode]

/-- The four digits of a control character are read as this character. -/
theorem readEscape_control (h : c.toNat < 32) (rest : List Char) :
    readEscape ('u' :: '0' :: '0' :: hexDigit (c.toNat / 16) :: hexDigit (c.toNat % 16) :: rest) =
      some ⟨some c, rest⟩ := by
  -- a code below 32 is in neither half of a surrogate pair
  rw [readEscape_unit (by simp), readUnit_of_readHex (readHex_control h rest) (by omega) (by omega),
    charOfCode?_toNat]
  rfl

/-- Quoting spells every character. -/
theorem spelled_spell (c : Char) : Spelled c (spell c) := by
  unfold spell
  split
  · exact Or.inr ⟨['\x22'], rfl, fun rest => rfl⟩
  · exact Or.inr ⟨['\\'], rfl, fun rest => rfl⟩
  · exact Or.inr ⟨['b'], rfl, fun rest => rfl⟩
  · exact Or.inr ⟨['t'], rfl, fun rest => rfl⟩
  · exact Or.inr ⟨['n'], rfl, fun rest => rfl⟩
  · exact Or.inr ⟨['f'], rfl, fun rest => rfl⟩
  · exact Or.inr ⟨['r'], rfl, fun rest => rfl⟩
  · -- the characters without a short escape: control characters get four digits, and the others
    -- stand as they are
    next hBackslash _ _ _ _ _ =>
    split
    · next hControl => exact Or.inr ⟨_, rfl, readEscape_control hControl⟩
    · exact Or.inl ⟨rfl, hBackslash⟩

/-! ## Quotes -/

theorem unquote?_of_quoted {q : Char} (hQuote : q = '\x27' ∨ q = '\x22') (body : List Char) :
    unquote? (q :: (body ++ [q])) = some body := by
  have hEnd : (q = '\x27' ∨ q = '\x22') ∧ (body ++ [q]).getLast? = some q :=
    ⟨hQuote, List.getLast?_concat⟩
  rw [unquote?, if_pos hEnd, List.dropLast_concat]

/-- A literal in which every character is spelled has the text as its value. -/
theorem decodeLiteral_of_spelled {q : Char} {write : Char → List Char} {raw : String}
    (hQuote : q = '\x27' ∨ q = '\x22') (hWrite : ∀ c, Spelled c (write c))
    (h : raw.toList = q :: (text.flatMap write ++ [q])) :
    decodeLiteral raw = some (String.ofList text) := by
  rw [decodeLiteral, h, unquote?_of_quoted hQuote, Option.bind_eq_bind, Option.bind_some,
    decodeBody_flatMap hWrite]
  rfl

/-- A quoted text is its spelling between two quotes. -/
theorem toList_quote (text : String) :
    (quote text).toList = '\x22' :: (text.toList.flatMap spell ++ ['\x22']) := by
  rw [quote, String.toList_ofList, List.cons_append]

/-- **What is written is what was read.** A quoted text, read as a literal of a script, is the text
again. -/
theorem decodeLiteral_quote (text : String) : decodeLiteral (quote text) = some text := by
  rw [decodeLiteral_of_spelled (Or.inr rfl) spelled_spell (toList_quote text),
    String.ofList_toList]

end KeyRegistry.Text

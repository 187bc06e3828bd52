import KeyRegistry.Proofs.Json.Value
import KeyRegistry.Proofs.Text.Spelling

/-!
# What readers read

A reader is given a text and a position. What it reads depends on the text alone, and where it stops
too, so the position is left out of what is said about readers. A reader of a part of a value takes
what spells the part and leaves the rest.

Main definitions:

* `Reads` — what a reader takes from a text, and what it leaves
* `Ends` — what may stand behind a value

Main statements:

* `reads_textBody`, `reads_skipTextBody` — texts
* `reads_number`, `reads_skipNumber` — numbers
-/

namespace KeyRegistry.Json

open KeyRegistry.Text

/-- Wherever a text stands, a reader reads a value from it and leaves a rest. -/
def Reads {α : Type} (r : Reader α) (text : List Char) (value : α) (rest : List Char) : Prop :=
  ∀ p, ∃ p', r ⟨text, p⟩ = .ok (value, ⟨rest, p'⟩)

section Basics

variable {α β : Type} {r : Reader α} {f : α → Reader β} {a : α} {b : β}
  {text middle rest blanks front : List Char} {c : Char} {test : Char → Bool}

theorem Reads.pure : Reads (pure a) text a text :=
  fun p => ⟨p, rfl⟩

/-- Readers one after the other read what each of them reads. -/
theorem Reads.bind (h : Reads r text a middle) (k : Reads (f a) middle b rest) :
    Reads (r >>= f) text b rest := by
  intro p
  obtain ⟨q, hFirst⟩ := h p
  obtain ⟨q', hThen⟩ := k q
  refine ⟨q', ?_⟩
  show Except.bind (r ⟨text, p⟩) _ = _
  rw [hFirst]
  exact hThen

/-- A reader whose value is made into another one. -/
theorem Reads.map {g : α → β} (h : Reads r text a rest) :
    Reads (do return g (← r)) text (g a) rest :=
  h.bind .pure

/-- A reader whose value is not used. -/
theorem Reads.discard (h : Reads r text a rest) : Reads (discard r) text () rest := by
  intro p
  obtain ⟨q, hFirst⟩ := h p
  refine ⟨q, ?_⟩
  show Except.bind (r ⟨text, p⟩) _ = _
  rw [hFirst]
  rfl

/-- Looking at the next character reads nothing. -/
theorem reads_peek : Reads Reader.peek text text.head? text :=
  fun p => ⟨p, rfl⟩

/-- Asking for the length of the rest reads nothing. -/
theorem reads_remaining : Reads Reader.remaining text text.length text :=
  fun p => ⟨p, rfl⟩

/-- Advancing reads one character. -/
theorem reads_advance : Reads Reader.advance (c :: rest) () rest :=
  fun p => ⟨p.after c, rfl⟩

/-- A row of characters that pass a test ends with the first one that does not. -/
theorem exists_skipWhile_eq (hFront : ∀ c ∈ front, test c = true)
    (hRest : ∀ c ∈ rest.head?, test c = false) (p : Position) :
    ∃ p', Cursor.skipWhile test (front ++ rest) p = ⟨rest, p'⟩ := by
  induction front generalizing p with
  | nil =>
    cases rest with
    | nil => exact ⟨p, rfl⟩
    | cons c rest =>
      refine ⟨p, ?_⟩
      rw [List.nil_append, Cursor.skipWhile, hRest c rfl, if_neg Bool.false_ne_true]
  | cons c front ih =>
    obtain ⟨hHead, hTail⟩ := List.forall_mem_cons.mp hFront
    rw [List.cons_append, Cursor.skipWhile, hHead, if_pos rfl]
    exact ih hTail (p.after c)

/-- Characters are taken up to the first one that fails the test. -/
theorem reads_takeWhile (hFront : ∀ c ∈ front, test c = true)
    (hRest : ∀ c ∈ rest.head?, test c = false) :
    Reads (Reader.takeWhile test) (front ++ rest) front rest := by
  intro p
  obtain ⟨p', hSkip⟩ := exists_skipWhile_eq hFront hRest p
  refine ⟨p', ?_⟩
  have hTake : (front ++ rest).takeWhile test = front := by
    rw [List.takeWhile_append_of_pos hFront]
    cases rest with
    | nil => rw [List.takeWhile_nil, List.append_nil]
    | cons c rest =>
      rw [List.takeWhile_cons, hRest c rfl, if_neg Bool.false_ne_true, List.append_nil]
  rw [Reader.takeWhile, hTake, hSkip]

/-- White space is skipped up to the first character that is none. -/
theorem reads_skipBlanks (hBlanks : Blanks blanks)
    (hRest : ∀ c ∈ rest.head?, Reader.isBlank c = false) :
    Reads Reader.skipBlanks (blanks ++ rest) () rest := by
  intro p
  obtain ⟨p', hSkip⟩ := exists_skipWhile_eq hBlanks hRest p
  exact ⟨p', by rw [Reader.skipBlanks, hSkip]⟩

/-- The next character behind white space. -/
theorem reads_peekToken (hBlanks : Blanks blanks) (hVisible : Reader.isBlank c = false) :
    Reads Reader.peekToken (blanks ++ c :: rest) (some c) (c :: rest) := by
  refine (reads_skipBlanks hBlanks ?_).bind reads_peek
  rintro _ ⟨⟩
  exact hVisible

/-- There is no character behind white space at the end. -/
theorem reads_peekToken_end (hBlanks : Blanks blanks) : Reads Reader.peekToken blanks none [] := by
  have hEnd : ∀ c ∈ ([] : List Char).head?, Reader.isBlank c = false := by simp
  have hSkip := reads_skipBlanks hBlanks hEnd
  rw [List.append_nil] at hSkip
  exact hSkip.bind reads_peek

/-- A word is read where it stands. -/
theorem reads_word (word rest : List Char) : Reads (Reader.word word) (word ++ rest) () rest := by
  induction word with
  | nil => exact .pure
  | cons c word ih =>
    refine reads_peek.bind ?_
    rw [List.cons_append, List.head?_cons]
    dsimp only
    rw [if_pos rfl]
    exact reads_advance.bind ih

end Basics

/-! ## Texts -/

section Texts

variable {letters : List Letter} {letter : Letter} {chars body written text rest : List Char}
  {digits low : List HexDigit} {c name : Char} {bound : Nat}

/-- Four digits are read as the number that they write. -/
theorem reads_codeUnit (hFour : digits.length = 4) :
    Reads Reader.codeUnit (digitChars digits ++ rest) (number digits) rest := by
  intro p
  refine ⟨{ p with column := p.column + 4 }, ?_⟩
  rw [Reader.codeUnit, readHex_digitChars hFour]
  rfl

/-- Between the halves of a pair a single character is read. -/
theorem reads_pairLink : Reads (Reader.pairLink c) (c :: rest) () rest := by
  refine reads_peek.bind ?_
  rw [List.head?_cons]
  dsimp only
  rw [if_pos rfl]
  exact reads_advance

/-- A code unit that is no half of a pair is its character. -/
theorem reads_codePoint (hFour : digits.length = 4) (hCode : number digits = c.toNat) :
    Reads Reader.codePoint (digitChars digits ++ rest) c rest := by
  have hWhole := not_isHalf_toNat c
  rw [IsHalf, not_or, IsHigh, IsLow] at hWhole
  refine (reads_codeUnit hFour).bind ?_
  rw [hCode, if_neg hWhole.2, if_neg hWhole.1, Char.ofNat_toNat]
  exact .pure

/-- Two halves that belong together are read as the character that they stand for. -/
theorem reads_codePoint_pair (hFour : digits.length = 4) (hLowFour : low.length = 4)
    (hHigh : IsHigh (number digits)) (hLow : IsLow (number low)) :
    Reads Reader.codePoint (digitChars digits ++ '\\' :: 'u' :: (digitChars low ++ rest))
      (pairCharacter (number digits) (number low)) rest := by
  -- a low half in front would stop the reader at once
  have hNotLow : ¬ (0xDC00 ≤ number digits ∧ number digits ≤ 0xDFFF) := by
    rw [IsHigh] at hHigh
    omega
  refine (reads_codeUnit hFour).bind ?_
  rw [if_neg hNotLow, if_pos (show _ ∧ _ from hHigh)]
  refine reads_pairLink.bind (reads_pairLink.bind ((reads_codeUnit hLowFour).bind ?_))
  rw [if_pos (show _ ∧ _ from hLow)]
  exact .pure

/-- A letter behind a backslash is no opening of a code. -/
theorem ne_of_shortEscape? (h : Reader.shortEscape? name = some c) : name ≠ 'u' := by
  rintro rfl
  cases h

/-- A short escape is read as its character. -/
theorem reads_escape_short (h : Reader.shortEscape? name = some c) :
    Reads Reader.escape (name :: rest) c rest := by
  refine reads_peek.bind ?_
  rw [List.head?_cons]
  split
  · next hNone => cases hNone
  · next hOpens =>
    exact absurd (Option.some.inj hOpens) (ne_of_shortEscape? h)
  · next other _ hOther =>
    obtain rfl := Option.some.inj hOther
    rw [h]
    exact reads_advance.bind .pure

/-- An escape by number is read as its code point. -/
theorem reads_escape_unit (h : Reads Reader.codePoint text c rest) :
    Reads Reader.escape ('u' :: text) c rest := by
  refine reads_peek.bind ?_
  rw [List.head?_cons]
  exact reads_advance.bind h

/-- A character is read from what stands for it. -/
theorem reads_textWithin_cons (h : Spelling (.char c) written)
    (hRest : Reads (Reader.textWithin bound) text chars rest) :
    Reads (Reader.textWithin (bound + 1)) (written ++ text) (c :: chars) rest := by
  rw [Reader.textWithin]
  cases h with
  | plain notQuote notEscape notControl =>
    refine reads_peek.bind ?_
    rw [List.singleton_append, List.head?_cons]
    -- the closing quote, a backslash and a control are ruled out by the spelling
    split
    · next hNone => cases hNone
    · next hQuote => exact absurd (Option.some.inj hQuote) notQuote
    · next hEscape => exact absurd (Option.some.inj hEscape) notEscape
    · next other _ _ hOther =>
      obtain rfl := Option.some.inj hOther
      rw [if_neg notControl]
      exact reads_advance.bind (hRest.bind .pure)
  | short isShort =>
    exact reads_peek.bind
      (reads_advance.bind ((reads_escape_short isShort).bind (hRest.bind .pure)))
  | unit four isCode =>
    exact reads_peek.bind (reads_advance.bind
      ((reads_escape_unit (reads_codePoint four isCode)).bind (hRest.bind .pure)))
  | pair four four' isHigh isLow isPair =>
    rw [← isPair]
    refine reads_peek.bind (reads_advance.bind (Reads.bind ?_ (hRest.bind .pure)))
    refine reads_escape_unit ?_
    rw [List.append_eq, List.append_assoc]
    exact reads_codePoint_pair four four' isHigh isLow

/-- Every letter is written with at least one character. -/
theorem Spelling.length_pos (h : Spelling letter written) : 0 < written.length := by
  cases h <;> simp

/-- A text of characters is read up to its closing quote. -/
theorem reads_textWithin (h : SpellsText (chars.map .char) body) (hBound : body.length < bound) :
    Reads (Reader.textWithin bound) (body ++ '\x22' :: rest) chars rest := by
  -- on the characters spelled: the bound counts them, and each takes at least one to write
  induction chars generalizing body bound with
  | nil =>
    cases h
    cases bound with
    | zero => cases hBound
    | succ bound => exact reads_peek.bind (reads_advance.bind .pure)
  | cons c chars ih =>
    cases h with
    | @cons _ _ written text spelling spelled =>
      cases bound with
      | zero => cases hBound
      | succ bound =>
        have hLength := spelling.length_pos
        rw [List.length_append] at hBound
        rw [List.append_assoc]
        exact reads_textWithin_cons spelling (ih spelled (by omega))

/-- However a text is spelled, it is read as its letters, up to the quote behind it. -/
theorem reads_textBody {value : String} (h : SpellsText (lettersOf value) body) :
    Reads Reader.textBody (body ++ '\x22' :: rest) value rest := by
  refine reads_remaining.bind ?_
  have hText : Reads (Reader.textWithin ((body ++ '\x22' :: rest).length + 1))
      (body ++ '\x22' :: rest) value.toList rest :=
    reads_textWithin h (by rw [List.length_append]; omega)
  have hValue := hText.map (g := String.ofList)
  rwa [String.ofList_toList] at hValue

/-- A character that stands for itself is stepped over. -/
theorem reads_skipTextWithin_plain (notQuote : c ≠ '\x22') (notEscape : c ≠ '\\')
    (notControl : ¬ c < ' ') (hRest : Reads (Reader.skipTextWithin bound) text () rest) :
    Reads (Reader.skipTextWithin (bound + 1)) (c :: text) () rest := by
  rw [Reader.skipTextWithin]
  refine reads_peek.bind ?_
  rw [List.head?_cons]
  split
  · next hNone => cases hNone
  · next hQuote => exact absurd (Option.some.inj hQuote) notQuote
  · next hEscape => exact absurd (Option.some.inj hEscape) notEscape
  · next other _ _ hOther =>
    obtain rfl := Option.some.inj hOther
    rw [if_neg notControl]
    exact reads_advance.bind hRest

/-- Skipping a text goes past a short escape. -/
theorem reads_skipTextWithin_short (h : Reader.shortEscape? name = some c)
    (hRest : Reads (Reader.skipTextWithin bound) text () rest) :
    Reads (Reader.skipTextWithin (bound + 1)) ('\\' :: name :: text) () rest := by
  have hEscape : Reads Reader.skipEscape (name :: text) () text := by
    refine reads_peek.bind ?_
    rw [List.head?_cons]
    split
    · next hNone => cases hNone
    · next hOpens => exact absurd (Option.some.inj hOpens) (ne_of_shortEscape? h)
    · next other _ hOther =>
      obtain rfl := Option.some.inj hOther
      rw [h]
      exact reads_advance
  exact reads_peek.bind (reads_advance.bind (hEscape.bind hRest))

/-- Skipping a text goes past an escape by number. -/
theorem reads_skipTextWithin_unit (hFour : digits.length = 4)
    (hRest : Reads (Reader.skipTextWithin bound) text () rest) :
    Reads (Reader.skipTextWithin (bound + 1)) ('\\' :: 'u' :: (digitChars digits ++ text)) ()
      rest := by
  have hEscape : Reads Reader.skipEscape ('u' :: (digitChars digits ++ text)) () text :=
    reads_peek.bind (reads_advance.bind (reads_codeUnit hFour).discard)
  exact reads_peek.bind (reads_advance.bind (hEscape.bind hRest))

/-- Any text is stepped over up to its closing quote. -/
theorem reads_skipTextWithin (h : SpellsText letters body) (hBound : body.length < bound) :
    Reads (Reader.skipTextWithin bound) (body ++ '\x22' :: rest) () rest := by
  induction h generalizing bound with
  | nil =>
    obtain ⟨left, rfl⟩ := Nat.exists_eq_add_of_lt hBound
    exact reads_peek.bind reads_advance
  | cons spelling spelled ih =>
    rw [List.length_append] at hBound
    rw [List.append_assoc]
    -- each escape takes one from the bound, and a pair is two of them
    cases spelling with
    | plain notQuote notEscape notControl =>
      obtain ⟨left, rfl⟩ := Nat.exists_eq_add_of_lt hBound
      exact reads_skipTextWithin_plain notQuote notEscape notControl (ih (by simp; omega))
    | short isShort =>
      obtain ⟨left, rfl⟩ := Nat.exists_eq_add_of_lt hBound
      exact reads_skipTextWithin_short isShort (ih (by simp; omega))
    | unit four | half four =>
      obtain ⟨left, rfl⟩ := Nat.exists_eq_add_of_lt hBound
      exact reads_skipTextWithin_unit four (ih (by simp; omega))
    | @pair _ high low four four' =>
      -- the halves are stepped over like two characters
      rw [List.length_cons, List.length_cons, List.length_append] at hBound
      obtain ⟨left, rfl⟩ : ∃ left, bound = left + 1 + 1 := ⟨bound - 2, by omega⟩
      have hRest : Reads (Reader.skipTextWithin left) _ () rest := ih (by simp at hBound; omega)
      rw [List.cons_append, List.cons_append, List.append_assoc]
      exact reads_skipTextWithin_unit four (reads_skipTextWithin_unit four' hRest)

/-- However a text is spelled, skipping it ends behind its quote. -/
theorem reads_skipTextBody (h : SpellsText letters body) :
    Reads Reader.skipTextBody (body ++ '\x22' :: rest) () rest :=
  reads_remaining.bind (reads_skipTextWithin h (by rw [List.length_append]; omega))

end Texts

/-! ## Numbers -/

/-- What may stand behind a value: nothing that a number would go on with. -/
def Ends (rest : List Char) : Prop :=
  ∀ c ∈ rest.head?, c.isDigit = false ∧ c ≠ '.' ∧ c ≠ 'e' ∧ c ≠ 'E'

section Numbers

variable {digits sign whole fraction exponent rest : List Char} {n : Nat}

/-- Digits start with a digit. -/
theorem IsDigits.exists_head? (h : IsDigits digits) (rest : List Char) :
    ∃ c, (digits ++ rest).head? = some c ∧ c.isDigit = true := by
  obtain ⟨c, more, rfl⟩ := List.exists_cons_of_ne_nil h.nonempty
  exact ⟨c, rfl, h.digits c List.mem_cons_self⟩

/-- Digits are read up to the first character that is none. -/
theorem reads_digits (h : ∀ c ∈ digits, c.isDigit = true)
    (hRest : ∀ c ∈ rest.head?, c.isDigit = false) :
    Reads Reader.digits (digits ++ rest) digits rest :=
  reads_takeWhile h hRest

/-- Neither digits nor a point stand where a power of ten may. -/
theorem IsExponent.head? (h : IsExponent exponent) (hEnds : Ends rest) :
    ∀ c ∈ (exponent ++ rest).head?, c.isDigit = false ∧ c ≠ '.' := by
  cases h with
  | none => exact fun c hMem => ⟨(hEnds c hMem).1, (hEnds c hMem).2.1⟩
  | power isLetter =>
    rintro _ ⟨⟩
    rcases isLetter with rfl | rfl <;> decide

/-- What stands behind the whole part of a number is no digit. -/
theorem IsFraction.head? (h : IsFraction fraction) (hExponent : IsExponent exponent)
    (hEnds : Ends rest) : ∀ c ∈ (fraction ++ (exponent ++ rest)).head?, c.isDigit = false := by
  cases h with
  | none => exact fun c hMem => (hExponent.head? hEnds c hMem).1
  | places =>
    rintro _ ⟨⟩
    decide

/-- The sign of an exponent is read, if there is one. -/
theorem reads_exponentSign (isSign : sign = [] ∨ sign = ['+'] ∨ sign = ['-'])
    (hDigits : IsDigits digits) (rest : List Char) :
    ∃ up, Reads Reader.exponentSign (sign ++ (digits ++ rest)) up (digits ++ rest) := by
  rcases isSign with rfl | rfl | rfl
  · refine ⟨true, reads_peek.bind ?_⟩
    obtain ⟨c, hHead, hDigit⟩ := hDigits.exists_head? rest
    rw [List.nil_append, hHead]
    -- a digit is no sign
    split
    · next hPlus =>
      rw [Option.some.inj hPlus] at hDigit
      cases hDigit
    · next hMinus =>
      rw [Option.some.inj hMinus] at hDigit
      cases hDigit
    · exact .pure
  · exact ⟨true, reads_peek.bind (reads_advance.bind .pure)⟩
  · exact ⟨false, reads_peek.bind (reads_advance.bind .pure)⟩

/-- An exponent is skipped, if there is one. -/
theorem reads_skipExponentOrEnd (h : IsExponent exponent) (hEnds : Ends rest) :
    Reads Reader.skipExponentOrEnd (exponent ++ rest) () rest := by
  refine reads_peek.bind ?_
  cases h with
  -- nothing that may stand behind a number starts like an exponent
  | none =>
    rw [List.nil_append]
    split
    · next hLetter => exact absurd rfl (hEnds 'e' hLetter).2.2.1
    · next hLetter => exact absurd rfl (hEnds 'E' hLetter).2.2.2
    · exact .pure
  | @power letter sign digits isLetter isSign hDigits =>
    have hSkip : Reads Reader.skipExponent (letter :: (sign ++ digits) ++ rest) () rest := by
      obtain ⟨up, hSign⟩ := reads_exponentSign isSign hDigits rest
      obtain ⟨c, hHead, hDigit⟩ := hDigits.exists_head? rest
      rw [List.cons_append, List.append_assoc]
      refine reads_advance.bind (hSign.discard.bind (reads_peek.bind ?_))
      rw [hHead]
      dsimp only
      rw [if_pos hDigit]
      exact (reads_digits hDigits.digits fun c hMem => (hEnds c hMem).1).discard
    rw [List.cons_append, List.head?_cons]
    rcases isLetter with rfl | rfl <;> exact hSkip

/-- What stands behind the whole part of a number is skipped. -/
theorem reads_skipAfterDigits (hFraction : IsFraction fraction) (hExponent : IsExponent exponent)
    (hEnds : Ends rest) :
    Reads Reader.skipAfterDigits (fraction ++ (exponent ++ rest)) () rest := by
  refine reads_peek.bind ?_
  cases hFraction with
  | none =>
    rw [List.nil_append]
    split
    · next hPoint => exact absurd rfl (hExponent.head? hEnds '.' hPoint).2
    · exact reads_skipExponentOrEnd hExponent hEnds
  | @places digits hDigits =>
    rw [List.cons_append, List.head?_cons]
    refine reads_advance.bind ((reads_digits hDigits.digits fun c hMem =>
      (hExponent.head? hEnds c hMem).1).bind ?_)
    rw [List.isEmpty_eq_false_iff.mpr hDigits.nonempty, if_neg Bool.false_ne_true]
    exact reads_skipExponentOrEnd hExponent hEnds

/-- Behind a leading zero stands no digit. -/
theorem reads_behindZero {α : Type} {r : Reader α} {text : List Char} {a : α}
    (hText : ∀ c ∈ text.head?, c.isDigit = false) (h : Reads r text a rest) :
    Reads (do
      match ← Reader.peek with
      | some c => if c.isDigit then Reader.failPast .badNumber else r
      | none => r) text a rest := by
  refine reads_peek.bind ?_
  cases hHead : text.head? with
  | none => exact h
  | some c =>
    dsimp only
    rw [hText c hHead, if_neg Bool.false_ne_true]
    exact h

/-- Any number is stepped over. -/
theorem reads_skipNumber (hWhole : IsWhole whole) (hFraction : IsFraction fraction)
    (hExponent : IsExponent exponent) (hEnds : Ends rest) :
    Reads Reader.skipNumber (whole ++ (fraction ++ (exponent ++ rest))) () rest := by
  have hBehind := hFraction.head? hExponent hEnds
  have hAfter := reads_skipAfterDigits hFraction hExponent hEnds
  refine reads_peek.bind ?_
  cases hWhole with
  | zero => exact reads_advance.bind (reads_behindZero hBehind hAfter)
  | @digits c more notZero hDigits =>
    rw [List.cons_append, List.head?_cons]
    split
    · next hNone => cases hNone
    · next hZero => exact absurd (Option.some.inj hZero) notZero
    · next other _ hOther =>
      obtain rfl := Option.some.inj hOther
      rw [if_pos (hDigits.digits c List.mem_cons_self), ← List.cons_append]
      exact (reads_digits hDigits.digits hBehind).discard.bind hAfter

/-- Further digits only make a number larger. -/
theorem le_ofDigitChars (value : Nat) : value ≤ Nat.ofDigitChars 10 digits value := by
  induction digits generalizing value with
  | nil => exact Nat.le_refl value
  | cons c rest ih =>
    rw [Nat.ofDigitChars_cons]
    exact Nat.le_trans (by omega) (ih _)

/-- Digits of a number of 64 bits are all taken. -/
theorem gather_of_lt {value taken : Nat} (h : Nat.ofDigitChars 10 digits value < UInt64.size) :
    gather value taken digits = (Nat.ofDigitChars 10 digits value, taken + digits.length, 0) := by
  induction digits generalizing value taken with
  | nil => rfl
  | cons c rest ih =>
    rw [Nat.ofDigitChars_cons, Nat.mul_comm] at h ⊢
    have hGrown : value * 10 + (c.toNat - 48) < UInt64.size :=
      Nat.lt_of_le_of_lt (le_ofDigitChars _) h
    rw [gather, if_pos hGrown]
    show gather (value * 10 + (c.toNat - '0'.toNat)) (taken + 1) rest = _
    rw [ih h, List.length_cons, Nat.add_right_comm, Nat.add_assoc]

/-- A whole number ends where its digits end. -/
theorem reads_afterDigits (hEnds : Ends rest) :
    Reads (Reader.afterDigits true n 0) rest (.natural (UInt64.ofNat n)) rest := by
  refine reads_peek.bind ?_
  split
  · next hPoint => exact absurd rfl (hEnds '.' hPoint).2.1
  · next hLetter => exact absurd rfl (hEnds 'e' hLetter).2.2.1
  · next hLetter => exact absurd rfl (hEnds 'E' hLetter).2.2.2
  · exact .pure

/-- A whole number of 64 bits is read from its decimal digits. -/
theorem reads_number (hWhole : IsWhole digits) (hValue : Nat.ofDigitChars 10 digits 0 = n)
    (hSize : n < UInt64.size) (hEnds : Ends rest) :
    Reads (Reader.number true) (digits ++ rest) (.natural (UInt64.ofNat n)) rest := by
  have hDigit : ∀ c ∈ rest.head?, c.isDigit = false := fun c hMem => (hEnds c hMem).1
  refine reads_peek.bind ?_
  -- a zero stands alone, and any other number starts with a digit that is not zero
  cases hWhole with
  | zero =>
    obtain rfl : n = 0 := hValue.symm
    exact reads_advance.bind (reads_behindZero hDigit (reads_afterDigits hEnds))
  | @digits c more notZero hDigits =>
    rw [List.cons_append, List.head?_cons]
    split
    · next hNone => cases hNone
    · next hZero => exact absurd (Option.some.inj hZero) notZero
    · next other _ hOther =>
      obtain rfl := Option.some.inj hOther
      rw [if_pos (hDigits.digits c List.mem_cons_self), ← List.cons_append]
      refine (reads_digits hDigits.digits hDigit).bind ?_
      rw [gather_of_lt (hValue ▸ hSize), hValue]
      exact reads_afterDigits hEnds

end Numbers

end KeyRegistry.Json

import KeyRegistry.Proofs.Text.Parts

/-!
# Halves of surrogate pairs

A half of a surrogate pair that stands alone in a literal reads as the replacement character, and
what stands around it reads as it would without it. This holds for a half of four digits. A half
that is written between braces is refused, and the literal has no value.

That is the only literal without a value whose escapes are well formed. For the other direction
every body of a literal is taken apart, from the left, as far as there are parts; what is left is
nothing, an escape that is malformed, or a half between braces.

Main definitions:

* `IsLone` — a half of a pair that stands alone
* `Malformed` — what makes a backslash no part
* `IsBracedHalf` — a half of a pair between braces

Main statements:

* `meaning_lone` — what a half means that stands alone
* `decodeBody_eq_none_iff` — which bodies have no value
* `decodeLiteral_halves` — what becomes of halves in a literal
-/

namespace KeyRegistry.Text

variable {parts before after back : List Part} {half : Part} {text tail : List Char}

/-! ## Halves that stand alone -/

/-- Whether a part is a first half of four digits. -/
def Part.isHigh : Part → Bool
  | .unit digits _ => IsHigh (number digits)
  | _ => false

/-- Whether a part is a second half of four digits. -/
def Part.isLow : Part → Bool
  | .unit digits _ => IsLow (number digits)
  | _ => false

/-- Whether a part is the code of half of a surrogate pair, in four digits or between braces. -/
def Part.isHalf : Part → Bool
  | .unit digits _ => IsHalf (number digits)
  | .point digits _ _ => IsHalf (number digits)
  | _ => false

/-- A half of a pair that stands alone: it is neither the second half behind a first one nor the
first half in front of a second one, both of four digits. -/
structure IsLone (before : List Part) (half : Part) (after : List Part) : Prop where
  isHalf    : half.isHalf = true
  notSecond : half.isLow = true → ∀ part ∈ before.getLast?, part.isHigh = false
  notFirst  : half.isHigh = true → ∀ part ∈ after.head?, part.isLow = false

/-- Nothing is tied together where two rows of parts meet: no second half comes behind a first one.
-/
def Meets (before back : List Part) : Prop :=
  ∀ part ∈ before.getLast?, part.isHigh = true → ∀ other ∈ back.head?, other.isLow = false

/-- What the last part of a body meets does not depend on the parts in front. -/
theorem Meets.of_cons {part : Part} {rest : List Part} (h : Meets (part :: rest) back) :
    Meets rest back := by
  intro last hLast
  refine h last ?_
  rw [List.getLast?_cons, hLast]
  rfl

/-- Four digits that make up no pair with what follows make up none with what is appended. -/
theorem Meets.alone {digits : List HexDigit} {four : digits.length = 4} {rest : List Part}
    (h : Meets (.unit digits four :: rest) back)
    (hNone : ∀ low four' more, rest = .unit low four' :: more → False) :
    ∀ low four' more, rest ++ back = .unit low four' :: more →
      ¬ (IsHigh (number digits) ∧ IsLow (number low)) := by
  rintro low four' more hEq ⟨hHigh, hLow⟩
  cases rest with
  | cons part rest =>
    rw [List.cons_append, List.cons.injEq] at hEq
    exact hNone low four' rest (by rw [hEq.1])
  | nil =>
    -- what is appended would have to start with the second half
    rw [List.nil_append] at hEq
    have hNotLow := h (.unit digits four) rfl (decide_eq_true hHigh) (.unit low four')
      (by rw [hEq]; rfl)
    exact of_decide_eq_false hNotLow hLow

/-- In front of a half that stands alone nothing is tied to it. -/
theorem IsLone.meets (h : IsLone before half after) : Meets before (half :: after) := by
  intro part hLast hHigh other hOther
  rw [List.head?_cons, Option.mem_some_iff] at hOther
  subst hOther
  -- a second half behind a first one would not stand alone
  rw [← Bool.not_eq_true]
  intro hLow
  rw [h.notSecond hLow part hLast] at hHigh
  cases hHigh

/-- Rows of parts mean what each of them means, if nothing is tied together where they meet. -/
theorem meaning_append (hStart : ∀ c ∈ (written back).head?, c = '\\') (hMeet : Meets before back) :
    meaning (before ++ back) = meaning before ++ meaning back := by
  -- the cases are those of the meaning, so that a pair is taken as a whole
  induction before using meaning.induct with
  | case1 => rfl
  | case2 c hEscape rest ih =>
    rw [List.cons_append, meaning, meaning, ih hMeet.of_cons]
    rfl
  | case3 c hSingle rest ih =>
    have hWritten : written (rest ++ back) = written rest ++ written back := List.flatMap_append
    rw [List.cons_append, meaning, meaning, ih hMeet.of_cons, hWritten,
      startsWithDigit_append hStart]
    rfl
  | case4 lineEnd rest ih =>
    rw [List.cons_append, meaning, meaning, ih hMeet.of_cons]
  | case5 digits two rest ih =>
    rw [List.cons_append, meaning, meaning, ih hMeet.of_cons]
    rfl
  | case6 digits nonempty inRange rest ih =>
    rw [List.cons_append, meaning, meaning, ih hMeet.of_cons]
    rfl
  | case7 high four low four' rest hPair ih =>
    rw [List.cons_append, List.cons_append, meaning, meaning, if_pos hPair, if_pos hPair,
      ih hMeet.of_cons.of_cons]
    rfl
  | case8 high four low four' rest hPair ih =>
    rw [List.cons_append, List.cons_append, meaning, meaning, if_neg hPair, if_neg hPair,
      ← List.cons_append, ih hMeet.of_cons]
    rfl
  | case9 digits four rest hNone ih =>
    rw [List.cons_append, meaning_unit_alone (hMeet.alone hNone),
      meaning_unit_alone fun low four' more hEq => (hNone low four' more hEq).elim,
        ih hMeet.of_cons]
    rfl

/-- A half that stands alone is replaced, and what stands around it means what it means alone. -/
theorem meaning_lone (h : IsLone before half after) :
    meaning (before ++ half :: after) = meaning before ++ replacement :: meaning after := by
  -- nothing behind the half makes a pair with it, so it is read on its own
  have hHalf : meaning (half :: after) = replacement :: meaning after := by
    obtain ⟨hIsHalf, -, hNotFirst⟩ := h
    cases half with
    | plain | escaped | continuation | byte => cases hIsHalf
    | point digits nonempty inRange =>
      rw [meaning, character_of_half (of_decide_eq_true hIsHalf)]
    | unit digits four =>
      have hAlone : ∀ low four' rest, after = .unit low four' :: rest →
          ¬ (IsHigh (number digits) ∧ IsLow (number low)) := by
        rintro low four' rest rfl ⟨hHigh, hLow⟩
        exact of_decide_eq_false (hNotFirst (decide_eq_true hHigh) _ rfl) hLow
      rw [meaning_unit_alone hAlone, character_of_half (of_decide_eq_true hIsHalf)]
  -- the half is written with a backslash, which no part in front of it reads on into
  have hStart : ∀ c ∈ (written (half :: after)).head?, c = '\\' := by
    have hIsHalf := h.isHalf
    cases half with
    | plain | escaped | continuation | byte => cases hIsHalf
    | unit | point => simp [written_cons, Part.write]
  rw [meaning_append hStart h.meets, hHalf]

/-! ## Taking a body apart -/

/-- What stands behind a backslash that is no part: nothing, or the sign of a code without its
digits. -/
inductive Malformed : List Char → Prop
  /-- The backslash would take the closing quote along. -/
  | nothing : Malformed []
  /-- The sign for two digits. -/
  | byte {text : List Char}
      (noCode : ∀ digits, digits.length = 2 → ¬ digitChars digits <+: text) :
      Malformed ('x' :: text)
  /-- The sign for four digits. -/
  | unit {text : List Char} (noBrace : text.head? ≠ some '{')
      (noCode : ∀ digits, digits.length = 4 → ¬ digitChars digits <+: text) :
      Malformed ('u' :: text)
  /-- The sign for digits between braces. -/
  | point {text : List Char}
      (noCode : ∀ digits, digits ≠ [] → number digits ≤ 0x10FFFF →
        ¬ (digitChars digits ++ ['}']) <+: text) :
      Malformed ('u' :: '{' :: text)

/-- Half of a surrogate pair between braces, behind a backslash. -/
def IsBracedHalf (text : List Char) : Prop :=
  ∃ digits tail, IsHalf (number digits) ∧ text = 'u' :: '{' :: (digitChars digits ++ '}' :: tail)

/-- A backslash starts a part, or what stands behind it is malformed. -/
theorem exists_escape (text : List Char) : Malformed text ∨
    ∃ (part : Part) (tail : List Char), '\\' :: text = part.write ++ tail ∧
      (part = .continuation .carriageReturn → tail.head? ≠ some '\n') := by
  cases text with
  | nil => exact Or.inl .nothing
  | cons c text =>
    by_cases hSingle : c ∉ notSingle
    · exact Or.inr ⟨.escaped c hSingle, text, rfl, by simp⟩
    simp only [notSingle, List.mem_cons, List.not_mem_nil, or_false, Decidable.not_not] at hSingle
    rcases hSingle with rfl | rfl | rfl | rfl | rfl | rfl
    · -- a code of two digits
      by_cases hCode : ∃ digits : List HexDigit, digits.length = 2 ∧ digitChars digits <+: text
      · obtain ⟨digits, hTwo, tail, rfl⟩ := hCode
        exact Or.inr ⟨.byte digits hTwo, tail, rfl, by simp⟩
      · exact Or.inl (.byte fun digits hTwo hPrefix => hCode ⟨digits, hTwo, hPrefix⟩)
    · by_cases hBrace : text.head? = some '{'
      · -- a code between braces
        obtain ⟨more, rfl⟩ : ∃ more, text = '{' :: more := List.head?_eq_some_iff.mp hBrace
        by_cases hCode : ∃ digits : List HexDigit, digits ≠ [] ∧ number digits ≤ 0x10FFFF ∧
            (digitChars digits ++ ['}']) <+: more
        · obtain ⟨digits, hSome, hRange, tail, rfl⟩ := hCode
          exact Or.inr ⟨.point digits hSome hRange, tail, rfl, by simp⟩
        · exact Or.inl (.point fun digits hSome hRange hPrefix =>
            hCode ⟨digits, hSome, hRange, hPrefix⟩)
      · -- a code of four digits
        by_cases hCode : ∃ digits : List HexDigit, digits.length = 4 ∧ digitChars digits <+: text
        · obtain ⟨digits, hFour, tail, rfl⟩ := hCode
          exact Or.inr ⟨.unit digits hFour, tail, rfl, by simp⟩
        · exact Or.inl (.unit hBrace fun digits hFour hPrefix => hCode ⟨digits, hFour, hPrefix⟩)
    · exact Or.inr ⟨.continuation .lineFeed, text, rfl, by simp⟩
    · -- a line feed behind a carriage return belongs to it
      by_cases hFeed : text.head? = some '\n'
      · obtain ⟨more, rfl⟩ : ∃ more, text = '\n' :: more := List.head?_eq_some_iff.mp hFeed
        exact Or.inr ⟨.continuation .returnAndFeed, more, rfl, by simp⟩
      · exact Or.inr ⟨.continuation .carriageReturn, text, rfl, fun _ => hFeed⟩
    · exact Or.inr ⟨.continuation .lineSeparator, text, rfl, by simp⟩
    · exact Or.inr ⟨.continuation .paragraphSeparator, text, rfl, by simp⟩

/-- Every part is written with at least one character. -/
theorem Part.length_write_pos (part : Part) : 0 < part.write.length := by
  cases part <;> simp [Part.write]

/-- A body taken apart from the left: parts without a half between braces, and behind them nothing,
or a backslash with such a half or nothing well-formed behind it. -/
structure TakenApart (body : List Char) (parts : List Part) (tail : List Char) : Prop where
  whole    : body = written parts ++ tail
  separate : Separate parts
  noHalf   : parts.any Part.isBracedHalf = false
  stops    : tail = [] ∨ ∃ text, tail = '\\' :: text ∧ (Malformed text ∨ IsBracedHalf text)

/-- A part in front of a body that was taken apart is taken apart with it. -/
theorem TakenApart.cons {body : List Char} {part : Part} (h : TakenApart body parts tail)
    (hWhole : part.isBracedHalf = false)
    (hEnd : part = .continuation .carriageReturn → body.head? ≠ some '\n') :
    TakenApart (part.write ++ body) (part :: parts) tail where
  whole := by rw [h.whole, written_cons, List.append_assoc]
  separate := by
    refine ⟨fun hReturn hFeed => hEnd hReturn ?_, h.separate⟩
    rw [h.whole, List.head?_append, hFeed]
    rfl
  noHalf := by
    rw [List.any_cons, hWhole, h.noHalf]
    rfl
  stops := h.stops

/-- Every body can be taken apart, by induction on its length. -/
theorem exists_takenApart (body : List Char) : ∃ parts tail, TakenApart body parts tail := by
  -- the first part is taken off; what is left of the body is shorter
  induction hLength : body.length using Nat.strongRecOn generalizing body with
  | ind length ih =>
    subst hLength
    cases body with
    | nil => exact ⟨[], [], rfl, trivial, rfl, Or.inl rfl⟩
    | cons c rest =>
      by_cases hEscape : c = '\\'
      · subst hEscape
        rcases exists_escape rest with hMalformed | ⟨part, tail, hWrite, hEnd⟩
        · exact ⟨[], '\\' :: rest, rfl, trivial, rfl, Or.inr ⟨rest, rfl, Or.inl hMalformed⟩⟩
        cases hHalf : part.isBracedHalf with
        | true =>
          have hBraced : IsBracedHalf rest := by
            cases part with
            | plain | escaped | continuation | byte | unit => cases hHalf
            | point digits nonempty inRange =>
              refine ⟨digits, tail, of_decide_eq_true hHalf, ?_⟩
              simpa [Part.write] using hWrite
          exact ⟨[], '\\' :: rest, rfl, trivial, rfl, Or.inr ⟨rest, rfl, Or.inr hBraced⟩⟩
        | false =>
          have hShorter : tail.length < ('\\' :: rest).length := by
            have hPos := part.length_write_pos
            rw [hWrite, List.length_append]
            omega
          obtain ⟨parts, left, hTail⟩ := ih _ hShorter tail rfl
          rw [hWrite]
          exact ⟨part :: parts, left, hTail.cons hHalf hEnd⟩
      · obtain ⟨parts, left, hRest⟩ := ih _ (Nat.lt_succ_self rest.length) rest rfl
        have hPlain : TakenApart ((Part.plain c hEscape).write ++ rest)
            (.plain c hEscape :: parts) left := hRest.cons rfl (by simp)
        exact ⟨_, left, hPlain⟩

/-! ## Bodies without a value -/

/-- Digits that were read are digits as they are written. -/
theorem eq_digitChars_of_readHex {count start code : Nat}
    (h : readHex count start text = some (code, tail)) :
    ∃ digits, digits.length = count ∧ text = digitChars digits ++ tail := by
  induction count generalizing start text with
  | zero =>
    rw [readHex, Option.some.injEq, Prod.mk.injEq] at h
    exact ⟨[], rfl, h.2⟩
  | succ count ih =>
    cases text with
    | nil => cases h
    | cons c text =>
      obtain ⟨value, hValue, hRest⟩ := Option.bind_eq_some_iff.mp h
      obtain ⟨digits, hLength, rfl⟩ := ih hRest
      exact ⟨⟨c, value, hValue⟩ :: digits, by rw [List.length_cons, hLength], rfl⟩

/-- A number in braces is read from its digits. -/
theorem eq_digitChars_of_readBraced {start code : Nat} {seen : Bool}
    (h : readBraced start seen text = some (code, tail)) :
    ∃ digits, (digits ≠ [] ∨ seen = true) ∧ text = digitChars digits ++ '}' :: tail ∧
      code = numberFrom start digits := by
  induction text generalizing start seen with
  | nil => cases h
  | cons c text ih =>
    rw [readBraced] at h
    -- either the brace closes, and then a digit must have been seen, or a digit is read
    split at h
    · next hBrace =>
      split at h
      · next hSeen =>
        rw [Option.some.injEq, Prod.mk.injEq] at h
        obtain ⟨rfl, rfl⟩ := h
        exact ⟨[], Or.inr hSeen, by rw [hBrace]; rfl, rfl⟩
      · cases h
    · obtain ⟨value, hValue, hRest⟩ := Option.bind_eq_some_iff.mp h
      split at hRest
      · obtain ⟨digits, -, rfl, rfl⟩ := ih hRest
        exact ⟨⟨c, value, hValue⟩ :: digits, Or.inl (List.cons_ne_nil _ _), rfl, rfl⟩
      · cases hRest

/-- Where there are not enough digits, no number is read. -/
theorem readHex_eq_none {count : Nat}
    (hNone : ∀ digits, digits.length = count → ¬ digitChars digits <+: text) :
    readHex count 0 text = none := by
  rw [Option.eq_none_iff_forall_ne_some]
  rintro ⟨code, tail⟩ hRead
  obtain ⟨digits, hLength, rfl⟩ := eq_digitChars_of_readHex hRead
  exact hNone digits hLength (List.prefix_append _ _)

/-- A malformed escape is refused. -/
theorem readEscape_of_malformed (h : Malformed text) : readEscape text = none := by
  cases h with
  | nothing => rfl
  | byte noCode => rw [readEscape, readHex_eq_none noCode]; rfl
  | unit noBrace noCode => rw [readEscape_unit noBrace, readUnit, readHex_eq_none noCode]; rfl
  | @point text noCode =>
    rw [readEscape, readPoint]
    cases hRead : readBraced 0 false text with
    | none => rfl
    | some result =>
      obtain ⟨code, tail⟩ := result
      obtain ⟨digits, hSome, rfl, rfl⟩ := eq_digitChars_of_readBraced hRead
      -- the digits are there, so they make up no code
      have hBeyond : ¬ numberFrom 0 digits ≤ 0x10FFFF := by
        intro hRange
        refine noCode digits (hSome.resolve_right (by simp)) hRange ⟨tail, ?_⟩
        rw [List.append_assoc]
        rfl
      have hInvalid : ¬ (numberFrom 0 digits).isValidChar := by
        unfold Nat.isValidChar
        omega
      rw [Option.bind_eq_bind, Option.bind_some]
      dsimp only
      rw [charOfCode?, dif_neg hInvalid]
      rfl

theorem readEscape_of_isBracedHalf (h : IsBracedHalf text) : readEscape text = none := by
  obtain ⟨digits, tail, hHalf, rfl⟩ := h
  have hSome : digits ≠ [] := by
    rintro rfl
    revert hHalf
    decide
  have hRange : number digits ≤ 0x10FFFF := by
    unfold IsHalf IsHigh IsLow at hHalf
    omega
  rw [readEscape_point hSome hRange, if_pos hHalf]

/-- What is refused behind a backslash is no second half. -/
theorem readLowHalf_of_refused (h : Malformed text ∨ IsBracedHalf text) :
    readLowHalf ('\\' :: text) = none := by
  rcases h with hMalformed | ⟨digits, tail, -, rfl⟩
  · cases hMalformed with
    | nothing | byte | point => rfl
    | unit noBrace noCode => rw [readLowHalf, readHex_eq_none noCode]; rfl
  · rfl

/-- A body has no value exactly if, somewhere behind its first parts, a backslash has nothing
well-formed or a half between braces behind it. -/
theorem decodeBody_eq_none_iff {body : List Char} : decodeBody body = none ↔
    ∃ parts text, Separate parts ∧ body = written parts ++ '\\' :: text ∧
      (Malformed text ∨ IsBracedHalf text) := by
  constructor
  · intro hNone
    obtain ⟨parts, tail, hApart⟩ := exists_takenApart body
    rcases hApart.stops with rfl | ⟨text, rfl, hRefused⟩
    · -- a body of parts has a value
      rw [hApart.whole, List.append_nil, decodeBody_written hApart.separate, hApart.noHalf] at hNone
      cases hNone
    · exact ⟨parts, text, hApart.separate, hApart.whole, hRefused⟩
  · rintro ⟨parts, text, hSeparate, rfl, hRefused⟩
    have hRead : readEscape text = none :=
      hRefused.elim readEscape_of_malformed readEscape_of_isBracedHalf
    rw [decodeBody_written_append hSeparate (by simp) (readLowHalf_of_refused hRefused),
      decodeBody_of_refused hRead]
    split <;> rfl

/-! ## Literals -/

/-- The quotes of a literal are the same at both ends. -/
theorem unquote?_eq_some_iff {chars body : List Char} :
    unquote? chars = some body ↔ ∃ quote, IsQuote quote ∧ chars = quote :: (body ++ [quote]) := by
  constructor
  · intro hBody
    cases chars with
    | nil => cases hBody
    | cons quote rest =>
      rw [unquote?] at hBody
      split at hBody
      · next hQuotes =>
        obtain ⟨hQuote, hLast⟩ := hQuotes
        obtain ⟨inside, rfl⟩ := List.getLast?_eq_some_iff.mp hLast
        rw [List.dropLast_concat, Option.some.injEq] at hBody
        exact ⟨quote, hQuote, by rw [hBody]⟩
      · cases hBody
  · rintro ⟨quote, hQuote, rfl⟩
    exact unquote?_of_quoted hQuote body

/-- A text has no value exactly if what stands between its quotes has none, if it has quotes. -/
theorem decodeLiteral_eq_none_iff {raw : String} : decodeLiteral raw = none ↔
    ∀ quote body, IsQuote quote → raw = quoted quote body → decodeBody body = none := by
  constructor
  · rintro hNone quote body hQuote rfl
    rw [decodeLiteral_quoted hQuote, Option.map_eq_none_iff] at hNone
    exact hNone
  · intro hBodies
    rw [decodeLiteral]
    cases hBody : unquote? raw.toList with
    | none => rfl
    | some body =>
      obtain ⟨quote, hQuote, hRaw⟩ := unquote?_eq_some_iff.mp hBody
      have hQuoted : raw = quoted quote body := by rw [quoted, ← hRaw, String.ofList_toList]
      rw [Option.bind_eq_bind, Option.bind_some, hBodies quote body hQuote hQuoted]
      rfl

/-- **What becomes of halves of surrogate pairs.** A literal of well-formed parts has their meaning
for its value, unless a half stands between braces; then it has none. In the meaning a half that
stands alone is one replacement character, and what is around it means what it means alone. A text
has no value only if it is not quoted, or an escape in it is malformed or a half between braces. -/
theorem decodeLiteral_halves (raw : String) :
    (∀ quote parts, IsQuote quote → Separate parts → raw = literal quote parts →
      decodeLiteral raw =
        if parts.any Part.isBracedHalf then none else some (String.ofList (meaning parts))) ∧
    (∀ before half after, IsLone before half after →
      meaning (before ++ half :: after) = meaning before ++ replacement :: meaning after) ∧
    (decodeLiteral raw = none ↔
      (∀ quote body, IsQuote quote → raw ≠ quoted quote body) ∨
      ∃ quote parts text, IsQuote quote ∧ Separate parts ∧
        raw = quoted quote (written parts ++ '\\' :: text) ∧
        (Malformed text ∨ IsBracedHalf text)) := by
  refine ⟨?_, fun _ _ _ => meaning_lone, ?_⟩
  · rintro quote parts hQuote hSeparate rfl
    exact decodeLiteral_literal hQuote hSeparate
  -- what has no value is either not quoted, or its body is taken apart up to what is refused
  constructor
  · intro hNone
    by_cases hQuoted : ∃ quote body, IsQuote quote ∧ raw = quoted quote body
    · obtain ⟨quote, body, hQuote, hRaw⟩ := hQuoted
      have hBody := decodeLiteral_eq_none_iff.mp hNone quote body hQuote hRaw
      obtain ⟨parts, text, hSeparate, rfl, hRefused⟩ := decodeBody_eq_none_iff.mp hBody
      exact Or.inr ⟨quote, parts, text, hQuote, hSeparate, hRaw, hRefused⟩
    · exact Or.inl fun quote body hQuote hRaw => hQuoted ⟨quote, body, hQuote, hRaw⟩
  · rintro (hNotQuoted | ⟨quote, parts, text, hQuote, hSeparate, rfl, hRefused⟩)
    · exact decodeLiteral_eq_none_iff.mpr fun quote body hQuote hRaw =>
        absurd hRaw (hNotQuoted quote body hQuote)
    · rw [decodeLiteral_quoted hQuote, Option.map_eq_none_iff]
      exact decodeBody_eq_none_iff.mpr ⟨parts, text, hSeparate, rfl, hRefused⟩

/-- A first half is refused between braces, and replaced in four digits. -/
example : decodeLiteral "'\\u\x7bd800\x7d'" = none ∧
    decodeLiteral "'\\ud800'" = some "\uFFFD" := by cbv

end KeyRegistry.Text

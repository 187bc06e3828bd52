import KeyRegistry.Json.Decode
import KeyRegistry.Proofs.Text.Parts

/-!
# JSON values and how they are written

A value can be written in many ways: with white space between its parts, and with each character
of a text as it stands or by an escape. Here a value is what remains when the writing is forgotten,
and a relation says which texts spell it.

The texts of a value are rows of letters. A letter is a character, or half of a surrogate pair that
stands alone: this can be written, although no text of characters has it.

Main definitions:

* `Letter`, `Spelling`, `SpellsText` — texts and how they are written
* `IsNumber` — how numbers are written
* `Value`, `Value.Spells`, `Value.Fills` — values and how they are written

Main statements:

* `spellsText_quote` — quoting spells a text
* `isNumber_repr` — a natural number is written by its decimal digits
-/

namespace KeyRegistry.Json

open KeyRegistry.Text

/-- White space. -/
def Blanks (text : List Char) : Prop :=
  ∀ c ∈ text, Reader.isBlank c = true

theorem Blanks.nil : Blanks [] :=
  List.forall_mem_nil _

/-! ## Texts -/

/-- A letter of a text: a character, or half of a surrogate pair that stands alone. -/
inductive Letter where
  | char (c : Char)
  | half (unit : Nat) (isHalf : IsHalf unit)

/-- The letters of a text of characters. -/
def lettersOf (text : String) : List Letter :=
  text.toList.map .char

/-- The ways to write a letter between double quotes. -/
inductive Spelling : Letter → List Char → Prop
  /-- As it stands. -/
  | plain {c : Char} (notQuote : c ≠ '\x22') (notEscape : c ≠ '\\') (notControl : ¬ c < ' ') :
      Spelling (.char c) [c]
  /-- By a letter that stands for it. -/
  | short {c name : Char} (isShort : Reader.shortEscape? name = some c) :
      Spelling (.char c) ['\\', name]
  /-- By its code in four digits. -/
  | unit {c : Char} {digits : List HexDigit} (four : digits.length = 4)
      (isCode : number digits = c.toNat) : Spelling (.char c) ('\\' :: 'u' :: digitChars digits)
  /-- By the two halves of its surrogate pair. -/
  | pair {c : Char} {high low : List HexDigit} (four : high.length = 4) (four' : low.length = 4)
      (isHigh : IsHigh (number high)) (isLow : IsLow (number low))
      (isPair : pairCharacter (number high) (number low) = c) :
      Spelling (.char c) ('\\' :: 'u' :: (digitChars high ++ '\\' :: 'u' :: digitChars low))
  /-- Half of a pair by its code in four digits. -/
  | half {unit : Nat} {isHalf : IsHalf unit} {digits : List HexDigit} (four : digits.length = 4)
      (isCode : number digits = unit) :
      Spelling (.half unit isHalf) ('\\' :: 'u' :: digitChars digits)

/-- The ways to write a text: each letter in one of its ways. -/
inductive SpellsText : List Letter → List Char → Prop
  | nil : SpellsText [] []
  | cons {letter : Letter} {letters : List Letter} {written rest : List Char}
      (spelling : Spelling letter written) (spelled : SpellsText letters rest) :
      SpellsText (letter :: letters) (written ++ rest)

/-- Four digits for a code below sixteen squared. -/
theorem exists_digits {code : Nat} (h : code < 256) :
    ∃ digits : List HexDigit, digits.length = 4 ∧ number digits = code ∧
      digitChars digits = ['0', '0', hexDigit (code / 16), hexDigit (code % 16)] :=
  ⟨[⟨'0', 0, rfl⟩, ⟨'0', 0, rfl⟩, ⟨_, _, hexValue?_hexDigit (code / 16) (by omega)⟩,
    ⟨_, _, hexValue?_hexDigit (code % 16) (by omega)⟩], rfl,
    by simp only [number, numberFrom, List.foldl_cons, List.foldl_nil]; omega, rfl⟩

/-- Quoting spells every character. -/
theorem spelling_spell (c : Char) : Spelling (.char c) (spell c) := by
  unfold spell
  split
  case h_1 | h_2 | h_3 | h_4 | h_5 | h_6 | h_7 => exact .short rfl
  case h_8 hQuote hEscape _ _ _ _ _ =>
    split
    · next hControl =>
      have hSmall : c.toNat < 256 := by omega
      obtain ⟨digits, hFour, hCode, hDigits⟩ := exists_digits hSmall
      rw [← hDigits]
      exact .unit hFour hCode
    · next hVisible =>
      refine .plain hQuote hEscape fun hControl => hVisible ?_
      exact hControl

/-- The spelling of a text by quotation is one of its spellings. -/
theorem spellsText_quote (text : String) :
    SpellsText (lettersOf text) (text.toList.flatMap spell) := by
  unfold lettersOf
  induction text.toList with
  | nil => exact .nil
  | cons c rest ih => exact .cons (spelling_spell c) ih

/-! ## Numbers -/

/-- Digits, at least one. -/
structure IsDigits (text : List Char) : Prop where
  nonempty : text ≠ []
  digits   : ∀ c ∈ text, c.isDigit = true

/-- The digits before the point. A zero stands alone. -/
inductive IsWhole : List Char → Prop
  | zero : IsWhole ['0']
  | digits {c : Char} {rest : List Char} (notZero : c ≠ '0') (digits : IsDigits (c :: rest)) :
      IsWhole (c :: rest)

/-- The point and what stands behind it. -/
inductive IsFraction : List Char → Prop
  | none : IsFraction []
  | places {text : List Char} (digits : IsDigits text) : IsFraction ('.' :: text)

/-- The power of ten. -/
inductive IsExponent : List Char → Prop
  | none : IsExponent []
  | power {letter : Char} {sign text : List Char} (isLetter : letter = 'e' ∨ letter = 'E')
      (isSign : sign = [] ∨ sign = ['+'] ∨ sign = ['-']) (digits : IsDigits text) :
      IsExponent (letter :: (sign ++ text))

/-- The ways to write a number. -/
inductive IsNumber : List Char → Prop
  | mk {sign whole fraction exponent : List Char} (isSign : sign = [] ∨ sign = ['-'])
      (isWhole : IsWhole whole) (isFraction : IsFraction fraction)
      (isExponent : IsExponent exponent) : IsNumber (sign ++ (whole ++ (fraction ++ exponent)))

theorem IsWhole.isNumber {whole : List Char} (h : IsWhole whole) : IsNumber whole := by
  have hNumber := IsNumber.mk (Or.inl rfl) h .none .none
  rwa [List.nil_append, List.append_nil, List.append_nil] at hNumber

/-- The decimal digits of a number are not led by a zero, unless it is zero. -/
theorem isWhole_toDigits (n : Nat) : IsWhole (Nat.toDigits 10 n) := by
  induction n using Nat.strongRecOn with
  | ind n ih =>
    by_cases hSmall : n < 10
    · have hAll : ∀ n < 10, n = 0 ∨ Nat.digitChar n ≠ '0' ∧ (Nat.digitChar n).isDigit = true := by
        decide
      rw [Nat.toDigits_of_lt_base hSmall]
      rcases hAll n hSmall with rfl | ⟨hNotZero, hDigit⟩
      · exact .zero
      · exact .digits hNotZero ⟨by simp, by simpa using hDigit⟩
    · -- the digits of a tenth come first
      have hDigits : ∀ c ∈ Nat.toDigits 10 n, c.isDigit = true := fun c hMem =>
        Nat.isDigit_of_mem_toDigits (by omega) (by omega) hMem
      rw [Nat.toDigits_of_base_le (by omega) (by omega)] at hDigits ⊢
      cases hFront : Nat.toDigits 10 (n / 10) with
      | nil => exact absurd hFront Nat.toDigits_ne_nil
      | cons c rest =>
        have hTenth := ih (n / 10) (by omega)
        rw [hFront] at hTenth hDigits
        refine .digits ?_ ⟨by simp, hDigits⟩
        cases hTenth with
        | zero =>
          -- no number but zero has this digit for its only one
          have hZero : n / 10 = 0 := by
            have hValue := Nat.ofDigitChars_toDigits (b := 10) (n := n / 10) (by omega) (by omega)
            rw [hFront] at hValue
            exact hValue.symm
          omega
        | digits notZero => exact notZero

/-- A written natural number is a number. -/
theorem isNumber_repr (n : Nat) : IsNumber (Nat.repr n).toList := by
  rw [Nat.repr, String.toList_ofList]
  exact (isWhole_toDigits n).isNumber

/-! ## Values -/

/-- A value. -/
inductive Value where
  | null
  | boolean (value : Bool)
  | number (literal : List Char) (isNumber : IsNumber literal)
  | text (letters : List Letter)
  | list (items : List Value)
  | object (members : List (List Letter × Value))

/-- A natural number. -/
def Value.ofNat (n : Nat) : Value :=
  .number (Nat.repr n).toList (isNumber_repr n)

/-- A text of characters. -/
def Value.ofText (text : String) : Value :=
  .text (lettersOf text)

/-- A member whose name is a text of characters. -/
def lettered (member : String × Value) : List Letter × Value :=
  (lettersOf member.1, member.2)

/-- An object whose names are texts of characters. -/
def Value.ofMembers (members : List (String × Value)) : Value :=
  .object (members.map lettered)

/-- What stands in front of a member of a list or an object: white space, and a comma unless the
member is the first. -/
def Leads (first : Bool) (lead : List Char) : Prop :=
  if first then Blanks lead
  else ∃ before after, lead = before ++ ',' :: after ∧ Blanks before ∧ Blanks after

/-- A colon with white space around it. -/
def IsColon (text : List Char) : Prop :=
  ∃ before after, text = before ++ ':' :: after ∧ Blanks before ∧ Blanks after

mutual

/-- Whether a text spells a value, with no white space around it. -/
def Value.Spells : Value → List Char → Prop
  | .null, text => text = ['n', 'u', 'l', 'l']
  | .boolean true, text => text = ['t', 'r', 'u', 'e']
  | .boolean false, text => text = ['f', 'a', 'l', 's', 'e']
  | .number literal _, text => text = literal
  | .text letters, text => ∃ body, text = '\x22' :: (body ++ ['\x22']) ∧ SpellsText letters body
  | .list items, text => ∃ body, text = '[' :: (body ++ [']']) ∧ SpellsItems true items body
  | .object members, text => ∃ body, text = '{' :: (body ++ ['}']) ∧ SpellsMembers true members body

/-- Whether a text spells items of a list, up to its closing bracket. -/
def SpellsItems : Bool → List Value → List Char → Prop
  | _, [], text => Blanks text
  | first, item :: items, text => ∃ lead value rest, text = lead ++ (value ++ rest) ∧
      Leads first lead ∧ item.Spells value ∧ SpellsItems false items rest

/-- Whether a text spells members of an object, up to its closing brace. -/
def SpellsMembers : Bool → List (List Letter × Value) → List Char → Prop
  | _, [], text => Blanks text
  | first, (key, item) :: members, text => ∃ lead name colon value rest,
      text = lead ++ '\x22' :: (name ++ '\x22' :: (colon ++ (value ++ rest))) ∧
      Leads first lead ∧ SpellsText key name ∧ IsColon colon ∧ item.Spells value ∧
        SpellsMembers false members rest

end

/-- Whether a text holds a value and nothing else but white space around it. -/
def Value.Fills (value : Value) (text : String) : Prop :=
  ∃ before written after, text.toList = before ++ (written ++ after) ∧ Blanks before ∧
    value.Spells written ∧ Blanks after

end KeyRegistry.Json

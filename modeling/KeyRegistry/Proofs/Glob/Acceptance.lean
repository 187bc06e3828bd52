import KeyRegistry.Glob
import KeyRegistry.Proofs.Scan.RuleText

/-!
# What a glob accepts

A part of a glob looks at the start of a text and leaves the rest to the parts behind it, which are
given to it as a test. So it does not see where the text ends: if the test holds of some rest, and
another test holds of that rest with more text behind it, then the part takes the longer text under
the other test. This holds of each part and hence of every sequence, however its alternatives are
nested.

A glob with a slash and anything behind it at its end therefore matches all that lies below what
matches the parts before.

Main definitions:

* `Glob.Extends` — a test goes on to hold when more text stands behind

Main statements:

* `Glob.Extends.acceptsAll` — sequences keep this up
* `Glob.matchesPath_below` — what lies below a match is matched by anything below
* `Glob.matchesPath_farther` — so is what lies below a match of anything below
-/

namespace KeyRegistry.Glob

variable {next next' : List UInt8 → Bool} {more s : List UInt8}

/-- Where one test holds, the other one holds with more text behind. -/
def Extends (more : List UInt8) (next next' : List UInt8 → Bool) : Prop :=
  ∀ s, next s = true → next' (s ++ more) = true

namespace Extends

/-! ## Single parts -/

theorem afterBytes (h : Extends more next next') (bytes : List UInt8) :
    Extends more (afterBytes next bytes) (afterBytes next' bytes) := by
  induction bytes with
  | nil =>
    intro s hNext
    rw [Glob.afterBytes] at hNext ⊢
    exact h s hNext
  | cons b bytes ih =>
    intro s hNext
    cases s with
    | nil => cases hNext
    | cons c s =>
      rw [List.cons_append, Glob.afterBytes, Bool.and_eq_true] at *
      exact ⟨hNext.1, ih s hNext.2⟩

/-- What a name may be followed by extends with what comes next. -/
theorem afterName (h : Extends more next next') :
    Extends more (afterName next) (afterName next') := by
  have hHere : ∀ s, next' s = true → Glob.afterName next' s = true := by
    intro s hNext
    cases s <;> simp [Glob.afterName, hNext]
  intro s
  induction s with
  | nil =>
    intro hNext
    exact hHere _ (h [] hNext)
  | cons b s ih =>
    intro hNext
    rw [Glob.afterName, Bool.or_eq_true, Bool.and_eq_true] at hNext
    rcases hNext with hNext | ⟨hByte, hNext⟩
    · exact hHere _ (h _ hNext)
    · rw [List.cons_append, Glob.afterName, hByte, ih hNext]
      simp

theorem afterSlash (h : Extends more next next') :
    Extends more (afterSlash next) (afterSlash next') := by
  intro s
  induction s with
  | nil =>
    intro hNext
    cases hNext
  | cons b s ih =>
    intro hNext
    rw [Glob.afterSlash, Bool.or_eq_true, Bool.and_eq_true] at hNext
    rw [List.cons_append, Glob.afterSlash, Bool.or_eq_true, Bool.and_eq_true]
    exact hNext.imp (fun hHere => ⟨hHere.1, h s hHere.2⟩) ih

theorem afterOne (h : Extends more next next') (test : UInt8 → Bool) :
    Extends more (afterOne test next) (afterOne test next') := by
  intro s hNext
  cases s with
  | nil => cases hNext
  | cons b s =>
    rw [List.cons_append, Glob.afterOne, Bool.and_eq_true] at *
    exact ⟨hNext.1, h s hNext.2⟩

/-- What anything may be followed by extends with what comes next. -/
theorem afterSome (h : Extends more next next') :
    Extends more (afterSome next) (afterSome next') := by
  have hHere : ∀ s, next' s = true → Glob.afterSome next' s = true := by
    intro s hNext
    cases s <;> simp [Glob.afterSome, hNext]
  intro s
  induction s with
  | nil =>
    intro hNext
    exact hHere _ (h [] hNext)
  | cons b s ih =>
    intro hNext
    rw [Glob.afterSome, Bool.or_eq_true] at hNext
    rcases hNext with hNext | hNext
    · exact hHere _ (h _ hNext)
    · rw [List.cons_append, Glob.afterSome, ih hNext, Bool.or_true]

/-- Directories at the start, or none. -/
theorem orAfterSlash (h : Extends more next next') :
    Extends more (fun s => next s || Glob.afterSlash next s)
      fun s => next' s || Glob.afterSlash next' s := by
  intro s hNext
  rw [Bool.or_eq_true] at hNext ⊢
  exact hNext.imp (h s) (h.afterSlash s)

/-! ## Sequences -/

mutual

/-- What a token accepts extends with what comes next. -/
theorem accepts (token : Token) {next next' : List UInt8 → Bool} (h : Extends more next next') :
    Extends more (token.accepts next) (token.accepts next') := by
  cases token with
  | literal c => simpa only [Token.accepts] using h.afterBytes (charBytes c)
  | any => simpa only [Token.accepts] using h.afterOne (· != slash)
  | star => simpa only [Token.accepts] using h.afterName
  | anyAbove => simpa only [Token.accepts] using h.orAfterSlash
  | anyBetween => simpa only [Token.accepts] using h.orAfterSlash.afterOne (· == slash)
  | anyBelow => simpa only [Token.accepts] using h.afterSome.afterOne (· == slash)
  | «class» negated ranges =>
    simpa only [Token.accepts] using h.afterOne fun b => inRanges ranges b != negated
  | oneOf branches =>
    intro s hNext
    rw [Token.accepts] at hNext ⊢
    split at hNext
    · next hVoid =>
      rw [if_pos hVoid]
      exact h s hNext
    · next hSome =>
      rw [if_neg hSome]
      exact acceptsSome branches h s hNext

/-- What tokens accept extends with what comes next, by induction on the tokens and their branches.
-/
theorem acceptsAll (tokens : List Token) {next next' : List UInt8 → Bool}
    (h : Extends more next next') :
    Extends more (acceptsAll tokens next) (acceptsAll tokens next') := by
  cases tokens with
  | nil => simpa only [Glob.acceptsAll] using h
  | cons token tokens =>
    -- what stands behind the part is a test like any other
    simpa only [Glob.acceptsAll] using accepts token (acceptsAll tokens h)

/-- What some branch accepts extends with what comes next. -/
theorem acceptsSome (branches : List (List Token)) {next next' : List UInt8 → Bool}
    (h : Extends more next next') :
    Extends more (acceptsSome branches next) (acceptsSome branches next') := by
  cases branches with
  | nil =>
    intro s hNext
    rw [Glob.acceptsSome] at hNext
    cases hNext
  | cons branch branches =>
    intro s hNext
    rw [Glob.acceptsSome, Bool.or_eq_true, Bool.and_eq_true] at hNext ⊢
    exact hNext.imp (fun hBranch => ⟨hBranch.1, acceptsAll branch h s hBranch.2⟩)
      (acceptsSome branches h s)

end

end Extends

/-! ## Anything below -/

/-- Tokens are accepted one after the other. -/
theorem acceptsAll_append (first second : List Token) (next : List UInt8 → Bool) :
    acceptsAll (first ++ second) next = acceptsAll first (acceptsAll second next) := by
  induction first with
  | nil =>
    funext s
    rw [List.nil_append, acceptsAll]
  | cons token tokens ih =>
    funext s
    rw [List.cons_append, acceptsAll, acceptsAll, ih]

/-- Anything may stand before the end. -/
theorem afterSome_isEmpty (s : List UInt8) : afterSome List.isEmpty s = true := by
  induction s with
  | nil => rfl
  | cons b s ih => rw [afterSome, ih, Bool.or_true]

/-- A slash with anything behind it is taken, whatever that is. -/
theorem acceptsAll_anyBelow (s : List UInt8) :
    acceptsAll [.anyBelow] List.isEmpty (slash :: s) = true := by
  rw [acceptsAll, Token.accepts, afterOne]
  have hNext : acceptsAll [] List.isEmpty = List.isEmpty := by
    funext s
    rw [acceptsAll]
  rw [hNext, afterSome_isEmpty]
  rfl

/-- What lies below something that the parts before the end match is matched. -/
theorem acceptsAll_below {tokens : List Token} (h : acceptsAll tokens List.isEmpty s = true)
    (more : List UInt8) :
    acceptsAll (tokens ++ [.anyBelow]) List.isEmpty (s ++ slash :: more) = true := by
  rw [acceptsAll_append]
  have hExtends : Extends (slash :: more) List.isEmpty (acceptsAll [.anyBelow] List.isEmpty) := by
    intro s hEmpty
    rw [List.isEmpty_iff.mp hEmpty]
    exact acceptsAll_anyBelow more
  exact hExtends.acceptsAll tokens s h

/-- What lies below something that is matched by anything below is matched in the same way. -/
theorem acceptsAll_farther {tokens : List Token}
    (h : acceptsAll (tokens ++ [.anyBelow]) List.isEmpty s = true) (more : List UInt8) :
    acceptsAll (tokens ++ [.anyBelow]) List.isEmpty (s ++ more) = true := by
  rw [acceptsAll_append] at h ⊢
  have hExtends : Extends more (acceptsAll [.anyBelow] List.isEmpty)
      (acceptsAll [.anyBelow] List.isEmpty) := by
    intro s hAccepts
    -- only what starts with a slash is taken
    cases s with
    | nil => simp [acceptsAll, Token.accepts, afterOne] at hAccepts
    | cons b s =>
      have hSlash : b = slash := by
        simp only [acceptsAll, Token.accepts, afterOne, Bool.and_eq_true, beq_iff_eq] at hAccepts
        exact hAccepts.1
      rw [hSlash]
      exact acceptsAll_anyBelow (s ++ more)
  exact hExtends.acceptsAll tokens s h

/-! ## Paths -/

variable {tokens : List Token} {path : String}

/-- A glob that ends in anything below has no special cases. -/
theorem matchesPath_anyBelow :
    matchesPath ⟨tokens ++ [.anyBelow]⟩ path =
      acceptsAll (tokens ++ [.anyBelow]) List.isEmpty path.toUTF8.toList := by
  have hDot : asksForDot ⟨tokens ++ [.anyBelow]⟩ = false := by
    simp [asksForDot, Token.isChar]
  unfold matchesPath
  split
  · next hAbove =>
    -- the last part tells the glob from the one that matches every path
    have hLast := congrArg List.getLast? hAbove
    simp at hLast
  · simp only [hDot, Bool.false_and, Bool.not_false, Bool.and_true]

/-- What lies below a match is matched by anything below, except where every path is a match. -/
theorem matchesPath_below (hTokens : tokens ≠ [.anyAbove])
    (h : matchesPath ⟨tokens⟩ path = true) (rest : String) :
    matchesPath ⟨tokens ++ [.anyBelow]⟩ (path ++ "/" ++ rest) = true := by
  have hAccepts : acceptsAll tokens List.isEmpty path.toUTF8.toList = true := by
    unfold matchesPath at h
    split at h
    · next hAbove => exact absurd hAbove hTokens
    · rw [Bool.and_eq_true] at h
      exact h.1
  have hBytes : (path ++ "/" ++ rest).toUTF8.toList =
      path.toUTF8.toList ++ slash :: rest.toUTF8.toList := by
    simp only [Text.toList_toUTF8, Text.bytes_eq, String.toList_append, List.flatMap_append]
    simp [slash, String.utf8EncodeChar]
  rw [matchesPath_anyBelow, hBytes]
  exact acceptsAll_below hAccepts _

/-- What lies below a match of anything below is a match. -/
theorem matchesPath_farther (h : matchesPath ⟨tokens ++ [.anyBelow]⟩ path = true) (rest : String) :
    matchesPath ⟨tokens ++ [.anyBelow]⟩ (path ++ rest) = true := by
  rw [matchesPath_anyBelow] at h ⊢
  have hBytes : (path ++ rest).toUTF8.toList = path.toUTF8.toList ++ rest.toUTF8.toList := by
    simp only [Text.toList_toUTF8, Text.bytes_eq, String.toList_append, List.flatMap_append]
  rw [hBytes]
  exact acceptsAll_farther h _

end KeyRegistry.Glob

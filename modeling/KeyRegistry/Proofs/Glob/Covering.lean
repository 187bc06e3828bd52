import KeyRegistry.Glob.Reading
import KeyRegistry.Proofs.Glob.Acceptance

/-!
# A glob and everything below it

A glob with `/**` behind it is meant to match what lies below all that the glob matches. The two are
read alike, since reading goes from left to right and looks ahead in two places only: a class is
read up to its closing bracket, and two stars cross directories if a name ends behind them. So the
longer glob has one part more, which stands for anything below; or it has the same parts, because
the shorter glob ends in two stars that have become anything below, or any directories above.

There is one exception. A glob of nothing but `**/`, one or more times, stands for any directories
above, which match every path. With `/**` behind it, it has two slashes in a row, and no path has
those.

Main definitions:

* `Draft.Step` — what a step of reading does to the parts that have been read
* `Begins` — how a reading begins, with `/**` behind the text and without
* `IsHollow` — the globs that make up the exception

Main statements:

* `begins` — every text is read step by step, and alike with `/**` behind it
* `readOn_induction` — induction over the steps of a reading
* `readOn_below` — how a glob is read with `/**` behind it
* `matchesPath_covered` — what lies below a match is matched, but for the exception
* `matchesPath_directory_of_isHollow`, `matchesPath_eq_false_of_isHollow` — in the exception, every
  path is a match of the shorter glob and none of the longer one
-/

namespace KeyRegistry.Glob

/-- What stands behind a glob to match everything below. -/
def anythingBelow : List Char := ['/', '*', '*']

variable {d d' e : Draft} {c : Char} {text rest left more : List Char} {below : Bool}
  {token : Token}

/-! ## Two stars -/

namespace Draft

/-- The parts at hand after two stars that fill a name. -/
def crossed (below : Bool) : List Token → List Token
  | [] => [.anyAbove]
  | last :: tokens => crossing last below :: tokens

/-- Whether two stars fill a name, given what follows them: the answer of the boundary behind them,
if a name starts before them. -/
def fills? (d : Draft) (rest : List Char) : Option (Bool × List Char) :=
  match d.tokens with
  | [] => boundary false rest
  | _ :: _ => if d.atName then boundary (!d.groups.isEmpty) rest else none

/-- Takes in two stars that fill a name. -/
def cross (d : Draft) (below : Bool) : Draft :=
  { d with
    tokens := crossed below d.tokens
    previous := some (if below && !d.tokens.isEmpty then '*' else '/') }

/-- Two stars that fill a name cross directories. -/
theorem pushDoubleStar_of_fills (h : d.fills? rest = some (below, left)) :
    d.pushDoubleStar rest = (d.cross below, left) := by
  unfold fills? at h
  unfold pushDoubleStar cross
  -- at the start of a branch there is no part to take the place of
  cases hTokens : d.tokens with
  | nil =>
    simp only [hTokens] at h
    simp [h, push, hTokens, crossed]
  | cons last tokens =>
    simp only [hTokens, Option.ite_none_right_eq_some] at h
    obtain ⟨hName, hBoundary⟩ := h
    simp [hName, hBoundary, crossed]

/-- Two stars that fill no name are two stars. -/
theorem pushDoubleStar_of_fills_eq_none (h : d.fills? rest = none) :
    d.pushDoubleStar rest = (d.pushTwoStars, rest) := by
  unfold fills? at h
  unfold pushDoubleStar
  cases hTokens : d.tokens with
  | nil =>
    simp only [hTokens] at h
    simp only [h]
  | cons last tokens =>
    simp only [hTokens] at h
    cases hName : d.atName with
    | false => simp
    | true =>
      rw [hName, if_pos rfl] at h
      simp [h]

/-- Two stars at the end can fill a name only as anything below. -/
theorem fills?_nil (h : d.fills? [] = some (below, left)) : below = true ∧ left = [] := by
  unfold fills? at h
  split at h
  · cases h
    exact ⟨rfl, rfl⟩
  · obtain ⟨-, hBoundary⟩ := Option.ite_none_right_eq_some.mp h
    cases hBoundary
    exact ⟨rfl, rfl⟩

/-- Behind two stars that fill a name the text ends, or a slash follows, which goes with them, or
the branch of a group ends. -/
theorem fills?_cases (h : d.fills? rest = some (below, left)) :
    rest = [] ∧ below = true ∧ left = [] ∨ rest = '/' :: left ∧ below = false ∨
      d.groups ≠ [] ∧ left = rest := by
  have hBoundary : boundary (!d.groups.isEmpty) rest = some (below, left) ∨
      boundary false rest = some (below, left) := by
    unfold fills? at h
    split at h
    · exact Or.inr h
    · exact Or.inl (Option.ite_none_right_eq_some.mp h).2
  cases rest with
  | nil => exact Or.inl ⟨rfl, fills?_nil h⟩
  | cons c rest =>
    right
    by_cases hSlash : c = '/'
    · left
      rcases hBoundary with hEnd | hEnd <;> simp_all [boundary]
    · right
      rcases hBoundary with hEnd | hEnd <;> simp_all [boundary]

/-- Whether two stars fill a name depends on the character behind them. -/
theorem fills?_append (hSome : rest ≠ []) (more : List Char) :
    d.fills? (rest ++ more) = (d.fills? rest).map fun (below, left) => (below, left ++ more) := by
  obtain ⟨c, rest, rfl⟩ := List.exists_cons_of_ne_nil hSome
  -- a boundary is told by the first character
  have hBoundary : ∀ inGroup, boundary inGroup (c :: rest ++ more) =
      (boundary inGroup (c :: rest)).map fun (below, left) => (below, left ++ more) := by
    intro inGroup
    simp only [List.cons_append, boundary]
    split
    · rfl
    · split <;> rfl
  unfold fills?
  split
  · exact hBoundary false
  · split
    · exact hBoundary _
    · rfl

/-- At the end of a text, a slash that follows makes no difference but to go with the stars. -/
theorem fills?_slash : d.fills? ('/' :: rest) = (d.fills? []).map fun _ => (false, rest) := by
  unfold fills?
  split
  · rfl
  · split <;> rfl

/-- Two stars behind two stars add nothing. -/
theorem crossed_crossed (tokens : List Token) :
    crossed true (crossed false tokens) = crossed true tokens := by
  cases tokens with
  | nil => rfl
  | cons last tokens => cases last <;> rfl

end Draft

/-! ## Classes -/

/-- What stands behind the ranges of a class is looked at only if the class has not been closed. -/
theorem readRanges_append (d : ClassDraft) (text more : List Char) :
    ∃ d', readRanges d (text ++ more) = match readRanges d text with
      | .error fault => .error fault
      | .ok (some (ranges, rest)) => .ok (some (ranges, rest ++ more))
      | .ok none => readRanges d' more := by
  induction text generalizing d with
  | nil => exact ⟨d, rfl⟩
  | cons c text ih =>
    -- every test is about the character and the draft, never about what follows
    simp only [List.cons_append, readRanges]
    split
    · exact ⟨d, rfl⟩
    · split
      · exact ih _
      · split
        · exact ⟨d, rfl⟩
        · exact ih _

/-- A class ends at a bracket. -/
theorem exists_of_readRanges {d : ClassDraft} {ranges : List (Char × Char)}
    (h : readRanges d text = .ok (some (ranges, rest))) : ∃ front, text = front ++ ']' :: rest := by
  induction text generalizing d with
  | nil => cases h
  | cons c text ih =>
    rw [readRanges] at h
    split at h
    · next hEnd =>
      cases h
      exact ⟨[], by rw [hEnd.1, List.nil_append]⟩
    · -- the character belongs to the class, which ends somewhere behind it
      have hLater : (∃ d', readRanges d' text = .ok (some (ranges, rest))) →
          ∃ front, c :: text = front ++ ']' :: rest := by
        rintro ⟨d', hRest⟩
        obtain ⟨front, rfl⟩ := ih hRest
        exact ⟨c :: front, rfl⟩
      split at h
      · exact hLater ⟨_, h⟩
      · split at h
        · cases h
        · exact hLater ⟨_, h⟩

/-- A class is made of the ranges up to its bracket. -/
theorem readRanges_of_readClass (h : readClass text = .ok (some (token, rest))) :
    ∃ ranges, readRanges {} (readNegation text).2 = .ok (some (ranges, rest)) ∧
      token = .class (readNegation text).1 ranges := by
  unfold readClass at h
  cases hRead : readRanges {} (readNegation text).2 with
  | error fault =>
    rw [hRead] at h
    cases h
  | ok found =>
    rw [hRead] at h
    cases found with
    | none => cases h
    | some found =>
      cases h
      exact ⟨found.1, rfl, rfl⟩

/-- Reading the negation of a class takes its sign and nothing else. -/
theorem exists_of_readNegation (text : List Char) :
    ∃ sign, text = sign ++ (readNegation text).2 := by
  unfold readNegation
  split
  · exact ⟨['!'], rfl⟩
  · exact ⟨['^'], rfl⟩
  · exact ⟨[], rfl⟩

/-- A class is read up to a closing bracket. -/
theorem exists_of_readClass (h : readClass text = .ok (some (token, rest))) :
    ∃ front, text = front ++ ']' :: rest := by
  obtain ⟨ranges, hRanges, -⟩ := readRanges_of_readClass h
  obtain ⟨front, hFront⟩ := exists_of_readRanges hRanges
  obtain ⟨sign, hSign⟩ := exists_of_readNegation text
  exact ⟨sign ++ front, by rw [hSign, hFront, List.append_assoc]⟩

/-- The sign of a class is looked for in its first character; a slash is none. -/
theorem readNegation_below (text : List Char) : readNegation (text ++ anythingBelow) =
    ((readNegation text).1, (readNegation text).2 ++ anythingBelow) := by
  cases text with
  | nil => rfl
  | cons c text =>
    by_cases hBang : c = '!'
    · rw [hBang]
      rfl
    · by_cases hCaret : c = '^'
      · rw [hCaret]
        rfl
      · simp [readNegation, hBang, hCaret]

/-- In what stands for anything below there is no bracket that closes a class. -/
theorem readRanges_anythingBelow (d : ClassDraft) (found : List (Char × Char) × List Char) :
    readRanges d anythingBelow ≠ .ok (some found) := by
  intro hClosed
  obtain ⟨front, hFront⟩ := exists_of_readRanges hClosed
  have hBracket : ']' ∈ anythingBelow := by
    rw [hFront]
    simp
  exact absurd hBracket (by decide)

/-- A class that has been closed, or is faulty, stays so with anything below behind it; one that has
not been closed is not closed there either. -/
theorem readClass_below (text : List Char) : match readClass text with
    | .error fault => readClass (text ++ anythingBelow) = .error fault
    | .ok (some (token, rest)) =>
      readClass (text ++ anythingBelow) = .ok (some (token, rest ++ anythingBelow))
    | .ok none => ∀ found, readClass (text ++ anythingBelow) ≠ .ok (some found) := by
  obtain ⟨d, hRanges⟩ := readRanges_append {} (readNegation text).2 anythingBelow
  simp only [readClass, readNegation_below, hRanges]
  cases hRead : readRanges {} (readNegation text).2 with
  | error fault => rfl
  | ok found =>
    cases found with
    | some found => rfl
    | none =>
      -- the class goes on in what stands for anything below, and does not end there
      intro found hClosed
      cases hMore : readRanges d anythingBelow with
      | error fault =>
        rw [hMore] at hClosed
        cases hClosed
      | ok closed =>
        cases closed with
        | none =>
          rw [hMore] at hClosed
          cases hClosed
        | some closed => exact readRanges_anythingBelow d closed hMore

/-! ## Steps -/

namespace Draft

/-- What a step of reading does: some parts are added, or a group is opened, goes on with its next
branch or is closed, or two stars fill a name. -/
inductive Step (d : Draft) (text : List Char) (d' : Draft) (rest : List Char) : Prop
  | push (added : List Token) (nonempty : added ≠ []) (plain : .anyAbove ∉ added)
      (groups : d'.groups = d.groups) (tokens : d'.tokens = added ++ d.tokens)
  | openGroup (groups : d'.groups = ⟨d.tokens, []⟩ :: d.groups) (tokens : d'.tokens = [])
  | nextBranch (group : Group) (outer : List Group) (branches : List (List Token))
      (opened : d.groups = group :: outer)
      (groups : d'.groups = ⟨group.before, branches⟩ :: outer) (tokens : d'.tokens = [])
  | closeGroup (group : Group) (branches : List (List Token))
      (opened : d.groups = group :: d'.groups)
      (tokens : d'.tokens = .oneOf branches :: group.before)
  | cross (below : Bool) (groups : d'.groups = d.groups)
      (tokens : d'.tokens = crossed below d.tokens)
      (ends : text = ['*', '*'] ∧ rest = [] ∧ below = true ∨ text = '*' :: '*' :: '/' :: rest ∨
        d.groups ≠ [])

/-- Adding one part is a step, unless the part stands for any directories above. -/
theorem Step.push_one (hPlain : token ≠ .anyAbove) (hGroups : d'.groups = d.groups)
    (hTokens : d'.tokens = token :: d.tokens) : Step d text d' rest :=
  .push [token] (by simp) (by simpa using hPlain.symm) hGroups hTokens

end Draft

open Draft

/-! ## Backslashes at the end -/

/-- Whether a text ends in an escape of what stands behind it: the backslashes at its end do not
come in pairs. -/
def endsEscaping (text : List Char) : Bool :=
  (text.reverse.takeWhile (· == '\\')).length % 2 == 1

/-- What stands in front of another character does not matter. -/
theorem endsEscaping_append (front back : List Char) (h : c ≠ '\\') :
    endsEscaping (front ++ c :: back) = endsEscaping back := by
  have hStop : (c == '\\') = false := beq_eq_false_iff_ne.mpr h
  have hBack : ((front ++ c :: back).reverse.takeWhile (· == '\\')) =
      back.reverse.takeWhile (· == '\\') := by
    rw [List.reverse_append, List.reverse_cons, List.append_assoc, List.singleton_append,
      List.takeWhile_append, List.takeWhile_cons, hStop, if_neg Bool.false_ne_true, List.append_nil]
    split
    · next hAll => exact ((List.takeWhile_prefix _).eq_of_length hAll).symm
    · rfl
  rw [endsEscaping, endsEscaping, hBack]

/-- Whether a text ends in an escape does not depend on a first character that is no backslash. -/
theorem endsEscaping_cons (h : c ≠ '\\') (text : List Char) :
    endsEscaping (c :: text) = endsEscaping text :=
  endsEscaping_append [] text h

/-- A character that is escaped does not escape anything. -/
theorem endsEscaping_escape (c : Char) (text : List Char) :
    endsEscaping ('\\' :: c :: text) = endsEscaping text := by
  by_cases hChar : c = '\\'
  · subst hChar
    have hTwo : ('\\' :: '\\' :: text).reverse = text.reverse ++ ['\\', '\\'] := by simp
    rw [endsEscaping, endsEscaping, hTwo, List.takeWhile_append]
    split
    · next hAll =>
      -- there is nothing but backslashes, and two more of them
      rw [hAll, List.length_append]
      simp
    · rfl
  · exact endsEscaping_append ['\\'] text hChar

/-! ## Reading on -/

/-- One step of reading, the same with anything below behind the text as without. -/
structure SameStep (d : Draft) (text : List Char) (d' : Draft) (rest : List Char) : Prop where
  plain   : readOn false d text = readOn false d' rest
  below   : readOn false d (text ++ anythingBelow) = readOn false d' (rest ++ anythingBelow)
  shorter : rest.length < text.length
  step    : Step d text d' rest
  escapes : endsEscaping text = endsEscaping rest

/-- How the reading of a text begins. With anything below behind the text it begins in the same way,
but for two stars at the end of the text, which fill a name there, and a backslash at the end. -/
inductive Begins (d : Draft) (text : List Char) : Prop
  | same (d' : Draft) (rest : List Char) (hStep : SameStep d text d' rest)
  | stars (hText : text = ['*', '*']) (hFills : (d.fills? []).isSome)
  | escape (hText : text = ['\\'])
  | fault (plain below : Fault) (hPlain : readOn false d text = .error plain)
      (hBelow : readOn false d (text ++ anythingBelow) = .error below)

/-- One part is added for one character. -/
theorem Begins.push_one (hChar : c ≠ '\\') (hToken : token ≠ .anyAbove)
    (hPlain : readOn false d (c :: text) =
      readOn false ({ d with previous := some c }.push token) text)
    (hBelow : readOn false d (c :: (text ++ anythingBelow)) =
      readOn false ({ d with previous := some c }.push token) (text ++ anythingBelow)) :
    Begins d (c :: text) :=
  .same _ text ⟨hPlain, hBelow, Nat.lt_succ_self _, .push_one hToken rfl rfl,
    endsEscaping_cons hChar text⟩

theorem readOn_twoStars (d : Draft) (text : List Char) : readOn false d ('*' :: '*' :: text) =
    readOn false (d.pushDoubleStar text).1 (d.pushDoubleStar text).2 := by
  rw [readOn]

/-- Whether a text ends in an escape does not depend on two stars in front either. -/
theorem endsEscaping_twoStars (text : List Char) :
    endsEscaping ('*' :: '*' :: text) = endsEscaping text :=
  endsEscaping_append ['*'] text (by decide)

/-- Two stars that fill no name are two stars, with anything below behind them as without. -/
theorem sameStep_twoStars {d : Draft} {text : List Char} (hFills : d.fills? text = none) :
    SameStep d ('*' :: '*' :: text) d.pushTwoStars text := by
  -- if the stars fill no name at the end of a text, then they fill none before a slash
  have hLonger : d.fills? (text ++ anythingBelow) = none := by
    by_cases hEnd : text = []
    · subst hEnd
      rw [List.nil_append, anythingBelow, fills?_slash, hFills]
      rfl
    · rw [fills?_append hEnd, hFills]
      rfl
  refine ⟨?_, ?_, by simp, ?_, endsEscaping_twoStars text⟩
  · rw [readOn_twoStars, pushDoubleStar_of_fills_eq_none hFills]
  · rw [List.cons_append, List.cons_append, readOn_twoStars,
      pushDoubleStar_of_fills_eq_none hLonger]
  · exact .push [.star, .star] (by simp) (by simp) rfl rfl

/-- So are two stars that fill a name, unless the text ends with them. -/
theorem sameStep_crossing {d : Draft} {text left : List Char} {below : Bool}
    (hFills : d.fills? text = some (below, left)) (hMore : text ≠ []) :
    SameStep d ('*' :: '*' :: text) (d.cross below) left := by
  -- the stars meet the same boundary when more follows, since some text follows already
  have hLonger : d.fills? (text ++ anythingBelow) = some (below, left ++ anythingBelow) := by
    rw [fills?_append hMore, hFills]
    rfl
  have hLength := d.length_pushDoubleStar text
  rw [pushDoubleStar_of_fills hFills] at hLength
  refine ⟨?_, ?_, Nat.lt_succ_of_le (Nat.le_succ_of_le hLength), .cross below rfl rfl ?_, ?_⟩
  · rw [readOn_twoStars, pushDoubleStar_of_fills hFills]
  · rw [List.cons_append, List.cons_append, readOn_twoStars, pushDoubleStar_of_fills hLonger]
  · rcases fills?_cases hFills with ⟨rfl, hBelow, hLeft⟩ | ⟨rfl, -⟩ | ⟨hGroups, -⟩
    · exact Or.inl ⟨rfl, hLeft, hBelow⟩
    · exact Or.inr (Or.inl rfl)
    · exact Or.inr (Or.inr hGroups)
  · rw [endsEscaping_twoStars]
    rcases fills?_cases hFills with ⟨hNone, -⟩ | ⟨rfl, -⟩ | ⟨-, rfl⟩
    · exact absurd hNone hMore
    · exact endsEscaping_cons (by decide) left
    · rfl

/-- Reading begins alike at two stars, unless they end the text and fill a name. -/
theorem begins_twoStars (d : Draft) (text : List Char) : Begins d ('*' :: '*' :: text) := by
  cases hFills : d.fills? text with
  | none => exact .same d.pushTwoStars text (sameStep_twoStars hFills)
  | some found =>
    -- only at the end does the slash that follows change the step
    by_cases hEnd : text = []
    · subst hEnd
      exact .stars rfl (by rw [hFills]; rfl)
    · exact .same (d.cross found.1) found.2 (sameStep_crossing hFills hEnd)

/-- Reading begins alike at a single star. -/
theorem begins_star (hAlone : ∀ rest, text ≠ '*' :: rest) : Begins d ('*' :: text) := by
  have hAloneBelow : ∀ rest, text ++ anythingBelow ≠ '*' :: rest := by
    cases text with
    | nil => simp [anythingBelow]
    | cons next text =>
      intro rest hEq
      rw [List.cons_append, List.cons.injEq] at hEq
      exact hAlone text (by rw [hEq.1])
  have hRead : ∀ text : List Char, (∀ rest, text ≠ '*' :: rest) → readOn false d ('*' :: text) =
      readOn false ({ d with previous := some '*' }.push .star) text := fun text hAlone =>
    readOn.eq_6 false d text (fun rest _ => hAlone rest) (by simp) (by simp)
  exact .push_one (by decide) (by simp) (hRead text hAlone) (hRead _ hAloneBelow)

/-- Reading begins alike at an escape, unless the backslash ends the text. -/
theorem begins_escape (d : Draft) (text : List Char) : Begins d ('\\' :: text) := by
  cases text with
  | nil => exact .escape rfl
  | cons next text =>
    refine .same ({ d.push (.literal next) with previous := some next }) text
      ⟨?_, ?_, by simp, .push_one (by simp) rfl rfl, endsEscaping_escape next text⟩
    · rw [readOn]
    · rw [List.cons_append, List.cons_append, readOn]

/-- Reading begins alike at a comma, which goes on with the next branch of a group or stands for
itself. -/
theorem begins_comma (d : Draft) (text : List Char) : Begins d (',' :: text) := by
  refine .same ({ d with previous := some ',' }.nextBranch) text ⟨?_, ?_, Nat.lt_succ_self _, ?_,
    endsEscaping_cons (by decide) text⟩
  · rw [readOn]
  · rw [List.cons_append, readOn]
  -- a comma stands for itself where no group is open
  · cases hGroups : d.groups with
    | nil =>
      have hPlain : Token.literal ',' ≠ .anyAbove := by simp
      exact .push_one hPlain (by simp [nextBranch, hGroups, Draft.push])
        (by simp [nextBranch, Draft.push])
    | cons group outer =>
      exact .nextBranch group outer (d.tokens.reverse :: group.branches) hGroups
        (by simp [nextBranch]) (by simp [nextBranch])

/-- Reading begins alike at a closing brace, or fails in both cases. -/
theorem begins_close (d : Draft) (text : List Char) : Begins d ('\x7d' :: text) := by
  -- whether a group closes depends on the open groups alone, and not on what follows
  cases hClosed : { d with previous := some '\x7d' }.closeGroup with
  | error fault =>
    refine .fault fault fault ?_ ?_
    · rw [readOn, hClosed]
    · rw [List.cons_append, readOn, hClosed]
  | ok d' =>
    refine .same d' text ⟨?_, ?_, Nat.lt_succ_self _, ?_, endsEscaping_cons (by decide) text⟩
    · rw [readOn, hClosed]
    · rw [List.cons_append, readOn, hClosed]
    · unfold closeGroup at hClosed
      split at hClosed
      · cases hClosed
      · next group outer hGroups =>
        cases hClosed
        exact .closeGroup group _ hGroups rfl

/-- What a class does to a reading: it is one part, or the reading ends. -/
theorem readOn_class (hBrackets : d.openBrackets = false) (text : List Char) :
    readOn false d ('[' :: text) = match readClass text with
      | .error fault => .error fault
      | .ok none => .error .unclosedClass
      | .ok (some (token, left)) =>
        readOn false { d.push token with previous := some ']' } left := by
  rw [readOn, if_neg (by simp [hBrackets])]
  split
  · next hRead => simp only [hRead]
  · next hRead =>
    simp only [hRead]
    rfl
  · next hRead => simp only [hRead, Bool.false_eq_true, if_false]

/-- Reading begins alike at a class, or fails in both cases. -/
theorem begins_class (d : Draft) (text : List Char) : Begins d ('[' :: text) := by
  cases hBrackets : d.openBrackets with
  | true =>
    have hRead : ∀ text, readOn false d ('[' :: text) =
        readOn false ({ d with previous := some '[' }.push (.literal '[')) text := fun text => by
      rw [readOn, if_pos hBrackets]
    exact .push_one (by decide) (by simp) (hRead _) (hRead _)
  | false =>
    have hBelow := readClass_below text
    cases hRead : readClass text with
    | error fault =>
      rw [hRead] at hBelow
      refine .fault fault fault ?_ ?_
      · rw [readOn_class hBrackets, hRead]
      · rw [List.cons_append, readOn_class hBrackets, hBelow]
    | ok found =>
      rw [hRead] at hBelow
      cases found with
      | none =>
        -- a class that is not closed is a fault, and there may be another one behind it
        have hFault : ∃ fault, readOn false d ('[' :: text ++ anythingBelow) = .error fault := by
          rw [List.cons_append, readOn_class hBrackets]
          split
          · exact ⟨_, rfl⟩
          · exact ⟨_, rfl⟩
          · next hClosed => exact absurd hClosed (hBelow _)
        obtain ⟨fault, hFault⟩ := hFault
        exact .fault .unclosedClass fault (by rw [readOn_class hBrackets, hRead]) hFault
      | some found =>
        obtain ⟨token, left⟩ := found
        refine .same { d.push token with previous := some ']' } left ⟨?_, ?_, ?_, ?_, ?_⟩
        · rw [readOn_class hBrackets, hRead]
        · rw [List.cons_append, readOn_class hBrackets, hBelow]
        · exact Nat.lt_succ_of_lt (length_readClass hRead)
        · obtain ⟨ranges, -, rfl⟩ := readRanges_of_readClass hRead
          exact .push_one (by simp) rfl rfl
        · obtain ⟨front, rfl⟩ := exists_of_readClass hRead
          exact endsEscaping_append ('[' :: front) left (by decide)

/-- A text is read step by step. -/
theorem begins (d : Draft) (c : Char) (text : List Char) : Begins d (c :: text) := by
  by_cases hStar : c = '*'
  · subst hStar
    by_cases hTwo : ∃ rest, text = '*' :: rest
    · obtain ⟨rest, rfl⟩ := hTwo
      exact begins_twoStars d rest
    · exact begins_star fun rest hEq => hTwo ⟨rest, hEq⟩
  by_cases hEscape : c = '\\'
  · subst hEscape
    exact begins_escape d text
  by_cases hAny : c = '?'
  · subst hAny
    have hRead : ∀ text, readOn false d ('?' :: text) =
        readOn false ({ d with previous := some '?' }.push .any) text := fun text => by rw [readOn]
    exact .push_one hEscape (by simp) (hRead _) (hRead _)
  by_cases hOpen : c = '\x7b'
  · subst hOpen
    have hRead : ∀ text, readOn false d ('\x7b' :: text) =
        readOn false { d with previous := some '\x7b' }.openGroup text := fun text => by rw [readOn]
    exact .same _ text ⟨hRead _, hRead _, Nat.lt_succ_self _, .openGroup rfl rfl,
      endsEscaping_cons hEscape text⟩
  by_cases hComma : c = ','
  · subst hComma
    exact begins_comma d text
  by_cases hClose : c = '\x7d'
  · subst hClose
    exact begins_close d text
  by_cases hClass : c = '['
  · subst hClass
    exact begins_class d text
  -- any other character stands for itself
  have hRead : ∀ rest, readOn false d (c :: rest) =
      readOn false ({ d with previous := some c }.push (.literal c)) rest := fun rest =>
    readOn.eq_11 false d c rest (by simp [hStar]) (by simp [hEscape]) (by simp [hEscape]) hAny hStar
      hOpen hComma hClose hClass
  exact .push_one hEscape (by simp) (hRead _) (hRead _)

/-- Two stars at the end of a text fill a name. -/
theorem readOn_stars (h : (d.fills? []).isSome) :
    readOn false d ['*', '*'] = .ok (d.cross true) := by
  obtain ⟨⟨below, left⟩, hFills⟩ := Option.isSome_iff_exists.mp h
  obtain ⟨rfl, rfl⟩ := fills?_nil hFills
  rw [readOn, pushDoubleStar_of_fills hFills, readOn]

/-- A reading starts with a step. With anything below behind the text, the step is the same, but for
two stars at the end of the text: they fill a name that ends with it. -/
structure FirstStep (d : Draft) (text : List Char) (d' : Draft) (rest : List Char) (e : Draft) :
    Prop where
  goesOn  : readOn false d' rest = .ok e
  shorter : rest.length < text.length
  step    : Step d text d' rest
  below   : readOn false d (text ++ anythingBelow) = readOn false d' (rest ++ anythingBelow) ∨
    text = ['*', '*'] ∧ e = d.cross true ∧ (d.fills? []).isSome

/-- A glob is read step by step. -/
theorem readOn_cons (h : readOn false d (c :: text) = .ok e) :
    ∃ d' rest, FirstStep d (c :: text) d' rest e := by
  -- of the ways to begin, a plain step and stars at the end go on, and the others are faults
  cases begins d c text with
  | same d' rest hStep =>
    rw [hStep.plain] at h
    exact ⟨d', rest, h, hStep.shorter, hStep.step, Or.inl hStep.below⟩
  | stars hText hFills =>
    rw [hText, readOn_stars hFills] at h
    cases h
    rw [hText]
    exact ⟨d.cross true, [], by rw [readOn], by simp, .cross true rfl rfl (Or.inl ⟨rfl, rfl, rfl⟩),
      Or.inr ⟨rfl, rfl, hFills⟩⟩
  | escape hText =>
    rw [hText, readOn] at h
    cases h
  | fault plain below hPlain =>
    rw [hPlain] at h
    cases h

/-- Induction over the steps of a reading, from its end. -/
@[elab_as_elim]
theorem readOn_induction {motive : Draft → List Char → Prop} (h : readOn false d text = .ok e)
    (done : motive e [])
    (step : ∀ {d text d' rest}, FirstStep d text d' rest e → motive d' rest → motive d text) :
    motive d text := by
  induction hLength : text.length using Nat.strong_induction_on generalizing d text with
  | h length ih =>
    cases text with
    | nil =>
      rw [readOn] at h
      cases h
      exact done
    | cons c text =>
      obtain ⟨d', rest, hFirst⟩ := readOn_cons h
      exact step hFirst (ih rest.length (by rw [← hLength]; exact hFirst.shorter) hFirst.goesOn rfl)

/-- What each step keeps, the whole of a reading keeps. -/
theorem readOn_keeps {P : Draft → Prop}
    (hKeeps : ∀ {d d' : Draft} {text rest : List Char}, Step d text d' rest → P d → P d')
    (h : readOn false d text = .ok e) : P d → P e := by
  refine readOn_induction h (fun hHere => hHere) ?_
  intro d text d' rest hFirst ih hHere
  exact ih (hKeeps hFirst.step hHere)

/-! ## Anything below behind a glob -/

/-- Two stars that fill a name take the slash behind them along. -/
theorem readOn_starsAndSlash (h : (d.fills? []).isSome) (rest : List Char) :
    readOn false d ('*' :: '*' :: '/' :: rest) = readOn false (d.cross false) rest := by
  obtain ⟨found, hFound⟩ := Option.isSome_iff_exists.mp h
  have hSlash : d.fills? ('/' :: rest) = some (false, rest) := by
    rw [fills?_slash, hFound]
    rfl
  rw [readOn, pushDoubleStar_of_fills hSlash]

/-- A name starts behind a slash. -/
theorem fills?_of_slash (h : d.previous = some '/') : (d.fills? []).isSome := by
  have hName : d.atName = true := by simp [atName, h]
  unfold fills?
  split
  · rfl
  · rw [hName]
    rfl

/-- Anything below is one part: the slash becomes part of it. -/
theorem readOn_anythingBelow (d : Draft) :
    ∃ e, readOn false d anythingBelow = .ok e ∧ e.groups = d.groups ∧
      e.tokens = .anyBelow :: d.tokens := by
  let slashed := { d with previous := some '/' }.push (.literal '/')
  have hSlash : readOn false d anythingBelow = readOn false slashed ['*', '*'] :=
    readOn.eq_11 false d '/' ['*', '*'] (by simp) (by simp) (by simp) (by decide) (by decide)
      (by decide) (by decide) (by decide) (by decide)
  rw [hSlash, readOn_stars (fills?_of_slash rfl)]
  exact ⟨_, rfl, rfl, rfl⟩

/-- With anything below behind it, a glob has one part more, unless its last part stands for
directories already. -/
theorem readOn_below (h : readOn false d text = .ok e) :
    ∃ e', readOn false d (text ++ anythingBelow) = .ok e' ∧ e'.groups = e.groups ∧
      (e'.tokens = .anyBelow :: e.tokens ∨ e'.tokens = e.tokens ∧
        (e.tokens.head? = some .anyBelow ∨ e.tokens.head? = some .anyAbove)) := by
  refine readOn_induction h ?_ ?_
  · obtain ⟨e', hRead, hGroups, hTokens⟩ := readOn_anythingBelow e
    exact ⟨e', hRead, hGroups, Or.inl hTokens⟩
  · intro d text d' rest hFirst ih
    rcases hFirst.below with hSame | ⟨rfl, rfl, hFills⟩
    · rw [hSame]
      exact ih
    · -- the stars take the slash along, and then stars follow again
      have hAgain : readOn false d ('*' :: '*' :: anythingBelow) =
          readOn false (d.cross false) ['*', '*'] := readOn_starsAndSlash hFills ['*', '*']
      have hPrevious : (d.cross false).previous = some '/' := rfl
      rw [List.cons_append, List.cons_append, List.nil_append, hAgain,
        readOn_stars (fills?_of_slash hPrevious)]
      refine ⟨_, rfl, rfl, Or.inr ⟨crossed_crossed d.tokens, ?_⟩⟩
      show (crossed true d.tokens).head? = _ ∨ (crossed true d.tokens).head? = _
      cases d.tokens with
      | nil => exact Or.inr rfl
      | cons last tokens => cases last <;> simp [crossed, crossing]

/-! ## Any directories above -/

namespace Draft

/-- Any directories above stand at the start of a branch only. The parts are kept with the last one
first. -/
def AboveFirst (d : Draft) : Prop :=
  ∀ tokens ∈ d.tokens :: d.groups.map Group.before, .anyAbove ∉ tokens.dropLast

theorem crossing_ne_anyAbove {last : Token} (h : last ≠ .anyAbove) (below : Bool) :
    crossing last below ≠ .anyAbove := by
  cases last <;> cases below <;> simp_all [crossing]

/-- Parts that are added in front bring no directories above to a wrong place. -/
theorem not_mem_dropLast_append {added tokens : List Token} (hPlain : .anyAbove ∉ added)
    (h : .anyAbove ∉ tokens.dropLast) : .anyAbove ∉ (added ++ tokens).dropLast := by
  by_cases hTokens : tokens = []
  · rw [hTokens, List.append_nil]
    exact fun hMem => hPlain (List.mem_of_mem_dropLast hMem)
  · rw [List.dropLast_append_of_ne_nil hTokens, List.mem_append, not_or]
    exact ⟨hPlain, h⟩

/-- A step keeps any directories above at the start of their branch. -/
theorem Step.aboveFirst (hStep : Step d text d' rest) (h : d.AboveFirst) : d'.AboveFirst := by
  obtain ⟨hTokens, hGroups⟩ := List.forall_mem_cons.mp h
  cases hStep with
  | push added _ plain groups tokens =>
    refine List.forall_mem_cons.mpr ⟨?_, by rwa [groups]⟩
    rw [tokens]
    exact not_mem_dropLast_append plain hTokens
  | openGroup groups tokens =>
    refine List.forall_mem_cons.mpr ⟨by simp [tokens], ?_⟩
    rw [groups]
    exact List.forall_mem_cons.mpr ⟨hTokens, hGroups⟩
  | nextBranch group outer branches opened groups tokens =>
    refine List.forall_mem_cons.mpr ⟨by simp [tokens], ?_⟩
    rw [opened] at hGroups
    rwa [groups]
  | closeGroup group branches opened tokens =>
    rw [opened] at hGroups
    obtain ⟨hBefore, hOuter⟩ := List.forall_mem_cons.mp hGroups
    have hPlain : Token.anyAbove ∉ [Token.oneOf branches] := by simp
    refine List.forall_mem_cons.mpr ⟨?_, hOuter⟩
    rw [tokens]
    exact not_mem_dropLast_append hPlain hBefore
  | cross below groups tokens _ =>
    refine List.forall_mem_cons.mpr ⟨?_, by rwa [groups]⟩
    rw [tokens]
    -- the part that is replaced was no such one, unless it is the first
    cases hParts : d.tokens with
    | nil => simp [crossed]
    | cons last others =>
      rw [hParts] at hTokens
      by_cases hFirst : others = []
      · simp [crossed, hFirst]
      · rw [List.dropLast_cons_of_ne_nil hFirst, List.mem_cons, not_or] at hTokens
        rw [crossed, List.dropLast_cons_of_ne_nil hFirst, List.mem_cons, not_or]
        exact ⟨(crossing_ne_anyAbove (Ne.symm hTokens.1) below).symm, hTokens.2⟩

/-- There is more than any directories above. -/
def Strays (d : Draft) : Prop :=
  d.groups ≠ [] ∨ d.tokens ≠ [] ∧ d.tokens ≠ [.anyAbove]

/-- A part that is added is more than any directories above. -/
theorem strays_of_push {added tokens : List Token} (hSome : added ≠ []) (hPlain : .anyAbove ∉ added)
    (hTokens : d.tokens = added ++ tokens) : d.Strays := by
  refine Or.inr ⟨by simp [hTokens, hSome], fun hEq => hPlain ?_⟩
  obtain ⟨token, others, rfl⟩ := List.exists_cons_of_ne_nil hSome
  rw [hTokens, List.cons_append, List.cons.injEq] at hEq
  rw [hEq.1]
  exact List.mem_cons_self

/-- Parts that have been read do not go away. -/
theorem Step.strays (hStep : Step d text d' rest) (h : d.Strays) : d'.Strays := by
  cases hStep with
  | push added nonempty plain groups tokens => exact strays_of_push nonempty plain tokens
  | openGroup groups tokens => exact Or.inl (by simp [groups])
  | nextBranch group outer branches opened groups tokens => exact Or.inl (by simp [groups])
  | closeGroup group branches opened tokens => exact Or.inr (by simp [tokens])
  | cross below groups tokens _ =>
    refine h.imp (fun hGroups => by rwa [groups]) ?_
    rintro ⟨hSome, hOther⟩
    -- one part takes the place of another, and turns into directories above only if it was that
    rw [tokens]
    obtain ⟨last, others, hParts⟩ := List.exists_cons_of_ne_nil hSome
    rw [hParts, crossed]
    refine ⟨by simp, fun hEq => hOther ?_⟩
    rw [List.cons.injEq] at hEq
    rw [hParts, hEq.2]
    by_contra hLast
    exact crossing_ne_anyAbove (fun hAbove => hLast (by rw [hAbove])) below hEq.1

end Draft

/-! ## Hollow globs -/

/-- What stands for any directories above: `**/`. -/
def climb : List Char := ['*', '*', '/']

/-- Steps up to any directories above, so many times. -/
def climbs (count : Nat) : List Char :=
  (List.replicate count climb).flatten

/-- The globs of nothing but `**/`, one or more times, with `/**` behind it. -/
def IsHollow (text : String) : Prop :=
  ∃ count, text.toList = climbs (count + 1) ++ anythingBelow

/-- If nothing but any directories above has been read, then the text was `**/` so many times, maybe
with two stars at its end. -/
theorem climbs_of_readOn (h : readOn false d text = .ok e) (hEnd : ¬ e.Strays) :
    ∃ count, text = climbs count ∨ text = climbs count ++ ['*', '*'] := by
  refine readOn_induction h ⟨0, Or.inl rfl⟩ ?_
  intro d text d' rest hFirst ih
  have hNext : ¬ d'.Strays := fun hStrays => hEnd (readOn_keeps Step.strays hFirst.goesOn hStrays)
  have hHere : ¬ d.Strays := fun hStrays => hNext (hFirst.step.strays hStrays)
  -- all steps but two stars that fill a name leave something else behind
  cases hFirst.step with
  | push added nonempty plain groups tokens =>
    exact absurd (strays_of_push nonempty plain tokens) hNext
  | openGroup groups tokens => exact absurd (Or.inl (by simp [groups])) hNext
  | nextBranch group outer branches opened groups tokens =>
    exact absurd (Or.inl (by simp [groups])) hNext
  | closeGroup group branches opened tokens => exact absurd (Or.inl (by simp [opened])) hHere
  | cross below groups tokens ends =>
    rcases ends with ⟨rfl, -, -⟩ | rfl | hGroups
    · exact ⟨0, Or.inr rfl⟩
    · obtain ⟨count, hRest⟩ := ih
      have hMore : ∀ more, '*' :: '*' :: '/' :: (climbs count ++ more) =
          climbs (count + 1) ++ more := fun more => rfl
      refine ⟨count + 1, ?_⟩
      rcases hRest with rfl | rfl
      · exact Or.inl (by simpa using hMore [])
      · exact Or.inr (hMore ['*', '*'])
    · exact absurd (Or.inl hGroups) hHere

/-- At the start of a name, a step up is read as any directories above, and further steps up change
nothing. -/
theorem readOn_climb (hTokens : d.tokens = [] ∨ d.tokens = [.anyAbove] ∧ d.previous = some '/')
    (rest : List Char) :
    readOn false d ('*' :: '*' :: '/' :: rest) = readOn false (d.cross false) rest ∧
      (d.cross false).tokens = [.anyAbove] := by
  have hFills : (d.fills? []).isSome := by
    rcases hTokens with hTokens | ⟨-, hPrevious⟩
    · unfold fills?
      rw [hTokens]
      rfl
    · exact fills?_of_slash hPrevious
  refine ⟨readOn_starsAndSlash hFills rest, ?_⟩
  show crossed false d.tokens = [.anyAbove]
  rcases hTokens with hTokens | ⟨hTokens, -⟩ <;> rw [hTokens] <;> rfl

/-- Steps up are one part, however many there are. -/
theorem readOn_climbs (count : Nat)
    (hTokens : d.tokens = [] ∨ d.tokens = [.anyAbove] ∧ d.previous = some '/') (rest : List Char) :
    ∃ d', readOn false d (climbs (count + 1) ++ rest) = readOn false d' rest ∧
      d'.tokens = [.anyAbove] ∧ d'.previous = some '/' := by
  induction count generalizing d with
  | zero =>
    obtain ⟨hRead, hCrossed⟩ := readOn_climb hTokens rest
    exact ⟨_, hRead, hCrossed, rfl⟩
  | succ count ih =>
    obtain ⟨hRead, hCrossed⟩ := readOn_climb hTokens (climbs (count + 1) ++ rest)
    have hPrevious : (d.cross false).previous = some '/' := rfl
    obtain ⟨d', hRest, hAbove⟩ := ih (Or.inr ⟨hCrossed, hPrevious⟩)
    exact ⟨d', hRead.trans hRest, hAbove⟩

/-! ## What a covered directory holds -/

/-- A text is a glob if it is read to the end and no group stays open. -/
theorem read_eq_ok_iff {text : String} {glob : Glob} :
    read false text = .ok glob ↔ ∃ d, readOn false {} text.toList = .ok d ∧ d.groups = [] ∧
      glob = ⟨d.tokens.reverse⟩ := by
  unfold read
  cases readOn false {} text.toList with
  | error fault => simp [bind, Except.bind]
  | ok d =>
    cases hGroups : d.groups with
    | nil => simp [bind, Except.bind, pure, Except.pure, hGroups, eq_comm]
    | cons group outer => simp [bind, Except.bind, throw, throwThe, MonadExceptOf.throw, hGroups]

/-- If a glob stands for any directories above and gains a part from `/**`, then it is hollow: two
stars at its end would have taken the slash along. -/
theorem isHollow_of_read {directory whole : String}
    (hWhole : whole.toList = directory.toList ++ anythingBelow)
    (hRead : readOn false {} directory.toList = .ok d) (hAbove : d.tokens = [.anyAbove])
    (hGroups : d.groups = [])
    (hCovering : readOn false {} (directory.toList ++ anythingBelow) = .ok e)
    (hMore : e.tokens ≠ [.anyAbove]) : IsHollow whole := by
  have hEnd : ¬ d.Strays := by
    rintro (hOpen | ⟨-, hOther⟩)
    · exact hOpen hGroups
    · exact hOther hAbove
  obtain ⟨count, hText | hText⟩ := climbs_of_readOn hRead hEnd
  · cases count with
    | zero =>
      rw [hText, climbs, List.replicate_zero, List.flatten_nil, readOn] at hRead
      cases hRead
      cases hAbove
    | succ count => exact ⟨count, by rw [hWhole, hText]⟩
  · exfalso
    -- the two stars at the end take the slash along, which makes one more step up
    have hClimbs : directory.toList ++ anythingBelow = climbs (count + 1) ++ ['*', '*'] := by
      rw [hText, climbs, climbs, List.replicate_succ', List.flatten_append]
      simp [anythingBelow, climb]
    obtain ⟨d', hSteps, hTokens, hPrevious⟩ :=
      readOn_climbs (d := {}) count (Or.inl rfl) ['*', '*']
    rw [hClimbs, hSteps, readOn_stars (fills?_of_slash hPrevious)] at hCovering
    cases hCovering
    refine hMore ?_
    show crossed true d'.tokens = [.anyAbove]
    rw [hTokens]
    rfl

/-- A glob matches all that lies below what the shorter glob matches, unless it is hollow. -/
theorem matchesPath_covered {directory whole path : String} {glob covering : Glob}
    (hWhole : whole.toList = directory.toList ++ anythingBelow)
    (hGlob : read false directory = .ok glob) (hCovering : read false whole = .ok covering)
    (hFull : ¬ IsHollow whole) (hMatch : glob.matchesPath path = true) (rest : String) :
    covering.matchesPath (path ++ "/" ++ rest) = true := by
  obtain ⟨d, hRead, hGroups, rfl⟩ := read_eq_ok_iff.mp hGlob
  obtain ⟨d', hReadBelow, -, hTokens⟩ := readOn_below hRead
  obtain ⟨other, hOther, -, rfl⟩ := read_eq_ok_iff.mp hCovering
  rw [hWhole, hReadBelow] at hOther
  cases hOther
  -- the parts are kept with the last one first, so the head is what the glob ends in
  rcases hTokens with hTokens | ⟨hTokens, hBelow | hAbove⟩
  · rw [hTokens, List.reverse_cons]
    refine matchesPath_below ?_ hMatch rest
    intro hAbove
    rw [List.reverse_eq_iff] at hAbove
    exact hFull (isHollow_of_read hWhole hRead hAbove hGroups hReadBelow (by simp [hTokens]))
  · obtain ⟨tokens, hParts⟩ := List.head?_eq_some_iff.mp hBelow
    rw [hParts, List.reverse_cons] at hMatch
    rw [hTokens, hParts, List.reverse_cons, String.append_assoc]
    exact matchesPath_farther hMatch _
  · -- any directories above stand first, so there is nothing else
    obtain ⟨tokens, hParts⟩ := List.head?_eq_some_iff.mp hAbove
    have hFirst : d.AboveFirst :=
      readOn_keeps Step.aboveFirst hRead (by simp [AboveFirst])
    have hNone : tokens = [] := by
      by_contra hSome
      refine hFirst d.tokens List.mem_cons_self ?_
      rw [hParts, List.dropLast_cons_of_ne_nil hSome]
      exact List.mem_cons_self
    rw [hTokens, hParts, hNone]
    rfl

/-- A hollow glob covers every directory. -/
theorem matchesPath_directory_of_isHollow {directory whole : String} {glob : Glob}
    (hWhole : whole.toList = directory.toList ++ anythingBelow) (hHollow : IsHollow whole)
    (hGlob : read false directory = .ok glob) (path : String) : glob.matchesPath path = true := by
  obtain ⟨count, hCount⟩ := hHollow
  have hDirectory : directory.toList = climbs (count + 1) ++ [] := by
    rw [List.append_nil]
    exact List.append_cancel_right (hWhole.symm.trans hCount)
  obtain ⟨d, hRead, -, rfl⟩ := read_eq_ok_iff.mp hGlob
  obtain ⟨d', hClimbs, hAbove, -⟩ := readOn_climbs (d := {}) count (Or.inl rfl) []
  rw [hDirectory, hClimbs, readOn] at hRead
  cases hRead
  rw [hAbove]
  rfl

/-! ## What a hollow glob matches -/

/-- Where a slash is looked for, bytes without one are passed over. -/
theorem afterSlash_append {next : List UInt8 → Bool} {part s : List UInt8} (hFree : slash ∉ part) :
    afterSlash next (part ++ s) = afterSlash next s := by
  induction part with
  | nil => rfl
  | cons b part ih =>
    rw [List.mem_cons, not_or] at hFree
    have hOther : (b == slash) = false := beq_eq_false_iff_ne.mpr (Ne.symm hFree.1)
    rw [List.cons_append, afterSlash, hOther, Bool.false_and, Bool.false_or, ih hFree.2]

/-- Names that are joined by slashes do not start with one. -/
theorem head?_join_ne_slash {parts : List (List UInt8)}
    (hParts : ∀ part ∈ parts, part ≠ [] ∧ slash ∉ part) :
    (Text.join slash parts).head? ≠ some slash := by
  cases parts with
  | nil => simp [Text.join]
  | cons part parts =>
    obtain ⟨hSome, hFree⟩ := hParts part List.mem_cons_self
    obtain ⟨b, part, rfl⟩ := List.exists_cons_of_ne_nil hSome
    have hHead : (Text.join slash ((b :: part) :: parts)).head? = some b := by
      cases parts <;> rfl
    rw [hHead, ne_eq, Option.some_inj]
    rintro rfl
    exact hFree List.mem_cons_self

/-- Anything below does not accept names from the first byte of one of them. -/
theorem acceptsAll_anyBelow_join {parts : List (List UInt8)}
    (hParts : ∀ part ∈ parts, part ≠ [] ∧ slash ∉ part) :
    acceptsAll [.anyBelow] List.isEmpty (Text.join slash parts) = false := by
  have hHead := head?_join_ne_slash hParts
  cases hText : Text.join slash parts with
  | nil => simp [acceptsAll, Token.accepts, afterOne]
  | cons b s =>
    have hOther : b ≠ slash := by simpa [hText] using hHead
    simp [acceptsAll, Token.accepts, afterOne, hOther]

/-- Two slashes in a row are looked for, or one at the start, and neither is found where names are
joined by slashes. -/
theorem acceptsAll_hollow {parts : List (List UInt8)}
    (hParts : ∀ part ∈ parts, part ≠ [] ∧ slash ∉ part) :
    acceptsAll [.anyAbove, .anyBelow] List.isEmpty (Text.join slash parts) = false := by
  rw [acceptsAll, Token.accepts, acceptsAll_anyBelow_join hParts, Bool.false_or]
  induction parts with
  | nil => rfl
  | cons part parts ih =>
    obtain ⟨hPart, hOthers⟩ := List.forall_mem_cons.mp hParts
    by_cases hLast : parts = []
    · have hText : Text.join slash (part :: parts) = part ++ [] := by
        rw [hLast, List.append_nil]
        rfl
      rw [hText, afterSlash_append hPart.2, afterSlash]
    · rw [Text.join_cons hLast, afterSlash_append hPart.2, afterSlash,
        acceptsAll_anyBelow_join hOthers, ih hOthers]
      simp

/-- A hollow glob matches no path. -/
theorem matchesPath_eq_false_of_isHollow {whole : String} {covering : Glob} {names : List String}
    (hHollow : IsHollow whole) (hCovering : read false whole = .ok covering)
    (hNames : ∀ name ∈ names, name ≠ "" ∧ '/' ∉ name.toList) :
    covering.matchesPath (Text.joinAll '/' names) = false := by
  obtain ⟨count, hCount⟩ := hHollow
  obtain ⟨e, hRead, -, rfl⟩ := read_eq_ok_iff.mp hCovering
  obtain ⟨d, hClimbs, hAbove, -⟩ := readOn_climbs (d := {}) count (Or.inl rfl) anythingBelow
  obtain ⟨other, hBelow, -, hParts⟩ := readOn_anythingBelow d
  rw [hCount, hClimbs, hBelow] at hRead
  cases hRead
  have hTokens : e.tokens.reverse = [.anyAbove] ++ [.anyBelow] := by
    rw [hParts, hAbove]
    rfl
  have hBytes : (Text.joinAll '/' names).toUTF8.toList =
      Text.join slash (names.map fun name => name.toUTF8.toList) := by
    have hSlash : String.utf8EncodeChar '/' = [slash] := by decide
    simp only [Text.toList_toUTF8, Text.bytes_eq, Text.joinAll, String.toList_ofList]
    rw [Text.flatMap_join hSlash, List.map_map]
    rfl
  rw [hTokens, matchesPath_anyBelow, hBytes]
  refine acceptsAll_hollow fun part hPart => ?_
  obtain ⟨name, hName, rfl⟩ := List.mem_map.mp hPart
  obtain ⟨hSome, hFree⟩ := hNames name hName
  rw [Text.toList_toUTF8, Text.bytes_eq]
  refine ⟨fun hEmpty => hSome ?_, Text.not_mem_flatMap_utf8EncodeChar '/' (by decide) hFree⟩
  -- a character has at least one byte, so there are no characters
  rw [List.flatMap_eq_nil_iff] at hEmpty
  rw [← String.toList_eq_nil_iff, List.eq_nil_iff_forall_not_mem]
  exact fun c hChar => String.utf8EncodeChar_ne_nil (hEmpty c hChar)

end KeyRegistry.Glob

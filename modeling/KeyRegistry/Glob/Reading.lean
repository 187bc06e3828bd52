import KeyRegistry.Glob

/-!
# Reading globs

The characters `?`, `*`, `[`, `{` and a backslash have a meaning, and a comma and `}` have one
between braces. Two stars that fill a whole name cross directories; elsewhere they are two stars.
A class that is never closed is a fault, unless the reader takes its bracket for a character.

Main definitions:

* `Glob.Fault` — why a text is no glob
* `Glob.read` — reads a glob
-/

namespace KeyRegistry.Glob

/-- Why a text is no glob. -/
inductive Fault where
  | unclosedClass
  | invalidRange (low high : Char)
  | unopenedGroup
  | unclosedGroup
  | danglingEscape
  deriving DecidableEq, Repr

/-- The words for a fault. -/
def Fault.message : Fault → String
  | .unclosedClass => "unclosed character class; missing ']'"
  | .invalidRange low high =>
    "invalid range; '" ++ low.toString ++ "' > '" ++ high.toString ++ "'"
  | .unopenedGroup =>
    "unopened alternate group; missing '\x7b' (maybe escape '\x7d' with '[\x7d]'?)"
  | .unclosedGroup =>
    "unclosed alternate group; missing '\x7d' (maybe escape '\x7b' with '[\x7b]'?)"
  | .danglingEscape => "dangling '\\'"

/-! ## Classes -/

/-- A class as far as it was read: its ranges, last one first, and whether the next character
ends the last range. -/
structure ClassDraft where
  ranges : List (Char × Char) := []
  first : Bool := true
  inRange : Bool := false

/-- Takes a character into a class. -/
def ClassDraft.take (d : ClassDraft) (c : Char) : Except Fault ClassDraft :=
  match d.inRange, d.ranges with
  | true, (low, _) :: ranges =>
    -- the hyphen has waited for this end of its range
    if c < low then .error (.invalidRange low c)
    else .ok { ranges := (low, c) :: ranges, first := false }
  | _, ranges => .ok { ranges := (c, c) :: ranges, first := false }

/-- The ranges of a finished class; a hyphen at the end stands for itself. -/
def ClassDraft.finish (d : ClassDraft) : List (Char × Char) :=
  (if d.inRange then ('-', '-') :: d.ranges else d.ranges).reverse

/-- Reads the ranges of a class up to the bracket that closes it, which cannot be the first
character. The answer is nothing if the class is never closed. -/
def readRanges (d : ClassDraft) : List Char → Except Fault (Option (List (Char × Char) × List Char))
  | [] => .ok none
  | c :: rest =>
    if c = ']' ∧ !d.first then .ok (some (d.finish, rest))
    else if c = '-' ∧ !d.first ∧ !d.inRange then readRanges { d with inRange := true } rest
    else match d.take c with
      | .error fault => .error fault
      | .ok d => readRanges d rest

/-- Steps over the sign that negates a class; whether there was one, and what is left. -/
def readNegation : List Char → Bool × List Char
  | '!' :: rest => (true, rest)
  | '^' :: rest => (true, rest)
  | rest => (false, rest)

/-- Reads a class, behind its opening bracket. -/
def readClass (text : List Char) : Except Fault (Option (Token × List Char)) :=
  (readRanges {} (readNegation text).2).map
    (Option.map fun (ranges, rest) => (.class (readNegation text).1 ranges, rest))

theorem length_readRanges {d : ClassDraft} {text rest : List Char} {ranges : List (Char × Char)}
    (h : readRanges d text = .ok (some (ranges, rest))) : rest.length < text.length := by
  induction text generalizing d with
  | nil => simp [readRanges] at h
  | cons c text ih =>
    unfold readRanges at h
    split at h
    · simp only [Except.ok.injEq, Option.some.injEq, Prod.mk.injEq] at h
      simp [h.2]
    · split at h
      · have := ih h
        simp only [List.length_cons]
        omega
      · split at h
        · simp at h
        · have := ih h
          simp only [List.length_cons]
          omega

theorem length_readNegation (text : List Char) :
    (readNegation text).2.length ≤ text.length := by
  unfold readNegation
  split <;> simp

theorem length_readClass {text rest : List Char} {token : Token}
    (h : readClass text = .ok (some (token, rest))) : rest.length < text.length := by
  unfold readClass at h
  cases hr : readRanges {} (readNegation text).2 with
  | error fault => simp [hr, Except.map] at h
  | ok result =>
    cases result with
    | none => simp [hr, Except.map] at h
    | some found =>
      simp only [hr, Except.map, Option.map, Except.ok.injEq, Option.some.injEq,
        Prod.mk.injEq] at h
      have := length_readRanges hr
      have := length_readNegation text
      rw [← h.2]
      omega

/-! ## Globs -/

/-- A group of alternatives that is open: the parts before it and its finished branches, each
list last one first. -/
structure Group where
  before : List Token
  branches : List (List Token) := []

/-- A glob as far as it was read: the open groups, innermost first, the parts of the branch at
hand, last one first, the character before the position, and whether an opening bracket stands
for itself. -/
structure Draft where
  groups : List Group := []
  tokens : List Token := []
  previous : Option Char := none
  openBrackets : Bool := false

namespace Draft

/-- Adds a part. -/
def push (d : Draft) (token : Token) : Draft :=
  { d with tokens := token :: d.tokens }

/-- Opens a group. -/
def openGroup (d : Draft) : Draft :=
  { d with groups := ⟨d.tokens, []⟩ :: d.groups, tokens := [] }

/-- Ends a branch; outside of groups a comma stands for itself. -/
def nextBranch (d : Draft) : Draft :=
  match d.groups with
  | [] => d.push (.literal ',')
  | group :: groups =>
    { d with
      groups := { group with branches := d.tokens.reverse :: group.branches } :: groups
      tokens := [] }

/-- Closes a group. -/
def closeGroup (d : Draft) : Except Fault Draft :=
  match d.groups with
  | [] => .error .unopenedGroup
  | group :: groups =>
    .ok { d with
      groups
      tokens := .oneOf (d.tokens.reverse :: group.branches).reverse :: group.before }

/-- What two stars that fill a name become, given the part before them. -/
def crossing (previous : Token) (below : Bool) : Token :=
  match previous with
  | .anyAbove => .anyAbove
  | .anyBelow => .anyBelow
  | _ => if below then .anyBelow else .anyBetween

/-- Whether a name can end in front of a text: at its end, at a slash, which is stepped over, or,
inside a group, where a branch ends. The flag tells whether the whole branch ends. -/
def boundary (inGroup : Bool) : List Char → Option (Bool × List Char)
  | [] => some (true, [])
  | c :: rest =>
    if c = '/' then some (false, rest)
    else if inGroup ∧ (c = ',' ∨ c = '}') then some (true, c :: rest)
    else none

/-- Adds two stars. -/
def pushTwoStars (d : Draft) : Draft :=
  { d with tokens := .star :: .star :: d.tokens, previous := some '*' }

/-- Whether a name starts at the position of a draft, which is not the start of a branch. -/
def atName (d : Draft) : Bool :=
  d.previous == some '/' ||
    (!d.groups.isEmpty && (d.previous == some ',' || d.previous == some '{'))

/-- Takes in two stars, given what follows them, and gives what is left to read. They cross
directories if they fill a name, and take the slash behind it with them. -/
def pushDoubleStar (d : Draft) (rest : List Char) : Draft × List Char :=
  match d.tokens with
  | [] =>
    -- at the start of a branch only a slash and the end of the text are looked for, even in a group
    match boundary false rest with
    | some (_, left) => ({ d.push .anyAbove with previous := some '/' }, left)
    | none => (d.pushTwoStars, rest)
  | last :: tokens =>
    if d.atName then
      match boundary (!d.groups.isEmpty) rest with
      | some (below, left) =>
        ({ d with
            tokens := crossing last below :: tokens
            previous := some (if below then '*' else '/') }, left)
      | none => (d.pushTwoStars, rest)
    else (d.pushTwoStars, rest)

theorem length_boundary {inGroup : Bool} {text left : List Char} {below : Bool}
    (h : boundary inGroup text = some (below, left)) : left.length ≤ text.length := by
  cases text with
  | nil =>
    simp only [boundary, Option.some.injEq, Prod.mk.injEq] at h
    simp [← h.2]
  | cons c rest =>
    simp only [boundary] at h
    split at h
    · simp only [Option.some.injEq, Prod.mk.injEq] at h
      simp [← h.2]
    · split at h
      · simp only [Option.some.injEq, Prod.mk.injEq] at h
        simp [← h.2]
      · simp at h

theorem length_pushDoubleStar (d : Draft) (rest : List Char) :
    (d.pushDoubleStar rest).2.length ≤ rest.length := by
  unfold pushDoubleStar
  split
  · split
    · next h => exact length_boundary h
    · simp
  · split
    · split
      · next h => exact length_boundary h
      · simp
    · simp

end Draft

/-- Reads a glob on from a draft. `lenient` takes the bracket of a class that is never closed,
and all later ones, for a character. -/
def readOn (lenient : Bool) (d : Draft) : List Char → Except Fault Draft
  | [] => .ok d
  | '*' :: '*' :: rest =>
    have := d.length_pushDoubleStar rest
    readOn lenient (d.pushDoubleStar rest).1 (d.pushDoubleStar rest).2
  | '\\' :: [] => .error .danglingEscape
  | '\\' :: c :: rest => readOn lenient { d.push (.literal c) with previous := some c } rest
  | c :: rest =>
    let d' := { d with previous := some c }
    match c with
    | '?' => readOn lenient (d'.push .any) rest
    | '*' => readOn lenient (d'.push .star) rest
    | '{' => readOn lenient d'.openGroup rest
    | ',' => readOn lenient d'.nextBranch rest
    | '}' =>
      match d'.closeGroup with
      | .error fault => .error fault
      | .ok d => readOn lenient d rest
    | '[' =>
      -- an earlier bracket has found no partner, so this one has none either
      if d.openBrackets then readOn lenient (d'.push (.literal '[')) rest
      else match _h : readClass rest with
        | .error fault => .error fault
        | .ok (some (token, left)) =>
          have := length_readClass _h
          readOn lenient { d'.push token with previous := some ']' } left
        | .ok none =>
          if lenient then
            readOn lenient { d'.push (.literal '[') with openBrackets := true } rest
          else .error .unclosedClass
    | c => readOn lenient (d'.push (.literal c)) rest
termination_by text => text.length
decreasing_by all_goals (simp only [List.length_cons]; omega)

/-- Reads a glob. -/
def read (lenient : Bool) (text : String) : Except Fault Glob := do
  let d ← readOn lenient {} text.toList
  if d.groups.isEmpty then return ⟨d.tokens.reverse⟩ else throw .unclosedGroup

end KeyRegistry.Glob

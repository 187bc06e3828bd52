import KeyRegistry.Text.Pieces

/-!
# Key patterns

A pattern is a text cut into segments by slashes; a segment that starts with a dollar sign is a
parameter. Its parents are the prefixes that end just before a slash. Nothing is normalised:
empty segments, leading and trailing slashes are kept as they stand.

Main definitions:

* `Pattern.segments` — the texts between the slashes
* `Pattern.parents` — the proper prefixes that end before a slash, shortest first
* `Pattern.parameters` — the names of the parameter segments, in order
-/

namespace KeyRegistry

/-- A key pattern: a text whose slashes separate segments. -/
structure Pattern where
  text : String
  deriving DecidableEq, Repr

namespace Pattern

/-- The prefixes of a list of characters that end just before a slash, shortest first. -/
def stems : List Char → List (List Char)
  | [] => []
  | c :: rest => (if c = '/' then [[]] else []) ++ (stems rest).map (c :: ·)

/-- The texts between the slashes. -/
def segments (p : Pattern) : List String :=
  Text.piecesOf '/' p.text

/-- The number of segments. -/
def depth (p : Pattern) : Nat :=
  p.segments.length

/-- The proper prefixes that end just before a slash, shortest first. -/
def parents (p : Pattern) : List Pattern :=
  (stems p.text.toList).map fun stem => ⟨String.ofList stem⟩

/-- The name of a parameter segment: what follows its dollar sign. -/
def parameterName? (segment : String) : Option String :=
  match segment.toList with
  | '$' :: name => some (String.ofList name)
  | _ => none

/-- The names of the parameters, in order. -/
def parameters (p : Pattern) : List String :=
  p.segments.filterMap parameterName?

/-- Whether some segment is a parameter. -/
def isParameterized (p : Pattern) : Bool :=
  !p.parameters.isEmpty

/-- There is one parent for each slash, so one less than there are segments. -/
theorem length_stems (text : List Char) :
    (stems text).length + 1 = (Text.pieces '/' text).length := by
  induction text with
  | nil => rfl
  | cons c rest ih =>
    by_cases h : c = '/'
    · simp [stems, Text.pieces, h, ih]
    · cases hc : Text.pieces '/' rest with
      | nil => exact absurd hc (Text.pieces_ne_nil '/' rest)
      | cons segment others => simpa [stems, Text.pieces, h, hc] using ih

end Pattern

/-!
## Parents by offsets

The parents of a pattern can be cut out of its text without looking at segments: one for each slash,
from the start of the text up to the slash. Places in a text are offsets in bytes, and a cut may not
fall inside a character.
-/

namespace Text

/-- Characters with the offsets that they stand at, the first of them at a given one. -/
def offsetsFrom : Nat → List Char → List (Nat × Char)
  | _, [] => []
  | offset, c :: rest => (offset, c) :: offsetsFrom (offset + c.utf8Size) rest

/-- The characters of a text with the offsets that they stand at. -/
def offsets (text : String) : List (Nat × Char) :=
  offsetsFrom 0 text.toList

/-- What stands in front of an offset, unless the offset lies behind the end or in a character. -/
def before? (text : String) (offset : Nat) : Option String :=
  if offset ≤ text.utf8ByteSize then String.fromUTF8? (text.toUTF8.extract 0 offset) else none

end Text

namespace Pattern

/-- What stands in front of each slash of a text, shortest first, if none of the cuts fails. -/
def parentTexts? (text : String) : Option (List String) :=
  ((Text.offsets text).filter fun (_, c) => c = '/').mapM fun (offset, _) =>
    Text.before? text offset

end Pattern

end KeyRegistry

/-!
# Globs

A glob is a pattern for paths. It looks at bytes: a question mark stands for one byte and a star
for any number of them, neither crossing a slash; a class stands for one byte of some ranges, or
outside of them; a double star crosses directories; braces hold alternatives.

Main definitions:

* `Glob.Token` — the parts of a glob
* `Glob.matchesPath` — whether a path matches
-/

namespace KeyRegistry

/-- A part of a glob. -/
inductive Glob.Token where
  /-- One character. -/
  | literal (c : Char)
  /-- One byte of a name. -/
  | any
  /-- Any bytes of a name. -/
  | star
  /-- Any directories at the start. -/
  | anyAbove
  /-- A slash with any directories behind it. -/
  | anyBetween
  /-- A slash with anything behind it. -/
  | anyBelow
  /-- One byte of the ranges, or outside of them. -/
  | class (negated : Bool) (ranges : List (Char × Char))
  /-- One of some sequences. -/
  | oneOf (branches : List (List Glob.Token))

/-- A pattern for paths. -/
structure Glob where
  tokens : List Glob.Token

namespace Glob

/-- The byte that separates names. -/
def slash : UInt8 := 0x2F

/-- The bytes of a character. -/
def charBytes (c : Char) : List UInt8 :=
  c.toString.toUTF8.toList

/-- Whether the text starts with some bytes, and goes on well behind them. -/
def afterBytes (next : List UInt8 → Bool) : List UInt8 → List UInt8 → Bool
  | [], s => next s
  | _ :: _, [] => false
  | b :: bytes, c :: s => b == c && afterBytes next bytes s

/-- Whether the text goes on well behind some bytes of a name. -/
def afterName (next : List UInt8 → Bool) : List UInt8 → Bool
  | [] => next []
  | b :: s => next (b :: s) || (b != slash && afterName next s)

/-- Whether the text goes on well behind some bytes. -/
def afterSome (next : List UInt8 → Bool) : List UInt8 → Bool
  | [] => next []
  | b :: s => next (b :: s) || afterSome next s

/-- Whether the text goes on well behind some slash. -/
def afterSlash (next : List UInt8 → Bool) : List UInt8 → Bool
  | [] => false
  | b :: s => (b == slash && next s) || afterSlash next s

/-- Whether the text starts with a byte that passes a test, and goes on well behind it. -/
def afterOne (test : UInt8 → Bool) (next : List UInt8 → Bool) : List UInt8 → Bool
  | [] => false
  | b :: s => test b && next s

/-- The ranges of bytes that a range of characters stands for: the first character's bytes, the
second one's, and what lies between the byte that ends the first and the one that starts the
second. -/
def byteRanges (range : Char × Char) : List (UInt8 × UInt8) :=
  let low := charBytes range.1
  let high := charBytes range.2
  if range.1 = range.2 then low.map fun b => (b, b)
  else
    low.dropLast.map (fun b => (b, b)) ++
      [(low.getLast?.getD 0, high.head?.getD 0)] ++ high.tail.map fun b => (b, b)

/-- Whether a byte lies in one of some ranges of characters. -/
def inRanges (ranges : List (Char × Char)) (b : UInt8) : Bool :=
  ranges.any fun range => (byteRanges range).any fun r => r.1 ≤ b && b ≤ r.2

mutual

/-- Whether a part stands for nothing at all. -/
def Token.isVoid : Token → Bool
  | .oneOf branches => allVoid branches
  | _ => false

/-- Whether a sequence stands for nothing at all. -/
def isVoid : List Token → Bool
  | [] => true
  | token :: tokens => token.isVoid && isVoid tokens

/-- Whether all sequences stand for nothing at all. -/
def allVoid : List (List Token) → Bool
  | [] => true
  | branch :: branches => isVoid branch && allVoid branches

end

mutual

/-- Whether the text starts with what a part stands for, and goes on well behind it. -/
def Token.accepts : Token → (List UInt8 → Bool) → List UInt8 → Bool
  | .literal c, next, s => afterBytes next (charBytes c) s
  | .any, next, s => afterOne (· != slash) next s
  | .star, next, s => afterName next s
  | .anyAbove, next, s => next s || afterSlash next s
  | .anyBetween, next, s => afterOne (· == slash) (fun s => next s || afterSlash next s) s
  | .anyBelow, next, s => afterOne (· == slash) (afterSome next) s
  | .class negated ranges, next, s => afterOne (fun b => inRanges ranges b != negated) next s
  | .oneOf branches, next, s => if allVoid branches then next s else acceptsSome branches next s

/-- Whether the text starts with what a sequence stands for, and goes on well behind it. -/
def acceptsAll : List Token → (List UInt8 → Bool) → List UInt8 → Bool
  | [], next, s => next s
  | token :: tokens, next, s => token.accepts (acceptsAll tokens next) s

/-- Whether one of some sequences fits. A sequence that stands for nothing is no choice. -/
def acceptsSome : List (List Token) → (List UInt8 → Bool) → List UInt8 → Bool
  | [], _, _ => false
  | branch :: branches, next, s =>
    (!isVoid branch && acceptsAll branch next s) || acceptsSome branches next s

end

/-- Whether a part is a character. -/
def Token.isLiteral : Token → Bool
  | .literal _ => true
  | _ => false

/-- Whether a part is a given character. -/
def Token.isChar (c : Char) : Token → Bool
  | .literal d => c == d
  | _ => false

/-- Whether a glob asks for a name that ends in a dot, without fixing a whole path or a path of
several names. -/
def asksForDot (g : Glob) : Bool :=
  (g.tokens.getLast?.map (Token.isChar '.')).getD false &&
    match g.tokens with
    | .anyAbove :: tokens => !(tokens.all Token.isLiteral && tokens.any (Token.isChar '/'))
    | tokens => !tokens.all Token.isLiteral

/-- Whether a path ends in a step up, which is no name. -/
def endsInStepUp (path : List UInt8) : Bool :=
  path.reverse.takeWhile (· != slash) == [0x2E, 0x2E]

/-- Whether a path matches. A glob of nothing but directories matches every path. -/
def matchesPath (g : Glob) (path : String) : Bool :=
  let bytes := path.toUTF8.toList
  match g.tokens with
  | [.anyAbove] => true
  | tokens => acceptsAll tokens List.isEmpty bytes && !(g.asksForDot && endsInStepUp bytes)

end Glob

end KeyRegistry

import KeyRegistry.Json.Number
import KeyRegistry.Json.Text

/-!
# Stepping over JSON values

A value that nobody asks for is stepped over. The lists and objects that are open at a point form
a stack, so that values may be nested as deeply as they like.

Main definitions:

* `Reader.skipValue` — steps over one value of any kind
-/

namespace KeyRegistry.Json

/-- A container that is open. -/
inductive Frame where
  | list
  | object
  deriving DecidableEq

/-- The character that closes a container. -/
def Frame.closer : Frame → Char
  | .list => ']'
  | .object => '}'

/-- The fault of a text that ends inside a container. -/
def Frame.endFault : Frame → Fault
  | .list => .endInList
  | .object => .endInObject

/-- The fault of a text that goes on after a member without a comma. -/
def Frame.commaFault : Frame → Fault
  | .list => .listCommaExpected
  | .object => .objectCommaExpected

namespace Reader

/-- Steps over the key of a member and the colon behind it. -/
def skipKey : Reader Unit := do
  match ← peekToken with
  | some '\x22' => do
    advance
    skipTextBody
    match ← peekToken with
    | some ':' => advance
    | some _ => failPast .colonExpected
    | none => failHere .endInObject
  | some _ => failPast .keyNotText
  | none => failHere .endInObject

/-- Steps over a value that is no container, or into a container. -/
def skipStart : Reader (Option Frame) := do
  match ← peekToken with
  | none => failHere .endInValue
  | some 'n' => do advance; word ['u', 'l', 'l']; return none
  | some 't' => do advance; word ['r', 'u', 'e']; return none
  | some 'f' => do advance; word ['a', 'l', 's', 'e']; return none
  | some '-' => do advance; skipNumber; return none
  | some '\x22' => do advance; skipTextBody; return none
  | some '[' => do advance; return some .list
  | some '{' => do advance; return some .object
  | some c => if c.isDigit then do skipNumber; return none else failPast .valueExpected

/-- Steps over what closes containers, up to the next member of one that stays open. The flag
tells whether a comma may come next; the answer is the stack with that container on top. -/
def skipClosers : List Frame → Bool → Reader (List Frame)
  | [], _ => return []
  | frame :: outer, comma => do
    match ← peekToken with
    | none => failHere frame.endFault
    | some c =>
      if c = ',' ∧ comma then do
        advance
        return frame :: outer
      else if c = frame.closer then do
        advance
        skipClosers outer true
      -- a member has ended, so a comma or the end had to come
      else if comma then failPast frame.commaFault
      else return frame :: outer

/-- Steps over a value inside some open containers and over all that is left of these, for a
bound on the number of values. -/
def skipWithin : Nat → List Frame → Reader Unit
  | 0, _ => failHere .endInValue
  | bound + 1, stack => do
    let opened ← skipStart
    match ← skipClosers (opened.toList ++ stack) opened.isNone with
    | [] => return
    | .object :: outer => do
      skipKey
      skipWithin bound (.object :: outer)
    | .list :: outer => skipWithin bound (.list :: outer)

/-- Steps over one value. -/
def skipValue : Reader Unit := do
  skipWithin ((← remaining) + 1) []

end Reader

end KeyRegistry.Json

import KeyRegistry.Script.Literal

/-!
# Goals of the grammar

The rules of the grammar call each other in circles. A rule takes a reader for the goals on these
circles; the circles are closed at the end, with a bound on how deeply goals are nested.
-/

namespace KeyRegistry.Script

/-- What can be asked for anywhere in the grammar. -/
inductive Goal where
  /-- A statement. -/
  | statement
  /-- Expressions with commas between them. -/
  | sequence
  /-- An expression without a comma. -/
  | expression
  /-- An operand. The flag tells whether it may be called with type arguments. -/
  | operand (generic : Bool)
  /-- A type. -/
  | type
  /-- A type without operators between types. -/
  | typeOperand
  /-- What a value is bound to. -/
  | binding
  /-- An element; the reader stays behind its last sign. -/
  | element
  deriving DecidableEq

/-- A reader for the goals. -/
abbrev Self := Goal → Parser Unit

/-- What every rule is given: the dialect and the reader for the goals. -/
structure Rules where
  dialect : Dialect
  self : Self

namespace Parser

/-- Reads items with commas between them, at least one. -/
def commaSeparated (item : Parser Unit) : Parser Unit := do
  item
  repeatWhile do
    if ← symbol? "," then do
      item
      return true
    else return false

/-- Reads a sign and what it introduces, if the sign comes next. -/
def introduced (sign : String) (p : Parser Unit) : Parser Unit := do
  if ← symbol? sign then p else return

/-- Reads the sign of an assignment or a default, which is no comparison and no arrow. -/
def equalsSign? : Parser Bool := do
  if ← startsWith "==" then return false
  else if ← startsWith "=>" then return false
  else symbol? "="

/-- Ends a statement: with a semicolon, or where a line or a block ends. -/
def endStatement : Parser Unit := do
  if ← symbol? ";" then return
  else if ← startsWith "\x7d" then return
  else if ← atEnd then return
  else if ← newline then return
  else fail

/-- Whether a property name can come next. -/
def atPropertyName : Parser Bool := do
  if (← peekName).isSome then return true
  else
    match ← peek with
    | some c => return "[#'\"".toList.contains c || c.isDigit
    | none => return false

/-- Whether one of some words comes next as a modifier of a property, and not as its name. -/
def atModifier (words : List String) : Parser Bool := do
  match ← peekName with
  | some text =>
    if words.contains text then
      ahead do
        step text.length
        if ← atPropertyName then return
        else if ← startsWith "*" then return
        else fail
    else return false
  | none => return false

/-- Reads words that modify a property. -/
def modifiers (words : List String) : Parser Unit :=
  repeatWhile do
    if ← atModifier words then do
      name .other
      return true
    else return false

end Parser

end KeyRegistry.Script

namespace KeyRegistry.Script.Parser

/-!
## Templates

Text between backticks with parts to fill in. The text is kept apart from the parts: inside it
there are no comments and no words.
-/

/-- The number of characters of a template's text up to a backtick or a part to fill in. -/
def templateTextLength (escaped : Bool) : List Char → Nat
  | [] => 0
  | c :: rest =>
    if escaped then templateTextLength false rest + 1
    else if c = '\x60' then 0
    else if c = '$' ∧ rest.head? = some '{' then 0
    else templateTextLength (c == '\\') rest + 1

/-- Reads a part to fill in. -/
def templatePart (item : Parser Unit) : Parser Unit :=
  node .phrase do
    symbol "$\x7b"
    inside false item
    symbolTight "\x7d"

/-- Reads a template; `item` is what may stand in its parts. -/
def template (item : Parser Unit) : Parser Unit := do
  node .phrase do
    symbolTight "\x60"
    repeatWhile do
      take (templateTextLength false (← rest))
      if ← startsWith "$\x7b" then do
        templatePart item
        return true
      else return false
    symbolTight "\x60"
  skipGap

end KeyRegistry.Script.Parser

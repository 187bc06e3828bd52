import KeyRegistry.Script.Grammar.Class

/-!
# Elements

Markup inside scripts: elements with attributes and children, and expressions between braces.
The text between elements is no script; a brace or a bracket in it that opens nothing is a flaw.
-/

namespace KeyRegistry.Script.Parser

/-! ## Names and texts -/

/-- The number of characters of a name in markup, which may hold hyphens. -/
def markupNameLength (text : List Char) : Nat :=
  let rec rest : List Char → Nat
    | [] => 0
    | c :: text => if isNamePart c || c == '-' then rest text + 1 else 0
  match text with
  | c :: _ => if isNamePart c && !c.isDigit then rest text else 0
  | [] => 0

/-- Reads a name in markup. -/
def markupName : Parser Unit := do
  match markupNameLength (← rest) with
  | 0 => fail
  | length => leaf .other length

/-- The number of characters of a reference to a character; none if there is no reference. -/
def referenceLength (text : List Char) : Nat :=
  let ended (digits : List Char) (most before : Nat) (rest : List Char) : Nat :=
    if !digits.isEmpty && digits.length ≤ most && (rest.drop digits.length).head? == some ';' then
      before + digits.length + 1
    else 0
  match text with
  | '&' :: '#' :: 'x' :: rest => ended (rest.takeWhile fun c => (Text.hexValue? c).isSome) 6 3 rest
  | '&' :: '#' :: 'X' :: rest => ended (rest.takeWhile fun c => (Text.hexValue? c).isSome) 6 3 rest
  | '&' :: '#' :: rest => ended (rest.takeWhile Char.isDigit) 5 2 rest
  | '&' :: rest => ended (rest.takeWhile Char.isAlpha) 30 1 rest
  | _ => 0

/-- The number of characters of plain text between elements. -/
def markupTextLength (text : List Char) : Nat :=
  (text.takeWhile fun c => !("\x7b\x7d<>&".toList.contains c)).length

/-- Reads a sign in markup text that is no text of its own. -/
def strayMarkup : Parser Unit := do
  match referenceLength (← rest) with
  -- an ampersand without a reference, or a bracket that closes nothing
  | 0 => leafTight .error 1
  | length => take length

/-- Whether an ampersand in the value of an attribute looks like the start of a reference. -/
def startsReference : List Char → Bool
  | '&' :: c :: _ => c == '#' || c.isAlpha
  | _ => false

/-- Reads the value of an attribute between quotes. -/
def attributeText (quote : Char) : Parser Unit := do
  take 1
  repeatWhile do
    match ← rest with
    | [] => return false
    | c :: tail =>
      if c = quote then return false
      else if startsReference (c :: tail) then do
        strayMarkup
        return true
      else do
        take 1
        return true
  symbol quote.toString

/-! ## Elements -/

/-- An expression between braces; there may be none. -/
def markupExpression (r : Rules) : Parser Unit :=
  node .phrase do
    symbol "\x7b"
    inside false do
      discard (symbol? "...")
      unless ← startsWith "\x7d" do r.self .sequence
    symbolTight "\x7d"

/-- The value of an attribute. -/
def attributeValue (r : Rules) : Parser Unit := do
  match ← peek with
  | some '{' => do markupExpression r; skipGap
  | some '<' => do r.self .element; skipGap
  | some c =>
    if c = '\x27' ∨ c = '\x22' then attributeText c else fail
  | none => fail

/-- An attribute. -/
def elementAttribute (r : Rules) : Parser Unit :=
  node .phrase do
    if ← startsWith "\x7b" then do markupExpression r; skipGap
    else do
      markupName
      introduced ":" markupName
      introduced "=" (attributeValue r)

/-- The name of an element. -/
def elementName : Parser Unit := do
  markupName
  introduced ":" markupName
  repeatWhile do
    if ← symbol? "." then do
      markupName
      return true
    else return false

/-- One child of an element. The answer is no at the sign that closes the element. -/
def child (r : Rules) : Parser Bool := do
  match ← rest with
  | [] => return false
  | '<' :: tail => do
    -- white space and comments may stand between the two signs
    let closes ← ahead do
      step 1
      if ← startsWith "/" then return else fail
    if closes && !tail.isEmpty then return false
    else do
      r.self .element
      return true
  | '{' :: _ => do
    markupExpression r
    return true
  | text => do
    match markupTextLength text with
    | 0 => strayMarkup
    | length => take length
    return true

/-- The children of an element and the sign that closes it. -/
def childrenAndEnd (r : Rules) : Parser Unit := do
  repeatWhile (child r)
  symbol "<"
  symbol "/"
  unless ← startsWith ">" do elementName
  symbolTight ">"

/-- An element, or elements without a name. -/
def element (r : Rules) : Parser Unit :=
  node .phrase do
    symbol "<"
    if ← startsWith ">" then do
      take 1
      childrenAndEnd r
    else do
      elementName
      optionalTypeArguments r
      repeatWhile do
        if ← nextIn "/>" then return false
        else if ← atEnd then return false
        else do
          elementAttribute r
          return true
      if ← startsWith "/" then do
        symbol "/"
        symbolTight ">"
      else do
        symbolTight ">"
        childrenAndEnd r

end KeyRegistry.Script.Parser

import KeyRegistry.Script.Grammar.Type

/-!
# Classes and objects

The members of classes and of object literals.
-/

namespace KeyRegistry.Script.Parser

/-! ## Classes -/

/-- The words that modify members of a class. -/
def memberWords : List String :=
  ["public", "private", "protected", "static", "override", "readonly", "abstract", "declare",
    "accessor", "async", "get", "set"]

/-- The index of a class, which is no computed name. -/
def indexMember (r : Rules) : Parser Unit := do
  between "[" "]" do
    name .other
    symbol ":"
    r.self .type
  annotation r

/-- A field or a method, behind its modifiers. -/
def namedMember (r : Rules) : Parser Unit := do
  discard (symbol? "*")
  propertyName r
  if ← nextIn "?!" then step 1
  if ← nextIn "(<" then functionRest r
  else do
    annotation r
    initializer r

/-- A member of a class. -/
def classMember (r : Rules) : Parser Unit :=
  node .phrase do
    decorators r
    let isBlock ← ahead do
      word "static"
      if ← startsWith "\x7b" then return else fail
    if isBlock then do
      word "static"
      block r
    else do
      modifiers memberWords
      if ← startsWith "[" then either (indexMember r) (namedMember r)
      else namedMember r

/-- The members of a class between braces. -/
def classBody (r : Rules) : Parser Unit := do
  symbol "\x7b"
  inside true <| repeatWhile do
    if ← startsWith "\x7d" then return false
    else if ← atEnd then return false
    else if ← nextIn ";," then do
      step 1
      return true
    else do
      classMember r
      return true
  symbol "\x7d"

/-- What a class extends or implements. -/
def heritage (r : Rules) : Parser Unit :=
  repeatWhile do
    if ← word? "extends" then do
      commaSeparated do
        r.self (.operand true)
        optionalTypeArguments r
      return true
    else if ← word? "implements" then do
      commaSeparated (r.self .typeOperand)
      return true
    else return false

/-- A class behind its first word. -/
def classRest (r : Rules) : Parser Unit := do
  unless (← atWord "extends") || (← atWord "implements") do discard (name? .other)
  optionalTypeParameters r
  heritage r
  classBody r

/-! ## Objects -/

/-- A member of an object literal. -/
def objectMember (r : Rules) : Parser Unit :=
  node .phrase do
    if ← symbol? "..." then r.self .expression
    else do
      modifiers ["async", "get", "set", "static"]
      discard (symbol? "*")
      propertyName r
      if ← nextIn "(<" then functionRest r
      else if ← symbol? ":" then r.self .expression
      else initializer r

/-- An object literal. -/
def object (r : Rules) : Parser Unit :=
  node .phrase (between "\x7b" "\x7d" (listUpTo "\x7d" (objectMember r)))

end KeyRegistry.Script.Parser

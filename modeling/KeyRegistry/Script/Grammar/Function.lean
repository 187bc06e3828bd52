import KeyRegistry.Script.Grammar.Goal

/-!
# Functions

What belongs to functions of every kind: decorators, property names, parameters, annotations and
bodies, and the bindings that take values apart.
-/

namespace KeyRegistry.Script.Parser

/-! ## Parts of signatures -/

/-- Type arguments. -/
def typeArguments (r : Rules) : Parser Unit :=
  node .phrase (between "<" ">" (listUpTo ">" (r.self .type)))

/-- The arguments of a call. If they are not closed, the call ends where they break off, unless
the source does. -/
def arguments (r : Rules) : Parser Unit :=
  node .arguments do
    symbol "("
    inside false <| listUpTo ")" do
      if ← startsWith "..." then node .phrase (do symbol "..."; r.self .expression)
      else r.self .expression
    if ← symbol? ")" then return
    else if ← atEnd then fail
    else missing

/-- A type behind a colon. -/
def annotation (r : Rules) : Parser Unit :=
  introduced ":" (r.self .type)

/-- A value behind an equals sign. -/
def initializer (r : Rules) : Parser Unit := do
  if ← equalsSign? then r.self .expression else return

/-- One parameter of a type. -/
def typeParameter (r : Rules) : Parser Unit :=
  node .phrase do
    modifiers ["const", "in", "out"]
    name .other
    if ← word? "extends" then r.self .type
    if ← equalsSign? then r.self .type

/-- Parameters of types. -/
def typeParameters (r : Rules) : Parser Unit :=
  node .phrase (between "<" ">" (listUpTo ">" (typeParameter r)))

/-- Parameters of types, if there are any. -/
def optionalTypeParameters (r : Rules) : Parser Unit := do
  if ← startsWith "<" then typeParameters r else return

/-- Type arguments, if there are any that can be read as such. -/
def optionalTypeArguments (r : Rules) : Parser Unit := do
  if ← startsWith "<" then discard (succeeds (typeArguments r)) else return

/-! ## Decorators and property names -/

/-- The name of a decorator, which may be a member of something. -/
def decoratorName (start : Nat) : Parser Unit := do
  name .identifier
  repeatWhile do
    if ← symbol? "." then do
      name .other
      wrap .phrase start
      return true
    else return false

/-- A decorator. -/
def decorator (r : Rules) : Parser Unit :=
  node .phrase do
    symbol "@"
    if ← startsWith "(" then between "(" ")" (r.self .sequence)
    else do
      let start ← mark
      decoratorName start
      optionalTypeArguments r
      if ← startsWith "(" then do
        arguments r
        wrap .call start

/-- Decorators. -/
def decorators (r : Rules) : Parser Unit :=
  repeatWhile do
    if ← startsWith "@" then do
      decorator r
      return true
    else return false

/-- The name of a property. -/
def propertyName (r : Rules) : Parser Unit := do
  match ← peek with
  | some '[' => node .phrase (between "[" "]" (r.self .expression))
  | some '#' => node .phrase memberName
  | some c =>
    if c = '\x27' ∨ c = '\x22' then text
    else if c.isDigit || c == '.' then number
    else name .other
  | none => fail

/-! ## Parameters -/

/-- One parameter. -/
def parameter (r : Rules) : Parser Unit :=
  node .phrase do
    decorators r
    repeatWhile do
      match ← peekName with
      | some text =>
        if ["public", "private", "protected", "readonly", "override"].contains text then do
          -- the word is the name of the parameter, unless another name follows
          let modifies ← ahead do
            step text.length
            if (← peekName).isSome then return
            else if ← nextIn "\x7b[" then return
            else fail
          if modifies then name .other
          return modifies
        else return false
      | none => return false
    discard (symbol? "...")
    r.self .binding
    discard (symbol? "?")
    annotation r
    initializer r

/-- Parameters between brackets. -/
def parameters (r : Rules) : Parser Unit :=
  node .phrase (between "(" ")" (listUpTo ")" (parameter r)))

/-- Type parameters, parameters and the type of the result. -/
def signature (r : Rules) : Parser Unit := do
  optionalTypeParameters r
  parameters r
  annotation r

/-- Statements between braces. -/
def block (r : Rules) : Parser Unit :=
  node .phrase do
    symbol "\x7b"
    inside true <| repeatWhile do
      skipMarkupComments
      if ← startsWith "\x7d" then return false
      else if ← atEnd then return false
      else do
        r.self .statement
        return true
    symbol "\x7d"

/-- A signature with its body, or with nothing behind it. -/
def functionRest (r : Rules) : Parser Unit := do
  signature r
  if ← startsWith "\x7b" then block r
  else discard (symbol? ";")

/-- A function behind its first word. -/
def function (r : Rules) : Parser Unit := do
  discard (symbol? "*")
  discard (name? .other)
  functionRest r

/-! ## Bindings -/

/-- A member of a binding that takes an object apart. -/
def memberBinding (r : Rules) : Parser Unit :=
  node .phrase do
    if ← symbol? "..." then r.self .binding
    else do
      propertyName r
      introduced ":" (r.self .binding)
      initializer r

/-- An item of a binding that takes a list apart. -/
def itemBinding (r : Rules) : Parser Unit :=
  node .phrase do
    discard (symbol? "...")
    r.self .binding
    initializer r

/-- What a value is bound to: a name, or a form that takes the value apart. -/
def binding (r : Rules) : Parser Unit := do
  match ← peek with
  | some '{' => node .phrase (between "\x7b" "\x7d" (listUpTo "\x7d" (memberBinding r)))
  | some '[' => node .phrase (between "[" "]" (listUpTo "]" (itemBinding r)))
  | _ => name .other

end KeyRegistry.Script.Parser

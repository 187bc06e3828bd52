import KeyRegistry.Script.Grammar.Element

/-!
# Expressions

Expressions from the outside in: assignments and functions, choices, loose operators, tight
operators, operands. Operators of one tightness are not told apart further, since they do not
change which calls there are. One thing does depend on it: type arguments belong to everything
in front of them that tight operators hold together, so that `!f<T>(x)` calls `!f`.

Main definitions:

* `operand` — an operand with what follows it
* `operation` — operands with operators
* `expression`, `sequence`
-/

namespace KeyRegistry.Script.Parser

/-! ## Operators -/

/-- The first sign of a list that comes next and is not the start of a longer one. -/
def operator? (signs longer : List String) : Parser Bool := do
  let chars ← rest
  -- a longer sign with the same start is another operator
  if longer.any fun sign => sign.toList.isPrefixOf chars then return false
  else
    match signs.find? fun sign => sign.toList.isPrefixOf chars with
    | some sign => do
      step sign.length
      return true
    | none => return false

/-- Signs of assignments. -/
def assignmentSigns : List String :=
  ["**=", ">>>=", ">>=", "<<=", "&&=", "||=", "??=", "+=", "-=", "*=", "/=", "%=", "&=", "|=",
    "^=", "="]

/-- Reads the sign of an assignment. -/
def assignment? : Parser Bool :=
  operator? assignmentSigns ["==", "=>"]

/-- Reads a tight operator. Two of the same sign at the start of a line count up or down what comes
behind them, so the statement in front of them ends. -/
def tightOperator? : Parser Bool := do
  if (← broken) && ((← startsWith "++") || (← startsWith "--")) then return false
  else
    operator? [">>>", "<<", ">>", "**", "+", "-", "*", "/", "%"]
      ["**=", ">>>=", ">>=", "<<=", "+=", "-=", "*=", "/=", "%="]

/-- Reads a loose operator. -/
def looseOperator? : Parser Bool := do
  if ← word? "instanceof" then return true
  else if ← word? "in" then return true
  else
    operator? ["===", "!==", "==", "!=", "<=", ">=", "&&", "||", "??", "<", ">", "&", "^", "|"]
      [">>>=", ">>=", "<<=", "&&=", "||=", "??=", "&=", "|=", "^="]

/-- Whether an expression can come next. -/
def atExpression : Parser Bool := do
  if (← atEnd) || (← nextIn ")]\x7d,;:") then return false
  else return true

/-! ## Primary expressions -/

/-- Words that stand for values and cannot be names. -/
def valueWords : List String :=
  ["this", "super", "null", "true", "false", "undefined"]

/-- A list literal. -/
def listLiteral (r : Rules) : Parser Unit :=
  node .phrase <| between "[" "]" <| listUpTo "]" do
    if ← startsWith "..." then node .phrase (do symbol "..."; r.self .expression)
    else r.self .expression

/-- An expression in brackets, which may carry a type. -/
def parenthesized (r : Rules) : Parser Unit :=
  node .phrase <| between "(" ")" do
    r.self .sequence
    annotation r

/-- An expression that starts with a name or another word. -/
def wordExpression (r : Rules) (text : String) : Parser Unit := do
  if text == "function" then node .phrase (do word "function"; function r)
  else if text == "class" then node .phrase (do word "class"; classRest r)
  else if text == "async" then do
    -- the word is a name like any other, unless a function follows in the same line
    let isFunction ← ahead do
      word "async"
      if ← newline then fail
      word "function"
    if isFunction then node .phrase (do word "async"; word "function"; function r)
    else name .identifier
  else if text == "import" || valueWords.contains text then name .other
  else name .identifier

/-- An expression without operators and without anything behind it. -/
def primary (r : Rules) : Parser Unit := do
  match ← peekName with
  | some text =>
    if text == "new" then fail else wordExpression r text
  | none =>
    match ← peek with
    | some '(' => parenthesized r
    | some '[' => listLiteral r
    | some '{' => object r
    | some '\x60' => template (r.self .sequence)
    | some '/' => regex
    | some '#' => node .phrase do
      -- a private name is an operand only in a test for membership
      memberName
      if ← atWord "in" then return else fail
    | some '@' => node .phrase do
      decorators r
      discard (word? "abstract")
      word "class"
      classRest r
    | some '<' =>
      -- in the other dialect the bracket opens a type assertion, which is no primary expression
      if r.dialect = .elements then do
        r.self .element
        skipGap
      else fail
    | some c =>
      if c = '\x27' ∨ c = '\x22' then text
      else if c.isDigit then number
      else if c = '.' then do
        if (← rest).tail.head?.any Char.isDigit then number else fail
      else fail
    | none => fail

/-! ## Members and calls -/

/-- What may come behind type arguments that are not followed by arguments. -/
def endsInstantiation : Parser Bool := do
  if ← atEnd then return true
  else if ← newline then return true
  else if ← nextIn ")]\x7d,;:." then return true
  else if ← startsWith "?." then return true
  else if ← startsWith "=" then return true
  else if ← startsWith "!=" then return true
  else return false

/-- Type arguments and arguments, or type arguments alone, behind what came after a mark. -/
def genericTail (r : Rules) (start : Nat) : Parser Bool :=
  succeeds do
    typeArguments r
    if ← startsWith "(" then do
      arguments r
      wrap .call start
    else if ← startsWith "\x60" then do
      template (r.self .sequence)
      wrap .phrase start
    else if ← endsInstantiation then wrap .phrase start
    else fail

/-- What comes behind the sign of an access that may fail: arguments, brackets or a name. -/
def optionalAccess (r : Rules) (start : Nat) : Parser Unit := do
  symbol "?."
  if ← startsWith "(" then do
    arguments r
    wrap .call start
  else if ← startsWith "<" then do
    typeArguments r
    arguments r
    wrap .call start
  else if ← startsWith "[" then do
    between "[" "]" (r.self .sequence)
    wrap .phrase start
  else if ← startsWith "\x60" then do
    template (r.self .sequence)
    wrap .phrase start
  else do
    memberName
    wrap .phrase start

/-- Whether the sign of an access that may fail comes next. -/
def atOptionalAccess : Parser Bool := do
  match ← rest with
  -- in front of a digit the question mark belongs to a choice, and the dot to a number
  | '?' :: '.' :: c :: _ => return !c.isDigit
  | '?' :: '.' :: [] => return true
  | _ => return false

/-- Whether a sign that vouches for a value comes next. -/
def atAssertion : Parser Bool := do
  if ← broken then return false
  else
    match ← rest with
    -- these are comparisons
    | '!' :: '=' :: '=' :: _ => return false
    | '!' :: '=' :: _ => return false
    | '!' :: _ => return true
    | _ => return false

/-- One step behind an operand: a member, a call, a template or a vouching sign. -/
def tailStep (r : Rules) (generic calls : Bool) (start : Nat) : Parser Bool := do
  -- three dots are no access to a member
  if ← startsWith "..." then return false
  else if ← atOptionalAccess then
    if calls then do
      optionalAccess r start
      return true
    else return false
  else if ← symbol? "." then do
    memberName
    wrap .phrase start
    return true
  else if ← startsWith "[" then do
    between "[" "]" (r.self .sequence)
    wrap .phrase start
    return true
  else if ← startsWith "(" then
    if calls then do
      arguments r
      wrap .call start
      return true
    else return false
  else if ← startsWith "\x60" then do
    template (r.self .sequence)
    wrap .phrase start
    return true
  else if ← atAssertion then do
    symbol "!"
    wrap .phrase start
    return true
  else if generic && (← startsWith "<") then genericTail r start
  else return false

/-- What follows an operand. -/
def tail (r : Rules) (generic calls : Bool) (start : Nat) : Parser Unit :=
  repeatWhile (tailStep r generic calls start)

/-- The making of an object: what makes it, without calls, type arguments and arguments. -/
def construction (r : Rules) : Parser Unit := do
  let start ← mark
  let inner ← ahead do
    word "new"
    word "new"
  word "new"
  -- of two makings in a row, the inner one takes the first arguments
  if inner then r.self (.operand false)
  else if ← symbol? "." then name .other
  else do
    let made ← mark
    primary r
    tail r false false made
  optionalTypeArguments r
  if ← startsWith "(" then arguments r
  wrap .phrase start

/-- Counting up or down behind an operand, in the same line. -/
def countingTail (start : Nat) : Parser Unit := do
  unless ← newline do
    if ← symbol? "++" then wrap .phrase start
    else if ← symbol? "--" then wrap .phrase start

/-- An operand that no sign or word stands in front of. -/
def plainOperand (r : Rules) (generic : Bool) : Parser Unit := do
  let start ← mark
  if ← atWord "new" then construction r else primary r
  tail r generic true start
  countingTail start

/-- Reads a sign or a word in front of an operand. -/
def prefixSign? : Parser Bool := do
  if ← symbol? "++" then return true
  else if ← symbol? "--" then return true
  else if ← nextIn "!~-+" then do
    step 1
    return true
  else wordIn? ["typeof", "void", "delete", "await"]

/-- Type arguments that belong to everything after a mark, and what follows them. -/
def absorb (r : Rules) (generic : Bool) (start : Nat) : Parser Unit := do
  if generic && (← startsWith "<") then
    if ← genericTail r start then tail r true true start

/-- An operand with what stands in front of it and what follows it. -/
def operand (r : Rules) (generic : Bool) : Parser Unit := do
  skipMarkupComments
  let start ← mark
  if ← prefixSign? then do
    r.self (.operand false)
    wrap .phrase start
    absorb r generic start
  else if r.dialect = .typed && (← startsWith "<") then do
    typeArguments r
    r.self (.operand false)
    wrap .phrase start
    absorb r generic start
  else plainOperand r generic

/-! ## Operations -/

/-- Operands with tight operators between them. -/
def tightOperation (r : Rules) : Parser Unit := do
  let start ← mark
  r.self (.operand true)
  repeatWhile do
    if ← tightOperator? then do
      r.self (.operand false)
      wrap .phrase start
      absorb r true start
      return true
    else return false

/-- A type that a value is taken for, in the same line. -/
def typeTail (r : Rules) (start : Nat) : Parser Bool := do
  if ← broken then return false
  else if ← wordIn? ["as", "satisfies"] then do
    r.self .type
    wrap .phrase start
    return true
  else return false

/-- Operands with operators between them. -/
def operation (r : Rules) : Parser Unit := do
  let start ← mark
  tightOperation r
  repeatWhile do
    if ← typeTail r start then return true
    else if ← looseOperator? then do
      tightOperation r
      wrap .phrase start
      return true
    else return false

/-! ## Functions, choices and assignments -/

/-- The words in front of the body of a function, up to its arrow. -/
def arrowHead (r : Rules) : Parser Unit := do
  discard <| succeeds do
    word "async"
    if ← newline then fail
    if (← peekName).isSome then return
    else if ← nextIn "(<" then return
    else fail
  if ← nextIn "(<" then do
    optionalTypeParameters r
    parameters r
    if ← resultTypes then annotation r
  else name .other
  symbol "=>"

/-- Whether a function can start at the next word. -/
def atArrowHead : Parser Bool := do
  if ← nextIn "(<" then return true
  else
    ahead do
      let isAsync ← word? "async"
      if isAsync && (← nextIn "(<") then return
      else if (← peekName).isSome then do
        name .other
        symbol "=>"
      else if isAsync then symbol "=>"
      else fail

/-- Reads a function up to its arrow; whether there was one. -/
def arrow? (r : Rules) : Parser Bool := do
  if ← atArrowHead then succeeds (arrowHead r) else return false

/-- The body of a function behind its arrow. -/
def arrowBody (r : Rules) : Parser Unit := do
  if ← startsWith "\x7b" then block r else r.self .expression

/-- What a function that can be left and entered again hands out. -/
def handOut (r : Rules) : Parser Unit := do
  word "yield"
  if ← symbol? "*" then r.self .expression
  else unless ← newline do
    if ← atExpression then r.self .expression

/-- Whether the sign of a choice comes next. -/
def atChoice : Parser Bool := do
  if ← startsWith "??" then return false
  else startsWith "?"

/-- Reads a sign of assignment and the value behind it, for what came after a mark. -/
def assignmentTail (r : Rules) (start : Nat) : Parser Unit := do
  if ← assignment? then do
    r.self .expression
    wrap .phrase start

/-- The branches of a choice behind what came after a mark. The first colon belongs to the
choice; if a function in the first branch took it for the type of its result, the branch is read
again without such types. -/
def choiceTail (r : Rules) (start : Nat) : Parser Unit := do
  if ← atChoice then do
    symbol "?"
    -- a colon inside of the branch cannot be told from the one behind it in advance
    let branch : Parser Unit := do
      r.self .expression
      symbol ":"
    withBreaks false (either branch (withoutResultTypes branch))
    r.self .expression
    wrap .phrase start

/-- An expression without a comma. -/
def expression (r : Rules) : Parser Unit := do
  let start ← mark
  if ← atWord "yield" then do
    handOut r
    wrap .phrase start
  else if ← arrow? r then do
    arrowBody r
    wrap .phrase start
  else do
    operation r
    choiceTail r start
    assignmentTail r start

/-- Expressions with commas between them. -/
def sequence (r : Rules) : Parser Unit := do
  let start ← mark
  r.self .expression
  if ← startsWith "," then do
    repeatWhile do
      if ← symbol? "," then do
        r.self .expression
        return true
      else return false
    wrap .phrase start

end KeyRegistry.Script.Parser

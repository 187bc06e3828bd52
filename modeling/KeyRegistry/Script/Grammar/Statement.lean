import KeyRegistry.Script.Grammar.Expression

/-!
# Statements

Statements and declarations. Most words that introduce a declaration are names as well, so a
declaration is recognised by what follows its word.

Main definitions:

* `statement` — a statement or a declaration
-/

namespace KeyRegistry.Script.Parser

/-! ## Conditions and bodies -/

/-- A condition in brackets. -/
def condition (r : Rules) : Parser Unit :=
  node .phrase (between "(" ")" (r.self .sequence))

/-- Variables with their types and values. -/
def declarators (r : Rules) : Parser Unit :=
  commaSeparated <| node .phrase do
    r.self .binding
    discard (symbol? "!")
    annotation r
    initializer r

/-- The word that declares variables. -/
def variableWord : Parser Unit := do
  if ← word? "var" then return
  else if ← word? "let" then return
  else word "const"

/-- Whether variables are declared next. -/
def atVariables : Parser Bool :=
  ahead do
    variableWord
    if (← peekName).isSome then do
      -- here the word is a name itself, as in a test for membership
      if ← atWord "in" then fail
      else if ← atWord "instanceof" then fail
      else return
    else if ← nextIn "\x7b[" then return
    else fail

/-! ## Loops and branches -/

/-- A statement that depends on a condition, and another one if it does not hold. -/
def conditional (r : Rules) : Parser Unit := do
  word "if"
  condition r
  r.self .statement
  if ← word? "else" then r.self .statement

/-- What a loop runs over, behind its variable. -/
def loopRange (r : Rules) : Parser Bool := do
  if ← wordIn? ["of", "in"] then do
    r.self .sequence
    return true
  else return false

/-- The condition and the step of a counting loop. -/
def loopRest (r : Rules) : Parser Unit := do
  symbol ";"
  unless ← startsWith ";" do r.self .sequence
  symbol ";"
  unless ← startsWith ")" do r.self .sequence

/-- What stands in the brackets of a loop. -/
def loopHead (r : Rules) : Parser Unit := do
  if ← atVariables then do
    variableWord
    let start ← mark
    r.self .binding
    wrap .phrase start
    if ← loopRange r then return
    else do
      annotation r
      initializer r
      repeatWhile do
        if ← symbol? "," then do
          declarators r
          return true
        else return false
      loopRest r
  else if ← startsWith ";" then loopRest r
  else do
    r.self .sequence
    if ← loopRange r then return
    else if ← startsWith ")" then return
    else loopRest r

/-- A loop with a head. -/
def forLoop (r : Rules) : Parser Unit := do
  word "for"
  discard (word? "await")
  node .phrase (between "(" ")" (loopHead r))
  r.self .statement

/-- A loop with its condition in front. -/
def whileLoop (r : Rules) : Parser Unit := do
  word "while"
  condition r
  r.self .statement

/-- A loop with its condition behind. -/
def doLoop (r : Rules) : Parser Unit := do
  word "do"
  r.self .statement
  word "while"
  condition r
  discard (symbol? ";")

/-- Whether a case of a switch or its end comes next. -/
def atCase : Parser Bool := do
  if ← atWord "case" then return true
  else if ← ahead (do word "default"; symbol ":") then return true
  else if ← startsWith "\x7d" then return true
  else atEnd

/-- A case of a switch. -/
def switchCase (r : Rules) : Parser Unit :=
  node .phrase do
    if ← word? "case" then r.self .sequence
    else word "default"
    symbol ":"
    repeatWhile do
      skipMarkupComments
      if ← atCase then return false
      else do
        r.self .statement
        return true

/-- A switch. -/
def switch (r : Rules) : Parser Unit := do
  word "switch"
  condition r
  symbol "\x7b"
  inside true <| repeatWhile do
    if ← startsWith "\x7d" then return false
    else if ← atEnd then return false
    else do
      switchCase r
      return true
  symbol "\x7d"

/-- A block with what handles its failures. -/
def tryBlock (r : Rules) : Parser Unit := do
  word "try"
  block r
  if ← word? "catch" then do
    if ← startsWith "(" then
      node .phrase <| between "(" ")" do
        r.self .binding
        annotation r
    block r
  if ← word? "finally" then block r

/-! ## Jumps -/

/-- A word with a value behind it, in the same line. -/
def jumpWithValue (r : Rules) (text : String) : Parser Unit := do
  word text
  unless ← newline do
    if ← atExpression then r.self .sequence
  endStatement

/-- A word with the name of a label behind it, in the same line. -/
def jump (text : String) : Parser Unit := do
  word text
  unless ← newline do discard (name? .other)
  endStatement

/-! ## Modules -/

/-- The names that a module hands over, between braces. -/
def moduleNames : Parser Unit :=
  between "\x7b" "\x7d" <| listUpTo "\x7d" do
    let part : Parser Unit := do
      if ← nextIn "'\"" then text else name .other
    part
    -- a name may be marked as a type in front and renamed behind, in words that are names as well
    repeatWhile do
      if ← nextIn ",\x7d" then return false
      else if ← atEnd then return false
      else do
        part
        return true

/-- The module that names come from, and its attributes. -/
def moduleSource (r : Rules) : Parser Unit := do
  text
  if (← atWord "with") || (← atWord "assert") then do
    name .other
    object r

/-- What is imported in front of the name of a module. -/
def importClause : Parser Unit :=
  commaSeparated do
    if ← startsWith "\x7b" then moduleNames
    else if ← symbol? "*" then do
      word "as"
      name .other
    else name .other

/-- The value of an alias: a module that is asked for, or a name. -/
def aliasValue : Parser Unit := do
  let required ← ahead do
    word "require"
    symbol "("
  if required then do
    word "require"
    between "(" ")" text
  else do
    let start ← mark
    name .other
    dottedNames start

/-- An import behind its word. -/
def importRest (r : Rules) : Parser Unit := do
  if ← nextIn "'\"" then moduleSource r
  else do
    let marked ← ahead do
      unless ← word? "type" do word "typeof"
      -- the mark may be the imported name, which only the words behind it tell
      if ← atWord "from" then do
        word "from"
        word "from"
      else if ← nextIn "\x7b*" then return
      else name .other
    if marked then name .other
    let aliased ← ahead do
      name .other
      symbol "="
    if aliased then do
      name .other
      symbol "="
      aliasValue
    else do
      importClause
      word "from"
      moduleSource r
  endStatement

/-- Whether an import comes next, and not an expression. -/
def atImport : Parser Bool :=
  ahead do
    word "import"
    if ← nextIn "(." then fail

/-! ## Declarations -/

/-- Members of an enumeration between braces. -/
def enumeration (r : Rules) : Parser Unit := do
  word "enum"
  name .other
  between "\x7b" "\x7d" <| listUpTo "\x7d" <| node .phrase do
    propertyName r
    initializer r

/-- An interface behind its word. -/
def interfaceRest (r : Rules) : Parser Unit := do
  name .other
  optionalTypeParameters r
  if ← word? "extends" then commaSeparated (r.self .typeOperand)
  typeMembers r

/-- A name for a type, behind the word that introduces it. -/
def typeAlias (r : Rules) : Parser Unit := do
  name .other
  optionalTypeParameters r
  symbol "="
  r.self .type
  endStatement

/-- A space of names behind its word. -/
def namespaceRest (r : Rules) : Parser Unit := do
  if ← nextIn "'\"" then text
  else do
    let start ← mark
    name .other
    dottedNames start
  if ← startsWith "\x7b" then block r else endStatement

/-- Whether a word comes next with something behind it, in the same line. -/
def followedBy (text : String) (p : Parser Unit) : Parser Bool :=
  ahead do
    word text
    if ← newline then fail
    p

/-- Whether a name or one of some signs comes next. -/
def nameOr (signs : String) : Parser Unit := do
  if (← peekName).isSome then return
  else if ← nextIn signs then return
  else fail

/-- A declaration that is introduced by a word; whether there was one. Some of these words are
kept for declarations, the others are names if nothing is declared behind them in the same
line. -/
def declaration? (r : Rules) : Parser Bool := do
  if (← atVariables) || (← atWord "const") || (← atWord "var") then do
    let isEnum ← ahead (do word "const"; word "enum"; name .other)
    if isEnum then do
      word "const"
      enumeration r
    else do
      variableWord
      declarators r
      endStatement
    return true
  else if ← word? "function" then do
    function r
    return true
  else if ← followedBy "async" (word "function") then do
    word "async"
    word "function"
    function r
    return true
  else if ← word? "class" then do
    classRest r
    return true
  else if ← word? "abstract" then do
    word "class"
    classRest r
    return true
  else if ← atWord "enum" then do
    enumeration r
    return true
  else if ← word? "interface" then do
    interfaceRest r
    return true
  else if ← followedBy "type" (nameOr "") then do
    word "type"
    typeAlias r
    return true
  else if ← followedBy "namespace" (nameOr "") then do
    word "namespace"
    namespaceRest r
    return true
  else if ← followedBy "module" (nameOr "'\"") then do
    word "module"
    namespaceRest r
    return true
  else return false

/-- A declaration without a value behind the word that says so. -/
def ambient (r : Rules) : Parser Unit := do
  word "declare"
  if ← followedBy "global" (symbol "\x7b") then do
    word "global"
    block r
  else if ← declaration? r then return
  else fail

/-- Whether a declaration without a value comes next. -/
def atAmbient : Parser Bool :=
  followedBy "declare" (nameOr "")

/-! ## Exports -/

/-- An export of names, or of all names, of a module. -/
def exportNames (r : Rules) : Parser Unit := do
  if ← startsWith "\x7b" then moduleNames
  else do
    symbol "*"
    if ← word? "as" then
      if ← nextIn "'\"" then text else name .other
  if ← word? "from" then moduleSource r
  endStatement

/-- The value that a module exports without a name. -/
def exportDefault (r : Rules) : Parser Unit := do
  if ← ahead (do discard (word? "async"); word "function") then do
    discard (word? "async")
    word "function"
    function r
  else if ← ahead (do discard (word? "abstract"); word "class") then do
    discard (word? "abstract")
    word "class"
    classRest r
  else if ← followedBy "interface" (nameOr "") then do
    word "interface"
    interfaceRest r
  else do
    decorators r
    r.self .expression
    endStatement

/-- An export behind its word. -/
def exportRest (r : Rules) : Parser Unit := do
  if ← word? "default" then exportDefault r
  else if ← nextIn "\x7b*" then exportNames r
  else if ← ahead (do word "type"; if ← nextIn "\x7b*" then return else fail) then do
    word "type"
    exportNames r
  else if ← symbol? "=" then do
    r.self .expression
    endStatement
  else if ← ahead (do word "as"; word "namespace") then do
    word "as"
    word "namespace"
    name .other
    endStatement
  else if ← atImport then do
    word "import"
    importRest r
  else if ← atAmbient then ambient r
  else do
    decorators r
    if ← declaration? r then return else fail

/-! ## Statements -/

/-- A statement that starts with a word which is kept for statements; whether there was one. -/
def control? (r : Rules) : Parser Bool := do
  match ← peekName with
  | some "if" => do conditional r; return true
  | some "for" => do forLoop r; return true
  | some "while" => do whileLoop r; return true
  | some "do" => do doLoop r; return true
  | some "switch" => do switch r; return true
  | some "try" => do tryBlock r; return true
  | some "return" => do jumpWithValue r "return"; return true
  | some "throw" => do
    word "throw"
    r.self .sequence
    endStatement
    return true
  | some "break" => do jump "break"; return true
  | some "continue" => do jump "continue"; return true
  | some "debugger" => do
    word "debugger"
    endStatement
    return true
  | some "with" => do
    word "with"
    condition r
    r.self .statement
    return true
  | some "export" => do
    word "export"
    exportRest r
    return true
  | _ => return false

/-- An expression that stands for itself. -/
def expressionStatement (r : Rules) : Parser Unit := do
  r.self .sequence
  endStatement

/-- A declaration with decorators in front. -/
def decorated (r : Rules) : Parser Unit := do
  decorators r
  if ← word? "export" then exportRest r
  else if ← declaration? r then return
  else fail

/-- A statement or a declaration. -/
def statement (r : Rules) : Parser Unit :=
  node .phrase do
    if ← startsWith "\x7b" then block r
    else if ← symbol? ";" then return
    else if ← startsWith "@" then decorated r
    else if ← control? r then return
    else if ← atImport then do
      word "import"
      importRest r
    else if ← atAmbient then ambient r
    else if ← declaration? r then return
    -- a name and a colon make a label
    else if ← ahead (do name .other; symbol ":") then do
      name .other
      symbol ":"
      r.self .statement
    else expressionStatement r

end KeyRegistry.Script.Parser

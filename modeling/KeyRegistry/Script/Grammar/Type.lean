import KeyRegistry.Script.Grammar.Function

/-!
# Types

The types of annotations, arguments and declarations. Only a query for the type of a value can
hold calls; everything else is read for its extent.
-/

namespace KeyRegistry.Script.Parser

/-! ## Operands -/

/-- Whether a type can come next. -/
def atType : Parser Bool := do
  if (← peekName).isSome then return true
  else
    match ← peek with
    | some c => return "([\x7b'\"\x60-<".toList.contains c || c.isDigit
    | none => return false

/-- Members of a name behind dots. -/
def dottedNames (start : Nat) : Parser Unit :=
  repeatWhile do
    if ← symbol? "." then do
      memberName
      wrap .phrase start
      return true
    else return false

/-- A type by its name, with type arguments. -/
def namedType (r : Rules) : Parser Unit := do
  let start ← mark
  name .other
  dottedNames start
  if ← startsWith "<" then
    unless ← broken do typeArguments r

/-- A module as a type. -/
def importedType (r : Rules) : Parser Unit := do
  let start ← mark
  word "import"
  arguments r
  dottedNames start
  optionalTypeArguments r
  wrap .phrase start

/-- What may follow the value of a query: members, calls and type arguments. -/
def queryTail (r : Rules) (start : Nat) : Parser Unit :=
  repeatWhile do
    if ← startsWith "..." then return false
    else if ← symbol? "." then do
      memberName
      wrap .phrase start
      return true
    else if ← startsWith "(" then do
      arguments r
      wrap .call start
      return true
    else return false

/-- The type of a value. -/
def typeQuery (r : Rules) : Parser Unit := do
  word "typeof"
  let start ← mark
  if ← atWord "import" then do
    name .other
    arguments r
    wrap .phrase start
  else name .identifier
  queryTail r start
  if ← startsWith "<" then
    unless ← broken do typeArguments r

/-- An item of a tuple, which may have a name. -/
def tupleItem (r : Rules) : Parser Unit := do
  discard (symbol? "...")
  -- a name is told from a type by the colon behind it
  let named ← ahead do
    name .other
    discard (symbol? "?")
    symbol ":"
  if named then do
    name .other
    discard (symbol? "?")
    symbol ":"
  r.self .type
  discard (symbol? "?")

/-- A type of one word, or one that a word introduces. -/
def wordType (r : Rules) : Parser Unit := do
  if ← atWord "typeof" then typeQuery r
  else if ← atWord "import" then importedType r
  else namedType r

/-! ## Members of object types -/

/-- The brackets of an index or of a key that runs over a type. -/
def indexKey (r : Rules) : Parser Unit :=
  between "[" "]" do
    name .other
    if ← symbol? ":" then r.self .type
    else do
      word "in"
      r.self .type
      if ← word? "as" then r.self .type

/-- The key of a member of an object type. -/
def memberKey (r : Rules) : Parser Unit := do
  -- an index and a computed name start alike
  if ← startsWith "[" then either (indexKey r) (propertyName r)
  else propertyName r

/-- A sign in front of a modifier that adds or removes it. -/
def modifierSign : Parser Unit := do
  if ← symbol? "+" then return
  else discard (symbol? "-")

/-- A member of an object type. -/
def typeMember (r : Rules) : Parser Unit :=
  node .phrase do
    modifierSign
    modifiers ["readonly", "get", "set", "static", "async", "public", "private", "protected",
      "abstract", "override"]
    if ← nextIn "(<" then signature r
    else do
      let constructs ← ahead do
        word "new"
        if ← nextIn "(<" then return else fail
      if constructs then do
        word "new"
        signature r
      else do
        discard (symbol? "*")
        memberKey r
        modifierSign
        discard (symbol? "?")
        if ← nextIn "(<" then signature r
        else annotation r

/-- The members of an object type. -/
def typeMembers (r : Rules) : Parser Unit := do
  symbol "\x7b"
  discard (symbol? "|")
  inside true <| repeatWhile do
    if ← nextIn "\x7d|" then return false
    else if ← atEnd then return false
    else if ← nextIn ";," then do
      step 1
      return true
    else do
      typeMember r
      return true
  discard (symbol? "|")
  symbol "\x7d"

/-- A type that is not built by operators or brackets behind it. -/
def primaryType (r : Rules) : Parser Unit := do
  match ← peek with
  | some '(' => between "(" ")" (r.self .type)
  | some '[' => between "[" "]" (listUpTo "]" (tupleItem r))
  | some '{' => typeMembers r
  | some '\x60' => template (r.self .type)
  | some '-' => do symbol "-"; number
  | some c =>
    if c = '\x27' ∨ c = '\x22' then text
    else if c.isDigit || c == '.' then number
    else wordType r
  | none => fail

/-- Brackets behind a type: lists of it, and members of it. They start in the same line if the
end of a line may end the statement. -/
def bracketTail (r : Rules) : Parser Unit :=
  repeatWhile do
    if ← startsWith "[" then
      if ← broken then return false
      else do
        symbol "["
        if ← symbol? "]" then return true
        else do
          inside false (r.self .type)
          symbol "]"
          return true
    else return false

/-- Whether a word in front of a type changes it. -/
def atTypeWord (words : List String) : Parser Bool := do
  match ← peekName with
  | some text =>
    if words.contains text then
      ahead do
        step text.length
        if ← atType then
          -- then the word is the name of a type itself
          if ← atWord "extends" then fail
          else if ← atWord "is" then fail
          else return
        else fail
    else return false
  | none => return false

/-- A type without operators between types. -/
def typeOperand (r : Rules) : Parser Unit :=
  node .phrase do
    if ← atTypeWord ["keyof", "readonly", "unique"] then do
      name .other
      r.self .typeOperand
    else if ← atTypeWord ["infer"] then do
      name .other
      name .other
      discard <| succeeds do
        word "extends"
        r.self .typeOperand
        -- the word belongs to a choice around it, and not to this bound
        if ← startsWith "?" then fail
    else do
      primaryType r
      bracketTail r

/-! ## Types -/

/-- What stands in front of the result of a function type. -/
def functionTypeHead (r : Rules) : Parser Unit := do
  discard (succeeds (do word "abstract"; if ← atWord "new" then return else fail))
  discard (succeeds (do word "new"; if ← nextIn "(<" then return else fail))
  optionalTypeParameters r
  parameters r
  symbol "=>"

/-- Whether an operator between types comes next, and not one between values. -/
def typeOperator? : Parser Bool := do
  if ← startsWith "||" then return false
  else if ← startsWith "|=" then return false
  else if ← startsWith "&&" then return false
  else if ← startsWith "&=" then return false
  else if ← symbol? "|" then return true
  else symbol? "&"

/-- A union or an intersection. -/
def unionType (r : Rules) : Parser Unit := do
  discard typeOperator?
  r.self .typeOperand
  repeatWhile do
    if ← typeOperator? then do
      discard typeOperator?
      either (do functionTypeHead r; r.self .type) (r.self .typeOperand)
      return true
    else return false

/-- The branches of a choice between types. -/
def conditionalTail (r : Rules) : Parser Unit := do
  word "extends"
  r.self .type
  symbol "?"
  r.self .type
  symbol ":"
  r.self .type

/-- A type, with what is said about a value when it stands for the result of a test. -/
def type (r : Rules) : Parser Unit :=
  node .phrase do
    if (← atWord "new") || (← atWord "abstract") || (← nextIn "(<") then
      -- parameters and a type in brackets start alike
      match ← attempt (functionTypeHead r) with
      | some _ => r.self .type
      | none => plain
    else plain
where
  plain : Parser Unit := do
    if ← atTypeWord ["asserts"] then name .other
    unionType r
    if ← atWord "is" then
      unless ← newline do
        word "is"
        r.self .type
    if ← atWord "extends" then discard (succeeds (conditionalTail r))

end KeyRegistry.Script.Parser

import KeyRegistry.Script.Parse

/-!
# What parsers keep

A parser may fail, look ahead and go back, and read the same characters by several rules. What
holds of every state that it comes to is shown without following any of that: a property of states
that is kept by the few steps that change a state is kept by every parser that is built from them.

That a parser is built so is left to the search for instances. Each combinator has an instance, each
rule of the grammar has one that opens its definition and nothing else, and the circles of the
grammar are closed by induction on the bound on how deeply goals are nested. So a rule of the
grammar can change without any proof about what is kept.

Main definitions:

* `Keeps` — a parser keeps a property of states
* `Stable` — the steps that change a state keep it

Main statements:

* `Goal.read_keeps` — a reader of a goal keeps what the steps keep
* `Parser.script_keeps` — so does the reader of a whole script
-/

namespace KeyRegistry.Script

/-- A parser keeps what holds of a state, whether it succeeds or fails. -/
class Keeps {α : Type} (P : State → Prop) (p : Parser α) : Prop where
  keeps : ∀ s, P s → P (p s).2

/-- A kind of nodes that is no text literal. -/
class Kind.IsPlain (kind : Kind) : Prop where
  notString : kind ≠ .string

instance : Kind.IsPlain .identifier := ⟨Kind.noConfusion⟩
instance : Kind.IsPlain .comment := ⟨Kind.noConfusion⟩
instance : Kind.IsPlain .markupComment := ⟨Kind.noConfusion⟩
instance : Kind.IsPlain .sign := ⟨Kind.noConfusion⟩
instance : Kind.IsPlain .other := ⟨Kind.noConfusion⟩
instance : Kind.IsPlain .call := ⟨Kind.noConfusion⟩
instance : Kind.IsPlain .arguments := ⟨Kind.noConfusion⟩
instance : Kind.IsPlain .phrase := ⟨Kind.noConfusion⟩
instance : Kind.IsPlain .error := ⟨Kind.noConfusion⟩

/-- The steps that change a state keep a property. A text literal is taken only where one is, and up
to the quote that closes it. -/
class Stable (P : State → Prop) : Prop where
  flags : ∀ s newline breaks resultTypes, P s → P { s with newline, breaks, resultTypes }
  take : ∀ s count, P s → P (Parser.take count s).2
  leaf : ∀ s kind count, kind ≠ .string → P s → P (Parser.leafTight kind count s).2
  text : ∀ s quote tail extent, s.rest = quote :: tail → quote = '\x27' ∨ quote = '\x22' →
    textLength quote 0 tail = some extent → P s → P (Parser.textTight extent s).2
  missing : ∀ s, P s → P (Parser.missing s).2
  wrap : ∀ s kind mark, kind ≠ .string → P s → P (Parser.wrap kind mark s).2

variable {α β : Type} {P : State → Prop} {p q : Parser α}

/-- A parser that looks and changes nothing keeps everything. -/
theorem Keeps.of_still (h : ∀ s, (p s).2 = s) : Keeps P p :=
  ⟨fun s hStart => by rwa [h s]⟩

/-- Parsers one after the other keep what each of them keeps. -/
theorem Keeps.bind {f : α → Parser β} (hFirst : Keeps P p) (hThen : ∀ a, Keeps P (f a)) :
    Keeps P (p >>= f) where
  keeps s hStart := by
    have hBetween : P (p s).2 := hFirst.keeps s hStart
    show P (Parser.bind p f s).2
    unfold Parser.bind
    split
    · next a t hCase =>
      rw [hCase] at hBetween
      exact (hThen a).keeps t hBetween
    · next t hCase =>
      rwa [hCase] at hBetween

namespace Parser

/-! ## Combinators -/

instance {a : α} : Keeps P (pure a : Parser α) := .of_still fun _ => rfl

instance {f : α → Parser β} [Keeps P p] [∀ a, Keeps P (f a)] : Keeps P (p >>= f) :=
  .bind inferInstance inferInstance

instance {f : α → β} [Keeps P p] : Keeps P (f <$> p) :=
  inferInstanceAs (Keeps P (p >>= fun a => pure (f a)))

instance [Keeps P p] : Keeps P (discard p) :=
  inferInstanceAs (Keeps P (p >>= fun _ => pure ()))

instance {c : Prop} [Decidable c] [Keeps P p] [Keeps P q] : Keeps P (if c then p else q) := by
  split <;> assumption

instance : Keeps P (fail : Parser α) := .of_still fun _ => rfl

instance : Keeps P (ahead p) := .of_still fun _ => rfl

/-- What is tried and not read is as if it had not been tried. -/
instance [Keeps P p] : Keeps P (attempt p) where
  keeps s hStart := by
    have hTried : P (p s).2 := Keeps.keeps s hStart
    unfold attempt
    split
    · next a t hCase =>
      rw [hCase] at hTried
      split
      · exact hStart
      · exact hTried
    · exact hStart

instance [Keeps P p] : Keeps P (succeeds p) := by unfold succeeds; infer_instance

instance [Keeps P p] [Keeps P q] : Keeps P (either p q) :=
  .bind inferInstance fun a => by cases a <;> infer_instance

/-- A repetition keeps what its step keeps, by induction on the bound. -/
theorem repeatWithin_keeps {step : Parser Bool} [Keeps P step] (bound : Nat) :
    Keeps P (repeatWithin step bound) := by
  induction bound with
  | zero => exact inferInstanceAs (Keeps P (pure ()))
  | succ bound ih => unfold repeatWithin; infer_instance

instance repeatWhile_keeps {step : Parser Bool} [Keeps P step] : Keeps P (repeatWhile step) :=
  ⟨fun s => (repeatWithin_keeps _).keeps s⟩

/-! ## Looking at what comes next -/

instance : Keeps P rest := .of_still fun _ => rfl
instance : Keeps P newline := .of_still fun _ => rfl
instance : Keeps P broken := .of_still fun _ => rfl
instance : Keeps P peek := .of_still fun _ => rfl
instance : Keeps P atEnd := .of_still fun _ => rfl
instance : Keeps P mark := .of_still fun _ => rfl
instance : Keeps P resultTypes := .of_still fun _ => rfl
instance {sign : String} : Keeps P (startsWith sign) := .of_still fun _ => rfl
instance {characters : String} : Keeps P (nextIn characters) := .of_still fun _ => rfl

instance : Keeps P peekName :=
  .of_still fun s => by
    unfold peekName
    repeat' split
    all_goals rfl

instance {given : String} : Keeps P (atWord given) := by unfold atWord; infer_instance

/-! ## Steps -/

section Steps

variable [Stable P] {kind : Kind} {count start : Nat} {breaks : Bool}

instance : Keeps P (take count) := ⟨fun s => Stable.take s count⟩

instance [kind.IsPlain] : Keeps P (leafTight kind count) :=
  ⟨fun s => Stable.leaf s kind count Kind.IsPlain.notString⟩

instance [kind.IsPlain] : Keeps P (wrap kind start) :=
  ⟨fun s => Stable.wrap s kind start Kind.IsPlain.notString⟩

instance : Keeps P missing := ⟨Stable.missing⟩

instance comments_keeps : ∀ found : List (Nat × Nat), Keeps P (comments found)
  | [] => inferInstanceAs (Keeps P (pure ()))
  | (_, _) :: others => by
    have := comments_keeps others
    unfold comments
    infer_instance

instance : Keeps P skipGap where
  keeps s hStart :=
    Keeps.keeps (p := do comments _; take _) _ (Stable.flags s _ s.breaks s.resultTypes hStart)

instance [Keeps P p] : Keeps P (withBreaks breaks p) where
  keeps s hStart :=
    Stable.flags _ _ _ _ (Keeps.keeps (p := p) _ (Stable.flags s _ breaks _ hStart))

instance [Keeps P p] : Keeps P (withoutResultTypes p) where
  keeps s hStart :=
    Stable.flags _ _ _ _ (Keeps.keeps (p := p) _ (Stable.flags s _ _ false hStart))

instance [Keeps P p] : Keeps P (inside breaks p) where
  keeps s hStart :=
    Stable.flags _ _ _ _ (Keeps.keeps (p := p) _ (Stable.flags s _ breaks true hStart))

end Steps

section Rules

-- a rule is one term of many binds, and the search for its instance goes through all of them
set_option synthInstance.maxSize 40000

variable [Stable P] {r : Rules} [∀ goal, Keeps P (r.self goal)]

/-! ## Signs, words and trees -/

instance {kind : Kind} [kind.IsPlain] {count : Nat} : Keeps P (leaf kind count) := by
  unfold leaf; infer_instance
instance {count : Nat} : Keeps P (step count) := by unfold step; infer_instance
instance {given : String} : Keeps P (symbol given) := by unfold symbol; infer_instance
instance {given : String} : Keeps P (symbolTight given) := by unfold symbolTight; infer_instance
instance {given : String} : Keeps P (symbol? given) := by unfold symbol?; infer_instance
instance {given : String} : Keeps P (word given) := by unfold word; infer_instance
instance {given : String} : Keeps P (word? given) := by unfold word?; infer_instance
instance {texts : List String} : Keeps P (wordIn? texts) :=
  .bind inferInstance fun _ => by split <;> infer_instance
instance {kind : Kind} [kind.IsPlain] : Keeps P (name kind) :=
  .bind inferInstance fun _ => by split <;> infer_instance
instance {kind : Kind} [kind.IsPlain] : Keeps P (name? kind) :=
  .bind inferInstance fun _ => by split <;> infer_instance
instance : Keeps P memberName := by unfold memberName; infer_instance
instance {kind : Kind} [kind.IsPlain] {p : Parser Unit} [Keeps P p] : Keeps P (node kind p) := by
  unfold node; infer_instance
instance : Keeps P skipMarkupComments := by unfold skipMarkupComments; infer_instance
instance {opener closer : String} {p : Parser Unit} [Keeps P p] :
    Keeps P (between opener closer p) := by unfold between; infer_instance
instance {closer : String} {item : Parser Unit} [Keeps P item] :
    Keeps P (listUpTo closer item) := by unfold listUpTo; infer_instance

/-! ## Literals -/

/-- A text literal is the one word that is taken by what stands there, so the state is followed. -/
instance : Keeps P text where
  keeps s hStart := by
    cases hRest : s.rest with
    | nil =>
      simp only [text, bind, Parser.bind, rest, hRest]
      exact hStart
    | cons quote tail =>
      simp only [text, bind, Parser.bind, rest, hRest]
      split
      · next hQuote =>
        cases hLength : textLength quote 0 tail with
        | none => exact hStart
        | some extent =>
          exact Keeps.keeps (p := skipGap) _
            (Stable.text s quote tail extent hRest hQuote hLength hStart)
      · exact hStart
instance : Keeps P number := by unfold number; infer_instance
instance : Keeps P regex :=
  .bind inferInstance fun chars => by
    cases chars with
    | nil => infer_instance
    | cons slash tail => dsimp only; cases regexLength false false tail <;> infer_instance

/-! ## Goals -/

instance {item : Parser Unit} [Keeps P item] : Keeps P (commaSeparated item) := by
  unfold commaSeparated; infer_instance
instance {sign : String} {p : Parser Unit} [Keeps P p] : Keeps P (introduced sign p) := by
  unfold introduced; infer_instance
instance : Keeps P equalsSign? := by unfold equalsSign?; infer_instance
instance : Keeps P endStatement := by unfold endStatement; infer_instance
instance : Keeps P atPropertyName :=
  .bind inferInstance fun name => by
    split
    · infer_instance
    · exact .bind inferInstance fun c => by cases c <;> infer_instance
instance {words : List String} : Keeps P (atModifier words) :=
  .bind inferInstance fun _ => by split <;> infer_instance
instance {words : List String} : Keeps P (modifiers words) := by unfold modifiers; infer_instance

/-! ## Templates -/

instance {item : Parser Unit} [Keeps P item] : Keeps P (templatePart item) := by
  unfold templatePart; infer_instance
instance {item : Parser Unit} [Keeps P item] : Keeps P (template item) := by
  unfold template; infer_instance

/-! ## Functions -/

instance : Keeps P (typeArguments r) := by unfold typeArguments; infer_instance
instance : Keeps P (arguments r) := by unfold arguments; infer_instance
instance : Keeps P ( annotation r) := by unfold annotation; infer_instance
instance : Keeps P (initializer r) := by unfold initializer; infer_instance
instance : Keeps P (typeParameter r) := by unfold typeParameter; infer_instance
instance : Keeps P (typeParameters r) := by unfold typeParameters; infer_instance
instance : Keeps P (optionalTypeParameters r) := by unfold optionalTypeParameters; infer_instance
instance : Keeps P (optionalTypeArguments r) := by unfold optionalTypeArguments; infer_instance
instance {start : Nat} : Keeps P (decoratorName start) := by unfold decoratorName; infer_instance
instance : Keeps P (decorator r) := by unfold decorator; infer_instance
instance : Keeps P (decorators r) := by unfold decorators; infer_instance
instance : Keeps P (propertyName r) := .bind inferInstance fun _ => by split <;> infer_instance
instance : Keeps P (parameter r) := by
  unfold parameter node
  refine .bind inferInstance fun _ => .bind ?_ fun _ => inferInstance
  refine .bind inferInstance fun _ => .bind ?_ fun _ => inferInstance
  exact @repeatWhile_keeps _ _ (.bind inferInstance fun name => by cases name <;> infer_instance)
instance : Keeps P (parameters r) := by unfold parameters; infer_instance
instance : Keeps P (signature r) := by unfold signature; infer_instance
instance : Keeps P (block r) := by unfold block; infer_instance
instance : Keeps P (functionRest r) := by unfold functionRest; infer_instance
instance : Keeps P (function r) := by unfold function; infer_instance
instance : Keeps P (memberBinding r) := by unfold memberBinding; infer_instance
instance : Keeps P (itemBinding r) := by unfold itemBinding; infer_instance
instance : Keeps P (binding r) := .bind inferInstance fun _ => by split <;> infer_instance

/-! ## Types -/

instance : Keeps P atType :=
  .bind inferInstance fun name => by
    split
    · infer_instance
    · exact .bind inferInstance fun c => by cases c <;> infer_instance
instance {start : Nat} : Keeps P (dottedNames start) := by unfold dottedNames; infer_instance
instance : Keeps P (namedType r) := by unfold namedType; infer_instance
instance : Keeps P (importedType r) := by unfold importedType; infer_instance
instance {start : Nat} : Keeps P (queryTail r start) := by unfold queryTail; infer_instance
instance : Keeps P (typeQuery r) := by unfold typeQuery; infer_instance
instance : Keeps P (tupleItem r) := by unfold tupleItem; infer_instance
instance : Keeps P (wordType r) := by unfold wordType; infer_instance
instance : Keeps P (indexKey r) := by unfold indexKey; infer_instance
instance : Keeps P (memberKey r) := by unfold memberKey; infer_instance
instance : Keeps P modifierSign := by unfold modifierSign; infer_instance
instance : Keeps P (typeMember r) := by unfold typeMember; infer_instance
instance : Keeps P (typeMembers r) := by unfold typeMembers; infer_instance
instance : Keeps P (primaryType r) := .bind inferInstance fun _ => by split <;> infer_instance
instance : Keeps P (bracketTail r) := by unfold bracketTail; infer_instance
instance {words : List String} : Keeps P (atTypeWord words) :=
  .bind inferInstance fun _ => by split <;> infer_instance
instance : Keeps P (typeOperand r) := by unfold typeOperand; infer_instance
instance : Keeps P (functionTypeHead r) := by unfold functionTypeHead; infer_instance
instance : Keeps P typeOperator? := by unfold typeOperator?; infer_instance
instance : Keeps P (unionType r) := by unfold unionType; infer_instance
instance : Keeps P (conditionalTail r) := by unfold conditionalTail; infer_instance
instance : Keeps P (type.plain r) := by unfold type.plain; infer_instance
instance : Keeps P (type r) := by
  unfold type node
  refine .bind inferInstance fun _ => .bind ?_ fun _ => inferInstance
  refine .bind inferInstance fun _ => .bind inferInstance fun _ => .bind inferInstance fun _ => ?_
  split
  · exact .bind inferInstance fun head => by cases head <;> infer_instance
  · infer_instance

/-! ## Classes and objects -/

instance : Keeps P (indexMember r) := by unfold indexMember; infer_instance
instance : Keeps P (namedMember r) := by unfold namedMember; infer_instance
instance : Keeps P (classMember r) := by unfold classMember; infer_instance
instance : Keeps P (classBody r) := by unfold classBody; infer_instance
instance : Keeps P (heritage r) := by unfold heritage; infer_instance
instance : Keeps P (classRest r) := by unfold classRest; infer_instance
instance : Keeps P (objectMember r) := by unfold objectMember; infer_instance
instance : Keeps P (object r) := by unfold object; infer_instance

/-! ## Elements -/

instance : Keeps P markupName := .bind inferInstance fun _ => by split <;> infer_instance
instance : Keeps P strayMarkup := .bind inferInstance fun _ => by split <;> infer_instance
instance {quote : Char} : Keeps P (attributeText quote) := by
  unfold attributeText
  refine .bind inferInstance fun _ => .bind ?_ fun _ => inferInstance
  exact @repeatWhile_keeps _ _ (.bind inferInstance fun chars => by cases chars <;> infer_instance)
instance : Keeps P (markupExpression r) := by unfold markupExpression; infer_instance
instance : Keeps P (attributeValue r) := .bind inferInstance fun _ => by split <;> infer_instance
instance : Keeps P (elementAttribute r) := by unfold elementAttribute; infer_instance
instance : Keeps P elementName := by unfold elementName; infer_instance
instance : Keeps P (child r) :=
  .bind inferInstance fun chars => by
    split
    · infer_instance
    · infer_instance
    · infer_instance
    · split <;> infer_instance
instance : Keeps P (childrenAndEnd r) := by unfold childrenAndEnd; infer_instance
instance : Keeps P (element r) := by unfold element; infer_instance

/-! ## Expressions -/

instance {signs longer : List String} : Keeps P (operator? signs longer) :=
  .bind inferInstance fun chars => by
    split
    · infer_instance
    · split <;> infer_instance
instance : Keeps P assignment? := by unfold assignment?; infer_instance
instance : Keeps P tightOperator? := by unfold tightOperator?; infer_instance
instance : Keeps P looseOperator? := by unfold looseOperator?; infer_instance
instance : Keeps P atExpression := by unfold atExpression; infer_instance
instance : Keeps P (listLiteral r) := by unfold listLiteral; infer_instance
instance : Keeps P (parenthesized r) := by unfold parenthesized; infer_instance
instance {given : String} : Keeps P (wordExpression r given) := by
  unfold wordExpression; infer_instance
instance : Keeps P (primary r) :=
  .bind inferInstance fun name => by
    cases name with
    | some word => infer_instance
    | none => exact .bind inferInstance fun c => by split <;> infer_instance
instance : Keeps P endsInstantiation := by unfold endsInstantiation; infer_instance
instance {start : Nat} : Keeps P (genericTail r start) := by unfold genericTail; infer_instance
instance {start : Nat} : Keeps P (optionalAccess r start) := by
  unfold optionalAccess; infer_instance
instance : Keeps P atOptionalAccess := .bind inferInstance fun _ => by split <;> infer_instance
instance : Keeps P atAssertion :=
  .bind inferInstance fun isBroken => by
    split
    · infer_instance
    · exact .bind inferInstance fun chars => by split <;> infer_instance
instance {generic calls : Bool} {start : Nat} : Keeps P (tailStep r generic calls start) := by
  unfold tailStep; infer_instance
instance {generic calls : Bool} {start : Nat} : Keeps P (tail r generic calls start) := by
  unfold tail; infer_instance
instance : Keeps P (construction r) := by unfold construction; infer_instance
instance {start : Nat} : Keeps P (countingTail start) := by unfold countingTail; infer_instance
instance {generic : Bool} : Keeps P (plainOperand r generic) := by
  unfold plainOperand; infer_instance
instance : Keeps P prefixSign? := by unfold prefixSign?; infer_instance
instance {generic : Bool} {start : Nat} : Keeps P (absorb r generic start) := by
  unfold absorb; infer_instance
instance {generic : Bool} : Keeps P (operand r generic) := by unfold operand; infer_instance
instance : Keeps P (tightOperation r) := by unfold tightOperation; infer_instance
instance {start : Nat} : Keeps P (typeTail r start) := by unfold typeTail; infer_instance
instance : Keeps P (operation r) := by unfold operation; infer_instance
instance : Keeps P (arrowHead r) := by unfold arrowHead; infer_instance
instance : Keeps P atArrowHead := by unfold atArrowHead; infer_instance
instance : Keeps P (arrow? r) := by unfold arrow?; infer_instance
instance : Keeps P (arrowBody r) := by unfold arrowBody; infer_instance
instance : Keeps P (handOut r) := by unfold handOut; infer_instance
instance : Keeps P atChoice := by unfold atChoice; infer_instance
instance {start : Nat} : Keeps P (assignmentTail r start) := by
  unfold assignmentTail; infer_instance
instance {start : Nat} : Keeps P (choiceTail r start) := by unfold choiceTail; infer_instance
instance : Keeps P (expression r) := by unfold expression; infer_instance
instance : Keeps P (sequence r) := by unfold sequence; infer_instance

/-! ## Statements -/

instance : Keeps P (condition r) := by unfold condition; infer_instance
instance : Keeps P (declarators r) := by unfold declarators; infer_instance
instance : Keeps P variableWord := by unfold variableWord; infer_instance
instance : Keeps P atVariables := by unfold atVariables; infer_instance
instance : Keeps P (conditional r) := by unfold conditional; infer_instance
instance : Keeps P (loopRange r) := by unfold loopRange; infer_instance
instance : Keeps P (loopRest r) := by unfold loopRest; infer_instance
instance : Keeps P (loopHead r) := by unfold loopHead; infer_instance
instance : Keeps P (forLoop r) := by unfold forLoop; infer_instance
instance : Keeps P (whileLoop r) := by unfold whileLoop; infer_instance
instance : Keeps P (doLoop r) := by unfold doLoop; infer_instance
instance : Keeps P atCase := by unfold atCase; infer_instance
instance : Keeps P (switchCase r) := by unfold switchCase; infer_instance
instance : Keeps P (switch r) := by unfold switch; infer_instance
instance : Keeps P (tryBlock r) := by unfold tryBlock; infer_instance
instance {given : String} : Keeps P (jumpWithValue r given) := by
  unfold jumpWithValue; infer_instance
instance {given : String} : Keeps P (jump given) := by unfold jump; infer_instance
instance : Keeps P moduleNames := by unfold moduleNames; infer_instance
instance : Keeps P (moduleSource r) := by unfold moduleSource; infer_instance
instance : Keeps P importClause := by unfold importClause; infer_instance
instance : Keeps P aliasValue := by unfold aliasValue; infer_instance
instance : Keeps P (importRest r) := by unfold importRest; infer_instance
instance : Keeps P atImport := by unfold atImport; infer_instance
instance : Keeps P (enumeration r) := by unfold enumeration; infer_instance
instance : Keeps P (interfaceRest r) := by unfold interfaceRest; infer_instance
instance : Keeps P (typeAlias r) := by unfold typeAlias; infer_instance
instance : Keeps P (namespaceRest r) := by unfold namespaceRest; infer_instance
instance {given : String} {p : Parser Unit} [Keeps P p] : Keeps P (followedBy given p) := by
  unfold followedBy; infer_instance
instance {signs : String} : Keeps P (nameOr signs) := by unfold nameOr; infer_instance
instance : Keeps P (declaration? r) := by unfold declaration?; infer_instance
instance : Keeps P (ambient r) := by unfold ambient; infer_instance
instance : Keeps P atAmbient := by unfold atAmbient; infer_instance
instance : Keeps P (exportNames r) := by unfold exportNames; infer_instance
instance : Keeps P (exportDefault r) := by unfold exportDefault; infer_instance
instance : Keeps P (exportRest r) := by unfold exportRest; infer_instance
instance : Keeps P (control? r) := .bind inferInstance fun _ => by split <;> infer_instance
instance : Keeps P (expressionStatement r) := by unfold expressionStatement; infer_instance
instance : Keeps P (decorated r) := by unfold decorated; infer_instance
instance : Keeps P (statement r) := by unfold statement; infer_instance

end Rules

end Parser

/-! ## Goals and scripts -/

variable [Stable P] {dialect : Dialect}

namespace Goal

instance {r : Rules} [∀ goal, Keeps P (r.self goal)] {goal : Goal} : Keeps P (rule r goal) := by
  cases goal <;> (unfold rule; infer_instance)

/-- The grammar keeps what its signs and nodes keep, by induction on the depth of the goals. -/
theorem within_keeps (bound : Nat) (goal : Goal) : Keeps P (within dialect bound goal) := by
  induction bound generalizing goal with
  | zero => exact inferInstanceAs (Keeps P Parser.fail)
  -- the rules of one bound call goals of the bound below, for which `ih` is the instance
  | succ bound ih => unfold within; infer_instance

instance read_keeps {goal : Goal} : Keeps P (read dialect goal) :=
  ⟨fun s => (within_keeps _ goal).keeps s⟩

end Goal

namespace Parser

instance : Keeps P (statementOrPart dialect) where
  keeps s hStart := by
    have hRead : P (Goal.read dialect .statement s).2 := Goal.read_keeps.keeps s hStart
    unfold statementOrPart
    split
    · next t hCase => rwa [hCase] at hRead
    · next t hCase =>
      rw [hCase] at hRead
      -- what could not be read as a statement is wrapped up or stepped over, as an error
      have hBroken := Stable.flags t t.newline true t.resultTypes hRead
      dsimp only
      split
      · exact Stable.wrap _ .error _ Kind.IsPlain.notString hBroken
      · exact Keeps.keeps _ hBroken

instance : Keeps P (statements dialect) := by unfold statements; infer_instance

instance script_keeps : Keeps P (script dialect) := by unfold script; infer_instance

end Parser

end KeyRegistry.Script

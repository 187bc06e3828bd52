import KeyRegistry.Document
import KeyRegistry.Proofs.Script.Extraction
import KeyRegistry.Proofs.Script.Run
import KeyRegistry.Proofs.Text.Quotation

/-!
# Documents are sound scripts

A document that registers patterns is a script itself: it imports a module and extends it by an
interface. Whatever the patterns and the name of the module say, the reader of scripts finds nothing
wrong in it and no call, since every quoted text ends at the quote that closes it.

Main definitions:

* `importing`, `declaring`, `entryLines` — the characters of a document from some spot on

Main statements:

* `Parser.reads_quoted` — a quoted text is one literal
* `Parser.reads_typeMembers` — the entries of any number of patterns are the members of an interface
* `Document.extraction_eq` — nothing is extracted from a document, and nothing in it is wrong
-/

namespace KeyRegistry.Script

open KeyRegistry.Text (spell)

/-! ## Quoted texts -/

/-- Two parts of the length of a literal are added up. -/
theorem map_more_map_more (extent : Option Extent) (m n : Nat) :
    (extent.map (Extent.more · m)).map (Extent.more · n) = extent.map (Extent.more · (m + n)) := by
  cases extent <;> simp [Extent.more, Nat.add_assoc]

/-- Characters that are known to belong to a text are stepped over. -/
theorem textLength_skip (quote : Char) (known rest : List Char) :
    textLength quote known.length (known ++ rest) =
      (textLength quote 0 rest).map (Extent.more · known.length) := by
  induction known with
  | nil =>
    show textLength quote 0 rest = _
    cases textLength quote 0 rest <;> rfl
  | cons c known ih =>
    rw [List.cons_append, List.length_cons, textLength, ih, map_more_map_more]

/-- An escape is stepped over, whatever it stands for. -/
theorem textLength_escape {quote : Char} (escape rest : List Char) (hQuote : quote ≠ '\\')
    (hSome : escape ≠ []) (h : escapeLength (escape ++ rest) = escape.length) :
    textLength quote 0 ('\\' :: (escape ++ rest)) =
      (textLength quote 0 rest).map (Extent.more · (escape.length + 1)) := by
  obtain ⟨length, hLength⟩ :=
    Nat.exists_eq_succ_of_ne_zero (hSome ∘ List.length_eq_zero_iff.mp)
  rw [textLength, if_neg (Ne.symm hQuote), if_neg (by decide), if_pos rfl, h, hLength]
  show (textLength quote (length + 1) (escape ++ rest)).map _ = _
  rw [← Nat.succ_eq_add_one, ← hLength, textLength_skip, map_more_map_more]

/-- What stands for a character between quotes does not close them. -/
theorem textLength_spell (c : Char) (rest : List Char) :
    textLength '\x22' 0 (spell c ++ rest) =
      (textLength '\x22' 0 rest).map (Extent.more · (spell c).length) := by
  unfold spell
  split
  -- seven characters have an escape of one letter
  iterate 7 exact textLength_escape [_] rest (by decide) (by decide) rfl
  next hQuote hBackslash _ _ hLine _ hReturn =>
  split
  -- other control characters are spelled with four digits
  · next hControl =>
    refine textLength_escape ['u', '0', '0', _, _] rest (by decide) (by simp) ?_
    show (if (Text.readHex 4 0 ('0' :: '0' :: Text.hexDigit (c.toNat / 16) ::
      Text.hexDigit (c.toNat % 16) :: rest)).isSome then 5 else 0) = 5
    rw [Text.readHex_control hControl]
    rfl
  -- the rest stand for themselves
  · have hEnd : ¬ (c = '\n' ∨ c = '\r') := fun h => h.elim hLine hReturn
    rw [List.singleton_append, textLength, if_neg hQuote, if_neg hEnd, if_neg hBackslash]
    rfl

/-- A quoted text is as long as its spelling, up to the quote that ends it. -/
theorem textLength_quoted (said rest : List Char) :
    textLength '\x22' 0 (said.flatMap spell ++ '\x22' :: rest) =
      some ⟨(said.flatMap spell).length + 1, false⟩ := by
  induction said with
  | nil => rfl
  | cons c said ih =>
    have hLength : ((c :: said).flatMap spell).length =
        (said.flatMap spell).length + (spell c).length := by
      rw [List.flatMap_cons, List.length_append, Nat.add_comm]
    rw [hLength, List.flatMap_cons, List.append_assoc, textLength_spell, ih, Option.map_some,
      Extent.more, Nat.add_right_comm]

namespace Parser

/-- A text literal is read up to its end. -/
theorem reads_text {chars : List Char} {length : Nat} (newline : Bool)
    (h : textLength '\x22' 0 chars = some ⟨length, false⟩) :
    Reads text ⟨'\x22' :: chars, newline⟩ () (.settled (chars.drop length)) := by
  have hText : Reads (textTight ⟨length, false⟩) ⟨'\x22' :: chars, newline⟩ ()
      ⟨chars.drop length, newline⟩ := by
    rintro s hSpot
    obtain ⟨hRest, hNewline⟩ := Spot.mk.inj hSpot
    refine ⟨_, rfl, ?_, ?_, [_], rfl, List.forall_mem_singleton.mpr ?_⟩
    · simp [State.spot, hRest, hNewline]
    · simp
    · exact Node.silent_mk (show Kind.IsSilent .string by decide) rfl nofun
  have hRead : Reads (textTight ⟨length, false⟩ >>= fun _ => skipGap) ⟨'\x22' :: chars, newline⟩ ()
      (.settled (chars.drop length)) := hText.bind (reads_skipGap _)
  simpa [text, h] using hRead

/-- A quoted text is one literal, whatever it says. -/
theorem reads_quoted (said rest : List Char) (newline : Bool) :
    Reads text ⟨'\x22' :: (said.flatMap spell ++ '\x22' :: rest), newline⟩ () (.settled rest) := by
  have hRead := reads_text newline (textLength_quoted said rest)
  rwa [← List.drop_drop, List.drop_left] at hRead

/-! ## Types -/

variable {r : Rules} {x y z : Spot} {more chars tail : List Char} {newline : Bool}

/-- A parser reads the type of an entry. -/
def ReadsTrue (p : Parser Unit) : Prop :=
  ∀ tail newline, Reads p ⟨'t' :: 'r' :: 'u' :: 'e' :: ';' :: tail, newline⟩ () ⟨';' :: tail, false⟩

/-- The word for truth is read as a type by itself. -/
theorem reads_typeOperand : ReadsTrue (typeOperand r) := by
  intro tail newline
  have hName : nameOf ('t' :: 'r' :: 'u' :: 'e' :: ';' :: tail) = some "true" := rfl
  have hWord : Reads (name .other) ⟨'t' :: 'r' :: 'u' :: 'e' :: ';' :: tail, newline⟩ ()
      ⟨';' :: tail, false⟩ := reads_name (by decide) hName rfl
  refine reads_node (by decide) ?_
  -- the word changes no type and has no rule of its own, so it is the name of a type
  simp [atTypeWord, primaryType, hName, wordType, namedType]
  refine reads_mark fun start => hWord.bind ?_
  simp [dottedNames, bracketTail, List.isPrefixOf_cons_cons, Still.reads]

/-- A type that is such a word ends behind it. -/
theorem reads_type (hOperand : ReadsTrue (r.self .typeOperand)) : ReadsTrue (type r) := by
  intro tail newline
  have hName : nameOf ('t' :: 'r' :: 'u' :: 'e' :: ';' :: tail) = some "true" := rfl
  have hEnd : nameOf (';' :: tail) = none := rfl
  refine reads_node (by decide) ?_
  simp [hName, type.plain, atTypeWord, unionType, typeOperator?, List.isPrefixOf_cons_cons]
  refine (hOperand tail newline).bind ?_
  simp [List.isPrefixOf_cons_cons, reads_pure, hEnd]

/-! ## Entries -/

/-- What stands behind the quotes of an entry, and what follows the entry. -/
def entryEnd (tail : List Char) : List Char :=
  ':' :: ' ' :: 't' :: 'r' :: 'u' :: 'e' :: ';' :: tail

/-- The entries of some texts and the brace behind them, from the end of the line in front, and
what follows. -/
def entryLines (tail : List Char) : List (List Char) → List Char
  | [] => '\n' :: ' ' :: ' ' :: '\x7d' :: tail
  | said :: entries =>
    '\n' :: ' ' :: ' ' :: ' ' :: ' ' :: '\x22' ::
      (said.flatMap spell ++ '\x22' :: entryEnd (entryLines tail entries))

/-- A member of an interface is read up to the semicolon behind its type. -/
theorem reads_typeMember (hType : ReadsTrue (r.self .type)) (said tail : List Char)
    (newline : Bool) :
    Reads (typeMember r) ⟨'\x22' :: (said.flatMap spell ++ '\x22' :: entryEnd tail), newline⟩ ()
      ⟨';' :: tail, false⟩ := by
  have hQuote (chars : List Char) : nameOf ('\x22' :: chars) = none := rfl
  have hText : Reads text ⟨'\x22' :: (said.flatMap spell ++ '\x22' :: entryEnd tail), newline⟩ ()
      ⟨entryEnd tail, false⟩ := reads_quoted said _ newline
  have hColon : Reads (symbol? ":") ⟨entryEnd tail, false⟩ true
      ⟨'t' :: 'r' :: 'u' :: 'e' :: ';' :: tail, false⟩ := reads_symbol? (by simp [entryEnd]) rfl
  refine reads_node (by decide) ?_
  -- no modifier, signature or index comes in front of a quote
  simp [modifierSign, modifiers, atModifier, List.isPrefixOf_cons_cons, hQuote, memberKey,
    propertyName]
  refine hText.bind ?_
  simp [entryEnd, List.isPrefixOf_cons_cons, annotation, introduced]
  exact hColon.bind (hType tail false)

/-- The members of an interface may be the entries of any texts. -/
theorem reads_typeMembers (hType : ReadsTrue (r.self .type)) (entries : List (List Char))
    (tail : List Char) (newline : Bool) :
    Reads (typeMembers r) ⟨'\x7b' :: entryLines tail entries, newline⟩ () (.settled tail) := by
  have hOpen : Reads (symbol "\x7b") ⟨'\x7b' :: entryLines tail entries, newline⟩ ()
      (.settled (entryLines tail entries)) := reads_symbol (by simp) rfl
  have hClose : Reads (symbol "\x7d") ⟨'\x7d' :: tail, true⟩ () (.settled tail) :=
    reads_symbol (by simp) rfl
  have hNoBar : "|".toList.isPrefixOf (Spot.settled (entryLines tail entries)).rest = false := by
    cases entries <;> rfl
  unfold typeMembers
  refine hOpen.bind ?_
  rw [discard_bind]
  refine (meets_symbol?_of_not hNoBar).mpr ?_
  refine (reads_inside (reads_repeatWhile (y := ⟨'\x7d' :: tail, true⟩) ?_)).bind ?_
  · -- an entry takes two steps, one for the member and one for the semicolon
    clear hOpen hNoBar
    induction entries with
    | nil =>
      refine .stop ?_
      show Reads _ ⟨'\x7d' :: tail, true⟩ _ _
      simp [reads_pure]
    | cons said entries ih =>
      have hMember := reads_typeMember hType said (entryLines tail entries) true
      refine .more (y := ⟨';' :: entryLines tail entries, false⟩) ?_ ?_ (.more ?_ ?_ ih)
      · show Reads _ ⟨'\x22' :: (said.flatMap spell ++
          '\x22' :: entryEnd (entryLines tail entries)), true⟩ _ _
        simp
        exact hMember.map
      · show _ < List.length ('\x22' :: (said.flatMap spell ++
          '\x22' :: entryEnd (entryLines tail entries)))
        simp [entryEnd]
        omega
      · simp
        exact (reads_step 1 ⟨';' :: entryLines tail entries, false⟩).map
      · exact Nat.lt_succ_of_le (Spot.length_settled_le _)
  · simp [List.isPrefixOf_cons_cons]
    exact hClose

/-! ## Statements -/

section Words

variable {β : Type} {p : Parser Unit} {given : String} {f : Bool → Parser β}
  {Q : State → Option β × State → Prop}

/-- A word that does not come next is not followed by anything. -/
@[simp] theorem meets_followedBy_of_not (h : (nameOf x.rest == some given) = false) :
    Meets (followedBy given p >>= f) x Q ↔ Meets (f false) x Q :=
  meets_ahead_of_fails (fails_word h)

/-- Looking ahead for a word and what has to follow it on the same line answers yes if both can be
read. -/
theorem meets_followedBy_of_reads (hWord : Reads (word given) x () y) (hLine : y.newline = false)
    (hNext : Reads p y () z) : Meets (followedBy given p >>= f) x Q ↔ Meets (f true) x Q := by
  refine meets_ahead_of_reads (a := ()) (y := z) (hWord.bind ?_)
  simp [hLine]
  exact hNext

end Words

/-- Behind its word, an interface is its name and its members. -/
theorem reads_interfaceRest (hName : Reads (name .other) x () ⟨'\x7b' :: more, newline⟩)
    (hMembers : Reads (typeMembers r) ⟨'\x7b' :: more, newline⟩ () z) :
    Reads (interfaceRest r) x () z := by
  have hBrace : nameOf ('\x7b' :: more) = none := rfl
  refine hName.bind ?_
  simp [optionalTypeParameters, List.isPrefixOf_cons_cons, hBrace]
  exact hMembers

/-- What is exported is the interface behind the word. -/
theorem reads_exportRest (hName : nameOf ('i' :: more) = some "interface")
    (hWord : Reads (word? "interface") ⟨'i' :: more, newline⟩ true y)
    (hRest : Reads (interfaceRest r) y () z) :
    Reads (exportRest r) ⟨'i' :: more, newline⟩ () z := by
  -- all declarations that come before the interface are recognised by other words
  simp [exportRest, hName, List.isPrefixOf_cons_cons, atImport, atAmbient, decorators,
    declaration?, atVariables, variableWord]
  refine hWord.bind ?_
  rw [if_pos rfl]
  exact hRest.map.bind reads_pure

/-- A statement that starts with the word is an export. -/
theorem reads_export (hName : nameOf ('e' :: more) = some "export")
    (hWord : Reads (word "export") ⟨'e' :: more, newline⟩ () y)
    (hRest : Reads (exportRest r) y () z) :
    Reads (statement r) ⟨'e' :: more, newline⟩ () z := by
  refine reads_node (by decide) ?_
  simp [List.isPrefixOf_cons_cons, control?, hName]
  exact hWord.bind hRest

/-- An import that names a module alone ends behind the semicolon. -/
theorem reads_importRest (hText : Reads text ⟨'\x22' :: chars, newline⟩ () ⟨';' :: tail, false⟩) :
    Reads (importRest r) ⟨'\x22' :: chars, newline⟩ () (.settled tail) := by
  have hEnd : nameOf (';' :: tail) = none := rfl
  have hSign : Reads (symbol? ";") ⟨';' :: tail, false⟩ true (.settled tail) :=
    reads_symbol? (by simp) rfl
  simp [importRest, moduleSource]
  refine hText.bind ?_
  simp [hEnd, endStatement]
  exact hSign.bind reads_pure

/-- A statement that starts with the word and a text is an import. -/
theorem reads_import (hName : nameOf ('i' :: more) = some "import")
    (hWord : Reads (word "import") ⟨'i' :: more, newline⟩ () ⟨'\x22' :: chars, false⟩)
    (hRest : Reads (importRest r) ⟨'\x22' :: chars, false⟩ () z) :
    Reads (statement r) ⟨'i' :: more, newline⟩ () z := by
  have hAhead : Reads (do word "import"; if ← nextIn "(." then fail) ⟨'i' :: more, newline⟩ ()
      ⟨'\x22' :: chars, false⟩ := by
    refine hWord.bind ?_
    simp [reads_pure]
  refine reads_node (by decide) ?_
  simp [List.isPrefixOf_cons_cons, control?, hName]
  refine (meets_ahead_of_reads hAhead).mpr ?_
  exact hWord.bind hRest

/-- Behind its word, a module is its name and its block. -/
theorem reads_namespaceRest {body : List Char}
    (hText : Reads text ⟨'\x22' :: chars, newline⟩ () ⟨'\x7b' :: body, false⟩)
    (hBlock : Reads (block r) ⟨'\x7b' :: body, false⟩ () z) :
    Reads (namespaceRest r) ⟨'\x22' :: chars, newline⟩ () z := by
  simp [namespaceRest]
  refine hText.bind ?_
  simp
  exact hBlock

/-- A statement that declares a module is read up to the end of its block. -/
theorem reads_declare (hName : nameOf ('d' :: more) = some "declare")
    (hWord : Reads (word "declare") ⟨'d' :: more, newline⟩ () ⟨'m' :: chars, false⟩)
    (hModule : nameOf ('m' :: chars) = some "module")
    (hNext : Reads (word "module") ⟨'m' :: chars, false⟩ () ⟨'\x22' :: tail, false⟩)
    (hRest : Reads (namespaceRest r) ⟨'\x22' :: tail, false⟩ () z) :
    Reads (statement r) ⟨'d' :: more, newline⟩ () z := by
  have hQuote : nameOf ('\x22' :: tail) = none := rfl
  have hNamed : Reads (nameOr "") ⟨'m' :: chars, false⟩ () ⟨'m' :: chars, false⟩ := by
    simp [nameOr, hModule, reads_pure]
  have hQuoted : Reads (nameOr "'\x22") ⟨'\x22' :: tail, false⟩ () ⟨'\x22' :: tail, false⟩ := by
    simp [nameOr, hQuote, reads_pure]
  refine reads_node (by decide) ?_
  simp [List.isPrefixOf_cons_cons, control?, hName, atImport]
  refine (meets_followedBy_of_reads hWord rfl hNamed).mpr ?_
  refine hWord.bind ?_
  -- the module is the last declaration that is tried
  simp [hModule, declaration?, atVariables, variableWord]
  refine (meets_followedBy_of_reads hNext rfl hQuoted).mpr ?_
  rw [if_pos rfl]
  exact (hNext.bind hRest.map).bind reads_pure

/-! ## Blocks -/

/-- A block without statements is read. -/
theorem reads_block_empty :
    Reads (block r) ⟨'\x7b' :: '\x7d' :: tail, newline⟩ () (.settled tail) := by
  have hOpen : Reads (symbol "\x7b") ⟨'\x7b' :: '\x7d' :: tail, newline⟩ ()
      ⟨'\x7d' :: tail, false⟩ := reads_symbol (by simp) rfl
  have hClose : Reads (symbol "\x7d") ⟨'\x7d' :: tail, false⟩ () (.settled tail) :=
    reads_symbol (by simp) rfl
  refine reads_node (by decide) (hOpen.bind ?_)
  refine (reads_inside (reads_repeatWhile (.stop ?_))).bind hClose
  simp [reads_pure]

/-- A block with one statement is read. -/
theorem reads_block_single {body : List Char} {c : Char}
    (hBody : Spot.settled body = ⟨c :: more, true⟩) (hOther : c ∉ ['\x7d', '<', '-'])
    (hStatement : Reads (r.self .statement) ⟨c :: more, true⟩ () ⟨'\x7d' :: tail, true⟩)
    (hLess : tail.length < more.length) :
    Reads (block r) ⟨'\x7b' :: body, newline⟩ () (.settled tail) := by
  simp only [List.mem_cons, List.not_mem_nil, or_false, not_or] at hOther
  have hOpen : Reads (symbol "\x7b") ⟨'\x7b' :: body, newline⟩ () ⟨c :: more, true⟩ :=
    reads_symbol (by simp) hBody
  have hClose : Reads (symbol "\x7d") ⟨'\x7d' :: tail, true⟩ () (.settled tail) :=
    reads_symbol (by simp) rfl
  refine reads_node (by decide) (hOpen.bind ?_)
  refine (reads_inside (reads_repeatWhile (.more (y := ⟨'\x7d' :: tail, true⟩) ?_ ?_
    (.stop ?_)))).bind hClose
  · simp [Ne.symm hOther.1, hOther.2]
    exact hStatement.map
  · simpa using hLess
  · simp [reads_pure]

/-! ## Scripts -/

variable {dialect : Dialect}

/-- The characters of a document from its import on. -/
def importing (said after : List Char) : List Char :=
  'i' :: ("mport ".toList ++
    '\x22' :: (said.flatMap spell ++ '\x22' :: ';' :: '\n' :: '\n' :: after))

/-- The characters of a document from the declaration of its module on. -/
def declaring (said body : List Char) : List Char :=
  'd' :: ("eclare module ".toList ++
    '\x22' :: (said.flatMap spell ++ '\x22' :: ' ' :: '\x7b' :: body))

/-- The characters of an interface with the entries of some texts. -/
def exporting (tail : List Char) (entries : List (List Char)) : List Char :=
  'e' :: ("xport interface RegisteredPaths \x7b".toList ++ entryLines tail entries)

/-- Two levels of goals are enough for the types of the document. -/
theorem reads_within_type (bound : Nat) : ReadsTrue (Goal.within dialect (bound + 2) .type) :=
  reads_type (r := ⟨dialect, Goal.within dialect (bound + 1)⟩) reads_typeOperand

/-- Three levels are enough for the interface and its members, by induction on the entries. -/
theorem reads_exporting (bound : Nat) (entries : List (List Char)) (tail : List Char) :
    Reads (Goal.within dialect (bound + 3) .statement) ⟨exporting tail entries, newline⟩ ()
      (.settled tail) := by
  have hExport : Reads (word "export") ⟨exporting tail entries, newline⟩ ()
      ⟨'i' :: ("nterface RegisteredPaths \x7b".toList ++ entryLines tail entries), false⟩ :=
    reads_word rfl rfl
  have hInterface : Reads (word? "interface")
      ⟨'i' :: ("nterface RegisteredPaths \x7b".toList ++ entryLines tail entries), false⟩ true
      ⟨"RegisteredPaths \x7b".toList ++ entryLines tail entries, false⟩ := reads_word? rfl rfl
  have hName : Reads (name .other) ⟨"RegisteredPaths \x7b".toList ++ entryLines tail entries, false⟩
      () ⟨'\x7b' :: entryLines tail entries, false⟩ :=
    reads_name (by decide) (rfl : nameOf _ = some "RegisteredPaths") rfl
  have hMembers := reads_typeMembers (r := ⟨dialect, Goal.within dialect (bound + 2)⟩)
    (reads_within_type bound) entries tail false
  exact reads_export rfl hExport
    (reads_exportRest rfl hInterface (reads_interfaceRest hName hMembers))

/-- The import of the document is read up to the next statement. -/
theorem reads_importing (bound : Nat) (said after : List Char) :
    Reads (Goal.within dialect (bound + 1) .statement) ⟨importing said after, newline⟩ ()
      (.settled ('\n' :: '\n' :: after)) := by
  have hWord : Reads (word "import") ⟨importing said after, newline⟩ ()
      ⟨'\x22' :: (said.flatMap spell ++ '\x22' :: ';' :: '\n' :: '\n' :: after), false⟩ :=
    reads_word rfl rfl
  have hText : Reads text ⟨'\x22' :: (said.flatMap spell ++
      '\x22' :: ';' :: '\n' :: '\n' :: after), false⟩ () ⟨';' :: '\n' :: '\n' :: after, false⟩ :=
    reads_quoted said _ false
  exact reads_import rfl hWord (reads_importRest hText)

/-- The module of the document is read if its block is. -/
theorem reads_declaring {bound : Nat} {said body : List Char}
    (hBlock : Reads (block ⟨dialect, Goal.within dialect bound⟩) ⟨'\x7b' :: body, false⟩ () z) :
    Reads (Goal.within dialect (bound + 1) .statement) ⟨declaring said body, newline⟩ () z := by
  have hDeclare : Reads (word "declare") ⟨declaring said body, newline⟩ ()
      ⟨'m' :: ("odule ".toList ++ '\x22' :: (said.flatMap spell ++
        '\x22' :: ' ' :: '\x7b' :: body)), false⟩ := reads_word rfl rfl
  have hModule : Reads (word "module") ⟨'m' :: ("odule ".toList ++ '\x22' :: (said.flatMap spell ++
        '\x22' :: ' ' :: '\x7b' :: body)), false⟩ ()
      ⟨'\x22' :: (said.flatMap spell ++ '\x22' :: ' ' :: '\x7b' :: body), false⟩ :=
    reads_word rfl rfl
  have hText : Reads text ⟨'\x22' :: (said.flatMap spell ++ '\x22' :: ' ' :: '\x7b' :: body), false⟩
      () ⟨'\x7b' :: body, false⟩ := reads_quoted said _ false
  exact reads_declare rfl hDeclare rfl hModule (reads_namespaceRest hText hBlock)

/-- A goal is read like within any bound that is large enough. -/
theorem reads_goal {goal : Goal} (depth : Nat) (hDepth : depth ≤ 64)
    (h : ∀ bound, Reads (Goal.within dialect (bound + depth) goal) x () y) :
    Reads (Goal.read dialect goal) x () y := by
  intro s hSpot
  -- even for an empty source the reader has a bound of 64
  obtain ⟨bound, hBound⟩ := Nat.exists_eq_add_of_le' (Nat.le_trans hDepth
    (show 64 ≤ 32 * (s.rest.length + 2) by omega))
  rw [Goal.read, hBound]
  exact h bound s hSpot

/-- A script reads its parts as statements unless they start in another way. -/
theorem reads_statementOrPart (h : Reads (Goal.read dialect .statement) x () y) :
    Reads (statementOrPart dialect) x () y := by
  intro s hSpot
  obtain ⟨t, hRead, hEnd, hGrown⟩ := h s hSpot
  exact ⟨t, by rw [statementOrPart, hRead], hEnd, hGrown⟩

/-- A script of two statements behind a gap. -/
theorem reads_script {front first second : List Char} {c d : Char}
    (hFront : Spot.settled front = ⟨c :: first, true⟩) (hSign : c ∉ ['#', '<', '-'])
    (hOther : d ∉ ['<', '-'])
    (hFirst : Reads (Goal.read dialect .statement) ⟨c :: first, true⟩ () ⟨d :: second, true⟩)
    (hSecond : Reads (Goal.read dialect .statement) ⟨d :: second, true⟩ () ⟨[], true⟩)
    (hLess : second.length < first.length) :
    Reads (script dialect) ⟨front, false⟩ () ⟨[], true⟩ := by
  have hGap : Reads skipGap ⟨front, false⟩ () ⟨c :: first, true⟩ := hFront ▸ reads_skipGap _
  simp only [List.mem_cons, List.not_mem_nil, or_false, not_or] at hSign hOther
  refine hGap.bind ?_
  simp [List.isPrefixOf_cons_cons, Ne.symm hSign.1]
  refine reads_repeatWhile (.more (y := ⟨d :: second, true⟩) ?_ ?_
    (.more (y := ⟨[], true⟩) ?_ ?_ (.stop ?_)))
  · simp [hSign.2]
    exact (reads_statementOrPart hFirst).map
  · simpa using hLess
  · simp [hOther]
    exact (reads_statementOrPart hSecond).map
  · simp
  · simp [reads_pure]

end Parser

/-- In a silent tree there is no marker call and nothing wrong. -/
theorem Extraction.ofTree_of_silent {root : Node} (h : root.Silent) (source : String)
    (markers : List String) : Extraction.ofTree root source markers = ⟨[], false⟩ := by
  have hNodes : ∀ handle ∈ root.located,
      handle.node.kind.IsSilent ∧ handle.node.label.isMissing = false :=
    fun handle hMem => h _ _ (Node.mem_located.mp hMem)
  have hFound : root.located.flatMap markerQuery.results = [] := by
    refine List.flatMap_eq_nil_iff.mpr fun handle hMem => ?_
    simp [markerQuery, Query.results, (hNodes handle hMem).1.1]
  have hSound : root.hasError = false := by
    refine List.any_eq_false.mpr fun handle hMem => ?_
    simp [(hNodes handle hMem).1.2, (hNodes handle hMem).2]
  rw [Extraction.ofTree, hFound, hSound, List.filterMap_nil, List.mergeSort_nil]

end KeyRegistry.Script

namespace KeyRegistry.Document

open KeyRegistry.Script KeyRegistry.Script.Parser

variable {patterns : PatternSet} {moduleName : String}

/-! ## Documents -/

/-- The lines of the entries are those that the document writes. -/
theorem entryLines_eq (tail : List Char) (ps : List Pattern) :
    entryLines tail (ps.map (·.text.toList)) =
      '\n' :: ((String.join (ps.map entry)).toList ++ ' ' :: ' ' :: '\x7d' :: tail) := by
  induction ps with
  | nil => rfl
  | cons p ps ih =>
    rw [List.map_cons, entryLines, ih]
    simp [entry, entryEnd, Text.toList_quote, String.toList_append]

/-- What stands between the braces of a module and behind them. -/
def moduleBody (patterns : PatternSet) : List Char :=
  if patterns.isEmpty then ['\x7d', '\n']
  else '\n' :: ' ' :: ' ' ::
    exporting ['\n', '\x7d', '\n'] (patterns.members.map (·.text.toList))

/-- A document is its header, its import and its module. -/
theorem toList_text : (text patterns moduleName).toList = header.toList ++
    importing moduleName.toList (declaring moduleName.toList (moduleBody patterns)) := by
  unfold text moduleBody
  split
  · simp [empty, importing, declaring, Text.toList_quote, String.toList_append]
  · simp [populated, importing, declaring, exporting, entryLines_eq, Text.toList_quote,
      String.toList_append]

variable {dialect : Dialect}

/-- The block of the module is read whether or not there are any entries. -/
theorem reads_moduleBody (bound : Nat) :
    Reads (block ⟨dialect, Goal.within dialect (bound + 3)⟩) ⟨'\x7b' :: moduleBody patterns, false⟩
      () ⟨[], true⟩ := by
  unfold moduleBody
  split
  · exact reads_block_empty
  · let entries := patterns.members.map (·.text.toList)
    have hStatement : Reads (Goal.within dialect (bound + 3) .statement)
        ⟨exporting ['\n', '\x7d', '\n'] entries, true⟩ () ⟨'\x7d' :: ['\n'], true⟩ :=
      reads_exporting bound entries _
    refine reads_block_single (r := ⟨dialect, Goal.within dialect (bound + 3)⟩) rfl
      (by decide) hStatement ?_
    simp

/-- A document is read to its end as a script. -/
theorem reads_document : Reads (script dialect) ⟨(text patterns moduleName).toList, false⟩ ()
    ⟨[], true⟩ := by
  let said := moduleName.toList
  let body := moduleBody patterns
  have hFront : Spot.settled (header.toList ++ importing said (declaring said body)) =
      ⟨importing said (declaring said body), true⟩ := rfl
  have hFirst : Reads (Goal.read dialect .statement) ⟨importing said (declaring said body), true⟩ ()
      ⟨declaring said body, true⟩ := reads_goal 1 (by decide) fun bound => reads_importing bound _ _
  -- goals in goals: the module, the interface in it, the type of an entry and what it consists of
  have hSecond : Reads (Goal.read dialect .statement) ⟨declaring said body, true⟩ ()
      ⟨[], true⟩ :=
    reads_goal 4 (by decide) fun bound => reads_declaring (reads_moduleBody bound)
  rw [toList_text]
  refine reads_script hFront (by decide) (by decide) hFirst hSecond ?_
  simp only [declaring, List.length_append, List.length_cons]
  omega

/-- **Documents are sound scripts.** Whatever the patterns and the name of the module say, nothing
is wrong in a document, and nothing is extracted from it. -/
theorem extraction_eq (dialect : Dialect) (patterns : PatternSet) (moduleName : String)
    (markers : List String) :
    Extraction.of dialect (Rendering.of patterns moduleName).document markers = ⟨[], false⟩ := by
  obtain ⟨t, hRead, -, -, added, hTrees, hSilent⟩ :=
    reads_document { rest := (text patterns moduleName).toList } rfl
  refine Extraction.ofTree_of_silent ?_ _ markers
  show (parse dialect (text patterns moduleName)).Silent
  refine Node.silent_mk (show Kind.IsSilent .phrase by decide) rfl fun tree hTree => ?_
  rw [hRead, hTrees, List.append_nil, List.mem_reverse] at hTree
  exact hSilent tree hTree

end KeyRegistry.Document

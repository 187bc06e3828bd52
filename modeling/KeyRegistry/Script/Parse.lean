import KeyRegistry.Script.Grammar.Statement

/-!
# Reading scripts

A script is a list of statements. Where no statement can be read, the reader keeps what it has
read of the broken one as an error, steps over one word if it has not moved, and goes on; so it
gives a tree for every source.

Main definitions:

* `Goal.read` — reading a goal of the grammar
* `parse` — the syntax tree of a script
-/

namespace KeyRegistry.Script.Goal

/-!
## The grammar

The rules of all goals, tied together. A goal is nested in another one only behind a sign or a
word of the source or along a short chain of rules, so a bound that grows with the length of the
source is never reached.
-/

/-- The rule of a goal. -/
def rule (r : Rules) : Goal → Parser Unit
  | .statement => Parser.statement r
  | .sequence => Parser.sequence r
  | .expression => Parser.expression r
  | .operand generic => Parser.operand r generic
  | .type => Parser.type r
  | .typeOperand => Parser.typeOperand r
  | .binding => Parser.binding r
  | .element => Parser.element r

/-- Reads a goal, if goals are nested no deeper than a bound. -/
def within (dialect : Dialect) : Nat → Goal → Parser Unit
  | 0, _ => Parser.fail
  | bound + 1, goal => rule ⟨dialect, within dialect bound⟩ goal

/-- Reads a goal. -/
def read (dialect : Dialect) (goal : Goal) : Parser Unit :=
  fun s => within dialect (32 * (s.rest.length + 2)) goal s

end KeyRegistry.Script.Goal

namespace KeyRegistry.Script

namespace Parser

/-- The number of characters to step over where nothing can be read: a name, the rest of the line
of a text that is not closed, a comment that is not closed, or one sign. -/
def skipLength (chars : List Char) : Nat :=
  match chars with
  | [] => 0
  | '/' :: '*' :: _ => chars.length
  | c :: tail =>
    if c = '\x27' ∨ c = '\x22' then (tail.takeWhile fun c => c != '\n' && c != '\r').length + 1
    else (nameLength 0 chars).max 1

/-- Reads a statement, or what can be read of it; something is read in any case. -/
def statementOrPart (dialect : Dialect) : Parser Unit :=
  fun s =>
    match Goal.read dialect .statement s with
    | (some _, t) => (some (), t)
    | (none, t) =>
      let broken := { t with breaks := true }
      let before := s.trees.length
      -- what was read before the failure is kept; if that is nothing, a piece is skipped
      if t.rest.length < s.rest.length then wrap .error before broken
      else (do step (skipLength (← rest)); wrap .error before) broken

/-- Reads statements to the end. -/
def statements (dialect : Dialect) : Parser Unit :=
  repeatWhile do
    skipMarkupComments
    if ← atEnd then return false
    else do
      statementOrPart dialect
      return true

/-- Reads a whole script; a first line that names an interpreter is stepped over. -/
def script (dialect : Dialect) : Parser Unit := do
  skipGap
  if ← startsWith "#!" then do
    leaf .other ((← rest).takeWhile fun c => c != '\n').length
  statements dialect

end Parser

/-- The syntax tree of a script. -/
def parse (dialect : Dialect) (source : String) : Node :=
  let s := (Parser.script dialect { rest := source.toList }).2
  .mk { kind := .phrase, start := .start, ending := s.position.offset } s.trees.reverse

end KeyRegistry.Script

import KeyRegistry.Pattern
import KeyRegistry.Script.Parse
import KeyRegistry.Text.Literal

/-!
# Marker calls

A marker call is a call of a function with one of some names whose first argument is a text. The
text, decoded, is a pattern. What is called must be a plain name; a text that cannot be decoded
makes no pattern.

A query finds the calls of plain names in a syntax tree, once for each text among the arguments.
Which names are markers and which text comes first is looked at afterwards: comments are nodes among
the arguments, and what stands behind them may still be the first argument.

Main definitions:

* `Query` — what is asked of a node and of its children
* `markerQuery` — the calls of plain names with a text among the arguments
* `MarkerCall` — a marker call
* `Extraction` — the marker calls of a source
-/

namespace KeyRegistry.Script

/-! ## Queries -/

/-- A query asks for a kind of node, maybe in a certain part of the node above, and for children of
it that match other queries, in this order. What matches is captured under a number, if there is
one. -/
inductive Query where
  | mk (kind : Kind) (field : Option Field) (capture : Option Nat) (children : List Query)

/-- The nodes that a match has captured, with their numbers. -/
abbrev Captures := List (Nat × Handle)

/-- The members of a list, each with those behind it. -/
def splits {α : Type} : List α → List (α × List α)
  | [] => []
  | a :: behind => (a, behind) :: splits behind

namespace Query

mutual

/-- All matches of a query with a node. -/
def results : Query → Handle → List Captures
  | mk kind field capture children, handle =>
    if handle.node.kind = kind ∧ (field = none ∨ handle.node.field = field) then
      (resultsAmong children handle.children).map ((capture.map (·, handle)).toList ++ ·)
    else []

/-- All matches of some queries with nodes of a list, in order. -/
def resultsAmong : List Query → List Handle → List Captures
  | [], _ => [[]]
  | query :: queries, handles =>
    (splits handles).flatMap fun (handle, behind) =>
      (query.results handle).flatMap fun found =>
        (resultsAmong queries behind).map (found ++ ·)

end

end Query

/-- The number under which what is called is captured. -/
def calleeCapture : Nat := 0

/-- The number under which a text among the arguments is captured. -/
def argumentCapture : Nat := 1

/-- Asks for calls of plain names with a text among the arguments. -/
def markerQuery : Query :=
  .mk .call none none [
    .mk .identifier (some .function) (some calleeCapture) [],
    .mk .arguments (some .arguments) none [.mk .string none (some argumentCapture) []]]

/-- What a match has captured under a number. -/
def Captures.at? (captures : Captures) (number : Nat) : Option Handle :=
  (captures.reverse.lookup number)

/-! ## Calls -/

/-- Whether a node is the first argument of its call, whatever comments there are. -/
def Handle.isFirstArgument (root : Node) (handle : Handle) : Bool :=
  match handle.parent? root with
  | none => false
  | some arguments =>
    ((arguments.children.filter (·.node.kind.isNamed)).find? (·.node.kind != .comment)).any
      (·.place == handle.place)

/-- A marker call: the name of the function, the pattern, and where its text stands. -/
structure MarkerCall where
  callee : String
  pattern : Pattern
  location : Location
  deriving DecidableEq

/-- The marker call that a match stands for, given the names of marker functions. -/
def MarkerCall.ofMatch? (root : Node) (source : String) (markers : List String)
    (captures : Captures) : Option MarkerCall := do
  let callee ← captures.at? calleeCapture
  let argument ← captures.at? argumentCapture
  if argument.isFirstArgument root then
    let name ← callee.node.text? source
    if markers.contains name then
      let raw ← argument.node.text? source
      let value ← Text.decodeLiteral raw
      some ⟨name, ⟨value⟩, Location.ofPosition argument.node.start⟩
    else none
  else none

/-- The marker calls of a source. -/
structure Extraction where
  /-- The calls in source order. -/
  calls : List MarkerCall
  /-- Whether something in the source is wrong. -/
  isFlawed : Bool

/-- Finds the marker calls of a source in its syntax tree. -/
def Extraction.ofTree (root : Node) (source : String) (markers : List String) : Extraction :=
  let found := (root.located.flatMap markerQuery.results).filterMap
    (MarkerCall.ofMatch? root source markers)
  ⟨found.mergeSort fun a b => a.location.offset ≤ b.location.offset, root.hasError⟩

/-- Finds the marker calls of a source. -/
def Extraction.of (dialect : Dialect) (source : String) (markers : List String) : Extraction :=
  .ofTree (parse dialect source) source markers

end KeyRegistry.Script

import KeyRegistry.Path

/-!
# Syntax trees

What a script is written in, where something stands in it, and the tree that a parser makes of it.

Main definitions:

* `Dialect`, `Position`, `Location`
* `Node` — a node of a syntax tree: its kind, its part in the node above, and where it stands
* `Handle` — a node with its place in the tree
* `Node.located`, `Node.hasError` — all nodes of a tree, and whether something in it is wrong
-/

namespace KeyRegistry.Script

/-!
## Dialects

There are two dialects of scripts. They differ in what an opening angle bracket means in front of
an expression: a type assertion in the one, an element in the other. The extension of a file
decides.
-/

/-- What an angle bracket in front of an expression means. -/
inductive Dialect where
  /-- Type assertions. -/
  | typed
  /-- Elements. -/
  | elements
  deriving DecidableEq, Repr

/-- The dialect of a file. -/
def Dialect.ofPath (path : Path) : Dialect :=
  match path.extension? with
  | some "ts" | some "mts" | some "cts" => .typed
  | _ => .elements

/-!
## Positions and locations

A parser counts rows, columns and bytes from zero while it reads; each of the three is kept by
itself. A location is what is shown of a position: its lines are counted from one.
-/

/-- Where a parser stands in a source. -/
structure Position where
  row : Nat
  /-- The number of bytes behind the start of the row. -/
  column : Nat
  /-- The number of bytes behind the start of the source. -/
  offset : Nat
  deriving DecidableEq, Repr

namespace Position

/-- The start of a source. -/
def start : Position := ⟨0, 0, 0⟩

/-- The position behind a character. Only a line feed ends a row. -/
def advance (p : Position) (c : Char) : Position :=
  if c = '\n' then ⟨p.row + 1, 0, p.offset + c.utf8Size⟩
  else ⟨p.row, p.column + c.utf8Size, p.offset + c.utf8Size⟩

end Position

/-- A place in a source, as it is shown. -/
structure Location where
  line : Nat
  column : Nat
  offset : Nat
  deriving DecidableEq, Repr

namespace Location

/-- The location of a position. -/
def ofPosition (p : Position) : Location :=
  ⟨p.row + 1, p.column, p.offset⟩

/-- The line and the column, as they are shown. -/
def text (l : Location) : String :=
  toString l.line ++ ":" ++ toString l.column

end Location

/-!
## Nodes

A syntax tree keeps everything that a parser has read but white space: the signs, the comments
between them, and the parts that fit no rule. Comments stand in the tree where they stand in the
source.
-/

/-- The kinds of nodes. -/
inductive Kind where
  /-- A name that stands for a variable. -/
  | identifier
  /-- A text literal, with its quotes. -/
  | string
  /-- A comment. -/
  | comment
  /-- A comment in the manner of markup, up to the end of its line. It is a kind of its own. -/
  | markupComment
  /-- A sign, or a word that belongs to the grammar. -/
  | sign
  /-- Any other word. -/
  | other
  /-- A call: what is called, type arguments if there are any, and the arguments. -/
  | call
  /-- The arguments of a call, with their brackets and commas. -/
  | arguments
  /-- Any other compound part. -/
  | phrase
  /-- What fits no rule of the grammar. -/
  | error
  deriving DecidableEq, Repr

/-- Whether nodes of a kind have a name in the grammar. -/
def Kind.isNamed (kind : Kind) : Bool :=
  kind != .sign

/-- Whether nodes of a kind may stand anywhere between others. -/
def Kind.isExtra (kind : Kind) : Bool :=
  kind == .comment || kind == .markupComment

/-- The parts that a node may play in the node above it. -/
inductive Field where
  /-- What is called. -/
  | function
  /-- What it is called with. -/
  | arguments
  deriving DecidableEq, Repr

/-- What a node says of itself. -/
structure Label where
  kind : Kind
  field : Option Field := none
  /-- Whether the source lacks the node, and the parser has put it in. -/
  isMissing : Bool := false
  start : Position
  /-- The byte offset behind the node. -/
  ending : Nat
  deriving DecidableEq, Repr

/-- A node of a syntax tree, with the nodes that it consists of. -/
inductive Node where
  | mk (label : Label) (children : List Node)
  deriving Repr

namespace Node

/-- What a node says of itself. -/
def label : Node → Label
  | mk label _ => label

/-- The nodes that a node consists of. -/
def children : Node → List Node
  | mk _ children => children

/-- The kind of a node. -/
def kind (node : Node) : Kind :=
  node.label.kind

/-- The part of a node in the node above it. -/
def field (node : Node) : Option Field :=
  node.label.field

/-- Where a node starts. -/
def start (node : Node) : Position :=
  node.label.start

/-- The byte offset behind a node. -/
def ending (node : Node) : Nat :=
  node.label.ending

/-- A node without others in it. -/
def leaf (label : Label) : Node :=
  mk label []

/-- A node in a part that it plays. -/
def inField (field : Field) : Node → Node
  | mk label children => mk { label with field := some field } children

/-- The node of a tree at a place, which lists the numbers of the children on the way down. -/
def at? : Node → List Nat → Option Node
  | node, [] => some node
  | mk _ children, i :: place => children[i]?.bind fun child => child.at? place

/-- The text of a node: the bytes of the source between its offsets, if they make up a text. -/
def text? (source : String) (node : Node) : Option String :=
  if node.start.offset ≤ node.ending ∧ node.ending ≤ source.utf8ByteSize then
    String.fromUTF8? (source.toUTF8.extract node.start.offset node.ending)
  else none

end Node

/-- A node and its place in the tree, which tells it from all others. -/
structure Handle where
  place : List Nat
  node : Node

namespace Handle

/-- The handle in a tree above, of which the tree at hand is a child. -/
def below (i : Nat) (handle : Handle) : Handle :=
  { handle with place := i :: handle.place }

/-- The children of a node. -/
def children (handle : Handle) : List Handle :=
  handle.node.children.mapIdx fun i child => ⟨handle.place ++ [i], child⟩

/-- The node above a node. -/
def parent? (root : Node) (handle : Handle) : Option Handle :=
  if handle.place.isEmpty then none
  else (root.at? handle.place.dropLast).map (⟨handle.place.dropLast, ·⟩)

end Handle

namespace Node

mutual

/-- All nodes of a tree, each in front of those inside it. -/
def located : Node → List Handle
  | mk label children => ⟨[], mk label children⟩ :: locatedFrom 0 children

/-- All nodes of some trees, given the number of the first tree. -/
def locatedFrom (first : Nat) : List Node → List Handle
  | [] => []
  | tree :: trees => tree.located.map (·.below first) ++ locatedFrom (first + 1) trees

end

/-- Whether something in a tree fits no rule of the grammar or had to be put in. -/
def hasError (root : Node) : Bool :=
  root.located.any fun handle => handle.node.kind == .error || handle.node.label.isMissing

end Node

end KeyRegistry.Script

namespace KeyRegistry

/-!
## Errors of the script reader

Reading recovers from anything that stands in a source, so an error says that the reader itself
could not work.
-/

/-- Why a source could not be read as a script. -/
inductive ScriptError where
  | grammarUnavailable
  | noTree
  deriving DecidableEq

namespace ScriptError

/-- The words for an error. -/
def message : ScriptError → String
  | .grammarUnavailable => "failed to set TypeScript language"
  | .noTree => "failed to parse source code"

/-- Whether only one file is concerned. -/
def isRecoverable : ScriptError → Bool
  | .grammarUnavailable => false
  | .noTree => true

end ScriptError

end KeyRegistry

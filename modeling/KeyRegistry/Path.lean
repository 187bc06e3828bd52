import KeyRegistry.Text.Pieces

/-!
# Paths

A path is kept as it is written; slashes separate its components. Empty components and single
dots say nothing and are skipped, except for a single dot that opens a relative path. Two
spellings are the same path when their components agree.

A *route* is a path without detours: a list of names, counted from the top directory or from
some directory left open. Absolutizing a path leads along its components and ends in a route:
a double dot takes back the name before it, and stays where it is at the start.

Main definitions:

* `Path.components`, `Path.join`, `Path.parent?`, `Path.relativeTo?`
* `Path.absolutize` — the route of a path seen from a base
-/

namespace KeyRegistry

/-- A path as it is written. -/
structure Path where
  text : String
  deriving DecidableEq, Repr

/-- One step of a path. -/
inductive Path.Component where
  | top
  | here
  | up
  | name (text : String)
  deriving DecidableEq, Repr

/-- A path without detours: names counted from the top directory, or from a directory left
open. -/
structure Route where
  rooted : Bool
  names : List String
  deriving DecidableEq, Repr

namespace Route

/-- The written form of a route. -/
def toPath (r : Route) : Path :=
  ⟨(if r.rooted then "/" else "") ++ Text.joinAll '/' r.names⟩

/-- Follows one component. -/
def follow (r : Route) : Path.Component → Route
  | .top => ⟨true, []⟩
  | .here => r
  | .up => { r with names := r.names.dropLast }
  | .name text => { r with names := r.names ++ [text] }

/-- The place where paths start when nothing is known. -/
def start : Route :=
  ⟨false, []⟩

end Route

namespace Path

/-- Whether a path is counted from the top directory. -/
def isAbsolute (p : Path) : Bool :=
  p.text.toList.head? = some '/'

/-- What a piece between slashes says; nothing for an empty piece and a single dot. -/
def Component.ofPiece? (piece : String) : Option Component :=
  if piece = "" ∨ piece = "." then none
  else if piece = ".." then some .up
  else some (.name piece)

/-- A path taken apart: the component that opens it, if it is not a name, and the pieces that
follow. -/
def split (p : Path) : Option Component × List String :=
  match Text.piecesOf '/' p.text with
  | "" :: rest => if p.isAbsolute then (some .top, rest) else (none, rest)
  | "." :: rest => (some .here, rest)
  | all => (none, all)

/-- The components of a path. -/
def components (p : Path) : List Component :=
  p.split.1.toList ++ p.split.2.filterMap Component.ofPiece?

/-- Whether two spellings have the same components. -/
def same (p q : Path) : Bool :=
  p.components = q.components

/-- The second path seen from the first: an absolute path stands for itself, another one is
appended after a slash. -/
def join (base p : Path) : Path :=
  if p.isAbsolute then p
  else if base.text.isEmpty || base.text.toList.getLast? = some '/' then ⟨base.text ++ p.text⟩
  else ⟨base.text ++ "/" ++ p.text⟩

/-- Whether a piece between slashes says nothing. -/
def isIdle (piece : String) : Bool :=
  piece == "" || piece == "."

/-- Drops idle pieces at the end. -/
def trimEnd (pieces : List String) : List String :=
  (pieces.reverse.dropWhile isIdle).reverse

/-- Writes a path that was taken apart. -/
def assemble : Option Component → List String → Path
  | some .top, pieces => ⟨"/" ++ Text.joinAll '/' pieces⟩
  | some .here, [] => ⟨"."⟩
  | some .here, pieces => ⟨"./" ++ Text.joinAll '/' pieces⟩
  | _, pieces => ⟨Text.joinAll '/' pieces⟩

/-- The path without its last component, as far as it is written; the top directory and the
empty path have none. -/
def parent? (p : Path) : Option Path :=
  let (lead, pieces) := p.split
  match trimEnd pieces with
  | [] => if lead = some .here then some ⟨""⟩ else none
  | kept => some (assemble lead (trimEnd kept.dropLast))

/-- A path and the paths above it, nearest first, for a bound on their number. -/
def lineageWithin : Nat → Path → List Path
  | 0, p => [p]
  | bound + 1, p =>
    match p.parent? with
    | some above => p :: lineageWithin bound above
    | none => [p]

/-- A path and the paths above it, nearest first. -/
def lineage (p : Path) : List Path :=
  lineageWithin p.components.length p

/-- Drops pieces up to and including the given number of those that say something. -/
def dropSteps : Nat → List String → List String
  | 0, pieces => pieces
  | _ + 1, [] => []
  | count + 1, piece :: rest =>
    if isIdle piece then dropSteps (count + 1) rest else dropSteps count rest

/-- What follows a path that leads to this one, as far as it is written. -/
def relativeTo? (p base : Path) : Option Path :=
  let (lead, pieces) := p.split
  let steps := base.components.length
  if base.components.isPrefixOf p.components then
    if steps = 0 then some (assemble lead (trimEnd pieces))
    else
      let rest := dropSteps (steps - lead.toList.length) pieces
      some (assemble none (trimEnd (rest.dropWhile isIdle)))
  else none

/-- The route that a path leads along, from nowhere. -/
def route (p : Path) : Route :=
  p.components.foldl Route.follow Route.start

/-- The route of a path seen from a base. -/
def absolutize (base p : Path) : Route :=
  (if p.isAbsolute then p else base.join p).route

/-- The names of a path, in order. -/
def names (p : Path) : List String :=
  p.components.filterMap fun
    | .name text => some text
    | _ => none

/-- The last component, if it is a name. -/
def fileName? (p : Path) : Option String :=
  match p.components.getLast? with
  | some (.name text) => some text
  | _ => none

/-- What follows the last dot of the file name, unless the dot opens the name. -/
def extension? (p : Path) : Option String := do
  let name ← p.fileName?
  let pieces := Text.piecesOf '.' name
  if pieces.length ≤ 1 ∨ pieces.dropLast = [""] then none else pieces.getLast?

theorem isAbsolute_eq_true_iff {p : Path} :
    p.isAbsolute = true ↔ ∃ rest, p.text.toList = '/' :: rest := by
  cases h : p.text.toList <;> simp [isAbsolute, h, eq_comm]

end Path

end KeyRegistry

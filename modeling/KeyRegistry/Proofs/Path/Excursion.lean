import KeyRegistry.Proofs.Path.Reduction

/-!
# Excursions

A path that is left open is followed from some directory, and its steps up may lead out of it.
Whatever detours it makes, in the end it has climbed out of a number of directories and gone along
some names from there. So it ends below the directory that it started from exactly if it comes back
by the names of the directories that it climbed out of, and goes on.

What stands behind a base in an absolute path is such a path. It is cut off as it is written, but
nothing is lost: it leads from the base to where the absolute path leads.

Main definitions:

* `Route.IsBelow` — a route goes on behind another one
* `Excursion`, `Path.excursion` — how far a path climbs, and the names it goes along then
* `Excursion.Returns` — an excursion ends below where it started

Main statements:

* `Path.absolutize_excursion` — where a path leads is where its excursion leads
* `Path.steps_relativeTo?` — what is cut off a path goes on behind the base
* `Excursion.isBelow_route_iff` — an excursion ends below its base if it returns
-/

namespace KeyRegistry

open KeyRegistry.Path

/-- A route lies below another one if it goes on behind it. -/
def Route.IsBelow (r base : Route) : Prop :=
  ∃ more, more ≠ [] ∧ r = { base with names := base.names ++ more }

/-- A way out of a directory: up through a number of directories, and along some names from there.
-/
structure Excursion where
  climbed : Nat
  names : List String
  deriving DecidableEq, Repr

namespace Excursion

variable {e : Excursion} {base : Route}

/-- Follows one component. A step up takes back a name, and climbs if there is none. -/
def follow (e : Excursion) : Component → Excursion
  | .top | .here => e
  | .up => if e.names = [] then ⟨e.climbed + 1, []⟩ else ⟨e.climbed, e.names.dropLast⟩
  | .name text => ⟨e.climbed, e.names ++ [text]⟩

/-- Where an excursion leads from a base. -/
def route (e : Excursion) (base : Route) : Route :=
  { base with names := base.names.take (base.names.length - e.climbed) ++ e.names }

/-- An excursion returns to a base if it comes back by the names that it climbed out of, and goes
on. -/
def Returns (e : Excursion) (base : Route) : Prop :=
  ∃ more, more ≠ [] ∧ e.names = base.names.drop (base.names.length - e.climbed) ++ more

/-- An excursion goes along with its route. -/
theorem follow_route {component : Component} (hInside : component ≠ .top) :
    (e.route base).follow component = (e.follow component).route base := by
  cases component with
  | top => exact absurd rfl hInside
  | here => rfl
  | name text => simp [route, follow, Route.follow, List.append_assoc]
  | up =>
    by_cases hNames : e.names = []
    · -- the name that is taken back is one of the base, as long as there are any
      have hClimb : base.names.length - e.climbed - 1 = base.names.length - (e.climbed + 1) := by
        omega
      simp [route, follow, Route.follow, hNames, List.dropLast_eq_take, List.take_take, ← hClimb]
    · simp [route, follow, Route.follow, hNames, List.dropLast_append_of_ne_nil]

theorem foldl_follow_route {components : List Component}
    (hInside : ∀ component ∈ components, component ≠ .top) :
    components.foldl Route.follow (e.route base) =
      (components.foldl follow e).route base := by
  induction components generalizing e with
  | nil => rfl
  | cons component components ih =>
    rw [List.forall_mem_cons] at hInside
    rw [List.foldl_cons, follow_route hInside.1, ih hInside.2, List.foldl_cons]

/-- An excursion ends below its base exactly if it returns to it. -/
theorem isBelow_route_iff : (e.route base).IsBelow base ↔ e.Returns base := by
  refine exists_congr fun more => and_congr_right fun _ => ?_
  have hBase : base.names ++ more = base.names.take (base.names.length - e.climbed) ++
      (base.names.drop (base.names.length - e.climbed) ++ more) := by
    rw [← List.append_assoc, List.take_append_drop]
  rw [route, hBase, Route.mk.injEq, and_iff_right rfl, List.append_cancel_left_eq]

/-- An excursion that never climbs ends below its base, or where it started. -/
theorem route_of_inside (h : e.climbed = 0) :
    (e.route base).IsBelow base ∨ e.route base = base := by
  have hRoute : e.route base = { base with names := base.names ++ e.names } := by
    rw [route, h, Nat.sub_zero, List.take_length]
  rw [hRoute]
  by_cases hNames : e.names = []
  · rw [hNames, List.append_nil]
    exact Or.inr rfl
  · exact Or.inl ⟨e.names, hNames, rfl⟩

end Excursion

namespace Path

variable {base p seen : Path} {pieces : List String}

/-! ## The excursion of a path -/

/-- The way that a path leads from where it starts. -/
def excursion (p : Path) : Excursion :=
  p.steps.foldl Excursion.follow ⟨0, []⟩

theorem ne_top_of_mem_steps {component : Component} (h : component ∈ p.steps) :
    component ≠ .top := by
  obtain ⟨piece, -, hPiece⟩ := List.mem_filterMap.mp h
  rintro rfl
  unfold Component.ofPiece? at hPiece
  split at hPiece
  · cases hPiece
  · split at hPiece
    · cases hPiece
    · cases hPiece

/-- The steps of a path lead where its excursion leads. -/
theorem foldl_follow_steps (p : Path) (r : Route) :
    p.steps.foldl Route.follow r = p.excursion.route r := by
  have hStart : r = (⟨0, []⟩ : Excursion).route r := by
    simp [Excursion.route]
  calc p.steps.foldl Route.follow r
      = p.steps.foldl Route.follow ((⟨0, []⟩ : Excursion).route r) := by rw [← hStart]
    _ = p.excursion.route r := Excursion.foldl_follow_route fun _ => ne_top_of_mem_steps

/-- Where an open path leads is where its excursion leads from where the base leads. -/
theorem absolutize_excursion (h : p.isAbsolute = false) :
    absolutize base p = p.excursion.route base.route := by
  rw [absolutize_eq, follow_components, h, ← foldl_follow_steps]
  rfl

/-! ## What stands behind a base -/

theorem ofPiece?_eq_none_iff {piece : String} :
    Component.ofPiece? piece = none ↔ isIdle piece = true := by
  rw [Component.ofPiece?, isIdle, Bool.or_eq_true, beq_iff_eq, beq_iff_eq]
  split
  · next hIdle => exact iff_of_true rfl hIdle
  · next hIdle =>
    refine iff_of_false ?_ hIdle
    split <;> simp

/-- Idle pieces in front say nothing. -/
theorem filterMap_dropWhile (pieces : List String) :
    (pieces.dropWhile isIdle).filterMap Component.ofPiece? =
      pieces.filterMap Component.ofPiece? := by
  induction pieces with
  | nil => rfl
  | cons piece pieces ih =>
    rw [List.dropWhile_cons]
    split
    · next hIdle => rw [ih, List.filterMap_cons_none (ofPiece?_eq_none_iff.mpr hIdle)]
    · rfl

/-- Idle pieces at the end say nothing. -/
theorem filterMap_trimEnd (pieces : List String) :
    (trimEnd pieces).filterMap Component.ofPiece? = pieces.filterMap Component.ofPiece? := by
  rw [trimEnd, List.filterMap_reverse, filterMap_dropWhile, List.filterMap_reverse,
    List.reverse_reverse]

/-- To drop steps is to drop what the pieces say. -/
theorem filterMap_dropSteps (count : Nat) (pieces : List String) :
    (dropSteps count pieces).filterMap Component.ofPiece? =
      (pieces.filterMap Component.ofPiece?).drop count := by
  induction pieces generalizing count with
  | nil => cases count <;> rfl
  | cons piece pieces ih =>
    cases count with
    | zero => rfl
    | succ count =>
      rw [dropSteps]
      split
      · next hIdle => rw [ih, List.filterMap_cons_none (ofPiece?_eq_none_iff.mpr hIdle)]
      · next hBusy =>
        obtain ⟨component, hComponent⟩ :=
          Option.ne_none_iff_exists'.mp (mt ofPiece?_eq_none_iff.mp hBusy)
        rw [ih, List.filterMap_cons_some hComponent, List.drop_succ_cons]

/-- Pieces that start with one that says something are written as an open path that says what they
say. -/
theorem steps_joinAll (hSlash : ∀ piece ∈ pieces, '/' ∉ piece.toList)
    (hHead : ∀ piece, pieces.head? = some piece → isIdle piece = false) :
    (⟨Text.joinAll '/' pieces⟩ : Path).isAbsolute = false ∧
      (⟨Text.joinAll '/' pieces⟩ : Path).steps = pieces.filterMap Component.ofPiece? := by
  by_cases hNone : pieces = []
  · rw [hNone]
    decide
  · have hPieces : Text.piecesOf '/' (Text.joinAll '/' pieces) = pieces :=
      Text.piecesOf_joinAll hNone hSlash
    refine ⟨?_, by rw [steps, hPieces]⟩
    rw [Bool.eq_false_iff]
    intro hAbsolute
    -- a path from the top would start with an empty piece
    obtain ⟨rest, hRest⟩ := piecesOf_of_isAbsolute hAbsolute
    rw [hPieces] at hRest
    have hIdle := hHead "" (by rw [hRest]; rfl)
    cases hIdle

/-- What is left when idle pieces are dropped at both ends starts with a piece that says something.
-/
theorem head?_trimEnd {piece : String}
    (h : (trimEnd (pieces.dropWhile isIdle)).head? = some piece) : isIdle piece = false := by
  have hKept : trimEnd (pieces.dropWhile isIdle) <+: pieces.dropWhile isIdle := by
    rw [← List.reverse_suffix, trimEnd, List.reverse_reverse]
    exact List.dropWhile_suffix isIdle
  obtain ⟨dropped, hDropped⟩ := hKept
  have hHead : (pieces.dropWhile isIdle).head? = some piece := by
    rw [← hDropped, List.head?_append, h]
    rfl
  have hBusy := List.head?_dropWhile_not isIdle pieces
  rw [hHead] at hBusy
  simpa using hBusy

theorem mem_of_mem_dropSteps {count : Nat} {piece : String} (h : piece ∈ dropSteps count pieces) :
    piece ∈ pieces := by
  induction pieces generalizing count with
  | nil => cases count <;> cases h
  | cons first pieces ih =>
    cases count with
    | zero => exact h
    | succ count =>
      rw [dropSteps] at h
      split at h
      · exact List.mem_cons_of_mem first (ih h)
      · exact List.mem_cons_of_mem first (ih h)

/-- A path from the top, taken apart. -/
theorem split_of_isAbsolute (h : p.isAbsolute = true) :
    ∃ pieces, p.split = (some .top, pieces) ∧ p.components = .top :: p.steps ∧
      p.steps = pieces.filterMap Component.ofPiece? := by
  obtain ⟨rest, hPieces⟩ := piecesOf_of_isAbsolute h
  have hEmpty : Component.ofPiece? "" = none := by decide
  have hSplit : p.split = (some .top, rest) := by
    rw [split, hPieces]
    simp only [h, if_true]
  refine ⟨rest, hSplit, ?_, ?_⟩
  · rcases components_cases p with ⟨-, hComponents⟩ | ⟨hOpen, -⟩
    · exact hComponents
    · rw [h] at hOpen
      cases hOpen
  · rw [steps, hPieces, List.filterMap_cons_none hEmpty]

/-- What stands behind a base is left open, and its steps follow those of the base. -/
theorem steps_relativeTo? (hBase : base.isAbsolute = true) (hPath : p.isAbsolute = true)
    (h : p.relativeTo? base = some seen) :
    seen.isAbsolute = false ∧ p.steps = base.steps ++ seen.steps := by
  obtain ⟨-, -, hBaseComponents, -⟩ := split_of_isAbsolute hBase
  obtain ⟨pieces, hSplit, hComponents, hSteps⟩ := split_of_isAbsolute hPath
  have hSlash := (split_cases p).2
  rw [relativeTo?, hSplit, hBaseComponents, hComponents] at h
  rw [hSplit] at hSlash
  dsimp only at h hSlash
  split at h
  · next hPrefix =>
    rw [List.isPrefixOf_iff_prefix, List.cons_prefix_cons, and_iff_right rfl] at hPrefix
    rw [if_neg (by simp)] at h
    -- the top directory is no piece, so one step less is dropped
    have hCount : (Component.top :: base.steps).length - (some Component.top).toList.length =
        base.steps.length := by simp
    rw [hCount] at h
    obtain rfl : _ = seen := Option.some.inj h
    have hKept : ∀ piece ∈ trimEnd ((dropSteps base.steps.length pieces).dropWhile isIdle),
        '/' ∉ piece.toList := by
      intro piece hMem
      rw [trimEnd, List.mem_reverse] at hMem
      have hRest := List.mem_reverse.mp ((List.dropWhile_sublist isIdle).subset hMem)
      exact hSlash piece (mem_of_mem_dropSteps ((List.dropWhile_sublist isIdle).subset hRest))
    obtain ⟨hOpen, hSeen⟩ := steps_joinAll hKept fun piece => head?_trimEnd
    refine ⟨hOpen, ?_⟩
    rw [filterMap_trimEnd, filterMap_dropWhile, filterMap_dropSteps, ← hSteps] at hSeen
    obtain ⟨rest, hRest⟩ := hPrefix
    rw [← hRest, List.drop_left] at hSeen
    exact hRest.symm.trans (congrArg (base.steps ++ ·) hSeen.symm)
  · cases h

end Path

end KeyRegistry

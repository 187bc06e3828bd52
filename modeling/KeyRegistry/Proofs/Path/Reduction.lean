import Mathlib.Data.List.Induction
import Mathlib.Logic.Relation
import KeyRegistry.Guard
import KeyRegistry.Proofs.Path.Route

/-!
# Absolutizing reduces a path

Absolutizing follows a path from a base and forgets the detours. Said without following anything, a
detour is something that can be struck out of the components: a dot, a name with a step up behind
it, a step up that has nowhere to go, whatever stands in front of the top directory. What is left
when nothing more can be struck out is the absolutized path, whichever detours are struck out first.

Following a path goes on where it has got to, so absolutizing goes along with joining: a path that
continues another one can be seen from where the first one leads.

Main definitions:

* `Component.Shortens`, `Component.Reduces` — a detour is struck out, some detours are struck out

Main statements:

* `Path.absolutize_eq` — absolutizing follows the path from where the base leads
* `Component.Reduces.follow` — where a path leads does not depend on its detours
* `Path.reduces_absolutize_iff` — what is left of a path when no detour is left
* `Path.absolutize_normalises` — the laws of absolutizing
-/

namespace KeyRegistry

open KeyRegistry.Path

namespace Text

variable {α : Type} [DecidableEq α]

/-- The pieces of two texts with a separator between them. -/
theorem pieces_append_separator (separator : α) (front back : List α) :
    pieces separator (front ++ separator :: back) =
      pieces separator front ++ pieces separator back := by
  induction front with
  | nil => simp [pieces]
  | cons c front ih =>
    rw [List.cons_append, pieces, pieces, ih]
    split
    · rfl
    · cases hPieces : pieces separator front with
      | nil => exact absurd hPieces (pieces_ne_nil separator front)
      | cons => rfl

end Text

/-! ## Following the pieces of a path -/

namespace Path

variable {base p q : Path} {r : Route}

/-- What the pieces of a path say, one after the other. -/
def steps (p : Path) : List Component :=
  (Text.piecesOf '/' p.text).filterMap Component.ofPiece?

/-- A path from the top starts with an empty piece. -/
theorem piecesOf_of_isAbsolute (h : p.isAbsolute = true) :
    ∃ rest, Text.piecesOf '/' p.text = "" :: rest := by
  obtain ⟨chars, hText⟩ := isAbsolute_eq_true_iff.mp h
  rw [Text.piecesOf, hText, Text.pieces, if_pos rfl]
  exact ⟨_, rfl⟩

/-- The components of a path are the steps that its pieces say, behind the top directory if the path
is counted from there, but for a dot that may open them. -/
theorem components_cases (p : Path) :
    p.isAbsolute = true ∧ p.components = .top :: p.steps ∨
      p.isAbsolute = false ∧ (p.components = p.steps ∨ p.components = .here :: p.steps) := by
  -- neither a lone dot nor an empty piece is a step, so that only the head is in question
  have hHere : Component.ofPiece? "." = none := by decide
  have hEmpty : Component.ofPiece? "" = none := by decide
  unfold components steps split
  cases hAbsolute : p.isAbsolute with
  | true =>
    obtain ⟨rest, hPieces⟩ := piecesOf_of_isAbsolute hAbsolute
    rw [hPieces, List.filterMap_cons_none hEmpty]
    exact Or.inl ⟨rfl, rfl⟩
  | false =>
    refine Or.inr ⟨rfl, ?_⟩
    split
    · next rest hPieces =>
      rw [hPieces, List.filterMap_cons_none hEmpty]
      exact Or.inl rfl
    · next rest hPieces =>
      rw [hPieces, List.filterMap_cons_none hHere]
      exact Or.inr rfl
    · exact Or.inl rfl

/-- A path from the top leads wherever it leads, whatever was followed before it. -/
theorem follow_components (p : Path) (r : Route) :
    p.components.foldl Route.follow r =
      p.steps.foldl Route.follow (if p.isAbsolute then ⟨true, []⟩ else r) := by
  rcases components_cases p with ⟨hAbsolute, hComponents⟩ | ⟨hOpen, hComponents | hComponents⟩
  · rw [hComponents, hAbsolute]
    rfl
  · rw [hComponents, hOpen]
    rfl
  · rw [hComponents, hOpen]
    rfl

/-! ## Following a joined path -/

theorem join_of_isAbsolute (h : p.isAbsolute = true) : base.join p = p := by
  rw [join, if_pos h]

/-- The steps of a path that continues another one come behind those of the other one. -/
theorem steps_join (h : p.isAbsolute = false) : (base.join p).steps = base.steps ++ p.steps := by
  have hSteps : ∀ chars : List Char, steps ⟨String.ofList chars⟩ =
      ((Text.pieces '/' chars).map String.ofList).filterMap Component.ofPiece? := by
    intro chars
    rw [steps, Text.piecesOf, String.toList_ofList]
  have hWritten : ∀ p : Path, p = ⟨String.ofList p.text.toList⟩ := by
    intro p
    rw [String.ofList_toList]
  -- a slash between two texts keeps their pieces apart
  have hApart : ∀ front back : List Char, steps ⟨String.ofList (front ++ '/' :: back)⟩ =
      steps ⟨String.ofList front⟩ ++ steps ⟨String.ofList back⟩ := by
    intro front back
    rw [hSteps, hSteps, hSteps, Text.pieces_append_separator, List.map_append,
      List.filterMap_append]
  have hNothing : steps ⟨""⟩ = [] := by decide
  rw [join, h, if_neg (by simp)]
  split
  · next hNoSlash =>
    rw [Bool.or_eq_true, String.isEmpty_iff, decide_eq_true_iff] at hNoSlash
    rcases hNoSlash with hEmpty | hSlash
    · have hBase : base = ⟨""⟩ := by
        rw [← hEmpty]
      rw [hBase, hNothing, List.nil_append, String.empty_append]
    · -- the base ends in a slash, which says nothing
      obtain ⟨front, hFront⟩ := List.getLast?_eq_some_iff.mp hSlash
      have hBase : base.steps = steps ⟨String.ofList front⟩ := by
        rw [hWritten base, hFront, hApart]
        exact (congrArg _ hNothing).trans (List.append_nil _)
      have hJoined : (⟨base.text ++ p.text⟩ : Path) =
          ⟨String.ofList (front ++ '/' :: p.text.toList)⟩ := by
        rw [Path.mk.injEq, ← String.toList_inj, String.toList_append, hFront, String.toList_ofList]
        simp
      rw [hJoined, hApart, ← hBase, ← hWritten p]
  · have hJoined : (⟨base.text ++ "/" ++ p.text⟩ : Path) =
        ⟨String.ofList (base.text.toList ++ '/' :: p.text.toList)⟩ := by
      rw [Path.mk.injEq, ← String.toList_inj, String.toList_ofList]
      simp
    rw [hJoined, hApart, ← hWritten base, ← hWritten p]

theorem isAbsolute_join_of_open (h : p.isAbsolute = false) :
    (base.join p).isAbsolute = base.isAbsolute := by
  rw [join, h, if_neg (by simp)]
  by_cases hEmpty : base.text = ""
  · have hBase : base = ⟨""⟩ := by
      rw [← hEmpty]
    rw [hBase, if_pos (by simp), String.empty_append]
    exact h
  · -- a text with a first character keeps it when something is appended
    obtain ⟨c, chars, hText⟩ := List.exists_cons_of_ne_nil (mt String.toList_eq_nil_iff.mp hEmpty)
    split <;> simp [isAbsolute, hText]

/-- A joined path leads where its end leads from where its start leads. -/
theorem follow_join (base p : Path) (r : Route) :
    (base.join p).components.foldl Route.follow r =
      p.components.foldl Route.follow (base.components.foldl Route.follow r) := by
  cases hAbsolute : p.isAbsolute with
  | true =>
    rw [join_of_isAbsolute hAbsolute, follow_components p, follow_components p, hAbsolute]
    rfl
  | false =>
    rw [follow_components, follow_components p, follow_components base, steps_join hAbsolute,
      isAbsolute_join_of_open hAbsolute, List.foldl_append, hAbsolute]
    rfl

/-- Absolutizing follows the path from where the base leads. -/
theorem absolutize_eq (base p : Path) :
    absolutize base p = p.components.foldl Route.follow base.route := by
  have hJoin : (if p.isAbsolute then p else base.join p) = base.join p := by
    split
    · next hAbsolute => exact (join_of_isAbsolute hAbsolute).symm
    · rfl
  rw [absolutize, hJoin]
  exact follow_join base p Route.start

/-- What the absolutized path leads to is the route that was followed. -/
theorem route_absolutize (base p : Path) : (absolutize base p).toPath.route = absolutize base p :=
  Route.route_toPath (route_names _)

/-- A path that continues another one can be seen from where that one leads. -/
theorem absolutize_join (base p q : Path) :
    absolutize base (p.join q) = absolutize (absolutize base p).toPath q := by
  rw [absolutize_eq base (p.join q), follow_join, ← absolutize_eq base p, absolutize_eq _ q,
    route_absolutize]

/-- An absolutized path is absolute if one of the two paths is. -/
theorem absolutize_rooted (h : base.isAbsolute = true ∨ p.isAbsolute = true) :
    (absolutize base p).rooted = true := by
  rcases h with hBase | hPath
  · rw [absolutize_eq]
    exact foldl_follow_rooted (route_rooted hBase)
  · rw [absolutize, if_pos hPath]
    exact route_rooted hPath

theorem components_absolutize (base p : Path) : (absolutize base p).toPath.components =
    (if (absolutize base p).rooted then [.top] else []) ++
      (absolutize base p).names.map Component.name :=
  Route.components_toPath (route_names _)

end Path

/-! ## Striking out detours -/

namespace Path.Component

variable {components shorter stack front back : List Component} {r : Route}

/-- A detour is struck out. -/
inductive Shortens : List Component → List Component → Prop
  | here (front back : List Component) : Shortens (front ++ .here :: back) (front ++ back)
  | turn (front : List Component) (text : String) (back : List Component) :
      Shortens (front ++ .name text :: .up :: back) (front ++ back)
  /-- At the top directory a step up goes nowhere. -/
  | upAtTop (front back : List Component) :
      Shortens (front ++ .top :: .up :: back) (front ++ .top :: back)
  /-- At the start of a path that is left open a step up goes nowhere. -/
  | upAtStart (back : List Component) : Shortens (.up :: back) back
  /-- Whatever stands in front of the top directory does not matter. -/
  | restart (front : List Component) (component : Component) (back : List Component) :
      Shortens (front ++ component :: .top :: back) (front ++ .top :: back)

/-- Some detours are struck out, one after the other. -/
abbrev Reduces : List Component → List Component → Prop :=
  Relation.ReflTransGen Shortens

/-- Striking out a detour does not change where the components lead. -/
theorem Shortens.follow (h : Shortens components shorter) :
    components.foldl Route.follow Route.start = shorter.foldl Route.follow Route.start := by
  -- behind the detour one is where one was before it
  cases h with
  | here front back => rw [List.foldl_append, List.foldl_append]; rfl
  | turn front text back =>
    rw [List.foldl_append, List.foldl_append]
    simp [Route.follow]
  | upAtTop front back => rw [List.foldl_append, List.foldl_append]; rfl
  | upAtStart back => rfl
  | restart front component back => rw [List.foldl_append, List.foldl_append]; rfl

/-- Where components lead does not depend on their detours. -/
theorem Reduces.follow (h : Reduces components shorter) :
    components.foldl Route.follow Route.start = shorter.foldl Route.follow Route.start := by
  induction h with
  | refl => rfl
  | tail _ hLast ih => rw [ih, hLast.follow]

/-- The components of a route. -/
def ofRoute (r : Route) : List Component :=
  (if r.rooted then [.top] else []) ++ r.names.map .name

theorem Reduces.append (h : Reduces components shorter) (back : List Component) :
    Reduces (components ++ back) (shorter ++ back) := by
  induction h with
  | refl => exact .refl
  | tail _ hLast ih =>
    refine ih.tail ?_
    -- each detour is one wherever the components end
    cases hLast with
    | here front rest => simpa using Shortens.here front (rest ++ back)
    | turn front text rest => simpa using Shortens.turn front text (rest ++ back)
    | upAtTop front rest => simpa using Shortens.upAtTop front (rest ++ back)
    | upAtStart => exact .upAtStart _
    | restart front component rest => simpa using Shortens.restart front component (rest ++ back)

/-- Whatever stands in front of the top directory can be struck out. -/
theorem reduces_restart (front back : List Component) :
    Reduces (front ++ .top :: back) (.top :: back) := by
  induction front using List.reverseRecOn with
  | nil => exact .refl
  | append_singleton front component ih =>
    refine .head ?_ ih
    simpa using Shortens.restart front component back

/-- Behind a route, one more component can be struck out or is a part of the route that goes on. -/
theorem reduces_follow (r : Route) (component : Component) :
    Reduces (ofRoute r ++ [component]) (ofRoute (r.follow component)) := by
  cases component with
  | top => exact reduces_restart (ofRoute r) []
  | here =>
    have hHere := Shortens.here (ofRoute r) []
    rw [List.append_nil] at hHere
    exact .single hHere
  | name text =>
    have hName : ofRoute (r.follow (.name text)) = ofRoute r ++ [.name text] := by
      show (if r.rooted then [top] else []) ++ (r.names ++ [text]).map .name = _
      rw [List.map_append, ← List.append_assoc]
      rfl
    rw [hName]
  | up =>
    obtain ⟨rooted, names⟩ := r
    -- the step up takes back the last name, if there is one
    induction names using List.reverseRecOn with
    | append_singleton names text _ =>
      refine .single ?_
      have hTurn := Shortens.turn (ofRoute ⟨rooted, names⟩) text []
      simpa [ofRoute, Route.follow] using hTurn
    | nil =>
      cases rooted with
      | true => exact .single (Shortens.upAtTop [] [])
      | false => exact .single (Shortens.upAtStart [])

/-- Components reduce to those of the route that they lead along. -/
theorem reduces_ofRoute (components : List Component) :
    Reduces components (ofRoute (components.foldl Route.follow Route.start)) := by
  -- from the front: what has been read is reduced already when the next component comes
  induction components using List.reverseRecOn with
  | nil => exact .refl
  | append_singleton components component ih =>
    rw [List.foldl_append]
    exact (ih.append [component]).trans (reduces_follow _ component)

/-- A route has no dots and no steps up. -/
theorem plain_of_mem_ofRoute {component : Component} (hMem : component ∈ ofRoute r) :
    component ≠ .here ∧ component ≠ .up := by
  rcases List.mem_append.mp hMem with hTop | hName
  · split at hTop
    · rw [List.mem_singleton.mp hTop]
      exact ⟨by simp, by simp⟩
    · cases hTop
  · obtain ⟨text, -, rfl⟩ := List.mem_map.mp hName
    exact ⟨by simp, by simp⟩

/-- In the components of a route there is no detour. -/
theorem not_shortens_ofRoute (r : Route) : ¬ Shortens (ofRoute r) shorter := by
  obtain ⟨rooted, names⟩ := r
  have hNames : ∀ component ∈ names.map Component.name, ∃ text, component = .name text := by
    intro component hMem
    obtain ⟨text, -, rfl⟩ := List.mem_map.mp hMem
    exact ⟨text, rfl⟩
  have hPlain : ∀ component ∈ ofRoute ⟨rooted, names⟩, component ≠ .here ∧ component ≠ .up :=
    fun component => plain_of_mem_ofRoute
  generalize hComponents : ofRoute ⟨rooted, names⟩ = components at hPlain
  intro h
  cases h with
  | here front back => exact (hPlain .here (by simp)).1 rfl
  | turn front text back => exact (hPlain .up (by simp)).2 rfl
  | upAtTop front back => exact (hPlain .up (by simp)).2 rfl
  | upAtStart => exact (hPlain .up (by simp)).2 rfl
  | restart front component back =>
    -- the top directory stands first, if it is there at all
    have hTail : ∀ component ∈ (ofRoute ⟨rooted, names⟩).tail, ∃ text, component = .name text := by
      intro component hMem
      cases rooted with
      | true => exact hNames component hMem
      | false => exact hNames component (List.mem_of_mem_tail hMem)
    obtain ⟨text, hText⟩ := hTail .top (by rw [hComponents]; cases front <;> simp)
    cases hText

/-- Striking out detours for as long as there are any leaves the components of a route. -/
theorem reduces_iff_of_straight (hStraight : ∀ shorter, ¬ Shortens stack shorter) :
    Reduces components stack ↔ stack = ofRoute (components.foldl Route.follow Route.start) := by
  constructor
  · intro h
    rw [h.follow]
    -- what is left can be reduced to its route, and cannot be reduced any further
    rcases (reduces_ofRoute stack).cases_head with hSame | ⟨shorter, hShorter, -⟩
    · exact hSame
    · exact absurd hShorter (hStraight shorter)
  · rintro rfl
    exact reduces_ofRoute components

end Path.Component

namespace Path

open Component

variable {base p q : Path}

theorem components_absolutize_eq (base p : Path) : (absolutize base p).toPath.components =
    ofRoute ((base.join p).components.foldl Route.follow Route.start) := by
  rw [follow_join, ← route, ← absolutize_eq]
  exact components_absolutize base p

/-- The components of a path, seen from a base, reduce to those of the absolutized path. -/
theorem reduces_absolutize (base p : Path) :
    Reduces (base.join p).components (absolutize base p).toPath.components := by
  rw [components_absolutize_eq]
  exact reduces_ofRoute _

/-- When no detour is left, the components are those of the absolutized path. -/
theorem reduces_absolutize_iff {stack : List Component} :
    Reduces (base.join p).components stack ∧ (∀ shorter, ¬ Shortens stack shorter) ↔
      stack = (absolutize base p).toPath.components := by
  rw [components_absolutize_eq]
  constructor
  · rintro ⟨hReduces, hStraight⟩
    exact (reduces_iff_of_straight hStraight).mp hReduces
  · rintro rfl
    exact ⟨reduces_ofRoute _, fun shorter => not_shortens_ofRoute _⟩

/-- Spellings that reduce to the same components lead to the same place, and only those do. -/
theorem absolutize_eq_iff : absolutize base p = absolutize base q ↔
    ∃ stack, Reduces (base.join p).components stack ∧ Reduces (base.join q).components stack := by
  constructor
  · intro hEq
    refine ⟨_, reduces_absolutize base p, ?_⟩
    rw [hEq]
    exact reduces_absolutize base q
  · rintro ⟨stack, hFirst, hSecond⟩
    rw [absolutize_eq, absolutize_eq]
    exact (follow_join base p Route.start).symm.trans
      ((hFirst.follow.trans hSecond.follow.symm).trans (follow_join base q Route.start))

/-- An absolutized path is written as its route. -/
theorem toPath_absolutize_inj :
    (absolutize base p).toPath = (absolutize base q).toPath ↔
      absolutize base p = absolutize base q := by
  constructor
  · intro hPaths
    rw [← route_absolutize base p, hPaths, route_absolutize]
  · intro hRoutes
    rw [hRoutes]

theorem isAbsolute_absolutize (h : base.isAbsolute = true ∨ p.isAbsolute = true) :
    (absolutize base p).toPath.isAbsolute = true := by
  have hRooted := absolutize_rooted h
  generalize absolutize base p = r at hRooted
  obtain ⟨rooted, names⟩ := r
  obtain rfl : rooted = true := hRooted
  exact Route.isAbsolute_toPath_rooted

/-- An absolutized path that is absolute stays as it is. -/
theorem absolutize_absolutize (hBase : base.isAbsolute = true) :
    absolutize base (absolutize base p).toPath = absolutize base p := by
  rw [absolutize, if_pos (isAbsolute_absolutize (Or.inl hBase)), route_absolutize]

/-- Absolutized paths have the same components only if they are the same route. -/
theorem same_absolutize {other : Path} :
    (absolutize base p).toPath.same (absolutize other q).toPath = true ↔
      absolutize base p = absolutize other q := by
  rw [Path.same, decide_eq_true_iff]
  constructor
  · intro hSame
    rw [← route_absolutize base p, ← route_absolutize other q, route, route, hSame]
  · intro hEq
    rw [hEq]

/-- **Absolutizing is a lexical normaliser that composes.** An absolutized path has no dots and no
steps up. It is absolute if one of the two paths is. Absolutizing it again from an absolute base
changes nothing. A path that continues another one can be seen from where that one leads. Its
components are what is left of the path, seen from the base, when all detours have been struck out,
in whatever order. Two spellings lead to the same path if and only if striking out detours can leave
the same of both, and by this the artifact is recognised. -/
theorem absolutize_normalises (base p q : Path) :
    (∀ component ∈ (absolutize base p).toPath.components,
        component ≠ .here ∧ component ≠ .up) ∧
      (∀ stack, Reduces (base.join p).components stack ∧ (∀ shorter, ¬ Shortens stack shorter) ↔
        stack = (absolutize base p).toPath.components) ∧
      (base.isAbsolute = true ∨ p.isAbsolute = true →
        (absolutize base p).toPath.isAbsolute = true) ∧
      (base.isAbsolute = true → absolutize base (absolutize base p).toPath = absolutize base p) ∧
      absolutize base (p.join q) = absolutize (absolutize base p).toPath q ∧
      ((∃ stack, Reduces (base.join p).components stack ∧
          Reduces (base.join q).components stack) ↔
        (absolutize base p).toPath = (absolutize base q).toPath) ∧
      ((Guard.new base q).isOutput p = true ↔
        (absolutize base p).toPath = (absolutize base q).toPath) := by
  refine ⟨fun component hMem => ?_, fun stack => reduces_absolutize_iff, isAbsolute_absolutize,
    absolutize_absolutize, absolutize_join base p q, ?_, ?_⟩
  · rw [components_absolutize_eq] at hMem
    exact plain_of_mem_ofRoute hMem
  · rw [toPath_absolutize_inj, absolutize_eq_iff]
  · -- the guard compares the components of two absolutized paths
    rw [toPath_absolutize_inj]
    exact same_absolutize

/-- A spelling of the artifact that climbs beyond the top directory and comes back. -/
theorem absolutize_normalises_of_detours :
    (⟨"/project"⟩ : Path).isAbsolute = true ∧
      absolutize ⟨"/project"⟩
          (absolutize ⟨"/project"⟩ ⟨"../../project/./src/..//out/keys.d.ts/"⟩).toPath =
        absolutize ⟨"/project"⟩ ⟨"../../project/./src/..//out/keys.d.ts/"⟩ ∧
      (Guard.new ⟨"/project"⟩ ⟨"out/keys.d.ts"⟩).isOutput
        ⟨"../../project/./src/..//out/keys.d.ts/"⟩ = true := by
  obtain ⟨-, -, -, hAgain, -, -, hArtifact⟩ := absolutize_normalises ⟨"/project"⟩
    ⟨"../../project/./src/..//out/keys.d.ts/"⟩ ⟨"out/keys.d.ts"⟩
  have hBase : (⟨"/project"⟩ : Path).isAbsolute = true := by decide
  exact ⟨hBase, hAgain hBase, hArtifact.mpr (by decide +kernel)⟩

end Path

end KeyRegistry

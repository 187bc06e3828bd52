import KeyRegistry.Path

/-!
# Routes and their paths

A route is written as a path whose components are its names. As long as the names are names — not
empty, no dots that mean a detour, no slash — nothing is lost by writing it down: all operations on
paths do to the written form what is expected on the names.

Main definitions:

* `Path.IsName` — a text that a component can have for its name
* `Path.IsCanonical` — a path that is the written form of a route from the top

Main statements:

* `Route.components_toPath` — the components of a written route
* `Route.lineage_toPath`, `Route.relativeTo?_toPath`, `Route.join_toPath`
* `Path.absolutize_isCanonical` — absolutizing leads along names from the top
-/

namespace KeyRegistry

/-- A text that a component can have for its name. -/
structure Path.IsName (text : String) : Prop where
  notIdle : ¬ (text = "" ∨ text = ".")
  notUp   : text ≠ ".."
  noSlash : '/' ∉ text.toList

instance : DecidablePred Path.IsName := fun text =>
  decidable_of_iff (¬ (text = "" ∨ text = ".") ∧ text ≠ ".." ∧ '/' ∉ text.toList)
    ⟨fun ⟨hIdle, hUp, hSlash⟩ => ⟨hIdle, hUp, hSlash⟩, fun h => ⟨h.notIdle, h.notUp, h.noSlash⟩⟩

/-- The written form of a route from the top directory. -/
def Path.IsCanonical (p : Path) : Prop :=
  ∃ names, (∀ name ∈ names, Path.IsName name) ∧ p = Route.toPath ⟨true, names⟩

namespace Route

open KeyRegistry.Path

variable {rooted : Bool} {names base below : List String}

/-- A name, as a piece of a path, is a component of that name. -/
theorem ofPiece?_of_isName {text : String} (h : IsName text) :
    Component.ofPiece? text = some (.name text) := by
  rw [Component.ofPiece?, if_neg h.notIdle, if_neg h.notUp]

/-- Names that are joined by slashes are the pieces of the text. -/
theorem piecesOf_joinAll_names (hNames : ∀ name ∈ names, IsName name) (hSome : names ≠ []) :
    Text.piecesOf '/' (Text.joinAll '/' names) = names :=
  Text.piecesOf_joinAll hSome fun name hMem => (hNames name hMem).noSlash

/-- The slash in front of a rooted path leaves an empty piece in front of the others. -/
theorem piecesOf_toPath_rooted :
    Text.piecesOf '/' (toPath ⟨true, names⟩).text =
      "" :: Text.piecesOf '/' (Text.joinAll '/' names) := by
  have hText : (toPath ⟨true, names⟩).text.toList = '/' :: (Text.joinAll '/' names).toList := by
    simp [toPath]
  rw [Text.piecesOf, hText, Text.pieces, if_pos rfl]
  rfl

/-- A route from the top is written as an absolute path. -/
theorem isAbsolute_toPath_rooted : (toPath ⟨true, names⟩).isAbsolute = true := by
  simp [toPath, isAbsolute]

/-- A route that is not from the top is written as a relative path. -/
theorem isAbsolute_toPath_open (hNames : ∀ name ∈ names, IsName name) :
    (toPath ⟨false, names⟩).isAbsolute = false := by
  cases hAbsolute : (toPath ⟨false, names⟩).isAbsolute with
  | false => rfl
  | true =>
    obtain ⟨rest, hText⟩ := isAbsolute_eq_true_iff.mp hAbsolute
    -- a slash in front would make the first name empty
    have hPieces : Text.piecesOf '/' (Text.joinAll '/' names) =
        "" :: Text.piecesOf '/' (String.ofList rest) := by
      have hJoin : (Text.joinAll '/' names).toList = '/' :: rest := by
        simpa [toPath] using hText
      rw [Text.piecesOf, hJoin, Text.pieces, if_pos rfl, Text.piecesOf, String.toList_ofList]
      rfl
    by_cases hSome : names = []
    · rw [hSome] at hText
      simp [toPath, Text.joinAll, Text.join] at hText
    · rw [piecesOf_joinAll_names hNames hSome] at hPieces
      exact absurd (Or.inl rfl) (hNames "" (by rw [hPieces]; exact List.mem_cons_self)).notIdle

/-- The written form of a route from the top splits into the top and the names. -/
theorem split_toPath_rooted (hNames : ∀ name ∈ names, IsName name) :
    (toPath ⟨true, names⟩).split = (some .top, if names = [] then [""] else names) := by
  -- the top directory alone is written as a slash, with nothing in front of it or behind it
  rw [split, piecesOf_toPath_rooted]
  simp only [isAbsolute_toPath_rooted, if_true]
  split
  · next hNone =>
    rw [hNone]
    rfl
  · next hSome => rw [piecesOf_joinAll_names hNames hSome]

/-- The written form of another route splits into its names. -/
theorem split_toPath_open (hNames : ∀ name ∈ names, IsName name) :
    (toPath ⟨false, names⟩).split = (none, names) := by
  have hRelative := isAbsolute_toPath_open hNames
  cases names with
  | nil => rfl
  | cons name names =>
    have hPieces : Text.piecesOf '/' (toPath ⟨false, name :: names⟩).text = name :: names := by
      have hText : (toPath ⟨false, name :: names⟩).text = Text.joinAll '/' (name :: names) := by
        simp [toPath]
      rw [hText, piecesOf_joinAll_names hNames (by simp)]
    -- the two other cases of `split` are about a first piece that is no name
    have hName := (hNames name List.mem_cons_self).notIdle
    rw [split, hPieces]
    split
    · next hEq =>
      rw [List.cons.injEq] at hEq
      exact absurd (Or.inl hEq.1) hName
    · next hEq =>
      rw [List.cons.injEq] at hEq
      exact absurd (Or.inr hEq.1) hName
    · rfl

/-- All names are components. -/
theorem filterMap_ofPiece? (hNames : ∀ name ∈ names, IsName name) :
    names.filterMap Component.ofPiece? = names.map .name := by
  induction names with
  | nil => rfl
  | cons name names ih =>
    have hHead := ofPiece?_of_isName (hNames name List.mem_cons_self)
    have hTail := ih fun other hMem => hNames other (List.mem_cons_of_mem _ hMem)
    rw [List.filterMap_cons_some hHead, hTail, List.map_cons]

/-- The components of a written route are its names. -/
theorem components_toPath (hNames : ∀ name ∈ names, IsName name) :
    (toPath ⟨rooted, names⟩).components =
      (if rooted then [.top] else []) ++ names.map Component.name := by
  cases rooted with
  | false =>
    rw [components, split_toPath_open hNames, filterMap_ofPiece? hNames]
    rfl
  | true =>
    rw [components, split_toPath_rooted hNames]
    -- the empty piece of the top directory is no component
    by_cases hSome : names = []
    · rw [hSome]
      decide
    · rw [if_neg hSome, filterMap_ofPiece? hNames]
      rfl

/-- The names of a written route are the names of the route. -/
theorem names_toPath (hNames : ∀ name ∈ names, IsName name) :
    (toPath ⟨rooted, names⟩).names = names := by
  rw [Path.names, components_toPath hNames, List.filterMap_append, List.filterMap_map]
  cases rooted <;> exact List.filterMap_some

/-- Different routes are written differently. -/
theorem toPath_inj {other : List String} (hNames : ∀ name ∈ names, IsName name)
    (hOther : ∀ name ∈ other, IsName name)
    (h : toPath ⟨rooted, names⟩ = toPath ⟨rooted, other⟩) : names = other := by
  have hFirst : (toPath ⟨rooted, names⟩).names = names := names_toPath hNames
  rw [← hFirst, h, names_toPath hOther]

/-- Two written routes from the top are the same path exactly if they have the same names. -/
theorem same_toPath {other : List String} (hNames : ∀ name ∈ names, IsName name)
    (hOther : ∀ name ∈ other, IsName name) :
    (toPath ⟨true, names⟩).same (toPath ⟨true, other⟩) = true ↔ names = other := by
  rw [Path.same, components_toPath hNames, components_toPath hOther, decide_eq_true_iff,
    List.append_cancel_left_eq]
  constructor
  · intro hMaps
    exact (List.map_inj_right fun _ _ hEq => Component.name.inj hEq).mp hMaps
  · rintro rfl
    rfl

/-! ## Going up -/

/-- Following names adds them to a route. -/
theorem follow_names (start : Route) (names : List String) :
    (names.map Component.name).foldl follow start =
      { start with names := start.names ++ names } := by
  induction names generalizing start with
  | nil => simp
  | cons name names ih =>
    rw [List.map_cons, List.foldl_cons, ih]
    simp [follow]

/-- The route of a written route is that route. -/
theorem route_toPath (hNames : ∀ name ∈ names, IsName name) :
    (toPath ⟨rooted, names⟩).route = ⟨rooted, names⟩ := by
  rw [Path.route, components_toPath hNames]
  cases rooted with
  | false =>
    rw [if_neg (by simp), List.nil_append, follow_names]
    rfl
  | true =>
    rw [if_pos rfl, List.foldl_append, follow_names]
    rfl

/-- A written route from the top is what it is, seen from anywhere. -/
theorem absolutize_toPath {from_ : Path} (hNames : ∀ name ∈ names, IsName name) :
    absolutize from_ (toPath ⟨true, names⟩) = ⟨true, names⟩ := by
  rw [absolutize, if_pos isAbsolute_toPath_rooted, route_toPath hNames]

theorem isIdle_eq_false {text : String} (h : IsName text) : isIdle text = false := by
  have hIdle := h.notIdle
  rw [not_or] at hIdle
  simp [isIdle, hIdle.1, hIdle.2]

/-- No name is trimmed from the end of a path. -/
theorem trimEnd_names (hNames : ∀ name ∈ names, IsName name) : trimEnd names = names := by
  rw [trimEnd]
  cases hReverse : names.reverse with
  | nil => simpa using hReverse.symm
  | cons last others =>
    have hLast : IsName last := hNames last (by
      rw [← List.mem_reverse, hReverse]
      exact List.mem_cons_self)
    rw [List.dropWhile_cons, isIdle_eq_false hLast, if_neg (by simp), ← hReverse,
      List.reverse_reverse]

/-- Putting the parts of a path together again writes the route. -/
theorem assemble_names (rooted : Bool) (names : List String) :
    assemble (if rooted then some .top else none) names = toPath ⟨rooted, names⟩ := by
  cases rooted with
  | false => simp [assemble, toPath]
  | true => rfl

/-- The parent of a written route leaves out the last name. -/
theorem parent?_toPath (hNames : ∀ name ∈ names, IsName name) (hSome : names ≠ []) :
    (toPath ⟨rooted, names⟩).parent? = some (toPath ⟨rooted, names.dropLast⟩) := by
  have hAbove : ∀ name ∈ names.dropLast, IsName name := fun name hMem =>
    hNames name (List.dropLast_subset _ hMem)
  have hSplit : (toPath ⟨rooted, names⟩).split = (if rooted then some .top else none, names) := by
    cases rooted with
    | false => exact split_toPath_open hNames
    | true => rw [split_toPath_rooted hNames, if_neg hSome]; rfl
  rw [parent?, hSplit]
  simp only [trimEnd_names hNames]
  cases names with
  | nil => exact absurd rfl hSome
  | cons name names =>
    show some (assemble _ (trimEnd (name :: names).dropLast)) = _
    rw [trimEnd_names hAbove, assemble_names]

/-- A route without names has no parent. -/
theorem parent?_toPath_nil : (toPath ⟨rooted, []⟩).parent? = none := by
  cases rooted <;> decide

/-- The lineage of a written route is all its beginnings, the longest first, if the bound allows as
many steps as there are names. -/
theorem lineageWithin_toPath (hNames : ∀ name ∈ names, IsName name) {bound : Nat}
    (hBound : names.length ≤ bound) :
    lineageWithin bound (toPath ⟨rooted, names⟩) =
      (List.range (names.length + 1)).reverse.map fun depth =>
        toPath ⟨rooted, names.take depth⟩ := by
  -- a parent has one name less, so the bound goes down with the names
  induction bound generalizing names with
  | zero =>
    have hNone : names = [] := List.length_eq_zero_iff.mp (Nat.le_zero.mp hBound)
    rw [hNone]
    rfl
  | succ bound ih =>
    by_cases hSome : names = []
    · rw [hSome, lineageWithin, parent?_toPath_nil]
      rfl
    · have hAbove : ∀ name ∈ names.dropLast, IsName name := fun name hMem =>
        hNames name (List.dropLast_subset _ hMem)
      have hLength : names.dropLast.length + 1 = names.length := by
        have := List.length_pos_iff.mpr hSome
        rw [List.length_dropLast]
        omega
      rw [lineageWithin, parent?_toPath hNames hSome]
      simp only [ih hAbove (by omega)]
      rw [hLength, List.range_succ, List.reverse_append, List.reverse_singleton,
        List.singleton_append, List.map_cons, List.take_length]
      -- what remains are the beginnings of the parent, which are beginnings of the route
      congr 1
      apply List.map_congr_left
      intro depth hMem
      rw [List.mem_reverse, List.mem_range] at hMem
      rw [List.dropLast_eq_take, List.take_take, Nat.min_eq_left (by omega)]

/-- The paths above a written route, nearest first, are its written beginnings. -/
theorem lineage_toPath (hNames : ∀ name ∈ names, IsName name) :
    (toPath ⟨rooted, names⟩).lineage =
      (List.range (names.length + 1)).reverse.map fun depth =>
        toPath ⟨rooted, names.take depth⟩ := by
  refine lineageWithin_toPath hNames ?_
  rw [components_toPath hNames, List.length_append, List.length_map]
  omega

/-! ## Seen from above -/

/-- Dropping as many steps as a base has names leaves what is below the base. -/
theorem dropSteps_names (hBase : ∀ name ∈ base, IsName name) :
    dropSteps base.length (base ++ below) = below := by
  induction base with
  | nil => cases below <;> rfl
  | cons name base ih =>
    rw [List.length_cons, List.cons_append, dropSteps,
      isIdle_eq_false (hBase name List.mem_cons_self), if_neg (by simp)]
    exact ih fun other hMem => hBase other (List.mem_cons_of_mem _ hMem)

theorem dropWhile_names (hNames : ∀ name ∈ names, IsName name) :
    names.dropWhile isIdle = names := by
  cases names with
  | nil => rfl
  | cons name names =>
    rw [List.dropWhile_cons, isIdle_eq_false (hNames name List.mem_cons_self), if_neg (by simp)]

/-- A written route seen from a directory above it. -/
theorem relativeTo?_toPath (hBase : ∀ name ∈ base, IsName name)
    (hBelow : ∀ name ∈ below, IsName name) :
    (toPath ⟨true, base ++ below⟩).relativeTo? (toPath ⟨true, base⟩) =
      some (toPath ⟨false, below⟩) := by
  have hNames : ∀ name ∈ base ++ below, IsName name :=
    List.forall_mem_append.mpr ⟨hBase, hBelow⟩
  have hAssemble := assemble_names false below
  -- the steps along the base are dropped; at the top the pieces are not the names, but there are
  -- none
  have hRest : ∀ pieces : List String,
      pieces = (if base ++ below = [] then [""] else base ++ below) →
      trimEnd ((dropSteps base.length pieces).dropWhile isIdle) = below := by
    rintro pieces rfl
    by_cases hNone : base ++ below = []
    · obtain ⟨rfl, rfl⟩ := List.append_eq_nil_iff.mp hNone
      decide
    · rw [if_neg hNone, dropSteps_names hBase, dropWhile_names hBelow, trimEnd_names hBelow]
  rw [relativeTo?, split_toPath_rooted hNames, components_toPath hBase, components_toPath hNames]
  have hPrefix : List.isPrefixOf ([Component.top] ++ base.map .name)
      ([Component.top] ++ (base ++ below).map .name) = true := by
    rw [List.isPrefixOf_iff_prefix, List.map_append, ← List.append_assoc]
    exact List.prefix_append _ _
  have hSteps : ([Component.top] ++ base.map Component.name).length -
      (some Component.top).toList.length = base.length := by simp
  rw [if_pos rfl]
  dsimp only
  rw [if_pos hPrefix, if_neg (by simp), hSteps, hRest _ rfl, ← hAssemble]
  rfl

/-- Only what lies under a directory is seen from there. -/
theorem prefix_of_relativeTo? {relative : Path} (hBase : ∀ name ∈ base, IsName name)
    (hNames : ∀ name ∈ names, IsName name)
    (h : (toPath ⟨true, names⟩).relativeTo? (toPath ⟨true, base⟩) = some relative) :
    ∃ below, names = base ++ below := by
  rw [relativeTo?, components_toPath hBase, components_toPath hNames] at h
  simp only [if_true] at h
  split at h
  · next hPrefix =>
    rw [List.isPrefixOf_iff_prefix, List.prefix_append_right_inj] at hPrefix
    -- components that are names come from names, so the prefix is one of names
    obtain ⟨rest, hRest⟩ := hPrefix
    obtain ⟨first, second, rfl, hFirst, -⟩ := List.map_eq_append_iff.mp hRest.symm
    refine ⟨second, ?_⟩
    have hEq := (List.map_inj_right fun _ _ hEq => Component.name.inj hEq).mp hFirst
    rw [hEq]
  · cases h

/-- Joined names of two parts are the joined parts with a slash between them. -/
theorem joinAll_append (hSome : base ≠ []) (hMore : below ≠ []) :
    Text.joinAll '/' (base ++ below) = Text.joinAll '/' base ++ "/" ++ Text.joinAll '/' below := by
  -- on the first list, whose last piece is the one that meets the separator
  have hJoin : ∀ front back : List (List Char), front ≠ [] → back ≠ [] →
      Text.join '/' (front ++ back) = Text.join '/' front ++ '/' :: Text.join '/' back := by
    intro front
    induction front with
    | nil => intro _ hFront; exact absurd rfl hFront
    | cons piece front ih =>
      intro back _ hBack
      rw [List.cons_append, Text.join_cons (by simp [hBack])]
      by_cases hFront : front = []
      · rw [hFront]
        rfl
      · rw [ih back hFront hBack, Text.join_cons hFront]
        simp
  apply String.toList_inj.mp
  rw [Text.joinAll, String.toList_ofList, List.map_append,
    hJoin _ _ (by simpa using hSome) (by simpa using hMore)]
  simp [Text.joinAll]

/-- Parts that are not empty and have no separator in them are joined to a text that does not end in
the separator. -/
theorem getLast?_join {separator : Char} {texts : List (List Char)} (hSome : texts ≠ [])
    (hFree : ∀ text ∈ texts, text ≠ [] ∧ separator ∉ text) :
    ∃ last, (Text.join separator texts).getLast? = some last ∧ last ≠ separator := by
  induction texts with
  | nil => exact absurd rfl hSome
  | cons first others ih =>
    obtain ⟨hFirst, hNone⟩ := hFree first List.mem_cons_self
    -- only the last text matters: a separator is always followed by another text
    by_cases hOthers : others = []
    · refine ⟨first.getLast hFirst, ?_, ?_⟩
      · rw [hOthers]
        exact List.getLast?_eq_some_getLast hFirst
      · rintro rfl
        exact hNone (List.getLast_mem hFirst)
    · obtain ⟨last, hLast, hNe⟩ :=
        ih hOthers fun text hMem => hFree text (List.mem_cons_of_mem _ hMem)
      refine ⟨last, ?_, hNe⟩
      rw [Text.join_cons hOthers, List.getLast?_append, List.getLast?_cons, hLast]
      rfl

/-- A written route ends in a slash only if it is the top directory. -/
theorem getLast?_toPath (hNames : ∀ name ∈ names, IsName name) (hSome : names ≠ []) :
    (toPath ⟨true, names⟩).text.toList.getLast? ≠ some '/' := by
  have hTexts : ∀ text ∈ names.map String.toList, text ≠ [] ∧ '/' ∉ text := by
    intro text hMem
    obtain ⟨name, hName, rfl⟩ := List.mem_map.mp hMem
    refine ⟨?_, (hNames name hName).noSlash⟩
    intro hEmpty
    exact (hNames name hName).notIdle (Or.inl (String.toList_eq_nil_iff.mp hEmpty))
  obtain ⟨last, hLast, hNe⟩ := getLast?_join (by simpa using hSome) hTexts
  have hText :
      (toPath ⟨true, names⟩).text.toList = ['/'] ++ Text.join '/' (names.map String.toList) := by
    simp [toPath, Text.joinAll]
  rw [hText, List.getLast?_append, hLast]
  simpa using hNe

/-- A relative route is written as its joined names. -/
theorem text_toPath_open (names : List String) :
    (toPath ⟨false, names⟩).text = Text.joinAll '/' names := by
  simp [toPath]

/-- A path of names is not empty. -/
theorem text_toPath_open_isEmpty (hNames : ∀ name ∈ names, IsName name) (hSome : names ≠ []) :
    (toPath ⟨false, names⟩).text.isEmpty = false := by
  rw [text_toPath_open, Bool.eq_false_iff, ne_eq, String.isEmpty_iff]
  intro hEmpty
  -- an empty text has one piece, which is no name
  have hPieces := piecesOf_joinAll_names hNames hSome
  rw [hEmpty] at hPieces
  rw [← hPieces] at hNames
  exact (hNames "" (by decide)).notIdle (Or.inl rfl)

/-- A written route appended to one from the top. -/
theorem join_toPath (hBase : ∀ name ∈ base, IsName name) (hBelow : ∀ name ∈ below, IsName name)
    (hMore : below ≠ []) :
    (toPath ⟨true, base⟩).join (toPath ⟨false, below⟩) = toPath ⟨true, base ++ below⟩ := by
  rw [join, isAbsolute_toPath_open hBelow, if_neg (by simp)]
  by_cases hSome : base = []
  · -- behind the top directory no slash has to be put in
    rw [hSome]
    rw [if_pos (by decide)]
    simp [toPath, Text.joinAll, Text.join]
  · have hEmpty : (toPath ⟨true, base⟩).text.isEmpty = false := by
      simp [toPath]
    rw [if_neg (by simp [hEmpty, getLast?_toPath hBase hSome])]
    simp [toPath, joinAll_append hSome hMore, String.append_assoc]

/-- Absolutizing a written route appends it. -/
theorem absolutize_toPath_open (hBase : ∀ name ∈ base, IsName name)
    (hBelow : ∀ name ∈ below, IsName name) (hMore : below ≠ []) :
    absolutize (toPath ⟨true, base⟩) (toPath ⟨false, below⟩) = ⟨true, base ++ below⟩ := by
  rw [absolutize, isAbsolute_toPath_open hBelow, if_neg (by simp), join_toPath hBase hBelow hMore,
    route_toPath (List.forall_mem_append.mpr ⟨hBase, hBelow⟩)]

/-- A name is appended as it is. -/
theorem absolutize_name {name : String} (hBase : ∀ name ∈ base, IsName name) (hName : IsName name) :
    absolutize (toPath ⟨true, base⟩) ⟨name⟩ = ⟨true, base ++ [name]⟩ := by
  have hWritten : (⟨name⟩ : Path) = toPath ⟨false, [name]⟩ := by
    simp [toPath, Text.joinAll, Text.join]
  rw [hWritten, absolutize_toPath_open hBase (by simpa using hName) (by simp)]

end Route

namespace Path

variable {p base : Path} {text : String}

/-! ## Absolutizing -/

/-- A piece without a slash that is a component with a name is a name. -/
theorem isName_of_ofPiece? {piece : String} (hPiece : '/' ∉ piece.toList)
    (h : Component.ofPiece? piece = some (.name text)) : IsName text := by
  unfold Component.ofPiece? at h
  split at h
  · cases h
  · next hIdle =>
    split at h
    · cases h
    · next hUp =>
      cases h
      exact ⟨hIdle, hUp, hPiece⟩

/-- The pieces of a text have no slash in them. -/
theorem not_mem_of_mem_piecesOf {piece : String} (h : piece ∈ Text.piecesOf '/' text) :
    '/' ∉ piece.toList := by
  obtain ⟨chars, hChars, rfl⟩ := List.mem_map.mp h
  rw [String.toList_ofList]
  exact Text.not_mem_of_mem_pieces hChars

/-- A path splits into a start that is no name and pieces without slashes. -/
theorem split_cases (p : Path) :
    (∀ name, p.split.1 ≠ some (.name name)) ∧ ∀ piece ∈ p.split.2, '/' ∉ piece.toList := by
  have hPieces : ∀ piece ∈ Text.piecesOf '/' p.text, '/' ∉ piece.toList :=
    fun piece hMem => not_mem_of_mem_piecesOf hMem
  unfold split
  split
  · next rest hEq =>
    rw [hEq] at hPieces
    have hRest := fun piece hMem => hPieces piece (List.mem_cons_of_mem _ hMem)
    split
    · exact ⟨by simp, hRest⟩
    · exact ⟨by simp, hRest⟩
  · next rest hEq =>
    rw [hEq] at hPieces
    exact ⟨by simp, fun piece hMem => hPieces piece (List.mem_cons_of_mem _ hMem)⟩
  · exact ⟨by simp, hPieces⟩

/-- The names in a path are names. -/
theorem isName_of_mem_components (h : Component.name text ∈ p.components) : IsName text := by
  -- the leading component is no name; the others were made from pieces
  obtain ⟨hLead, hPieces⟩ := split_cases p
  rcases List.mem_append.mp h with hMem | hMem
  · exact absurd (Option.mem_toList.mp hMem) (hLead text)
  · obtain ⟨piece, hPiece, hEq⟩ := List.mem_filterMap.mp hMem
    exact isName_of_ofPiece? (hPieces piece hPiece) hEq

/-- Following components whose names are proper keeps the names of a route proper. -/
theorem foldl_follow_names {components : List Component} {start : Route}
    (hComponents : ∀ name, Component.name name ∈ components → IsName name)
    (hStart : ∀ name ∈ start.names, IsName name) :
    ∀ name ∈ (components.foldl Route.follow start).names, IsName name := by
  -- one case for each kind of component; only a name adds a name
  induction components generalizing start with
  | nil => exact hStart
  | cons component components ih =>
    refine ih (fun name hMem => hComponents name (List.mem_cons_of_mem _ hMem)) ?_
    cases component with
    | top => intro name hMem; cases hMem
    | here => exact hStart
    | up => exact fun name hMem => hStart name (List.dropLast_subset _ hMem)
    | name text =>
      intro name hMem
      rcases List.mem_append.mp hMem with hMem | hMem
      · exact hStart name hMem
      · rw [List.mem_singleton.mp hMem]
        exact hComponents text List.mem_cons_self

/-- Following components does not unroot a route. -/
theorem foldl_follow_rooted {components : List Component} {start : Route}
    (hStart : start.rooted = true) : (components.foldl Route.follow start).rooted = true := by
  induction components generalizing start with
  | nil => exact hStart
  | cons component components ih =>
    refine ih ?_
    cases component with
    | top => rfl
    | here | up | name => exact hStart

/-- The route of every path has proper names. -/
theorem route_names (p : Path) : ∀ name ∈ p.route.names, IsName name :=
  foldl_follow_names (fun _ hMem => isName_of_mem_components hMem) fun _ hMem => by cases hMem

/-- The route of an absolute path is one from the top. -/
theorem route_rooted (hAbsolute : p.isAbsolute = true) : p.route.rooted = true := by
  obtain ⟨rest, hText⟩ := isAbsolute_eq_true_iff.mp hAbsolute
  have hPieces : Text.piecesOf '/' p.text = "" :: Text.piecesOf '/' (String.ofList rest) := by
    rw [Text.piecesOf, hText, Text.pieces, if_pos rfl, Text.piecesOf, String.toList_ofList]
    rfl
  have hSplit : p.split = (some .top, Text.piecesOf '/' (String.ofList rest)) := by
    rw [split, hPieces]
    simp only [hAbsolute, if_true]
  rw [route, components, hSplit]
  show ((_ : List Component).foldl Route.follow (Route.start.follow .top)).rooted = true
  exact foldl_follow_rooted rfl

/-- What is joined to an absolute path is absolute. -/
theorem isAbsolute_join (hBase : base.isAbsolute = true) : (base.join p).isAbsolute = true := by
  obtain ⟨rest, hText⟩ := isAbsolute_eq_true_iff.mp hBase
  unfold join
  split
  · assumption
  · split <;> simp [isAbsolute, hText]

/-- Seen from an absolute path, every path leads along names from the top. -/
theorem absolutize_isCanonical (hBase : base.isAbsolute = true) (p : Path) :
    (absolutize base p).toPath.IsCanonical := by
  have hAbsolute : (if p.isAbsolute then p else base.join p).isAbsolute = true := by
    split
    · assumption
    · exact isAbsolute_join hBase
  -- a rooted route is determined by its names
  have hForm : ∀ r : Route, r.rooted = true → r.toPath = Route.toPath ⟨true, r.names⟩ := by
    rintro ⟨_, names⟩ rfl
    rfl
  exact ⟨_, route_names _, hForm _ (route_rooted hAbsolute)⟩

/-- A canonical path is absolute. -/
theorem IsCanonical.isAbsolute (h : p.IsCanonical) : p.isAbsolute = true := by
  obtain ⟨names, -, rfl⟩ := h
  exact Route.isAbsolute_toPath_rooted

theorem IsCanonical.names (h : p.IsCanonical) : ∀ name ∈ p.names, IsName name := by
  obtain ⟨names, hNames, rfl⟩ := h
  rw [Route.names_toPath hNames]
  exact hNames

/-- A canonical path is the written form of its own names. -/
theorem IsCanonical.toPath_names (h : p.IsCanonical) : Route.toPath ⟨true, p.names⟩ = p := by
  obtain ⟨names, hNames, rfl⟩ := h
  rw [Route.names_toPath hNames]

end Path

end KeyRegistry

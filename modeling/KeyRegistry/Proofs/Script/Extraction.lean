import KeyRegistry.Proofs.Script.Layout
import KeyRegistry.Proofs.Text.ByteOrder
import KeyRegistry.Script.Marker
import Mathlib.Data.List.Sort
import Mathlib.Data.List.Nodup

/-!
# What is extracted from a script

A node of a syntax tree has a place, the numbers of the children that lead down to it. The calls
that are extracted from a source are, one for one, the places where a plain name that is a marker is
called, and the first argument, comments aside, is a text that can be decoded. This is said of any
well-formed tree, whoever has made it, and however broken the source is that it was made of.

The query that finds the calls matches once for each text among the arguments, so one call may have
many matches. All but one of them are dropped, since only one argument comes first. Two marker calls
never share the text of their first argument, so their offsets differ, and sorting the calls by
offset leaves no choice.

Main definitions:

* `Node.FirstArgument`, `Node.Calls` — a node calls a plain name with a text first
* `IsMarkerCall` — a place of a tree is a marker call

Main statements:

* `mem_results_markerQuery` — what the query finds
* `isFirstArgument_iff` — which of its matches are kept
* `Extraction.calls_exact` — the extracted calls are the marker calls of the tree, each of them
  once, in the order of their offsets; fewer markers only leave calls out
-/

namespace KeyRegistry.Script

/-! ## Handles -/

namespace Handle

variable {handle other : Handle} {root : Node}

/-- The handle of a child is found under its number. -/
theorem getElem?_children {i : Nat} {child : Node} (h : handle.node.children[i]? = some child) :
    handle.children[i]? = some ⟨handle.place ++ [i], child⟩ := by
  rw [children, List.getElem?_mapIdx, h, Option.map_some]

/-- The children of a handle are those of its node, each at its own place. -/
theorem mem_children : other ∈ handle.children ↔
    ∃ i child, handle.node.children[i]? = some child ∧ other = ⟨handle.place ++ [i], child⟩ := by
  rw [children, List.mem_mapIdx]
  constructor
  · rintro ⟨i, hLength, rfl⟩
    exact ⟨i, _, List.getElem?_eq_getElem hLength, rfl⟩
  · rintro ⟨i, child, hChild, rfl⟩
    obtain ⟨hLength, rfl⟩ := List.getElem?_eq_some_iff.mp hChild
    exact ⟨i, hLength, rfl⟩

/-- The nodes of the children of a handle are the children of its node. -/
theorem map_node_children : handle.children.map node = handle.node.children := by
  simp [children, List.mapIdx_eq_zipIdx_map, Function.comp_def]

/-- The children of a node have different places. -/
theorem pairwise_children : handle.children.Pairwise fun a b => a.place ≠ b.place := by
  rw [List.pairwise_iff_getElem]
  intro i j hi hj hLess
  simp only [children, List.getElem_mapIdx, ne_eq, List.append_cancel_left_eq, List.cons.injEq,
    and_true]
  omega

end Handle

namespace Node

variable {root node part : Node} {label : Label} {children : List Node} {place : List Nat}

mutual

/-- What is listed with a place stands at that place. -/
theorem mem_located : ∀ {root : Node} {place : List Nat},
    ⟨place, node⟩ ∈ root.located ↔ root.at? place = some node
  | mk label children, place => by
    rw [located, List.mem_cons, mem_locatedFrom]
    cases place with
    | nil => simp [eq_comm]
    | cons i place => simp [at?_cons_eq_some_iff]

/-- The nodes of some trees are found at the places that start with the number of a tree. -/
theorem mem_locatedFrom : ∀ (trees : List Node) {first : Nat} {place : List Nat},
    ⟨place, node⟩ ∈ locatedFrom first trees ↔
      ∃ i inner child, place = (first + i) :: inner ∧ trees[i]? = some child ∧
        child.at? inner = some node
  | [], first, place => by simp [locatedFrom]
  | tree :: trees, first, place => by
    rw [locatedFrom, List.mem_append, mem_locatedFrom trees]
    -- the first tree stands at the number that the count starts from, the others behind it
    constructor
    · rintro (hHead | ⟨i, inner, child, rfl, hChild, hNode⟩)
      · obtain ⟨⟨inner, found⟩, hMem, hEq⟩ := List.mem_map.mp hHead
        obtain ⟨hPlace, hNode⟩ := Handle.mk.inj hEq
        rw [show found = node from hNode] at hMem
        exact ⟨0, inner, tree, hPlace.symm, rfl, mem_located.mp hMem⟩
      · exact ⟨i + 1, inner, child, by rw [Nat.add_assoc, Nat.add_comm 1], hChild, hNode⟩
    · rintro ⟨i, inner, child, rfl, hChild, hNode⟩
      cases i with
      | zero =>
        obtain rfl : tree = child := Option.some.inj hChild
        exact .inl (List.mem_map.mpr ⟨⟨inner, node⟩, mem_located.mpr hNode, rfl⟩)
      | succ i =>
        exact .inr ⟨i, inner, child, by rw [Nat.add_assoc, Nat.add_comm 1], hChild, hNode⟩

end

mutual

/-- No place is listed twice. -/
theorem nodup_located : ∀ root : Node, (root.located.map Handle.place).Nodup
  | mk label children => by
    rw [located, List.map_cons, List.nodup_cons]
    refine ⟨fun hMem => ?_, nodup_locatedFrom children 0⟩
    obtain ⟨⟨place, part⟩, hLocated, hRoot⟩ := List.mem_map.mp hMem
    obtain ⟨i, inner, child, hPlace, -⟩ := (mem_locatedFrom _).mp hLocated
    exact List.cons_ne_nil _ _ (hPlace.symm.trans hRoot)

/-- No two nodes of some trees have the same place. -/
theorem nodup_locatedFrom : ∀ (trees : List Node) (first : Nat),
    ((locatedFrom first trees).map Handle.place).Nodup
  | [], _ => List.nodup_nil
  | tree :: trees, first => by
    rw [locatedFrom, List.map_append, List.map_map, List.nodup_append]
    refine ⟨?_, nodup_locatedFrom trees (first + 1), ?_⟩
    · have hHead : Handle.place ∘ (Handle.below first) = (first :: ·) ∘ Handle.place := rfl
      rw [hHead, ← List.map_map]
      exact (nodup_located tree).map List.cons_injective
    · intro place hHead _ hTail hEq
      obtain ⟨⟨inner, part⟩, -, rfl⟩ := List.mem_map.mp hHead
      obtain ⟨⟨_, later⟩, hLater, rfl⟩ := List.mem_map.mp hTail
      obtain ⟨i, place, child, hPlace, -⟩ := (mem_locatedFrom _).mp hLater
      -- places in the first tree start with its number, places in later trees with a greater one
      have hFirst : first = first + 1 + i := (List.cons.inj (hEq.trans hPlace)).1
      omega

end

/-! ## Calls -/

/-- A node is the first argument, given its number among the children: it has a name in the grammar
and is no comment, and what stands in front of it are signs and comments. -/
structure FirstArgument (arguments : Node) (i : Nat) (first : Node) : Prop where
  isChild : arguments.children[i]? = some first
  isNamed : first.kind.isNamed
  noComment : first.kind ≠ .comment
  isFirst : ∀ j < i, ∀ other, arguments.children[j]? = some other → other.kind.isNamed →
    other.kind = .comment

/-- A node calls a plain name, and its first argument is a text literal. Type arguments, comments
and errors may stand anywhere between. -/
structure Calls (node callee literal : Node) : Prop where
  isCall : node.kind = .call
  isCalled : callee ∈ node.children ∧ callee.field = some .function
  isName : callee.kind = .identifier
  isFirst : ∃ arguments ∈ node.children, arguments.field = some .arguments ∧
    arguments.kind = .arguments ∧ ∃ i, arguments.FirstArgument i literal
  isText : literal.kind = .string

/-- The first argument stands below the call. -/
theorem Calls.exists_at? {callee literal : Node} (h : node.Calls callee literal) :
    ∃ inner, node.at? inner = some literal := by
  obtain ⟨arguments, hArguments, -, -, k, hFirst⟩ := h.isFirst
  obtain ⟨j, hj⟩ := List.getElem?_of_mem hArguments
  exact ⟨[j, k], by simp [at?_cons, hj, hFirst.isChild]⟩

end Node

variable {root : Node} {source : String} {markers : List String} {place place' : List Nat}
  {call call' : MarkerCall}

/-- A place of a tree is a marker call: a plain name that is a marker is called there, and its first
argument is a text literal that says the pattern. The call is located where the literal starts. -/
def IsMarkerCall (root : Node) (source : String) (markers : List String) (place : List Nat)
    (call : MarkerCall) : Prop :=
  ∃ node callee literal raw, root.at? place = some node ∧ node.Calls callee literal ∧
    callee.text? source = some call.callee ∧ call.callee ∈ markers ∧
    literal.text? source = some raw ∧ Text.decodeLiteral raw = some call.pattern.text ∧
    call.location = .ofPosition literal.start

/-! ## The query -/

/-- A list is split at each of its values. -/
theorem map_fst_splits {α : Type} (l : List α) : (splits l).map Prod.fst = l := by
  induction l with
  | nil => rfl
  | cons a l ih => rw [splits, List.map_cons, ih]

/-- At a split stand a value and what comes behind it. -/
theorem mem_splits {α : Type} {l behind : List α} {a : α} :
    (a, behind) ∈ splits l ↔ ∃ front, l = front ++ a :: behind := by
  induction l with
  | nil => simp [splits]
  | cons b l ih =>
    rw [splits, List.mem_cons, ih]
    constructor
    · rintro (hHead | ⟨front, rfl⟩)
      · obtain ⟨rfl, rfl⟩ := Prod.mk.inj hHead
        exact ⟨[], rfl⟩
      · exact ⟨b :: front, rfl⟩
    · rintro ⟨front, hEq⟩
      cases front with
      | nil =>
        obtain ⟨rfl, rfl⟩ := List.cons.inj hEq
        exact .inl rfl
      | cons c front => exact .inr ⟨front, (List.cons.inj hEq).2⟩

/-- What only looks at the values at the splits goes through the list. -/
theorem flatMap_splits {α β : Type} (l : List α) (f : α → List β) :
    ((splits l).flatMap fun x => f x.1) = l.flatMap f := by
  rw [← List.flatMap_map Prod.fst f, map_fst_splits]

/-- Going through a list and keeping what has a property is filtering. -/
theorem flatMap_singleton_if {α β : Type} (l : List α) (p : α → Prop) [DecidablePred p]
    (f : α → β) :
    (l.flatMap fun a => if p a then [f a] else []) = (l.filter p).map f := by
  induction l with
  | nil => rfl
  | cons a l ih =>
    rw [List.flatMap_cons, ih]
    by_cases h : p a <;> simp [h]

/-- The matches of the query for markers with a call: one for each name that is called and each text
among the arguments behind it. -/
theorem results_markerQuery {handle : Handle} (h : handle.node.kind = .call) :
    markerQuery.results handle = (splits handle.children).flatMap fun (callee, behind) =>
      if callee.node.kind = .identifier ∧ callee.node.field = some .function then
        behind.flatMap fun arguments =>
          if arguments.node.kind = .arguments ∧ arguments.node.field = some .arguments then
            (arguments.children.filter (·.node.kind = .string)).map fun argument =>
              [(calleeCapture, callee), (argumentCapture, argument)]
          else []
      else [] := by
  -- nothing is sought behind the string, so each string among the arguments is one result
  have hTexts (arguments : Handle) :
      ((splits arguments.children).flatMap fun x =>
        if x.1.node.kind = .string then [[(argumentCapture, x.1)]] else []) =
        (arguments.children.filter (·.node.kind = .string)).map fun argument =>
          [(argumentCapture, argument)] := by
    rw [flatMap_splits arguments.children
      fun argument => if argument.node.kind = .string then [[(argumentCapture, argument)]] else []]
    exact flatMap_singleton_if ..
  simp only [markerQuery, Query.results, Query.resultsAmong, h, hTexts, reduceCtorEq, false_or,
    true_or, and_true, if_true, Option.map_none, Option.map_some, Option.toList_none,
    Option.toList_some, List.nil_append, List.map_id_fun', id_eq, List.map_cons, List.map_nil,
    List.append_nil, List.flatMap_singleton']
  refine congrArg (List.flatMap · _) (funext fun ⟨callee, behind⟩ => ?_)
  split
  · rw [List.flatMap_singleton, List.map_flatMap, ← flatMap_splits behind]
    refine congrArg (List.flatMap · _) (funext fun ⟨arguments, _⟩ => ?_)
    split <;> simp
  · rfl

/-- What the query for markers finds: a name that is called, and a text among the arguments behind
it. -/
theorem mem_results_markerQuery {handle : Handle} {captures : Captures} :
    captures ∈ markerQuery.results handle ↔ handle.node.kind = .call ∧
      ∃ callee behind, (callee, behind) ∈ splits handle.children ∧
        callee.node.kind = .identifier ∧ callee.node.field = some .function ∧
        ∃ arguments ∈ behind,
          arguments.node.kind = .arguments ∧ arguments.node.field = some .arguments ∧
          ∃ argument ∈ arguments.children, argument.node.kind = .string ∧
            captures = [(calleeCapture, callee), (argumentCapture, argument)] := by
  by_cases h : handle.node.kind = .call
  · rw [results_markerQuery h]
    simp only [List.mem_flatMap, Prod.exists, List.mem_ite_nil_right, List.mem_map, List.mem_filter,
      decide_eq_true_eq, h, true_and, eq_comm (b := captures), and_assoc]
  · simp [markerQuery, Query.results, h]

/-! ## The first argument -/

/-- A child of the arguments is kept if it is the first argument. -/
theorem isFirstArgument_iff (arguments : Handle) {i : Nat} {argument : Node}
    (hParent : root.at? arguments.place = some arguments.node)
    (hArgument : arguments.node.children[i]? = some argument) :
    (Handle.mk (arguments.place ++ [i]) argument).isFirstArgument root = true ↔
      arguments.node.FirstArgument i argument := by
  have hAbove : (Handle.mk (arguments.place ++ [i]) argument).parent? root = some arguments := by
    simp [Handle.parent?, hParent]
  obtain ⟨hLength, rfl⟩ := List.getElem?_eq_some_iff.mp hArgument
  rw [Handle.isFirstArgument, hAbove]
  dsimp only
  -- the first child that counts is this one exactly if it counts and none in front of it does
  rw [List.find?_filter, Option.any_eq_true]
  simp only [List.find?_eq_some_iff_getElem, Handle.children, List.getElem_mapIdx,
    List.length_mapIdx]
  constructor
  · rintro ⟨_, ⟨hKind, k, hk, rfl, hBefore⟩, hPlace⟩
    obtain rfl : k = i := by simpa using hPlace
    simp only [bne_iff_ne, ne_eq, decide_eq_true_eq] at hKind
    refine ⟨hArgument, hKind.1, hKind.2, fun j hj other hOther hNamed => ?_⟩
    obtain ⟨hLess, rfl⟩ := List.getElem?_eq_some_iff.mp hOther
    simpa [hNamed] using hBefore j hj
  · rintro ⟨-, hNamed, hNoComment, hFirst⟩
    refine ⟨_, ⟨by simp [hNamed, hNoComment], i, hLength, rfl, fun j hj => ?_⟩, by simp⟩
    have hBefore := hFirst j hj _ (List.getElem?_eq_getElem (Nat.lt_trans hj hLength))
    simpa [imp_iff_not_or] using hBefore

/-- What a match is kept for. -/
theorem MarkerCall.ofMatch?_eq_some_iff {callee argument : Handle} :
    MarkerCall.ofMatch? root source markers
      [(calleeCapture, callee), (argumentCapture, argument)] = some call ↔
      argument.isFirstArgument root = true ∧ callee.node.text? source = some call.callee ∧
        call.callee ∈ markers ∧ ∃ raw, argument.node.text? source = some raw ∧
          Text.decodeLiteral raw = some call.pattern.text ∧
          call.location = .ofPosition argument.node.start := by
  have hCallee : Captures.at? [(calleeCapture, callee), (argumentCapture, argument)] calleeCapture
      = some callee := rfl
  have hArgument : Captures.at? [(calleeCapture, callee), (argumentCapture, argument)]
      argumentCapture = some argument := rfl
  obtain ⟨name, ⟨value⟩, location⟩ := call
  simp only [ofMatch?, hCallee, hArgument, Option.bind_eq_bind, Option.bind_some,
    Option.ite_none_right_eq_some, Option.bind_eq_some_iff, List.contains_iff_mem,
    Option.some.injEq, MarkerCall.mk.injEq, Pattern.mk.injEq]
  constructor
  · rintro ⟨hFirst, _, hName, hMarker, raw, hRaw, _, hValue, rfl, rfl, rfl⟩
    exact ⟨hFirst, hName, hMarker, raw, hRaw, hValue, rfl⟩
  · rintro ⟨hFirst, hName, hMarker, raw, hRaw, hValue, hLocation⟩
    exact ⟨hFirst, _, hName, hMarker, raw, hRaw, _, hValue, rfl, rfl, hLocation.symm⟩

/-! ## The matches of one call -/

namespace Node.IsRegular

/-- Of the children of a call that play a part, the first one is called and the other one is what it
is called with. -/
theorem pairwise_fields {node : Node} (h : node.IsRegular) (hCall : node.kind = .call) :
    node.children.Pairwise fun a b => ∀ f, a.field = some f → ∀ g, b.field = some g →
      f = .function ∧ g = .arguments := by
  have hParts : [Field.function, .arguments].Pairwise fun f g =>
      f = .function ∧ g = .arguments := by simp
  exact List.pairwise_filterMap.mp (hParts.sublist (h.fields hCall))

end Node.IsRegular

/-- What is called stands in front of what it is called with. -/
theorem Node.IsRegular.callee_lt {node callee arguments : Node} {i j : Nat} (h : node.IsRegular)
    (hCall : node.kind = .call) (hCallee : node.children[i]? = some callee)
    (hArguments : node.children[j]? = some arguments) (hCalled : callee.field = some .function)
    (hField : arguments.field = some .arguments) : i < j := by
  obtain ⟨hi, rfl⟩ := List.getElem?_eq_some_iff.mp hCallee
  obtain ⟨hj, rfl⟩ := List.getElem?_eq_some_iff.mp hArguments
  obtain hLess | rfl | hMore := Nat.lt_trichotomy i j
  · exact hLess
  · exact absurd (hCalled.symm.trans hField) (by decide)
  · have hParts := List.pairwise_iff_getElem.mp (h.pairwise_fields hCall) j i hj hi hMore
    exact absurd (hParts _ hField _ hCalled).1 (by decide)

/-- The matches with a regular call, by the numbers of its children: the child that is called, the
child with the arguments, and a text among these. -/
theorem mem_results_iff_children {node : Node} (hRegular : node.IsRegular) {captures : Captures} :
    captures ∈ markerQuery.results ⟨place, node⟩ ↔ node.kind = .call ∧
      ∃ i callee j arguments k argument,
        node.children[i]? = some callee ∧ callee.kind = .identifier ∧
        callee.field = some .function ∧
        node.children[j]? = some arguments ∧ arguments.kind = .arguments ∧
        arguments.field = some .arguments ∧
        arguments.children[k]? = some argument ∧ argument.kind = .string ∧
        captures = [(calleeCapture, ⟨place ++ [i], callee⟩),
          (argumentCapture, ⟨place ++ [j] ++ [k], argument⟩)] := by
  rw [mem_results_markerQuery]
  constructor
  · rintro ⟨hCall, callee, behind, hSplit, hName, hCalled, arguments, hArguments, hKind, hField,
      argument, hArgument, hText, rfl⟩
    obtain ⟨front, hChildren⟩ := mem_splits.mp hSplit
    have hCalleeMem : callee ∈ (Handle.mk place node).children := by simp [hChildren]
    have hArgumentsMem : arguments ∈ (Handle.mk place node).children := by
      simp [hChildren, hArguments]
    obtain ⟨i, callee, hi, rfl⟩ := Handle.mem_children.mp hCalleeMem
    obtain ⟨j, arguments, hj, rfl⟩ := Handle.mem_children.mp hArgumentsMem
    obtain ⟨k, argument, hk, rfl⟩ := Handle.mem_children.mp hArgument
    exact ⟨hCall, i, callee, j, arguments, k, argument, hi, hName, hCalled, hj, hKind, hField, hk,
      hText, rfl⟩
  · rintro ⟨hCall, i, callee, j, arguments, k, argument, hi, hName, hCalled, hj, hKind, hField, hk,
      hText, rfl⟩
    -- the query wants the arguments behind the callee, which is so because the call is regular
    have hLess := hRegular.callee_lt hCall hi hj hCalled hField
    have hCalleeAt : (Handle.mk place node).children[i]? = some ⟨place ++ [i], callee⟩ :=
      Handle.getElem?_children hi
    refine ⟨hCall, ⟨place ++ [i], callee⟩, (Handle.mk place node).children.drop (i + 1),
      mem_splits.mpr ⟨(Handle.mk place node).children.take i, ?_⟩, hName, hCalled,
      ⟨place ++ [j], arguments⟩, ?_, hKind, hField, _, Handle.mem_children.mpr ⟨k, _, hk, rfl⟩,
      hText, rfl⟩
    · obtain ⟨hLength, hEq⟩ := List.getElem?_eq_some_iff.mp hCalleeAt
      rw [← hEq, List.getElem_cons_drop, List.take_append_drop]
    · refine List.mem_of_getElem? (i := j - (i + 1)) ?_
      rw [List.getElem?_drop, Nat.add_sub_cancel' hLess]
      exact Handle.getElem?_children hj

/-- What a handle stands for gives a marker call exactly if its place is one. -/
theorem mem_filterMap_results_iff {node : Node} (hRegular : node.IsRegular)
    (hNode : root.at? place = some node) :
    call ∈ (markerQuery.results ⟨place, node⟩).filterMap
      (MarkerCall.ofMatch? root source markers) ↔ IsMarkerCall root source markers place call := by
  have hAt {j : Nat} {arguments : Node} (hj : node.children[j]? = some arguments) :
      root.at? (place ++ [j]) = some arguments := by
    simp [Node.at?_append, hNode, Node.at?_cons, hj]
  simp only [List.mem_filterMap, mem_results_iff_children hRegular]
  -- a match is kept exactly if its string is the first argument; what is left is to exchange
  -- children by number for children by membership
  constructor
  · rintro ⟨_, ⟨hCall, i, callee, j, arguments, k, argument, hi, hName, hCalled, hj, hKind, hField,
      hk, hText, rfl⟩, hMatch⟩
    obtain ⟨hFirst, hCallee, hMarker, raw, hRaw, hValue, hLocation⟩ :=
      MarkerCall.ofMatch?_eq_some_iff.mp hMatch
    have hFirst := (isFirstArgument_iff ⟨_, arguments⟩ (hAt hj) hk).mp hFirst
    exact ⟨node, callee, argument, raw, hNode, ⟨hCall, ⟨List.mem_of_getElem? hi, hCalled⟩,
      hName, ⟨arguments, List.mem_of_getElem? hj, hField, hKind, k, hFirst⟩, hText⟩,
      hCallee, hMarker, hRaw, hValue, hLocation⟩
  · rintro ⟨node', callee, literal, raw, hNode', ⟨hCall, ⟨hCallee, hCalled⟩, hName, ⟨arguments,
      hArguments, hField, hKind, k, hFirst⟩, hText⟩, hCalleeText, hMarker, hRaw, hValue, hLocation⟩
    obtain rfl : node = node' := Option.some.inj (hNode.symm.trans hNode')
    obtain ⟨i, hi⟩ := List.getElem?_of_mem hCallee
    obtain ⟨j, hj⟩ := List.getElem?_of_mem hArguments
    have hKept := (isFirstArgument_iff ⟨_, arguments⟩ (hAt hj) hFirst.isChild).mpr hFirst
    exact ⟨_, ⟨hCall, i, callee, j, arguments, k, literal, hi, hName, hCalled, hj, hKind, hField,
      hFirst.isChild, hText, rfl⟩, MarkerCall.ofMatch?_eq_some_iff.mpr
        ⟨hKept, hCalleeText, hMarker, raw, hRaw, hValue, hLocation⟩⟩

/-- Two children of the same arguments are not both kept. -/
theorem Handle.place_eq_of_isFirstArgument {first second : Handle}
    (hPlaces : first.place.dropLast = second.place.dropLast) (hSome : first.place ≠ [])
    (hSome' : second.place ≠ []) (hFirst : first.isFirstArgument root = true)
    (hSecond : second.isFirstArgument root = true) : first.place = second.place := by
  -- siblings ask the same parent for its first argument, and there is one answer
  have hParents : first.parent? root = second.parent? root := by
    simp [Handle.parent?, hPlaces, hSome, hSome']
  rw [Handle.isFirstArgument] at hFirst hSecond
  rw [← hParents] at hSecond
  cases hParent : first.parent? root with
  | none =>
    rw [hParent] at hFirst
    cases hFirst
  | some arguments =>
    simp only [hParent, Option.any_eq_true] at hFirst hSecond
    obtain ⟨kept, hKept, hFirst⟩ := hFirst
    obtain ⟨kept', hKept', hSecond⟩ := hSecond
    obtain rfl : kept = kept' := Option.some.inj (hKept.symm.trans hKept')
    exact (beq_iff_eq.mp hFirst).symm.trans (beq_iff_eq.mp hSecond)

/-- At most one of two matches is kept. -/
def Captures.Excludes (root : Node) (source : String) (markers : List String)
    (captures captures' : Captures) : Prop :=
  ∀ call, MarkerCall.ofMatch? root source markers captures = some call →
    ∀ call', MarkerCall.ofMatch? root source markers captures' = some call' → False

/-- Of the matches with the same arguments, all but one are dropped: the texts among the arguments
stand at different places, and only one of them comes first. -/
theorem pairwise_texts (callee arguments : Handle) :
    ((arguments.children.filter (·.node.kind = .string)).map fun argument =>
      [(calleeCapture, callee), (argumentCapture, argument)]).Pairwise
        (Captures.Excludes root source markers) := by
  rw [List.pairwise_map]
  refine (Handle.pairwise_children.sublist List.filter_sublist).imp_of_mem ?_
  intro first second hFirst hSecond hPlaces call hCall call' hCall'
  obtain ⟨i, _, -, rfl⟩ := Handle.mem_children.mp (List.mem_of_mem_filter hFirst)
  obtain ⟨j, _, -, rfl⟩ := Handle.mem_children.mp (List.mem_of_mem_filter hSecond)
  exact hPlaces (Handle.place_eq_of_isFirstArgument (by simp) (by simp) (by simp)
    (MarkerCall.ofMatch?_eq_some_iff.mp hCall).1 (MarkerCall.ofMatch?_eq_some_iff.mp hCall').1)

/-- Of the matches with one call, all but one are dropped. -/
theorem pairwise_results {handle : Handle} (hRegular : handle.node.IsRegular) :
    (markerQuery.results handle).Pairwise (Captures.Excludes root source markers) := by
  by_cases hCall : handle.node.kind = .call
  swap
  · simp [markerQuery, Query.results, hCall]
  have hParts : handle.children.Pairwise fun a b => ∀ f, a.node.field = some f →
      ∀ g, b.node.field = some g → f = .function ∧ g = .arguments := by
    have hFields := hRegular.pairwise_fields hCall
    rw [← Handle.map_node_children] at hFields
    exact List.pairwise_map.mp hFields
  rw [results_markerQuery hCall, List.pairwise_flatMap]
  constructor
  · -- with one callee: only one child has the arguments, and of these one text comes first
    rintro ⟨callee, behind⟩ hSplit
    dsimp only
    split
    swap
    · exact .nil
    obtain ⟨front, hChildren⟩ := mem_splits.mp hSplit
    have hLater : behind.Sublist handle.children :=
      hChildren ▸ List.sublist_append_of_sublist_right (List.sublist_cons_self callee behind)
    rw [List.pairwise_flatMap]
    constructor
    · intro arguments _
      split
      · exact pairwise_texts callee arguments
      · exact .nil
    · refine (hParts.sublist hLater).imp fun hPair captures hFound captures' hFound' => ?_
      obtain ⟨⟨-, hField⟩, -⟩ := List.mem_ite_nil_right.mp hFound
      obtain ⟨⟨-, hField'⟩, -⟩ := List.mem_ite_nil_right.mp hFound'
      exact absurd (hPair _ hField _ hField').1 (by decide)
  · -- and only one child is called
    have hSplits : ((splits handle.children).map Prod.fst).Pairwise _ :=
      (map_fst_splits handle.children).symm ▸ hParts
    refine (List.pairwise_map.mp hSplits).imp ?_
    rintro ⟨callee, _⟩ ⟨callee', _⟩ hPair captures hFound captures' hFound'
    obtain ⟨⟨-, hField⟩, -⟩ := List.mem_ite_nil_right.mp hFound
    obtain ⟨⟨-, hField'⟩, -⟩ := List.mem_ite_nil_right.mp hFound'
    exact absurd (hPair _ hField _ hField').2 (by decide)

/-! ## Marker calls -/

/-- A node with some text ends behind its start. -/
theorem Node.lt_of_text? {node : Node} {raw : String} (h : node.text? source = some raw)
    (hRaw : raw ≠ "") : node.start.offset < node.ending := by
  obtain ⟨⟨hForward, -⟩, hText⟩ := Option.ite_none_right_eq_some.mp h
  refine Nat.lt_of_le_of_ne hForward fun hEq => hRaw ?_
  have hEmpty : source.toUTF8.extract node.start.offset node.ending = "".toUTF8 := by
    rw [hEq, ByteArray.extract_same]
    rfl
  rw [hEmpty, Text.fromUTF8?_toUTF8] at hText
  exact (Option.some.inj hText).symm

/-- Nothing inside of a text literal is a call, and neither is the literal. -/
theorem Node.WellFormed.not_call {literal node : Node} {inner : List Nat} (h : root.WellFormed)
    (hLiteral : root.at? place = some literal) (hText : literal.kind = .string)
    (hNode : root.at? (place ++ inner) = some node) : node.kind ≠ .call := by
  rw [Node.at?_append, hLiteral, Option.bind_some] at hNode
  cases inner with
  | nil =>
    obtain rfl : literal = node := Option.some.inj (Node.at?_nil.symm.trans hNode)
    rw [hText]
    decide
  | cons i inner =>
    obtain ⟨child, hChild, hPart⟩ := Node.at?_cons_eq_some_iff.mp hNode
    exact (h _ _ hLiteral).quiet hText child (List.mem_of_getElem? hChild) inner node hPart

namespace IsMarkerCall

/-- A marker call is a call, its arguments stand below it, and its literal below them. -/
theorem nodes (h : IsMarkerCall root source markers place call) :
    ∃ j k node arguments literal, root.at? place = some node ∧ node.kind = .call ∧
      root.at? (place ++ [j]) = some arguments ∧ arguments.kind = .arguments ∧
      root.at? (place ++ [j, k]) = some literal ∧ literal.kind = .string ∧
      literal.start.offset < literal.ending ∧ call.location.offset = literal.start.offset := by
  obtain ⟨node, callee, literal, raw, hNode, ⟨hCall, -, -, ⟨arguments, hArguments, -, hKind, k,
    hFirst⟩, hText⟩, -, -, hRaw, hValue, hLocation⟩ := h
  obtain ⟨j, hj⟩ := List.getElem?_of_mem hArguments
  have hSome : raw ≠ "" := by
    rintro rfl
    simp [Text.decodeLiteral, Text.unquote?] at hValue
  refine ⟨j, k, node, arguments, literal, hNode, hCall, ?_, hKind, ?_, hText,
    Node.lt_of_text? hRaw hSome, by rw [hLocation]; rfl⟩
  · simp [Node.at?_append, hNode, Node.at?_cons, hj]
  · simp [Node.at?_append, hNode, Node.at?_cons, hj, hFirst.isChild]

/-- The literal of a marker call is not inside of the literal of another one. -/
theorem eq_of_inside {j k j' k' : Nat} {node arguments literal : Node} (hRoot : root.WellFormed)
    (hLiteral : root.at? (place ++ [j, k]) = some literal) (hText : literal.kind = .string)
    (hNode : root.at? place' = some node) (hCall : node.kind = .call)
    (hArguments : root.at? (place' ++ [j']) = some arguments)
    (hKind : arguments.kind = .arguments) (h : place ++ [j, k] <+: place' ++ [j', k']) :
    place = place' := by
  -- how far the literals are apart tells what of the other call the first literal would hold
  obtain ⟨inner, hInner⟩ := h
  rcases List.eq_nil_or_concat inner with rfl | ⟨inner, last, rfl⟩
  · rw [List.append_nil] at hInner
    exact List.append_inj_left' hInner rfl
  rw [List.concat_eq_append, ← List.append_assoc, show place' ++ [j', k'] = (place' ++ [j']) ++ [k']
    by simp] at hInner
  have hOuter := List.append_inj_left' hInner rfl
  rcases List.eq_nil_or_concat inner with rfl | ⟨inner, last, rfl⟩
  · rw [List.append_nil] at hOuter
    rw [← hOuter, hLiteral] at hArguments
    rw [← Option.some.inj hArguments, hText] at hKind
    exact absurd hKind (by decide)
  · rw [List.concat_eq_append, ← List.append_assoc] at hOuter
    rw [← List.append_inj_left' hOuter rfl] at hNode
    exact absurd hCall (hRoot.not_call hLiteral hText hNode)

/-- Marker calls at different places have different offsets. -/
theorem offset_ne (hRoot : root.WellFormed) (h : IsMarkerCall root source markers place call)
    (h' : IsMarkerCall root source markers place' call') (hNe : place ≠ place') :
    call.location.offset ≠ call'.location.offset := by
  obtain ⟨j, k, node, arguments, literal, hNode, hCall, hArguments, hKind, hLiteral, hText, hSome,
    hOffset⟩ := h.nodes
  obtain ⟨j', k', node', arguments', literal', hNode', hCall', hArguments', hKind', hLiteral',
    hText', hSome', hOffset'⟩ := h'.nodes
  -- one of the literals ends before the other starts, and neither is empty
  rcases hRoot.apart hLiteral hLiteral' with hInside | hInside | hBefore | hBehind
  · exact absurd (eq_of_inside hRoot hLiteral hText hNode' hCall' hArguments' hKind' hInside) hNe
  · exact absurd (eq_of_inside hRoot hLiteral' hText' hNode hCall hArguments hKind hInside).symm hNe
  · omega
  · omega

/-- The callee of a marker call is a marker. -/
theorem marker (h : IsMarkerCall root source markers place call) : call.callee ∈ markers := by
  obtain ⟨_, _, _, _, _, _, _, hMarker, _⟩ := h
  exact hMarker

/-- Which markers there are matters for nothing but the name that is called. -/
theorem of_marker {more : List String} (h : IsMarkerCall root source more place call)
    (hMarker : call.callee ∈ markers) : IsMarkerCall root source markers place call := by
  obtain ⟨node, callee, literal, raw, hNode, hCalls, hCallee, -, hRest⟩ := h
  exact ⟨node, callee, literal, raw, hNode, hCalls, hCallee, hMarker, hRest⟩

end IsMarkerCall

namespace Extraction

/-- The marker calls at one handle. -/
def callsAt (root : Node) (source : String) (markers : List String) (handle : Handle) :
    List MarkerCall :=
  (markerQuery.results handle).filterMap (MarkerCall.ofMatch? root source markers)

/-- The calls are those at all nodes, by their offsets. -/
theorem calls_eq : (Extraction.ofTree root source markers).calls =
    (root.located.flatMap (callsAt root source markers)).mergeSort
      fun a b => a.location.offset ≤ b.location.offset := by
  rw [Extraction.ofTree, List.filterMap_flatMap]
  rfl

/-- There is one call at a place that is a marker call, and none elsewhere. -/
theorem mem_callsAt_iff {node : Node} (hRoot : root.WellFormed)
    (hNode : root.at? place = some node) :
    call ∈ callsAt root source markers ⟨place, node⟩ ↔
      IsMarkerCall root source markers place call :=
  mem_filterMap_results_iff (hRoot _ _ hNode) hNode

/-- A node that is regular gives at most one call. -/
theorem callsAt_unique {handle : Handle} (hRegular : handle.node.IsRegular) :
    (callsAt root source markers handle).Pairwise fun _ _ => False :=
  List.pairwise_filterMap.mpr (pairwise_results hRegular)

end Extraction

/-- A place is one marker call at most. -/
theorem IsMarkerCall.unique (hRoot : root.WellFormed)
    (h : IsMarkerCall root source markers place call)
    (h' : IsMarkerCall root source markers place call') : call = call' := by
  obtain ⟨_, _, node, _, _, hNode, -⟩ := h.nodes
  have hMem := (Extraction.mem_callsAt_iff hRoot hNode).mpr h
  have hMem' := (Extraction.mem_callsAt_iff hRoot hNode).mpr h'
  have hOne : (Extraction.callsAt root source markers ⟨place, node⟩).Pairwise fun _ _ => False :=
    Extraction.callsAt_unique (hRoot _ _ hNode)
  cases hCase : Extraction.callsAt root source markers ⟨place, node⟩ with
  | nil => simp [hCase] at hMem
  | cons found others =>
    rw [hCase] at hMem hMem' hOne
    obtain rfl : others = [] :=
      List.eq_nil_iff_forall_not_mem.mpr (List.pairwise_cons.mp hOne).1
    rw [List.mem_singleton.mp hMem, List.mem_singleton.mp hMem']

namespace Extraction

/-- The calls of a well-formed tree are its marker calls. -/
theorem mem_calls_iff (hRoot : root.WellFormed) :
    call ∈ (Extraction.ofTree root source markers).calls ↔
      ∃ place, IsMarkerCall root source markers place call := by
  rw [calls_eq, List.mem_mergeSort, List.mem_flatMap]
  constructor
  · rintro ⟨⟨place, node⟩, hMem, hCall⟩
    exact ⟨place, (mem_callsAt_iff hRoot (Node.mem_located.mp hMem)).mp hCall⟩
  · rintro ⟨place, hCall⟩
    obtain ⟨_, _, node, _, _, hNode, -⟩ := hCall.nodes
    exact ⟨⟨place, node⟩, Node.mem_located.mpr hNode, (mem_callsAt_iff hRoot hNode).mpr hCall⟩

/-- The calls are in the order of their offsets. -/
theorem calls_pairwise (hRoot : root.WellFormed) :
    (Extraction.ofTree root source markers).calls.Pairwise
      fun a b => a.location.offset < b.location.offset := by
  -- sorting allows equal offsets, and that there are none has nothing to do with sorting
  have hSorted : (Extraction.ofTree root source markers).calls.Pairwise
      fun a b => a.location.offset ≤ b.location.offset := by
    rw [calls_eq]
    refine (List.pairwise_mergeSort ?_ ?_ _).imp of_decide_eq_true
    · intro a b c hab hbc
      exact decide_eq_true (Nat.le_trans (of_decide_eq_true hab) (of_decide_eq_true hbc))
    · intro a b
      simpa using Nat.le_total _ _
  have hApart : (root.located.flatMap (callsAt root source markers)).Pairwise
      fun a b => a.location.offset ≠ b.location.offset := by
    refine List.pairwise_flatMap.mpr ⟨fun handle hMem => ?_, ?_⟩
    · exact (callsAt_unique (hRoot _ _ (Node.mem_located.mp hMem))).imp nofun
    · refine (List.pairwise_map.mp (Node.nodup_located root)).imp_of_mem ?_
      intro first second hFirst hSecond hPlaces a ha b hb
      exact ((mem_callsAt_iff hRoot (Node.mem_located.mp hFirst)).mp ha).offset_ne hRoot
        ((mem_callsAt_iff hRoot (Node.mem_located.mp hSecond)).mp hb) hPlaces
  have hNe : (Extraction.ofTree root source markers).calls.Pairwise
      fun a b => a.location.offset ≠ b.location.offset := by
    rw [calls_eq]
    exact ((List.mergeSort_perm _ _).pairwise_iff fun h => Ne.symm h).mpr hApart
  exact (hSorted.and hNe).imp fun h => Nat.lt_of_le_of_ne h.1 h.2

/-- Two lists of calls in the order of their offsets are equal if they have the same members. -/
theorem eq_of_mem_iff {calls others : List MarkerCall}
    (hCalls : calls.Pairwise fun a b => a.location.offset < b.location.offset)
    (hOthers : others.Pairwise fun a b => a.location.offset < b.location.offset)
    (hMem : ∀ call, call ∈ calls ↔ call ∈ others) : calls = others := by
  have hNodup {l : List MarkerCall}
      (h : l.Pairwise fun a b => a.location.offset < b.location.offset) : l.Nodup :=
    h.imp (S := (· ≠ ·)) fun hLess hEq => Nat.ne_of_lt hLess (congrArg (·.location.offset) hEq)
  have hPerm : calls.Perm others :=
    (List.perm_ext_iff_of_nodup (hNodup hCalls) (hNodup hOthers)).mpr hMem
  exact hPerm.eq_of_pairwise (fun a b _ _ hab hba => absurd hab (Nat.lt_asymm hba)) hCalls hOthers

/-- Fewer markers leave out the calls of the others, and change nothing else. -/
theorem ofTree_eq_filter (hRoot : root.WellFormed) {more : List String} (h : markers ⊆ more) :
    Extraction.ofTree root source markers =
      { Extraction.ofTree root source more with
        calls := (Extraction.ofTree root source more).calls.filter (·.callee ∈ markers) } := by
  have hCalls : (Extraction.ofTree root source markers).calls
      = (Extraction.ofTree root source more).calls.filter (·.callee ∈ markers) := by
    refine eq_of_mem_iff (calls_pairwise hRoot) ((calls_pairwise hRoot).filter _) fun call => ?_
    rw [List.mem_filter, mem_calls_iff hRoot, mem_calls_iff hRoot, decide_eq_true_eq]
    constructor
    · rintro ⟨place, hCall⟩
      exact ⟨⟨place, hCall.of_marker (h hCall.marker)⟩, hCall.marker⟩
    · rintro ⟨⟨place, hCall⟩, hMarker⟩
      exact ⟨place, hCall.of_marker hMarker⟩
  rw [← hCalls]
  rfl

/-- The order and the repetition of markers do not matter. -/
theorem ofTree_congr (hRoot : root.WellFormed) {others : List String}
    (h : ∀ name, name ∈ others ↔ name ∈ markers) :
    Extraction.ofTree root source others = Extraction.ofTree root source markers := by
  have hAll : ∀ call ∈ (Extraction.ofTree root source markers).calls, call.callee ∈ others := by
    intro call hMem
    obtain ⟨_, hCall⟩ := (mem_calls_iff hRoot).mp hMem
    exact (h _).mpr hCall.marker
  rw [ofTree_eq_filter hRoot fun name hName => (h name).mp hName,
    List.filter_eq_self.mpr fun call hMem => decide_eq_true (hAll call hMem)]

/-- **Extraction is exact.** Take any well-formed syntax tree, with errors and comments anywhere,
and any source. The calls that are extracted are the marker calls of the tree: every place that is a
marker call gives one of them, every one of them stands at one place, and they are in the order of
their offsets. The calls for some markers are those for more markers that call one of them, so the
order and the repetition of markers do not matter. -/
theorem calls_exact (hRoot : root.WellFormed) (source : String) (markers : List String) :
    let calls := (Extraction.ofTree root source markers).calls
    (∀ place call, IsMarkerCall root source markers place call →
      call ∈ calls ∧ ∀ other, IsMarkerCall root source markers place other → other = call) ∧
    (∀ call ∈ calls, ∃! place, IsMarkerCall root source markers place call) ∧
    (calls.Pairwise fun a b => a.location.offset < b.location.offset) ∧
    (∀ more, markers ⊆ more → Extraction.ofTree root source markers =
      { Extraction.ofTree root source more with
        calls := (Extraction.ofTree root source more).calls.filter (·.callee ∈ markers) }) ∧
    (∀ others, (∀ name, name ∈ others ↔ name ∈ markers) →
      Extraction.ofTree root source others = Extraction.ofTree root source markers) := by
  refine ⟨fun place call hCall => ?_, fun call hMem => ?_, calls_pairwise hRoot,
    fun _ => ofTree_eq_filter hRoot, fun _ => ofTree_congr hRoot⟩
  · exact ⟨(mem_calls_iff hRoot).mpr ⟨place, hCall⟩, fun _ hOther => hOther.unique hRoot hCall⟩
  · obtain ⟨place, hCall⟩ := (mem_calls_iff hRoot).mp hMem
    refine ⟨place, hCall, fun place' hCall' => ?_⟩
    by_contra hNe
    exact hCall'.offset_ne hRoot hCall hNe rfl

/-- A call that is computed for a node is a marker call there. -/
theorem isMarkerCall_of_any (hRoot : root.WellFormed)
    (h : ((root.at? place).any fun node =>
      (callsAt root source markers ⟨place, node⟩).contains call) = true) :
    IsMarkerCall root source markers place call := by
  rw [Option.any_eq_true] at h
  obtain ⟨node, hNode, hMem⟩ := h
  exact (mem_callsAt_iff hRoot hNode).mp (List.contains_iff_mem.mp hMem)

/-- A comment in front of the first argument, a text in the second place, and a call in the
arguments of another one. A member that is called and a number in the first place make no marker
calls, and the bracket between them fits no rule. -/
theorem calls_exact_of_nested :
    let source := "q(/**/'','b',q('a'));o.q('');)q(0,'')"
    let root := parse .typed source
    let calls := (Extraction.of .typed source ["q"]).calls
    let outer : MarkerCall := ⟨"q", ⟨""⟩, ⟨1, 6, 6⟩⟩
    let inner : MarkerCall := ⟨"q", ⟨"a"⟩, ⟨1, 15, 15⟩⟩
    root.WellFormed ∧ root.hasError = true ∧
    (IsMarkerCall root source ["q"] [0, 0] outer ∧ outer ∈ calls) ∧
    (IsMarkerCall root source ["q"] [0, 0, 1, 6] inner ∧ inner ∈ calls) ∧
    (∃! place, IsMarkerCall root source ["q"] place inner) ∧
    (["q"] ⊆ ["t", "q", "q"] ∧ Extraction.of .typed source ["q"] =
      { Extraction.of .typed source ["t", "q", "q"] with
        calls := (Extraction.of .typed source ["t", "q", "q"]).calls.filter (·.callee ∈ ["q"]) }) ∧
    Extraction.of .typed source ["q", "q"] = Extraction.of .typed source ["q"] := by
  intro source root calls outer inner
  have hRoot : root.WellFormed := wellFormed_parse .typed source
  have hOuter : IsMarkerCall root source ["q"] [0, 0] outer :=
    isMarkerCall_of_any hRoot (by decide +kernel)
  have hInner : IsMarkerCall root source ["q"] [0, 0, 1, 6] inner :=
    isMarkerCall_of_any hRoot (by decide +kernel)
  have hSubset : ["q"] ⊆ ["t", "q", "q"] := by decide
  obtain ⟨hFound, hPlaced, -, hFewer, hAgain⟩ := calls_exact hRoot source ["q"]
  exact ⟨hRoot, by decide +kernel, ⟨hOuter, (hFound _ _ hOuter).1⟩,
    ⟨hInner, (hFound _ _ hInner).1⟩, hPlaced _ (hFound _ _ hInner).1,
    ⟨hSubset, hFewer _ hSubset⟩, hAgain _ (by simp)⟩

end Extraction

end KeyRegistry.Script

import KeyRegistry.Proofs.Script.Keeping

/-!
# How syntax trees are laid out

What is asked of a syntax tree, whoever has made it: the nodes inside a node stand within its
bounds, one behind the other, a call has at most one child that it calls and one that it calls it
with, and no call stands inside a text literal. Comments, nodes that fit no rule and nodes that were
put in may stand anywhere.

Of two nodes of such a tree one holds the other, or one ends before the other starts. The reader of
scripts makes such trees of all sources, in order or not.

Main definitions:

* `Node.IsRegular`, `Node.WellFormed` — what is asked of a node, and of a whole tree
* `State.LaidOut` — what holds of every state of the reader

Main statements:

* `Node.WellFormed.apart` — two nodes of a tree
* `wellFormed_parse` — the reader makes well-formed trees
-/

namespace KeyRegistry.Script

open KeyRegistry.Script.Parser

/-! ## Characters and bytes -/

/-- The number of bytes of some characters. -/
def byteLength (text : List Char) : Nat :=
  text.foldr (fun c length => c.utf8Size + length) 0

@[simp] theorem byteLength_nil : byteLength [] = 0 := rfl

/-- The length of a text in bytes, character by character. -/
theorem byteLength_cons (c : Char) (text : List Char) :
    byteLength (c :: text) = c.utf8Size + byteLength text := rfl

/-- The length of two texts one after the other is the sum of theirs. -/
theorem byteLength_append (front back : List Char) :
    byteLength (front ++ back) = byteLength front + byteLength back := by
  induction front with
  | nil => simp
  | cons c front ih => rw [List.cons_append, byteLength_cons, byteLength_cons, ih, Nat.add_assoc]

/-- Every character takes at least one byte. -/
theorem byteLength_pos {text : List Char} (h : text ≠ []) : 0 < byteLength text := by
  cases text with
  | nil => exact absurd rfl h
  | cons c text => exact Nat.add_pos_left c.utf8Size_pos _

namespace Position

/-- Reading a character moves the offset by its bytes. -/
theorem offset_advance (p : Position) (c : Char) :
    (p.advance c).offset = p.offset + c.utf8Size := by
  unfold advance
  split <;> rfl

/-- Behind some characters, the offset has grown by their bytes. -/
theorem offset_foldl_advance (text : List Char) (p : Position) :
    (text.foldl advance p).offset = p.offset + byteLength text := by
  induction text generalizing p with
  | nil => rfl
  | cons c text ih =>
    rw [List.foldl_cons, ih, offset_advance, byteLength_cons, Nat.add_assoc]

end Position

/-! ## Nodes and their places -/

namespace Node

variable {root node part : Node} {label : Label} {children : List Node} {place other : List Nat}
  {i : Nat} {field : Field}

@[simp] theorem label_mk : (mk label children).label = label := rfl

@[simp] theorem children_mk : (mk label children).children = children := rfl

@[simp] theorem kind_mk : (mk label children).kind = label.kind := rfl

@[simp] theorem field_mk : (mk label children).field = label.field := rfl

@[simp] theorem start_mk : (mk label children).start = label.start := rfl

@[simp] theorem ending_mk : (mk label children).ending = label.ending := rfl

@[simp] theorem children_inField : (node.inField field).children = node.children := by
  cases node; rfl

@[simp] theorem kind_inField : (node.inField field).kind = node.kind := by
  cases node; rfl

@[simp] theorem field_inField : (node.inField field).field = some field := by
  cases node; rfl

@[simp] theorem start_inField : (node.inField field).start = node.start := by
  cases node; rfl

@[simp] theorem ending_inField : (node.inField field).ending = node.ending := by
  cases node; rfl

/-- The empty place is that of the root. -/
@[simp] theorem at?_nil : root.at? [] = some root := by
  cases root; rfl

/-- A place is looked up child by child. -/
theorem at?_cons : root.at? (i :: place) = root.children[i]?.bind (·.at? place) := by
  cases root; rfl

/-- What stands at a place of a tree stands at the rest of the place in one of the children. -/
theorem at?_cons_eq_some_iff : root.at? (i :: place) = some part ↔
    ∃ child, root.children[i]? = some child ∧ child.at? place = some part := by
  rw [at?_cons, Option.bind_eq_some_iff]

/-- A place below another one is looked up from there. -/
theorem at?_append : root.at? (place ++ other) = (root.at? place).bind (·.at? other) := by
  induction place generalizing root with
  | nil => simp
  | cons i place ih =>
    rw [List.cons_append, at?_cons, at?_cons, Option.bind_assoc]
    exact congrArg _ (funext fun _ => ih)

/-- A node without others in it is the only one of its tree. -/
theorem at?_leaf : (leaf label).at? place = some part ↔ place = [] ∧ part = leaf label := by
  cases place with
  | nil => simp [eq_comm]
  | cons i place => simp [at?_cons, leaf]

/-! ## Properties of all nodes -/

/-- All nodes of a tree have a property. -/
def All (P : Node → Prop) (root : Node) : Prop :=
  ∀ place node, root.at? place = some node → P node

variable {P : Node → Prop}

/-- All nodes of a tree have a property if the root has it and all nodes of the trees below do. -/
theorem all_iff : root.All P ↔ P root ∧ ∀ child ∈ root.children, child.All P := by
  constructor
  · intro h
    refine ⟨h [] root at?_nil, fun child hChild place node hNode => ?_⟩
    obtain ⟨i, hi⟩ := List.getElem?_of_mem hChild
    exact h (i :: place) node (at?_cons_eq_some_iff.mpr ⟨child, hi, hNode⟩)
  · rintro ⟨hRoot, hChildren⟩ place node hNode
    cases place with
    | nil =>
      obtain rfl : root = node := Option.some.inj (at?_nil.symm.trans hNode)
      exact hRoot
    | cons i place =>
      obtain ⟨child, hChild, hPart⟩ := at?_cons_eq_some_iff.mp hNode
      exact hChildren child (List.mem_of_getElem? hChild) place node hPart

/-- A leaf has no nodes but itself. -/
theorem all_leaf : (leaf label).All P ↔ P (leaf label) := by
  rw [all_iff]
  simp [leaf]

/-- The part that a node plays in the node above may make a difference for the node alone. -/
theorem All.inField (hField : P node → P (node.inField field)) (h : node.All P) :
    (node.inField field).All P := by
  obtain ⟨hNode, hChildren⟩ := all_iff.mp h
  exact all_iff.mpr ⟨hField hNode, by simpa using hChildren⟩

/-! ## Well-formed trees -/

/-- What is asked of a node by itself: the nodes in it stand within its bounds, one behind the
other; a call has at most one child that it calls, and then at most one that it calls it with; and
no call stands inside a text literal. -/
structure IsRegular (node : Node) : Prop where
  inside : ∀ child ∈ node.children,
    node.start.offset ≤ child.start.offset ∧ child.ending ≤ node.ending
  inOrder : node.children.Pairwise fun a b => a.ending ≤ b.start.offset
  fields : node.kind = .call →
    (node.children.filterMap Node.field).Sublist [.function, .arguments]
  quiet : node.kind = .string → ∀ child ∈ node.children, ∀ place part,
    child.at? place = some part → part.kind ≠ .call

/-- What is asked of a tree is asked of all its nodes. -/
def WellFormed (root : Node) : Prop :=
  root.All IsRegular

/-- What is asked of a node does not depend on the part that it plays in the node above. -/
theorem IsRegular.inField (h : node.IsRegular) : (node.inField field).IsRegular :=
  ⟨by simpa using h.inside, by simpa using h.inOrder, by simpa using h.fields,
    by simpa using h.quiet⟩

/-- Leaves are well-formed. -/
theorem wellFormed_leaf : (leaf label).WellFormed :=
  all_leaf.mpr ⟨by simp [leaf], by simp [leaf], by simp [leaf], by simp [leaf]⟩

namespace WellFormed

/-- A node of a tree stands within the bounds of the tree. -/
theorem inside (h : root.WellFormed) (hNode : root.at? place = some node) :
    root.start.offset ≤ node.start.offset ∧ node.ending ≤ root.ending := by
  induction place generalizing root with
  | nil =>
    obtain rfl : root = node := Option.some.inj (at?_nil.symm.trans hNode)
    exact ⟨Nat.le_refl _, Nat.le_refl _⟩
  | cons i place ih =>
    obtain ⟨child, hChild, hPart⟩ := at?_cons_eq_some_iff.mp hNode
    have hMem : child ∈ root.children := List.mem_of_getElem? hChild
    obtain ⟨hRegular, hChildren⟩ := all_iff.mp h
    have hOuter := hRegular.inside child hMem
    have hInner := ih (hChildren child hMem) hPart
    omega

/-- Of two nodes of a tree one holds the other, or one ends before the other starts. -/
theorem apart (h : root.WellFormed) (hNode : root.at? place = some node)
    (hPart : root.at? other = some part) :
    place <+: other ∨ other <+: place ∨ node.ending ≤ part.start.offset ∨
      part.ending ≤ node.start.offset := by
  induction place generalizing root other with
  | nil => exact .inl List.nil_prefix
  | cons i place ih =>
    cases other with
    | nil => exact .inr (.inl List.nil_prefix)
    | cons j other =>
      obtain ⟨hRegular, hChildren⟩ := all_iff.mp h
      obtain ⟨child, hChild, hNode⟩ := at?_cons_eq_some_iff.mp hNode
      obtain ⟨child', hChild', hPart⟩ := at?_cons_eq_some_iff.mp hPart
      have hWell : child.WellFormed := hChildren child (List.mem_of_getElem? hChild)
      have hWell' : child'.WellFormed := hChildren child' (List.mem_of_getElem? hChild')
      -- in the same child the places differ further down; the nodes of one child all end before
      -- those of a later child start
      by_cases hSame : i = j
      · subst hSame
        obtain rfl : child = child' := Option.some.inj (hChild.symm.trans hChild')
        simpa using ih hWell hNode hPart
      · obtain ⟨hLength, rfl⟩ := List.getElem?_eq_some_iff.mp hChild
        obtain ⟨hLength', rfl⟩ := List.getElem?_eq_some_iff.mp hChild'
        have hBounds := hWell.inside hNode
        have hBounds' := hWell'.inside hPart
        have hBetween := List.pairwise_iff_getElem.mp hRegular.inOrder
        refine .inr (.inr ?_)
        rcases Nat.lt_or_gt_of_ne hSame with hLess | hMore
        · have := hBetween i j hLength hLength' hLess
          omega
        · have := hBetween j i hLength' hLength hMore
          omega

end WellFormed

end Node

/-! ## Parts -/

/-- The last child is the one that is put into the field of arguments; the others stay as they are.
-/
theorem lastInField_eq (children : List Node) :
    callFields.lastInField children = [] ∧ children = [] ∨
      ∃ front last, children = front ++ [last] ∧
        callFields.lastInField children = front ++ [last.inField .arguments] := by
  induction children with
  | nil => exact .inl ⟨rfl, rfl⟩
  | cons tree others ih =>
    right
    rcases ih with ⟨-, rfl⟩ | ⟨front, last, rfl, hLast⟩
    · exact ⟨[], tree, rfl, rfl⟩
    · refine ⟨tree :: front, last, rfl, ?_⟩
      cases front with
      | nil => rfl
      | cons next front => exact congrArg (tree :: ·) hLast

/-- What a call is made of are the trees that were read, but for the parts that they play. -/
theorem mem_callFields {children : List Node} {part : Node} (h : part ∈ callFields children) :
    ∃ child ∈ children, part = child ∨ ∃ field, part = child.inField field := by
  cases children with
  | nil => cases h
  | cons callee others =>
    rcases List.mem_cons.mp h with rfl | hOther
    · exact ⟨callee, List.mem_cons_self, .inr ⟨_, rfl⟩⟩
    rcases lastInField_eq others with ⟨hNone, rfl⟩ | ⟨front, last, rfl, hLast⟩
    · rw [hNone] at hOther
      cases hOther
    · rw [hLast, List.mem_append, List.mem_singleton] at hOther
      rcases hOther with hFront | rfl
      · exact ⟨part, by simp [hFront], .inl rfl⟩
      · exact ⟨last, by simp, .inr ⟨_, rfl⟩⟩

/-- What all trees have that a part is made of, and the part by itself, whatever it plays in the
nodes above, all trees have that come out. -/
theorem all_of_mem_gather {P : Node → Prop} {kind : Kind} {position : Position} {trees : List Node}
    (hField : ∀ node field, P node → P (node.inField field))
    (hPart : ∀ label children, label.kind = kind → label.isMissing = false → P (.mk label children))
    (hTrees : ∀ tree ∈ trees, tree.All P) : ∀ tree ∈ gather kind position trees, tree.All P := by
  have hChildren : ∀ child ∈ (trees.dropWhile (·.kind.isExtra)).reverse, child.All P :=
    fun child hChild => hTrees child ((List.dropWhile_sublist _).mem (List.mem_reverse.mp hChild))
  intro tree hTree
  rcases List.mem_append.mp hTree with hExtra | hTree
  · exact hTrees tree ((List.takeWhile_sublist _).mem hExtra)
  · rw [List.mem_singleton.mp hTree]
    refine Node.all_iff.mpr ⟨hPart _ _ rfl rfl, fun child hChild => ?_⟩
    rw [Node.children_mk] at hChild
    split at hChild
    · obtain ⟨child, hMem, rfl | ⟨field, rfl⟩⟩ := mem_callFields hChild
      · exact hChildren _ hMem
      · exact (hChildren _ hMem).inField (hField _ _)
    · exact hChildren child hChild

/-! ## States of the reader -/

/-- What holds of a tree that the reader leaves in front of an offset. -/
structure Node.Settled (limit : Nat) (tree : Node) : Prop where
  wellFormed : tree.WellFormed
  free : tree.field = none
  forward : tree.start.offset ≤ tree.ending
  behind : tree.ending ≤ limit

/-- A tree that is settled up to a limit is so up to a later one. -/
theorem Node.Settled.mono {limit limit' : Nat} {tree : Node} (h : tree.Settled limit)
    (hLimit : limit ≤ limit') : tree.Settled limit' :=
  ⟨h.wellFormed, h.free, h.forward, Nat.le_trans h.behind hLimit⟩

/-- One tree stands in front of another one, which comes first in the list of trees. -/
abbrev Later (later earlier : Node) : Prop :=
  earlier.ending ≤ later.start.offset

/-- The trees that the reader has left stand in front of it, in order. -/
structure State.LaidOut (s : State) : Prop where
  settled : ∀ tree ∈ s.trees, tree.Settled s.position.offset
  inOrder : s.trees.Pairwise Later

namespace State.LaidOut

variable {s : State} {trees : List Node} {tree : Node} {limit : Nat}

/-- Taking characters does not move the offset back. -/
theorem offset_take_le (s : State) (count : Nat) :
    s.position.offset ≤ (Parser.take count s).2.position.offset := by
  show _ ≤ ((s.rest.take count).foldl Position.advance s.position).offset
  rw [Position.offset_foldl_advance]
  exact Nat.le_add_right _ _

/-- A longer step leads at least as far. -/
theorem offset_take_mono (s : State) {fewer more : Nat} (h : fewer ≤ more) :
    (Parser.take fewer s).2.position.offset ≤ (Parser.take more s).2.position.offset := by
  obtain ⟨rest, hRest⟩ := List.take_prefix_take_left h (l := s.rest)
  show ((s.rest.take fewer).foldl Position.advance s.position).offset
    ≤ ((s.rest.take more).foldl Position.advance s.position).offset
  rw [Position.offset_foldl_advance, Position.offset_foldl_advance, ← hRest, byteLength_append]
  omega

/-- Taking characters keeps a state laid out: the trees that were read stay behind the position. -/
theorem take (h : s.LaidOut) (count : Nat) : (Parser.take count s).2.LaidOut where
  settled tree hTree := (h.settled tree hTree).mono (offset_take_le s count)
  inOrder := h.inOrder

/-- A new tree that starts where the reader stands comes behind all others. -/
theorem push (h : s.LaidOut) (count : Nat) (flawed : Bool) (hStart : tree.start = s.position)
    (hTree : tree.Settled (Parser.take count s).2.position.offset) :
    ({ (Parser.take count s).2 with trees := tree :: s.trees, flawed } : State).LaidOut where
  settled := List.forall_mem_cons.mpr ⟨hTree, (h.take count).settled⟩
  inOrder := by
    refine List.pairwise_cons.mpr ⟨fun other hOther => ?_, h.inOrder⟩
    rw [Later, hStart]
    exact (h.settled other hOther).behind

/-- A text literal is a well-formed tree, whatever is wrong inside of it. -/
theorem wellFormed_text {start : Position} {ending : Nat} {inner : Label}
    (hKind : inner.kind = .error) (hStart : start.offset ≤ inner.start.offset)
    (hEnding : inner.ending ≤ ending) (flawed : Bool) :
    (Node.mk { kind := .string, start, ending }
      (if flawed then [Node.leaf inner] else [])).WellFormed := by
  cases flawed with
  | false => exact Node.wellFormed_leaf
  | true =>
    refine Node.all_iff.mpr ⟨⟨?_, ?_, ?_, ?_⟩, ?_⟩
    · simpa [Node.leaf] using ⟨hStart, hEnding⟩
    · simp
    · simp
    · simp only [if_true, Node.children_mk, List.mem_singleton, forall_eq, Node.at?_leaf]
      rintro - place part ⟨-, rfl⟩
      simp [Node.leaf, hKind]
    · exact List.forall_mem_singleton.mpr Node.wellFormed_leaf

/-! ### Parts -/

/-- The earliest of some trees starts before all of them. -/
theorem start_getLast?_le (hOrder : trees.Pairwise Later)
    (hForward : ∀ tree ∈ trees, tree.start.offset ≤ tree.ending) (position : Position) :
    ∀ tree ∈ trees, ((trees.getLast?.map Node.start).getD position).offset ≤ tree.start.offset := by
  induction trees with
  | nil => simp
  | cons tree trees ih =>
    obtain ⟨hHead, hTail⟩ := List.pairwise_cons.mp hOrder
    obtain ⟨hTree, hTrees⟩ := List.forall_mem_cons.mp hForward
    cases trees with
    | nil => simp
    | cons next others =>
      rw [List.getLast?_cons_cons]
      -- the last of them starts no earlier than the next, which starts behind the end of this one
      have hLess := ih hTail hTrees
      refine List.forall_mem_cons.mpr ⟨?_, hLess⟩
      have := hLess next List.mem_cons_self
      have := hTrees next List.mem_cons_self
      have : next.ending ≤ tree.start.offset := hHead next List.mem_cons_self
      omega

/-- The latest of some trees ends behind all of them. -/
theorem le_ending_head? (hOrder : trees.Pairwise Later)
    (hForward : ∀ tree ∈ trees, tree.start.offset ≤ tree.ending) (ending : Nat) :
    ∀ tree ∈ trees, tree.ending ≤ (trees.head?.map Node.ending).getD ending := by
  cases trees with
  | nil => simp
  | cons tree trees =>
    obtain ⟨hHead, -⟩ := List.pairwise_cons.mp hOrder
    refine List.forall_mem_cons.mpr ⟨Nat.le_refl _, fun other hOther => ?_⟩
    have hLater : other.ending ≤ tree.start.offset := hHead other hOther
    exact Nat.le_trans hLater (hForward tree List.mem_cons_self)

/-- The offsets between which a tree stands. -/
def bounds (tree : Node) : Nat × Nat :=
  (tree.start.offset, tree.ending)

/-- The children of a call stand where the trees stood. -/
theorem bounds_callFields (children : List Node) :
    (callFields children).map bounds = children.map bounds := by
  cases children with
  | nil => rfl
  | cons callee others =>
    rcases lastInField_eq others with ⟨hNone, rfl⟩ | ⟨front, last, rfl, hLast⟩
    · simp [callFields, hNone, bounds]
    · simp [callFields, hLast, bounds]

/-- Only the first one and the last one play a part. -/
theorem filterMap_callFields {children : List Node} (h : ∀ child ∈ children, child.field = none) :
    ((callFields children).filterMap Node.field).Sublist [.function, .arguments] := by
  have hNone {trees : List Node} (hTrees : ∀ tree ∈ trees, tree.field = none) :
      trees.filterMap Node.field = [] := List.filterMap_eq_nil_iff.mpr hTrees
  cases children with
  | nil => exact List.nil_sublist _
  | cons callee others =>
    have hOthers := (List.forall_mem_cons.mp h).2
    rcases lastInField_eq others with ⟨hLast, rfl⟩ | ⟨front, last, rfl, hLast⟩
    · simp [callFields, hLast]
    · have hFront := hNone fun tree hTree => hOthers tree (List.mem_append_left _ hTree)
      simp [callFields, hLast, hFront]

/-- A part that is made of trees in order is well formed. -/
theorem wellFormed_part {kind : Kind} (hKind : kind ≠ .string) {start : Position} {ending : Nat}
    {children : List Node} (hWell : ∀ child ∈ children, child.WellFormed ∧ child.field = none)
    (hInside : ∀ child ∈ children, start.offset ≤ child.start.offset ∧ child.ending ≤ ending)
    (hOrder : children.Pairwise fun a b => a.ending ≤ b.start.offset) :
    (Node.mk { kind, start, ending }
      (if kind = .call then callFields children else children)).WellFormed := by
  by_cases hCall : kind = .call
  · -- the parts that the children play change neither their bounds nor what is inside of them
    rw [if_pos hCall]
    have hBounds := bounds_callFields children
    refine Node.all_iff.mpr ⟨⟨?_, ?_, fun _ => ?_, fun h => absurd h hKind⟩, ?_⟩
    · have hAll : ∀ b ∈ children.map bounds, start.offset ≤ b.1 ∧ b.2 ≤ ending :=
        List.forall_mem_map.mpr hInside
      rw [← hBounds] at hAll
      exact List.forall_mem_map.mp hAll
    · have hAll : (children.map bounds).Pairwise fun a b => a.2 ≤ b.1 :=
        List.pairwise_map.mpr hOrder
      rw [← hBounds] at hAll
      exact List.pairwise_map.mp hAll
    · exact filterMap_callFields fun child hChild => (hWell child hChild).2
    · intro part hPart
      obtain ⟨child, hChild, rfl | ⟨field, rfl⟩⟩ := mem_callFields hPart
      · exact (hWell _ hChild).1
      · exact (hWell _ hChild).1.inField Node.IsRegular.inField
  · rw [if_neg hCall]
    exact Node.all_iff.mpr ⟨⟨hInside, hOrder, fun h => absurd h hCall,
      fun h => absurd h hKind⟩, fun child hChild => (hWell child hChild).1⟩

section Gathering

variable {kind : Kind} {position : Position} {trees extras body : List Node} {bound start : Nat}

/-- A part that is made of some trees starts behind every bound that they start behind; a part
without trees starts at a position. -/
theorem le_start (hPosition : bound ≤ position.offset)
    (hTrees : ∀ tree ∈ trees, bound ≤ tree.start.offset) :
    bound ≤ ((trees.getLast?.map Node.start).getD position).offset := by
  cases hCase : trees.getLast? with
  | none => exact hPosition
  | some first => exact hTrees first (List.mem_of_getLast? hCase)

/-- It starts in front of every bound that they start in front of. -/
theorem start_le (hPosition : position.offset ≤ bound)
    (hTrees : ∀ tree ∈ trees, tree.start.offset ≤ bound) :
    ((trees.getLast?.map Node.start).getD position).offset ≤ bound := by
  cases hCase : trees.getLast? with
  | none => exact hPosition
  | some first => exact hTrees first (List.mem_of_getLast? hCase)

/-- It ends behind every bound that they end behind; a part without trees ends where it starts. -/
theorem le_ending (hStart : bound ≤ start) (hTrees : ∀ tree ∈ trees, bound ≤ tree.ending) :
    bound ≤ (trees.head?.map Node.ending).getD start := by
  cases trees with
  | nil => exact hStart
  | cons last others => exact hTrees last List.mem_cons_self

/-- It ends in front of every bound that they end in front of. -/
theorem ending_le (hStart : start ≤ bound) (hTrees : ∀ tree ∈ trees, tree.ending ≤ bound) :
    (trees.head?.map Node.ending).getD start ≤ bound := by
  cases trees with
  | nil => exact hStart
  | cons last others => exact hTrees last List.mem_cons_self

/-- A part that is made of trees in order is settled where they are, in front of the comments that
stay outside and behind everything that they stand behind. -/
theorem settled_part (hKind : kind ≠ .string) (hOrder : (extras ++ body).Pairwise Later)
    (hTrees : ∀ tree ∈ extras ++ body, tree.Settled position.offset) :
    let start := ((extras ++ body).getLast?.map Node.start).getD position
    let ending := (body.reverse.getLast?.map Node.ending).getD start.offset
    let part := Node.mk { kind, start, ending }
      (if kind = .call then callFields body.reverse else body.reverse)
    part.Settled position.offset ∧ (∀ other ∈ extras, Later other part) ∧
      ∀ earlier : Node, earlier.ending ≤ position.offset →
        (∀ tree ∈ extras ++ body, Later tree earlier) → Later part earlier := by
  rw [List.getLast?_reverse]
  intro start ending part
  obtain ⟨-, hBody, hBetween⟩ := List.pairwise_append.mp hOrder
  have hMem : ∀ tree ∈ body, tree ∈ extras ++ body := fun _ => List.mem_append_right _
  have hForward : ∀ tree ∈ extras ++ body, tree.start.offset ≤ tree.ending :=
    fun tree hTree => (hTrees tree hTree).forward
  -- the trees stand between the ends of the part, and in front of the position
  have hStart : ∀ tree ∈ extras ++ body, start.offset ≤ tree.start.offset :=
    start_getLast?_le hOrder hForward position
  have hEnding : ∀ tree ∈ body, tree.ending ≤ ending :=
    le_ending_head? hBody (fun tree hTree => hForward tree (hMem tree hTree)) start.offset
  have hLimit : start.offset ≤ position.offset :=
    start_le (Nat.le_refl _) fun tree hTree =>
      Nat.le_trans (hForward tree hTree) (hTrees tree hTree).behind
  have hWell : ∀ child ∈ body.reverse, child.WellFormed ∧ child.field = none := by
    intro child hChild
    have hSettled := hTrees child (hMem child (List.mem_reverse.mp hChild))
    exact ⟨hSettled.wellFormed, hSettled.free⟩
  have hInside : ∀ child ∈ body.reverse,
      start.offset ≤ child.start.offset ∧ child.ending ≤ ending := by
    intro child hChild
    have hChild := List.mem_reverse.mp hChild
    exact ⟨hStart child (hMem child hChild), hEnding child hChild⟩
  refine ⟨⟨wellFormed_part hKind hWell hInside (List.pairwise_reverse.mpr hBody), rfl, ?_, ?_⟩,
    fun other hOther => ?_, fun earlier hEarlier hAll => ?_⟩
  · exact le_ending (Nat.le_refl _) fun tree hTree =>
      Nat.le_trans (hStart tree (hMem tree hTree)) (hForward tree (hMem tree hTree))
  · exact ending_le hLimit fun tree hTree => (hTrees tree (hMem tree hTree)).behind
  · exact ending_le (hStart other (List.mem_append_left _ hOther)) (hBetween other hOther)
  · exact le_start hEarlier hAll

end Gathering

/-- A part that is made of the last trees takes their place. -/
theorem wrap (h : s.LaidOut) (kind : Kind) (hKind : kind ≠ .string) (mark : Nat) :
    (Parser.wrap kind mark s).2.LaidOut := by
  let count := s.trees.length - mark
  let extras := (s.trees.take count).takeWhile (·.kind.isExtra)
  let body := (s.trees.take count).dropWhile (·.kind.isExtra)
  have hTaken : extras ++ body = s.trees.take count := List.takeWhile_append_dropWhile
  obtain ⟨hOrder, hRest, hAcross⟩ : (extras ++ body).Pairwise Later ∧
      (s.trees.drop count).Pairwise Later ∧
        ∀ later ∈ extras ++ body, ∀ earlier ∈ s.trees.drop count, Later later earlier :=
    List.pairwise_append.mp (by rw [hTaken, List.take_append_drop]; exact h.inOrder)
  have hTrees : ∀ tree ∈ extras ++ body, tree.Settled s.position.offset :=
    fun tree hTree => h.settled tree (List.mem_of_mem_take (hTaken ▸ hTree))
  obtain ⟨hPart, hBefore, hBehind⟩ := settled_part hKind hOrder hTrees
  rw [hTaken] at hPart hBefore hBehind
  have hEarlier : ∀ earlier ∈ s.trees.drop count, earlier.ending ≤ s.position.offset :=
    fun earlier hMem => (h.settled earlier (List.mem_of_mem_drop hMem)).behind
  constructor
  · -- the comments that stay outside, the part, and what was there before
    show ∀ tree ∈ (extras ++ [_]) ++ s.trees.drop count, _
    simp only [List.forall_mem_append, List.forall_mem_singleton]
    exact ⟨⟨fun tree hTree => hTrees tree (List.mem_append_left _ hTree), hPart⟩,
      fun tree hTree => h.settled tree (List.mem_of_mem_drop hTree)⟩
  · show ((extras ++ [_]) ++ s.trees.drop count).Pairwise Later
    simp only [List.pairwise_append, List.pairwise_singleton, List.forall_mem_append,
      List.forall_mem_singleton, true_and]
    refine ⟨⟨(List.pairwise_append.mp hOrder).1, hBefore⟩, hRest,
      fun later hLater => hAcross later (List.mem_append_left _ hLater), fun earlier hMem => ?_⟩
    exact hBehind earlier (hEarlier earlier hMem) fun tree hTree =>
      hAcross tree (hTaken ▸ hTree) earlier hMem

instance : Stable State.LaidOut where
  flags _ _ _ _ h := ⟨h.settled, h.inOrder⟩
  take _ count h := h.take count
  leaf s _ count _ h := h.push count _ rfl
    ⟨Node.wellFormed_leaf, rfl, offset_take_le s count, Nat.le_refl _⟩
  text s _ _ extent _ _ _ h := h.push (extent.length + 1) _ rfl
    ⟨wellFormed_text rfl (offset_take_le s 1) (offset_take_mono s (Nat.le_succ _)) extent.flawed,
      rfl, offset_take_le s _, Nat.le_refl _⟩
  missing _ h := h.push 0 true rfl ⟨Node.wellFormed_leaf, rfl, Nat.le_refl _, Nat.le_refl _⟩
  wrap _ kind mark hKind h := h.wrap kind hKind mark

end State.LaidOut

/-! ## Scripts -/

/-- The reader makes well-formed trees, whatever is wrong in a source. -/
theorem wellFormed_parse (dialect : Dialect) (source : String) :
    (parse dialect source).WellFormed := by
  have hRead : (script dialect { rest := source.toList }).2.LaidOut :=
    Keeps.keeps _ ⟨fun _ hTree => absurd hTree List.not_mem_nil, .nil⟩
  refine Node.all_iff.mpr ⟨⟨fun child hChild => ?_, ?_, nofun, nofun⟩, fun child hChild => ?_⟩
  · exact ⟨Nat.zero_le _, (hRead.settled child (List.mem_reverse.mp hChild)).behind⟩
  · exact List.pairwise_reverse.mpr hRead.inOrder
  · exact (hRead.settled child (List.mem_reverse.mp hChild)).wellFormed

end KeyRegistry.Script

import KeyRegistry.Pattern

/-!
# Sets of patterns

A set is kept as its one listing: the members in strictly ascending order of their texts. Order
of code points and order of UTF-8 bytes agree, so the listing is the byte order of the texts.
Two sets with the same members are therefore equal.

Main definitions:

* `PatternSet.insert`, `PatternSet.union` — adding members
* `PatternSet.add` — an insertion that tells whether the member is new
* `PatternSet.expand` — the closure under parents

Main statements:

* `PatternSet.mem_insert` — membership after an insertion
* `PatternSet.mem_expand` — the closure holds the members and their parents, nothing else
-/

namespace KeyRegistry

/-- A finite set of patterns, listed in strictly ascending order of the texts. -/
structure PatternSet where
  members : List Pattern
  ascending : members.Pairwise fun p q => p.text < q.text := by exact List.Pairwise.nil

namespace PatternSet

/-- The set without members. -/
def empty : PatternSet where
  members := []

instance : EmptyCollection PatternSet := ⟨empty⟩

instance : Membership Pattern PatternSet where
  mem s p := p ∈ s.members

instance (p : Pattern) (s : PatternSet) : Decidable (p ∈ s) :=
  inferInstanceAs (Decidable (p ∈ s.members))

/-- Sets are equal if their listings are. -/
theorem members_inj {s t : PatternSet} : s.members = t.members ↔ s = t := by
  cases s
  cases t
  simp

instance : DecidableEq PatternSet := fun _ _ =>
  decidable_of_iff _ members_inj

/-- The number of members. -/
def size (s : PatternSet) : Nat :=
  s.members.length

/-- Whether there is no member. -/
def isEmpty (s : PatternSet) : Bool :=
  s.members.isEmpty

/-- Puts a pattern at its place in an ascending list, unless it is there. -/
def place (p : Pattern) : List Pattern → List Pattern
  | [] => [p]
  | q :: rest =>
    if p = q then q :: rest
    else if p.text < q.text then p :: q :: rest
    else q :: place p rest

theorem mem_place {p x : Pattern} {ps : List Pattern} : x ∈ place p ps ↔ x = p ∨ x ∈ ps := by
  induction ps with
  | nil => simp [place]
  | cons q rest ih =>
    unfold place
    split
    · next h => subst h; simp
    · split
      · simp
      · simp [ih, or_left_comm]

theorem text_lt_of_ne_of_not_lt {p q : Pattern} (hne : p ≠ q) (h : ¬ p.text < q.text) :
    q.text < p.text := by
  have hle : q.text ≤ p.text := String.not_lt.1 h
  rcases Classical.em (q.text < p.text) with hlt | hnot
  · exact hlt
  · refine absurd ?_ hne
    have : p.text = q.text := String.le_antisymm (String.not_lt.1 hnot) hle
    cases p; cases q; simp_all

theorem pairwise_place {p : Pattern} {ps : List Pattern}
    (h : ps.Pairwise fun a b => a.text < b.text) :
    (place p ps).Pairwise fun a b => a.text < b.text := by
  induction ps with
  | nil => simp [place]
  | cons q rest ih =>
    have ⟨hq, hrest⟩ := List.pairwise_cons.1 h
    unfold place
    split
    · exact h
    · next hne =>
      split
      · next hlt =>
        refine List.pairwise_cons.2 ⟨fun x hx => ?_, h⟩
        rcases List.mem_cons.1 hx with rfl | hx
        · exact hlt
        · exact String.lt_trans hlt (hq x hx)
      · next hnlt =>
        refine List.pairwise_cons.2 ⟨fun x hx => ?_, ih hrest⟩
        rcases mem_place.1 hx with rfl | hx
        · exact text_lt_of_ne_of_not_lt hne hnlt
        · exact hq x hx

/-- Adds a pattern. -/
def insert (s : PatternSet) (p : Pattern) : PatternSet where
  members := place p s.members
  ascending := pairwise_place s.ascending

/-- Adds a pattern and tells whether it is new, so that the listing has become longer. -/
def add (s : PatternSet) (p : Pattern) : PatternSet × Bool :=
  (s.insert p, decide (s.size < (s.insert p).size))

/-- Adds the patterns of a list. -/
def insertAll (s : PatternSet) (ps : List Pattern) : PatternSet :=
  ps.foldl insert s

/-- The set of the patterns in a list. -/
def ofList (ps : List Pattern) : PatternSet :=
  empty.insertAll ps

/-- The patterns of either set. -/
def union (s t : PatternSet) : PatternSet :=
  s.insertAll t.members

/-- The closure under parents: the members together with the parents of each. A parent of a
parent is a parent, so one sweep over the members is enough. -/
def expand (s : PatternSet) : PatternSet :=
  s.insertAll (s.members.flatMap Pattern.parents)

@[simp] theorem mem_insert {p x : Pattern} {s : PatternSet} : x ∈ s.insert p ↔ x = p ∨ x ∈ s :=
  mem_place

@[simp] theorem not_mem_empty {x : Pattern} : ¬ x ∈ empty :=
  List.not_mem_nil

@[simp] theorem mem_insertAll {x : Pattern} {ps : List Pattern} {s : PatternSet} :
    x ∈ s.insertAll ps ↔ x ∈ ps ∨ x ∈ s := by
  induction ps generalizing s with
  | nil => simp [insertAll]
  | cons p rest ih =>
    rw [insertAll, List.foldl_cons, ← insertAll, ih, mem_insert, List.mem_cons]
    simp [or_assoc, or_left_comm]

@[simp] theorem mem_union {x : Pattern} {s t : PatternSet} : x ∈ s.union t ↔ x ∈ s ∨ x ∈ t := by
  rw [union, mem_insertAll, or_comm]
  exact Iff.rfl

theorem mem_expand {x : Pattern} {s : PatternSet} :
    x ∈ s.expand ↔ x ∈ s ∨ ∃ p ∈ s.members, x ∈ p.parents := by
  rw [expand, mem_insertAll, List.mem_flatMap, or_comm]

end PatternSet

end KeyRegistry

import Mathlib.Data.Set.Card
import KeyRegistry.Proofs.Pattern.Closure
import KeyRegistry.Proofs.Text.ByteOrder

/-!
# Sets of patterns as sets

A set of patterns is made from the empty one by insertions, extensions, mergers and expansions.
Whatever the order of these and however often a pattern is put in, the result is the mathematical
set of what was put in, closed under parents where it was expanded. It has one listing, in which the
texts ascend in the order of their UTF-8 bytes, so that sets with the same members are listed alike.
A parent stands before what lies below it, since its text is the beginning of theirs.

Main definitions:

* `Pattern.InHierarchy` — the closure of some patterns under parents
* `PatternSet.Making` — the operations that a set was made by

Main statements:

* `PatternSet.add_isNew_iff` — an insertion is new exactly if the pattern was absent
* `PatternSet.eq_members_iff` — the one listing of a set
* `PatternSet.sublist_members` — the order of the listing
* `PatternSet.Making.behaves_as_set` — sets of patterns are sets
-/

namespace KeyRegistry

namespace Pattern

variable {p q : Pattern} {patterns : Set Pattern}

/-! ## Parents -/

/-- A pattern belongs to the hierarchy of some patterns if it is one of them or a parent of one that
belongs to it. -/
inductive InHierarchy (patterns : Set Pattern) : Pattern → Prop
  | member {p : Pattern} (h : p ∈ patterns) : InHierarchy patterns p
  | parent {p q : Pattern} (h : InHierarchy patterns p) (hParent : q.IsParent p) :
      InHierarchy patterns q

/-- Parents of parents are parents, so one step up from the patterns is enough. -/
theorem inHierarchy_iff :
    InHierarchy patterns q ↔ q ∈ patterns ∨ ∃ p ∈ patterns, q.IsParent p := by
  constructor
  · intro h
    induction h with
    | member hMem => exact Or.inl hMem
    | @parent p q _ hParent ih =>
      rcases ih with hMem | ⟨child, hMem, hAbove⟩
      · exact Or.inr ⟨p, hMem, hParent⟩
      · exact Or.inr ⟨child, hMem, hParent.trans hAbove⟩
  · rintro (hMem | ⟨p, hMem, hParent⟩)
    · exact .member hMem
    · exact .parent (.member hMem) hParent

/-- A parent comes before what lies below it: its text is the beginning of theirs. -/
theorem IsParent.lt (h : q.IsParent p) : q.text < p.text := by
  obtain ⟨rest, hText⟩ := isParent_iff.mp h
  have hLonger : q.text.toList ++ [] < q.text.toList ++ '/' :: rest :=
    List.append_left_lt (List.nil_lt_cons '/' rest)
  rw [List.append_nil] at hLonger
  rw [String.lt_iff, ← hText, List.append_assoc]
  exact hLonger

end Pattern

namespace PatternSet

variable {s : PatternSet} {p q : Pattern}

/-! ## The listing -/

/-- No member is listed twice. -/
theorem nodup_members (s : PatternSet) : s.members.Nodup := by
  refine s.ascending.imp fun {p q} hLess hSame => ?_
  rw [hSame] at hLess
  exact String.lt_irrefl _ hLess

/-- The size is the number of members. -/
theorem encard_eq_size (s : PatternSet) : {p | p ∈ s}.encard = s.size := by
  have hMembers : {p | p ∈ s} = (s.members.toFinset : Set Pattern) := (List.coe_toFinset _).symm
  rw [hMembers, Set.encard_coe_eq_coe_finsetCard, List.toFinset_card_of_nodup (nodup_members s)]
  rfl

/-- A list is the listing of a set if its texts ascend byte by byte and it has the same members. -/
theorem eq_members_iff {listing : List Pattern} : listing = s.members ↔
    (listing.Pairwise fun p q => Text.bytes p.text < Text.bytes q.text) ∧
      ∀ p, p ∈ listing ↔ p ∈ s := by
  constructor
  · rintro rfl
    exact ⟨s.ascending.imp Text.bytes_lt_of_lt, fun p => Iff.rfl⟩
  · rintro ⟨hBytes, hMembers⟩
    have hAscending : listing.Pairwise fun p q => p.text < q.text :=
      hBytes.imp Text.lt_iff_bytes_lt.mpr
    have hSame : (⟨listing, hAscending⟩ : PatternSet) = s := ext_mem hMembers
    exact congrArg members hSame

/-- In the listing the lesser of two members stands first. -/
theorem sublist_members (hq : q ∈ s) (hp : p ∈ s) (hLess : q.text < p.text) :
    [q, p].Sublist s.members := by
  obtain ⟨front, back, hSplit⟩ := List.append_of_mem hq
  have hAscending := s.ascending
  have hMem : p ∈ s.members := hp
  rw [hSplit] at hAscending hMem ⊢
  obtain ⟨-, -, hFront⟩ := List.pairwise_append.mp hAscending
  -- what stands in front of a member is less, and the member itself is not
  rcases List.mem_append.mp hMem with hBefore | hBehind
  · exact absurd hLess (String.lt_asymm (hFront p hBefore q List.mem_cons_self))
  · rcases List.mem_cons.mp hBehind with rfl | hBehind
    · exact absurd hLess (String.lt_irrefl _)
    · refine List.Sublist.trans ?_ (List.sublist_append_right front _)
      exact List.cons_sublist_cons.mpr (List.singleton_sublist.mpr hBehind)

/-! ## Insertions -/

theorem insert_of_mem (h : p ∈ s) : s.insert p = s :=
  ext_mem fun _ => mem_insert.trans (or_iff_right_of_imp fun hSame => hSame ▸ h)

theorem size_insert_of_notMem (h : p ∉ s) : (s.insert p).size = s.size + 1 := by
  -- the new listing has the members of the old one with the pattern in front
  have hListing : (s.insert p).members.Perm (p :: s.members) := by
    rw [List.perm_ext_iff_of_nodup (nodup_members _) (List.nodup_cons.mpr ⟨h, nodup_members s⟩)]
    intro x
    rw [List.mem_cons]
    exact mem_insert
  exact hListing.length_eq

/-- An insertion is new exactly if the pattern was absent. -/
theorem add_isNew_iff : (s.add p).2 = true ↔ p ∉ s := by
  rw [add, decide_eq_true_iff]
  by_cases h : p ∈ s
  · rw [insert_of_mem h]
    simp [h]
  · rw [size_insert_of_notMem h]
    simp [h]

/-! ## Sequences of operations -/

/-- The operations that a set is made by, from the empty one on. A set that is merged in has been
made by operations of its own. -/
inductive Making where
  | empty
  | insert (before : Making) (p : Pattern)
  | extend (before : Making) (ps : List Pattern)
  | merge (before other : Making)
  | expand (before : Making)

namespace Making

/-- The set that some operations make. -/
def set : Making → PatternSet
  | .empty => PatternSet.empty
  | .insert before p => (before.set.add p).1
  | .extend before ps => before.set.insertAll ps
  | .merge before other => before.set.union other.set
  | .expand before => before.set.expand

/-- The patterns that some operations put in, closed under parents where they expand. -/
def patterns : Making → Set Pattern
  | .empty => ∅
  | .insert before p => before.patterns ∪ {p}
  | .extend before ps => before.patterns ∪ {p | p ∈ ps}
  | .merge before other => before.patterns ∪ other.patterns
  | .expand before => {p | p.InHierarchy before.patterns}

/-- The members of a set are the patterns that were put in. -/
theorem mem_set (m : Making) : p ∈ m.set ↔ p ∈ m.patterns := by
  induction m generalizing p with
  | empty => exact iff_of_false not_mem_empty (Set.notMem_empty p)
  | insert before x ih => exact mem_insert.trans ((or_congr_right ih).trans or_comm)
  | extend before ps ih => exact mem_insertAll.trans ((or_congr_right ih).trans or_comm)
  | merge before other ih ihOther => exact mem_union.trans (or_congr ih ihOther)
  | expand before ih =>
    refine mem_expand_iff.trans (Iff.trans ?_ Pattern.inHierarchy_iff.symm)
    simp only [ih]

theorem patterns_eq (m : Making) : m.patterns = {p | p ∈ m.set} :=
  Set.ext fun _ => (mem_set m).symm

/-- Sets are equal exactly if the same patterns were put in. -/
theorem set_eq_iff (m n : Making) : m.set = n.set ↔ m.patterns = n.patterns := by
  constructor
  · intro hSets
    rw [patterns_eq, patterns_eq, hSets]
  · intro hPatterns
    refine ext_mem fun p => ?_
    rw [mem_set, mem_set, hPatterns]

/-- **Sets of patterns are sets.** Whatever operations a set was made by: its members are the
patterns that were put in, and two sets are equal if and only if the same patterns were. An
insertion tells that it is new exactly if the pattern was absent. The size is the number of
patterns. There is one list of the patterns whose texts ascend byte by byte, the listing, so sets
with the same patterns are listed alike. In the listing of an expanded set every pattern has its
parents before it. -/
theorem behaves_as_set :
    (∀ (m : Making) (p : Pattern), p ∈ m.set ↔ p ∈ m.patterns) ∧
      (∀ m n : Making, m.set = n.set ↔ m.patterns = n.patterns) ∧
      (∀ (m : Making) (p : Pattern), (m.set.add p).2 = true ↔ p ∉ m.patterns) ∧
      (∀ m : Making, m.patterns.encard = m.set.size) ∧
      (∀ (m : Making) (listing : List Pattern), listing = m.set.members ↔
        (listing.Pairwise fun p q => Text.bytes p.text < Text.bytes q.text) ∧
          ∀ p, p ∈ listing ↔ p ∈ m.patterns) ∧
      (∀ m n : Making, m.set.members = n.set.members ↔ m.patterns = n.patterns) ∧
      ∀ (m : Making) (p q : Pattern), p ∈ m.expand.patterns → q.IsParent p →
        [q, p].Sublist m.expand.set.members := by
  refine ⟨fun m p => mem_set m, set_eq_iff, fun m p => ?_, fun m => ?_, fun m listing => ?_,
    fun m n => ?_, fun m p q hMem hParent => ?_⟩
  · rw [add_isNew_iff, mem_set]
  · rw [patterns_eq, encard_eq_size]
  · simp only [eq_members_iff, mem_set]
  · rw [members_inj, set_eq_iff]
  · have hAbove : q ∈ m.expand.patterns := .parent hMem hParent
    exact sublist_members ((mem_set m.expand).mpr hAbove) ((mem_set m.expand).mpr hMem) hParent.lt

/-- Two sets with a common pattern, merged. -/
def merged : Making :=
  .merge (.insert .empty ⟨"é/b"⟩) (.extend .empty [⟨"z"⟩, ⟨"é/b"⟩, ⟨"z"⟩])

/-- When a merged set is expanded, the parent of a common pattern stands before it and is not new
when it is put in again. -/
theorem behaves_as_set_of_merged :
    (⟨"é/b"⟩ : Pattern) ∈ merged.expand.patterns ∧ (⟨"é"⟩ : Pattern).IsParent ⟨"é/b"⟩ ∧
      [⟨"é"⟩, ⟨"é/b"⟩].Sublist merged.expand.set.members ∧
      (merged.expand.set.add ⟨"é"⟩).2 = false := by
  obtain ⟨-, -, hNew, -, -, -, hBefore⟩ := behaves_as_set
  have hMem : (⟨"é/b"⟩ : Pattern) ∈ merged.expand.patterns := .member (Or.inl (Or.inr rfl))
  have hParent : (⟨"é"⟩ : Pattern).IsParent ⟨"é/b"⟩ := ⟨"b", rfl⟩
  refine ⟨hMem, hParent, hBefore merged _ _ hMem hParent, ?_⟩
  rw [Bool.eq_false_iff, ne_eq, hNew, not_not]
  exact .parent hMem hParent

end Making

end PatternSet

end KeyRegistry

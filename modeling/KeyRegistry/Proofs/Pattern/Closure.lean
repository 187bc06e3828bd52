import Mathlib.Data.List.Sort
import Mathlib.Order.Bounds.Basic
import KeyRegistry.Pattern.Set

/-!
# The hierarchy of a set of patterns

Every pattern stands below the patterns that it continues: a parent of a pattern is what is left of
one of its slashes. Patterns are taken literally, so a parent may be empty, may end with a slash, or
may hold any other character. Sets of patterns are ordered by inclusion, and in this order the
expansion of a set is the least set above it that holds with every pattern its parents.

The expansion is one sweep over the members that it is given and looks at no parent again. It is
complete because to be a parent is transitive.

Main definitions:

* `Pattern.IsParent` — to end before a slash of another pattern
* `PatternSet.IsClosed` — to hold every parent of a member

Main statements:

* `Pattern.mem_parents` — the parents of a pattern are all of these
* `PatternSet.isLeast_expand` — the expansion is the least closed set above
* `PatternSet.hierarchy_is_closure` — the expansion is a closure operator that respects unions
-/

namespace KeyRegistry

/-! ## Parents -/

namespace Pattern

variable {p q r : Pattern}

/-- A pattern is a parent of another if the other goes on with a slash where it ends. -/
def IsParent (q p : Pattern) : Prop :=
  ∃ rest, p.text = q.text ++ "/" ++ rest

/-- A parent of a parent is a parent: it ends before an earlier slash of the same text. -/
theorem IsParent.trans (hFar : r.IsParent q) (hNear : q.IsParent p) : r.IsParent p := by
  obtain ⟨middle, hMiddle⟩ := hFar
  obtain ⟨rest, hRest⟩ := hNear
  refine ⟨middle ++ "/" ++ rest, ?_⟩
  rw [hRest, hMiddle]
  simp only [String.append_assoc]

/-- The stems of a text are what stands before one of its slashes. -/
theorem mem_stems {stem text : List Char} : stem ∈ stems text ↔ stem ++ ['/'] <+: text := by
  induction text generalizing stem with
  | nil => simp [stems]
  | cons c rest ih =>
    have hHead : stem ∈ (if c = '/' then [[]] else []) ↔ stem = [] ∧ c = '/' := by
      split <;> simp_all
    rw [stems, List.mem_append, List.mem_map, hHead]
    cases stem with
    | nil => simp [eq_comm]
    | cons first others =>
      -- a stem that is not empty starts with the first character of the text
      simp only [reduceCtorEq, false_and, false_or, List.cons.injEq, List.cons_append,
        List.cons_prefix_cons]
      constructor
      · rintro ⟨_, hStem, rfl, rfl⟩
        exact ⟨rfl, ih.mp hStem⟩
      · rintro ⟨rfl, hPrefix⟩
        exact ⟨others, ih.mpr hPrefix, rfl, rfl⟩

/-- A parent and its slash are a prefix of the text. -/
theorem isParent_iff : q.IsParent p ↔ q.text.toList ++ ['/'] <+: p.text.toList := by
  constructor
  · rintro ⟨rest, hRest⟩
    refine ⟨rest.toList, ?_⟩
    rw [hRest]
    simp
  · rintro ⟨rest, hRest⟩
    refine ⟨String.ofList rest, String.toList_inj.mp ?_⟩
    simp [← hRest]

/-- The parents of a pattern are the patterns that end before one of its slashes. -/
theorem mem_parents : q ∈ p.parents ↔ q.IsParent p := by
  have hText : q ∈ p.parents ↔ q.text.toList ∈ stems p.text.toList := by
    unfold parents
    rw [List.mem_map]
    constructor
    · rintro ⟨stem, hStem, rfl⟩
      rwa [String.toList_ofList]
    · intro hStem
      exact ⟨q.text.toList, hStem, by rw [String.ofList_toList]⟩
  rw [hText, mem_stems, isParent_iff]

end Pattern

/-! ## Sets by inclusion -/

namespace PatternSet

variable {s t u : PatternSet} {p q : Pattern}

/-- Sets with the same members are equal, since each has one listing. -/
theorem ext_mem (h : ∀ p, p ∈ s ↔ p ∈ t) : s = t := by
  have : Std.Irrefl (fun p q : Pattern => p.text < q.text) := ⟨fun p => String.lt_irrefl p.text⟩
  have : Std.Asymm (fun p q : Pattern => p.text < q.text) := ⟨fun p q => String.lt_asymm⟩
  exact members_inj.mp (s.ascending.eq_of_mem_iff t.ascending h)

/-- Sets are ordered by inclusion, and the union is the least set above both. -/
instance : SemilatticeSup PatternSet where
  le s t := ∀ p ∈ s, p ∈ t
  le_refl _ _ hMem := hMem
  le_trans _ _ _ hLeft hRight p hMem := hRight p (hLeft p hMem)
  le_antisymm _ _ hLeft hRight := ext_mem fun p => ⟨hLeft p, hRight p⟩
  sup := union
  le_sup_left _ _ _ hMem := mem_union.mpr (.inl hMem)
  le_sup_right _ _ _ hMem := mem_union.mpr (.inr hMem)
  sup_le _ _ _ hLeft hRight p hMem := (mem_union.mp hMem).elim (hLeft p) (hRight p)

theorem sup_def : s ⊔ t = s.union t :=
  rfl

/-! ## The expansion -/

/-- A set is closed if it holds every parent of a member. -/
def IsClosed (s : PatternSet) : Prop :=
  ∀ p ∈ s, ∀ q : Pattern, q.IsParent p → q ∈ s

/-- The members of the expansion are the members and what is a parent of one of them. -/
theorem mem_expand_iff : q ∈ s.expand ↔ q ∈ s ∨ ∃ p ∈ s, q.IsParent p := by
  simp only [mem_expand, Pattern.mem_parents]
  exact Iff.rfl

/-- One sweep is enough: the parents of the parents have been met as parents. -/
theorem isClosed_expand (s : PatternSet) : s.expand.IsClosed := by
  intro p hMem q hParent
  rw [mem_expand_iff] at hMem ⊢
  right
  rcases hMem with hMem | ⟨child, hChild, hAbove⟩
  · exact ⟨p, hMem, hParent⟩
  · exact ⟨child, hChild, hParent.trans hAbove⟩

/-- The expansion is the least closed set that holds the members. -/
theorem isLeast_expand (s : PatternSet) : IsLeast {u | s ≤ u ∧ u.IsClosed} s.expand := by
  refine ⟨⟨fun p hMem => mem_expand_iff.mpr (.inl hMem), isClosed_expand s⟩, ?_⟩
  rintro u ⟨hAbove, hClosed⟩ q hMem
  rcases mem_expand_iff.mp hMem with hMem | ⟨p, hMem, hParent⟩
  · exact hAbove q hMem
  · exact hClosed p (hAbove p hMem) q hParent

theorem le_expand (s : PatternSet) : s ≤ s.expand :=
  (isLeast_expand s).1.1

/-- The expansion of a set stays within a closed set that holds the set. -/
theorem expand_le (hAbove : s ≤ u) (hClosed : u.IsClosed) : s.expand ≤ u :=
  (isLeast_expand s).2 ⟨hAbove, hClosed⟩

theorem IsClosed.sup (hs : s.IsClosed) (ht : t.IsClosed) : (s ⊔ t).IsClosed := by
  intro p hMem q hParent
  rw [sup_def, mem_union] at hMem ⊢
  exact hMem.imp (hs p · q hParent) (ht p · q hParent)

theorem expand_eq_self (hClosed : s.IsClosed) : s.expand = s :=
  le_antisymm (expand_le le_rfl hClosed) (le_expand s)

theorem monotone_expand : Monotone expand := by
  intro s t hLe
  exact expand_le (hLe.trans (le_expand t)) (isClosed_expand t)

/-- Only parents are added, each for one member, so it does not matter which set the member is of.
-/
theorem expand_sup (s t : PatternSet) : (s ⊔ t).expand = s.expand ⊔ t.expand := by
  apply le_antisymm
  · refine expand_le ?_ ((isClosed_expand s).sup (isClosed_expand t))
    exact sup_le_sup (le_expand s) (le_expand t)
  · exact sup_le (monotone_expand le_sup_left) (monotone_expand le_sup_right)

/-- The expansion is the closure operator of the hierarchy. It holds the members and their parents
and nothing else, which makes it the least closed set above; a second expansion adds nothing, a
larger set has a larger expansion, and a union may be expanded before, after, or in part before. -/
theorem hierarchy_is_closure :
    (∀ (s : PatternSet) (q : Pattern), q ∈ s.expand ↔ q ∈ s ∨ ∃ p ∈ s, q.IsParent p) ∧
    (∀ s : PatternSet, IsLeast {u : PatternSet | s ≤ u ∧ u.IsClosed} s.expand) ∧
    (∀ s : PatternSet, s.expand.expand = s.expand) ∧
    Monotone expand ∧
    (∀ s t : PatternSet, (s.union t).expand = s.expand.union t.expand ∧
      (s.union t).expand = (s.expand.union t).expand) := by
  refine ⟨fun s q => mem_expand_iff, isLeast_expand,
    fun s => expand_eq_self (isClosed_expand s), monotone_expand, fun s t => ?_⟩
  have hUnion : (s.union t).expand = s.expand.union t.expand := expand_sup s t
  refine ⟨hUnion, ?_⟩
  calc (s.union t).expand
      = s.expand ⊔ t.expand := hUnion
    _ = s.expand.expand ⊔ t.expand := by rw [expand_eq_self (isClosed_expand s)]
    _ = (s.expand.union t).expand := (expand_sup s.expand t).symm

/-- Empty segments and a slash at the end count like any other. -/
example : ((ofList [⟨"é//b/"⟩]).expand.members.map Pattern.text) =
    ["é", "é/", "é//b", "é//b/"] := by
  decide +kernel

end PatternSet

end KeyRegistry

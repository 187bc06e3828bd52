import Mathlib.Data.List.Basic
import KeyRegistry.Pattern
import KeyRegistry.Proofs.Pattern.Closure
import KeyRegistry.Proofs.Text.ByteOrder

/-!
# The decomposition of a pattern

A pattern is taken apart in three ways: into the segments between its slashes, into its parents,
which end before its slashes, and into slices of its text, which are cut at the offsets of its
slashes. All three describe the same decomposition, whatever stands between the slashes, and if
nothing does.

The parents are in order, each of them a parent of the next. So the parents of a parent are those
that come before it.

Main statements:

* `Pattern.stems_eq` — a parent holds the first segments
* `Pattern.stems_getElem` — the parents of a parent
* `Pattern.parentTexts?_eq` — no slice fails, and the slices are the parents
* `Pattern.decompositions_agree` — how the three descriptions belong together
-/

namespace KeyRegistry

namespace Pattern

variable {text stem near far : List Char} {p q : Pattern}

/-! ## Parents and segments -/

/-- The stems are the first pieces, joined again: one of them, two of them, and so on up to all but
the last. -/
theorem stems_eq (text : List Char) :
    stems text = (List.range ((Text.pieces '/' text).length - 1)).map fun count =>
      Text.join '/' ((Text.pieces '/' text).take (count + 1)) := by
  induction text with
  | nil => rfl
  | cons c rest ih =>
    obtain ⟨piece, others, hPieces⟩ := List.exists_cons_of_ne_nil (Text.pieces_ne_nil '/' rest)
    rw [hPieces, List.length_cons, Nat.add_sub_cancel] at ih
    by_cases hSlash : c = '/'
    · -- an empty piece comes in front, and with it an empty stem
      rw [stems, if_pos hSlash, Text.pieces, if_pos hSlash, hPieces, ih, hSlash, List.length_cons,
        Nat.add_sub_cancel, List.length_cons, List.range_succ_eq_map]
      simp [Text.join]
    · -- the character belongs to the first piece, which every stem starts with
      rw [stems, if_neg hSlash, Text.pieces, if_neg hSlash, hPieces, ih, List.nil_append,
        List.length_cons, Nat.add_sub_cancel, List.map_map]
      refine List.map_congr_left fun count _ => ?_
      cases hTake : others.take count <;> simp [Text.join, hTake]

/-! ## The order of the parents -/

/-- A later stem goes on behind an earlier one with a slash. -/
theorem stems_pairwise (text : List Char) :
    (stems text).Pairwise fun near far => near ++ ['/'] <+: far := by
  induction text with
  | nil => exact .nil
  | cons c rest ih =>
    -- a character in front of all of them changes nothing about their order
    have hRest : ((stems rest).map (c :: ·)).Pairwise fun near far => near ++ ['/'] <+: far := by
      rw [List.pairwise_map]
      exact ih.imp fun hPrefix => (List.prefix_cons_inj c).mpr hPrefix
    rw [stems]
    split
    · next hSlash =>
      refine List.pairwise_cons.mpr ⟨fun far hFar => ?_, hRest⟩
      obtain ⟨stem, -, rfl⟩ := List.mem_map.mp hFar
      rw [hSlash]
      exact ⟨stem, rfl⟩
    · exact hRest

/-- The stems of a stem are the stems in front of it. -/
theorem stems_stem {index : Nat} (h : (stems text)[index]? = some stem) :
    stems stem = (stems text).take index := by
  induction text generalizing index stem with
  | nil => simp [stems] at h
  | cons c rest ih =>
    -- behind the first character a stem of the text is one of the rest
    have hInner : ∀ {index stem}, ((stems rest).map (c :: ·))[index]? = some stem →
        ∃ inner, stem = c :: inner ∧ stems inner = (stems rest).take index := by
      intro index stem hStem
      rw [List.getElem?_map, Option.map_eq_some_iff] at hStem
      obtain ⟨inner, hAt, rfl⟩ := hStem
      exact ⟨inner, rfl, ih hAt⟩
    by_cases hSlash : c = '/'
    · rw [stems, if_pos hSlash, List.singleton_append] at h ⊢
      cases index with
      | zero =>
        rw [List.getElem?_cons_zero, Option.some.injEq] at h
        rw [← h, List.take_zero]
        rfl
      | succ index =>
        rw [List.getElem?_cons_succ] at h
        obtain ⟨inner, rfl, hStems⟩ := hInner h
        rw [stems, if_pos hSlash, hStems, List.take_succ_cons, List.map_take]
        rfl
    · rw [stems, if_neg hSlash, List.nil_append] at h ⊢
      obtain ⟨inner, rfl, hStems⟩ := hInner h
      rw [stems, if_neg hSlash, hStems, List.map_take]
      rfl

/-! ## The slices of a text -/

/-- The slashes stand at the ends of the stems. -/
theorem map_fst_offsetsFrom (start : Nat) (text : List Char) :
    ((Text.offsetsFrom start text).filter fun (_, c) => c = '/').map Prod.fst =
      (stems text).map fun stem => start + (String.ofList stem).utf8ByteSize := by
  induction text generalizing start with
  | nil => rfl
  | cons c rest ih =>
    -- a character in front moves every offset by its own size
    have hSize : ∀ stem : List Char, start + (String.ofList (c :: stem)).utf8ByteSize =
        start + c.utf8Size + (String.ofList stem).utf8ByteSize := by
      intro stem
      rw [String.ofList_cons, String.utf8ByteSize_append, String.utf8ByteSize_singleton,
        Nat.add_assoc]
    have hRest : ((stems rest).map (c :: ·)).map
        (fun stem => start + (String.ofList stem).utf8ByteSize) =
          ((Text.offsetsFrom (start + c.utf8Size) rest).filter fun (_, c) => c = '/').map
            Prod.fst := by
      rw [ih, List.map_map]
      exact List.map_congr_left fun stem _ => hSize stem
    rw [Text.offsetsFrom, stems, List.map_append, hRest, List.filter_cons]
    by_cases hSlash : c = '/'
    · rw [if_pos (decide_eq_true hSlash), if_pos hSlash]
      rfl
    · rw [if_neg (by simpa using hSlash), if_neg hSlash]
      rfl

/-- A slice that ends where a text goes on is what was there before. -/
theorem before?_append (front back : String) :
    Text.before? (front ++ back) front.utf8ByteSize = some front := by
  have hBytes : (front ++ back).toUTF8.extract 0 front.utf8ByteSize = front.toUTF8 := by
    show (front ++ back).toByteArray.extract 0 front.utf8ByteSize = front.toByteArray
    rw [String.toByteArray_append]
    exact ByteArray.extract_append_eq_left String.size_toByteArray.symm
  have hInside : front.utf8ByteSize ≤ (front ++ back).utf8ByteSize := by
    rw [String.utf8ByteSize_append]
    exact Nat.le_add_right _ _
  rw [Text.before?, if_pos hInside, hBytes, Text.fromUTF8?_toUTF8]

/-- A slice that ends before a slash is the parent that ends there. -/
theorem before?_stem {text : String} (hStem : stem ∈ stems text.toList) :
    Text.before? text (String.ofList stem).utf8ByteSize = some (String.ofList stem) := by
  obtain ⟨rest, hRest⟩ := mem_stems.mp hStem
  have hText : text = String.ofList stem ++ String.ofList ('/' :: rest) := by
    rw [← String.toList_inj, String.toList_append, String.toList_ofList, String.toList_ofList,
      ← hRest, List.append_assoc]
    rfl
  rw [hText]
  exact before?_append _ _

theorem mapM_eq_some_map {α β : Type} {f : α → Option β} {g : α → β} {items : List α}
    (h : ∀ item ∈ items, f item = some (g item)) : items.mapM f = some (items.map g) := by
  induction items with
  | nil => rfl
  | cons item items ih =>
    rw [List.forall_mem_cons] at h
    rw [List.mapM_cons, h.1, ih h.2]
    rfl

/-- No slice fails, and the slices are the parents. -/
theorem parentTexts?_eq (p : Pattern) :
    parentTexts? p.text = some (p.parents.map Pattern.text) := by
  have hOffsets : parentTexts? p.text =
      (((Text.offsetsFrom 0 p.text.toList).filter fun (_, c) => c = '/').map Prod.fst).mapM
        (Text.before? p.text) := by
    rw [List.mapM_map]
    rfl
  rw [hOffsets, map_fst_offsetsFrom, List.mapM_map, parents, List.map_map]
  refine mapM_eq_some_map fun stem hStem => ?_
  rw [Function.comp_apply, Nat.zero_add]
  exact before?_stem hStem

/-! ## The decomposition -/

theorem segments_eq (p : Pattern) :
    p.segments.map String.toList = Text.pieces '/' p.text.toList := by
  rw [segments, Text.piecesOf, List.map_map]
  exact (List.map_congr_left fun piece _ => String.toList_ofList).trans (List.map_id _)

/-- The first parent is the first segment, the second one is the first two segments, and so on. -/
theorem parents_eq (p : Pattern) : p.parents = (List.range (p.depth - 1)).map fun count =>
    ⟨Text.joinAll '/' (p.segments.take (count + 1))⟩ := by
  have hDepth : p.depth = (Text.pieces '/' p.text.toList).length := by
    rw [depth, ← segments_eq, List.length_map]
  rw [parents, stems_eq, List.map_map, hDepth, ← segments_eq]
  refine List.map_congr_left fun count _ => ?_
  rw [Function.comp_apply, Text.joinAll, List.map_take]

/-- A parent is shorter, in characters and in bytes. -/
theorem IsParent.shorter (h : q.IsParent p) :
    q.text.length < p.text.length ∧ q.text.utf8ByteSize < p.text.utf8ByteSize := by
  obtain ⟨rest, hText⟩ := h
  have hSlash : "/".length = 1 ∧ "/".utf8ByteSize = 1 := by decide
  rw [hText]
  simp only [String.length_append, String.utf8ByteSize_append, hSlash]
  omega

/-- Each parent is a parent of those behind it. -/
theorem parents_pairwise (p : Pattern) : p.parents.Pairwise IsParent := by
  rw [parents, List.pairwise_map]
  refine (stems_pairwise p.text.toList).imp fun hPrefix => ?_
  rwa [isParent_iff, String.toList_ofList, String.toList_ofList]

/-- The parents of a parent are the parents in front of it. -/
theorem parents_parent {index : Nat} (h : p.parents[index]? = some q) :
    q.parents = p.parents.take index := by
  rw [parents, List.getElem?_map, Option.map_eq_some_iff] at h
  obtain ⟨stem, hStem, rfl⟩ := h
  rw [parents, parents, String.toList_ofList, stems_stem hStem, List.map_take]

/-- **The three descriptions of a pattern agree.** The segments hold no slashes, and joined with
slashes they are the text. There is one parent less than there are segments: the first segment, the
first two segments and so on up to all but the last, each longer than the one before it. A pattern
is a parent if and only if the text goes on behind it with a slash, and its own parents are the
parents that come before it. No slice of the text at the offset of a slash fails, and the slices are
the parents. -/
theorem decompositions_agree (p : Pattern) :
    (Text.joinAll '/' p.segments = p.text ∧ ∀ segment ∈ p.segments, '/' ∉ segment.toList) ∧
      p.parents.length + 1 = p.depth ∧
      (p.parents = (List.range (p.depth - 1)).map fun count =>
        ⟨Text.joinAll '/' (p.segments.take (count + 1))⟩) ∧
      (p.parents.Pairwise fun near far =>
        near.text.length < far.text.length ∧ near.text.utf8ByteSize < far.text.utf8ByteSize) ∧
      (∀ q : Pattern, q ∈ p.parents ↔ q.text.toList ++ ['/'] <+: p.text.toList) ∧
      (∀ index : Fin p.parents.length, p.parents[index].parents = p.parents.take index) ∧
      parentTexts? p.text = some (p.parents.map Pattern.text) := by
  refine ⟨⟨?_, fun segment hMem => ?_⟩, ?_, parents_eq p, ?_, fun q => ?_, fun index => ?_,
    parentTexts?_eq p⟩
  · -- the segments are the pieces between the slashes
    rw [Text.joinAll, segments_eq, Text.join_pieces, String.ofList_toList]
  · have hPiece : segment.toList ∈ Text.pieces '/' p.text.toList := by
      rw [← segments_eq]
      exact List.mem_map_of_mem hMem
    exact Text.not_mem_of_mem_pieces hPiece
  · rw [parents, List.length_map, length_stems, ← segments_eq, List.length_map, depth]
  · exact (parents_pairwise p).imp IsParent.shorter
  · rw [mem_parents, isParent_iff]
  · exact parents_parent (List.getElem?_eq_getElem index.isLt)

/-- A text with an empty segment, a slash at the end and a character of two bytes. -/
theorem decompositions_agree_of_empty :
    "" ∈ (⟨"é//b/"⟩ : Pattern).segments ∧ '/' ∉ "".toList ∧
      parentTexts? "é//b/" = some ["é", "é/", "é//b"] := by
  obtain ⟨⟨-, hFree⟩, -, -, -, -, -, hTexts⟩ := decompositions_agree ⟨"é//b/"⟩
  have hSegment : "" ∈ (⟨"é//b/"⟩ : Pattern).segments := by decide +kernel
  have hParents : (⟨"é//b/"⟩ : Pattern).parents.map Pattern.text = ["é", "é/", "é//b"] := by
    decide +kernel
  rw [hParents] at hTexts
  exact ⟨hSegment, hFree "" hSegment, hTexts⟩

end Pattern

end KeyRegistry

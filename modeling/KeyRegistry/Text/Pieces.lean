/-!
# Cutting a text at a separator

A text is cut at every occurrence of a separator; the pieces can be joined again. A text is any
list here, of characters or of bytes.

Main statements:

* `join_pieces` — joining the pieces gives the text back
* `pieces_join` — pieces without separators are found again when they are joined
* `not_mem_of_mem_pieces` — no piece holds the separator
* `pieces_ne_nil` — there is at least one piece
-/

namespace KeyRegistry.Text

variable {α : Type} [DecidableEq α]

/-- The pieces between the separators; without a separator the whole text is one piece. -/
def pieces (separator : α) : List α → List (List α)
  | [] => [[]]
  | c :: rest =>
    if c = separator then [] :: pieces separator rest
    else match pieces separator rest with
      | [] => [[c]]
      | piece :: others => (c :: piece) :: others

/-- The pieces, one after the other, with a separator between each two. -/
def join (separator : α) : List (List α) → List α
  | [] => []
  | [piece] => piece
  | piece :: others => piece ++ separator :: join separator others

/-- The pieces of a text as texts. -/
def piecesOf (separator : Char) (text : String) : List String :=
  (pieces separator text.toList).map String.ofList

/-- Texts joined with a separator between each two. -/
def joinAll (separator : Char) (texts : List String) : String :=
  String.ofList (join separator (texts.map String.toList))

theorem pieces_ne_nil (separator : α) (text : List α) : pieces separator text ≠ [] := by
  cases text with
  | nil => simp [pieces]
  | cons c rest =>
    by_cases h : c = separator
    · simp [pieces, h]
    · cases hc : pieces separator rest <;> simp [pieces, h, hc]

omit [DecidableEq α] in
theorem join_cons {separator : α} {piece : List α} {others : List (List α)}
    (h : others ≠ []) :
    join separator (piece :: others) = piece ++ separator :: join separator others := by
  cases others with
  | nil => exact absurd rfl h
  | cons => rfl

omit [DecidableEq α] in
theorem mem_join {separator c : α} {texts : List (List α)} (h : c ∈ join separator texts) :
    c = separator ∨ ∃ text ∈ texts, c ∈ text := by
  induction texts with
  | nil => cases h
  | cons text texts ih =>
    by_cases hLast : texts = []
    · rw [hLast] at h ⊢
      exact Or.inr ⟨text, List.mem_cons_self, h⟩
    · rw [join_cons hLast, List.mem_append, List.mem_cons] at h
      rcases h with hText | hSeparator | hMore
      · exact Or.inr ⟨text, List.mem_cons_self, hText⟩
      · exact Or.inl hSeparator
      · obtain hSeparator | ⟨other, hOther, hChar⟩ := ih hMore
        · exact Or.inl hSeparator
        · exact Or.inr ⟨other, List.mem_cons_of_mem text hOther, hChar⟩

theorem join_pieces (separator : α) (text : List α) :
    join separator (pieces separator text) = text := by
  induction text with
  | nil => rfl
  | cons c rest ih =>
    by_cases h : c = separator
    · simp only [pieces, h, if_true]
      rw [join_cons (pieces_ne_nil separator rest), ih, List.nil_append]
    · cases hc : pieces separator rest with
      | nil => exact absurd hc (pieces_ne_nil separator rest)
      | cons piece others =>
        rw [hc] at ih
        simp only [pieces, h, if_false, hc]
        cases others with
        | nil => simpa [join] using ih
        | cons => simpa [join] using ih

theorem not_mem_of_mem_pieces {separator : α} {text piece : List α}
    (h : piece ∈ pieces separator text) : separator ∉ piece := by
  induction text generalizing piece with
  | nil => simp_all [pieces]
  | cons c rest ih =>
    by_cases hc : c = separator
    · simp only [pieces, hc, if_true, List.mem_cons] at h
      rcases h with rfl | h
      · simp
      · exact ih h
    · cases hp : pieces separator rest with
      | nil => exact absurd hp (pieces_ne_nil separator rest)
      | cons first others =>
        simp only [pieces, hc, if_false, hp, List.mem_cons] at h
        rcases h with rfl | h
        · have := @ih first (by simp [hp])
          simp only [List.mem_cons, not_or]
          exact ⟨fun e => hc e.symm, this⟩
        · exact ih (by simp [hp, h])

theorem pieces_of_free {separator : α} {piece : List α} (hFree : separator ∉ piece) :
    pieces separator piece = [piece] := by
  induction piece with
  | nil => rfl
  | cons c piece ih =>
    rw [List.mem_cons, not_or] at hFree
    have hNe : c ≠ separator := Ne.symm hFree.1
    rw [pieces, if_neg hNe, ih hFree.2]

theorem pieces_append {separator : α} {piece rest : List α} (hFree : separator ∉ piece) :
    pieces separator (piece ++ separator :: rest) = piece :: pieces separator rest := by
  induction piece with
  | nil => simp [pieces]
  | cons c piece ih =>
    rw [List.mem_cons, not_or] at hFree
    have hNe : c ≠ separator := Ne.symm hFree.1
    rw [List.cons_append, pieces, if_neg hNe, ih hFree.2]

/-- Pieces without separators are found again when they are joined. -/
theorem pieces_join {separator : α} {texts : List (List α)} (hSome : texts ≠ [])
    (hFree : ∀ text ∈ texts, separator ∉ text) :
    pieces separator (join separator texts) = texts := by
  induction texts with
  | nil => exact absurd rfl hSome
  | cons first others ih =>
    have hFirst := hFree first List.mem_cons_self
    cases others with
    | nil => exact pieces_of_free hFirst
    | cons second others =>
      rw [join_cons (by simp), pieces_append hFirst]
      rw [ih (by simp) fun text hMem => hFree text (List.mem_cons_of_mem _ hMem)]

theorem piecesOf_joinAll {separator : Char} {texts : List String} (hSome : texts ≠ [])
    (hFree : ∀ text ∈ texts, separator ∉ text.toList) :
    piecesOf separator (joinAll separator texts) = texts := by
  have hPieces : pieces separator (join separator (texts.map String.toList)) =
      texts.map String.toList := by
    refine pieces_join (by simpa using hSome) ?_
    simpa using hFree
  rw [piecesOf, joinAll, String.toList_ofList, hPieces, List.map_map]
  have hId : String.ofList ∘ String.toList = id := by
    funext text
    exact String.ofList_toList
  rw [hId, List.map_id]

theorem joinAll_cons {separator : Char} {text : String} {texts : List String} (h : texts ≠ []) :
    joinAll separator (text :: texts) =
      text ++ (String.singleton separator ++ joinAll separator texts) := by
  have hSome : texts.map String.toList ≠ [] := by simpa using h
  rw [← String.toList_inj, joinAll, joinAll, List.map_cons, join_cons hSome]
  simp

end KeyRegistry.Text

import KeyRegistry.Proofs.Json.Reads

/-!
# Stepping over values

Whoever steps over a value is behind it afterwards, whatever the value is and however deeply it is
nested. The steps take one from a bound for every value, and the text of a value has a character at
least for each value in it, so the length of the text is bound enough.

Main definitions:

* `goesOn` — what is left to do inside the containers that are open

Main statements:

* `reads_skipValue` — a value is stepped over
-/

namespace KeyRegistry.Json

open KeyRegistry.Text

section

variable {blanks written rest after body : List Char} {c : Char} {first comma : Bool}
  {stack : List Frame} {frame : Frame} {bound left : Nat} {value : Value}

/-! ## Where values begin and end -/

/-- White space may stand behind a value. -/
theorem Ends.append (hEnds : Ends rest) (hBlanks : Blanks blanks) : Ends (blanks ++ rest) := by
  cases blanks with
  | nil => exact hEnds
  | cons blank blanks =>
    rintro _ ⟨⟩
    have hBlank := hBlanks blank List.mem_cons_self
    simp only [Reader.isBlank, Bool.or_eq_true, beq_iff_eq] at hBlank
    rcases hBlank with ((rfl | rfl) | rfl) | rfl <;> decide

/-- White space ends a number. -/
theorem Ends.of_blanks (hBlanks : Blanks blanks) : Ends blanks := by
  have hNothing : Ends [] := by rintro _ ⟨⟩
  simpa using hNothing.append hBlanks

/-- So may what closes a container, and what leads to its next member. -/
theorem ends_cons (h : c.isDigit = false ∧ c ≠ '.' ∧ c ≠ 'e' ∧ c ≠ 'E') : Ends (c :: rest) := by
  rintro _ ⟨⟩
  exact h

theorem Leads.ends {lead : List Char} (h : Leads false lead) : Ends (lead ++ rest) := by
  obtain ⟨before, behind, rfl, hBefore, -⟩ := h
  rw [List.append_assoc]
  exact (ends_cons (by decide)).append hBefore

/-- What stands behind an item ends a number. -/
theorem SpellsItems.ends {items : List Value} (h : SpellsItems false items body) :
    Ends (body ++ ']' :: rest) := by
  cases items with
  | nil => exact (ends_cons (by decide)).append h
  | cons item items =>
    obtain ⟨lead, written, more, rfl, hLeads, -⟩ := h
    rw [List.append_assoc]
    exact hLeads.ends

/-- What stands behind a member ends a number. -/
theorem SpellsMembers.ends {members : List (List Letter × Value)}
    (h : SpellsMembers false members body) : Ends (body ++ '}' :: rest) := by
  cases members with
  | nil => exact (ends_cons (by decide)).append h
  | cons member members =>
    obtain ⟨lead, name, colon, written, more, rfl, hLeads, -⟩ := h
    rw [List.append_assoc]
    exact hLeads.ends

/-- Whether a value may begin with a character. -/
def Begins (c : Char) : Prop :=
  Reader.isBlank c = false ∧ c ≠ ',' ∧ c ≠ ']' ∧ c ≠ '}'

instance (c : Char) : Decidable (Begins c) :=
  inferInstanceAs (Decidable (_ ∧ _))

theorem begins_of_isDigit (h : c.isDigit = true) : Begins c := by
  refine ⟨?_, ?_, ?_, ?_⟩
  · simp only [Reader.isBlank, Bool.or_eq_false_iff, beq_eq_false_iff_ne]
    refine ⟨⟨⟨?_, ?_⟩, ?_⟩, ?_⟩ <;> (rintro rfl; cases h)
  all_goals (rintro rfl; cases h)

/-- A whole number starts with a digit. -/
theorem IsWhole.exists_cons {whole : List Char} (h : IsWhole whole) :
    ∃ c more, whole = c :: more ∧ c.isDigit = true := by
  cases h with
  | zero => exact ⟨_, _, rfl, by decide⟩
  | digits _ hDigits => exact ⟨_, _, rfl, hDigits.digits _ List.mem_cons_self⟩

/-- Every value starts with a character that begins one. -/
theorem Value.Spells.exists_cons (h : value.Spells written) :
    ∃ c more, written = c :: more ∧ Begins c := by
  match value, h with
  | .null, h => exact ⟨_, _, h, by decide⟩
  | .boolean true, h => exact ⟨_, _, h, by decide⟩
  | .boolean false, h => exact ⟨_, _, h, by decide⟩
  | .text _, ⟨_, h, _⟩ => exact ⟨_, _, h, by decide⟩
  | .list _, ⟨_, h, _⟩ => exact ⟨_, _, h, by decide⟩
  | .object _, ⟨_, h, _⟩ => exact ⟨_, _, h, by decide⟩
  | .number _ (.mk isSign isWhole _ _), h =>
    obtain ⟨c, more, rfl, hDigit⟩ := isWhole.exists_cons
    rcases isSign with rfl | rfl
    · exact ⟨_, _, h, begins_of_isDigit hDigit⟩
    · exact ⟨_, _, h, by decide⟩

/-- No value is written with nothing. -/
theorem Value.Spells.length_pos (h : value.Spells written) : 0 < written.length := by
  obtain ⟨c, more, rfl, -⟩ := h.exists_cons
  exact Nat.zero_lt_succ _

/-! ## Steps -/

/-- What is left to do inside the containers that are open. -/
def goesOn (left : Nat) (stack : List Frame) (comma : Bool) : Reader Unit := do
  match ← Reader.skipClosers stack comma with
  | [] => return
  | .object :: outer => do
    Reader.skipKey
    Reader.skipWithin left (.object :: outer)
  | .list :: outer => Reader.skipWithin left (.list :: outer)

/-- Skipping goes on from the start of a value with what the start has opened. -/
theorem reads_skipWithin {opened : Option Frame} {text : List Char}
    (hStart : Reads Reader.skipStart text opened rest)
    (hRest : Reads (goesOn left (opened.toList ++ stack) opened.isNone) rest () after) :
    Reads (Reader.skipWithin (left + 1) stack) text () after := by
  rw [Reader.skipWithin]
  exact hStart.bind hRest

/-- A container is closed, and what is left is outside of it. -/
theorem reads_goesOn_close (hBlanks : Blanks blanks)
    (hRest : Reads (goesOn left stack true) rest () after) :
    Reads (goesOn left (frame :: stack) comma) (blanks ++ frame.closer :: rest) () after := by
  have hVisible : Reader.isBlank frame.closer = false := by cases frame <;> decide
  have hNotComma : frame.closer ≠ ',' := by cases frame <;> decide
  rw [goesOn, Reader.skipClosers, bind_assoc]
  refine (reads_peekToken hBlanks hVisible).bind ?_
  dsimp only
  -- whether a comma may come makes no difference, because none comes
  rw [if_neg fun hComma => hNotComma hComma.1, if_pos rfl, bind_assoc]
  exact reads_advance.bind hRest

/-- The next member of a container comes behind what leads to it. -/
theorem reads_skipClosers {lead : List Char} (hLeads : Leads first lead) (hBegins : Begins c) :
    ∃ blanks, Blanks blanks ∧ Reads (Reader.skipClosers (frame :: stack) (!first))
      (lead ++ c :: rest) (frame :: stack) (blanks ++ c :: rest) := by
  obtain ⟨hVisible, hNotComma, hNotList, hNotObject⟩ := hBegins
  -- a comma leads in every item but the first
  cases first with
  | true =>
    have hNotCloser : c ≠ frame.closer := by cases frame <;> assumption
    refine ⟨[], .nil, (reads_peekToken hLeads hVisible).bind ?_⟩
    dsimp only
    rw [if_neg fun hComma => hNotComma hComma.1, if_neg hNotCloser]
    exact .pure
  | false =>
    obtain ⟨before, behind, rfl, hBefore, hBehind⟩ := hLeads
    rw [List.append_assoc]
    refine ⟨behind, hBehind, (reads_peekToken hBefore (by decide)).bind ?_⟩
    dsimp only
    rw [if_pos ⟨rfl, rfl⟩]
    exact reads_advance.bind .pure

/-- A key is stepped over with the colon behind it. -/
theorem reads_skipKey {key : List Letter} {name colon : List Char} (hBlanks : Blanks blanks)
    (hKey : SpellsText key name) (hColon : IsColon colon) :
    ∃ behind, Blanks behind ∧ Reads Reader.skipKey
      (blanks ++ '\x22' :: (name ++ '\x22' :: (colon ++ rest))) () (behind ++ rest) := by
  obtain ⟨before, behind, rfl, hBefore, hBehind⟩ := hColon
  rw [List.append_assoc]
  refine ⟨behind, hBehind, (reads_peekToken hBlanks (by decide)).bind (reads_advance.bind
    ((reads_skipTextBody hKey).bind ((reads_peekToken hBefore (by decide)).bind reads_advance)))⟩

/-! ## Values -/

/-- A number is skipped and opens nothing. -/
theorem reads_skipStart_number (hBlanks : Blanks blanks) (h : IsNumber written)
    (hEnds : Ends rest) : Reads Reader.skipStart (blanks ++ (written ++ rest)) none rest := by
  obtain ⟨isSign, isWhole, isFraction, isExponent⟩ := h
  have hSkip := reads_skipNumber isWhole isFraction isExponent hEnds
  rw [List.append_assoc, List.append_assoc, List.append_assoc]
  rcases isSign with rfl | rfl
  · obtain ⟨c, more, rfl, hDigit⟩ := isWhole.exists_cons
    refine (reads_peekToken hBlanks (begins_of_isDigit hDigit).1).bind ?_
    -- no other value begins with a digit
    have hDigit' : ∀ d, some c = some d → d.isDigit = true := by
      rintro _ ⟨⟩
      exact hDigit
    split
    case h_1 hNone => cases hNone
    case h_2 h | h_3 h | h_4 h | h_5 h | h_6 h | h_7 h | h_8 h =>
      exact absurd (hDigit' _ h) (by decide)
    case h_9 other _ _ _ _ _ _ _ hOther =>
      rw [if_pos (hDigit' other hOther)]
      exact hSkip.bind .pure
  · exact (reads_peekToken hBlanks (by decide)).bind (reads_advance.bind (hSkip.bind .pure))

-- The induction is on the value, and a stack stands for the containers around it. What is left to
-- do behind a part is a hypothesis for every bound that the part may have left, so that the parts
-- of a value follow each other.
mutual

/-- Behind a value, what is left to do is what the open containers ask for. -/
theorem reads_skipWithin_value (value : Value) {written : List Char} {bound : Nat}
    {stack : List Frame} {blanks rest : List Char} (h : value.Spells written)
    (hBlanks : Blanks blanks) (hEnds : Ends rest) (hBound : written.length ≤ bound)
    (hRest : ∀ left, bound ≤ left + written.length →
      Reads (goesOn left stack true) rest () after) :
    Reads (Reader.skipWithin bound stack) (blanks ++ (written ++ rest)) () after := by
  have hPos := h.length_pos
  obtain ⟨left, rfl⟩ : ∃ left, bound = left + 1 := ⟨bound - 1, by omega⟩
  match value, h with
  | .null, h | .boolean true, h | .boolean false, h =>
    obtain rfl : written = _ := h
    refine reads_skipWithin ((reads_peekToken hBlanks (by decide)).bind
      (reads_advance.bind ((reads_word _ rest).bind .pure))) (hRest left (by simp))
  | .number literal isNumber, h =>
    obtain rfl : written = literal := h
    exact reads_skipWithin (reads_skipStart_number hBlanks isNumber hEnds)
      (hRest left (by omega))
  | .text letters, ⟨body, hBody, hSpells⟩ =>
    obtain rfl := hBody
    rw [List.cons_append, List.append_assoc, List.singleton_append]
    exact reads_skipWithin ((reads_peekToken hBlanks (by decide)).bind
      (reads_advance.bind ((reads_skipTextBody hSpells).bind .pure))) (hRest left (by simp))
  | .list items, ⟨body, hBody, hSpells⟩ =>
    obtain rfl := hBody
    rw [List.length_cons, List.length_append, List.length_singleton] at hBound hRest
    rw [List.cons_append, List.append_assoc, List.singleton_append]
    -- the list is opened and then closed behind its items
    exact reads_skipWithin
      ((reads_peekToken hBlanks (by decide)).bind (reads_advance.bind .pure))
      (reads_goesOn_items items hSpells (by omega) fun left hLeft => hRest left (by omega))
  | .object members, ⟨body, hBody, hSpells⟩ =>
    obtain rfl := hBody
    rw [List.length_cons, List.length_append, List.length_singleton] at hBound hRest
    rw [List.cons_append, List.append_assoc, List.singleton_append]
    exact reads_skipWithin
      ((reads_peekToken hBlanks (by decide)).bind (reads_advance.bind .pure))
      (reads_goesOn_members members hSpells (by omega) fun left hLeft => hRest left (by omega))

/-- Behind the items of a list, the list is closed. -/
theorem reads_goesOn_items (items : List Value) {first : Bool} {body : List Char} {bound : Nat}
    {stack : List Frame} {rest : List Char} (h : SpellsItems first items body)
    (hBound : body.length ≤ bound)
    (hRest : ∀ left, bound ≤ left + body.length → Reads (goesOn left stack true) rest () after) :
    Reads (goesOn bound (.list :: stack) (!first)) (body ++ ']' :: rest) () after := by
  match items, h with
  | [], h => exact reads_goesOn_close h (hRest bound (by omega))
  | item :: items, ⟨lead, written, more, hBody, hLeads, hItem, hItems⟩ =>
    obtain rfl := hBody
    rw [List.length_append, List.length_append] at hBound hRest
    obtain ⟨c, value, rfl, hBegins⟩ := hItem.exists_cons
    obtain ⟨blanks, hBlanks, hNext⟩ := reads_skipClosers hLeads hBegins
    rw [List.append_assoc, List.append_assoc]
    -- behind the item, the list goes on with the others
    refine hNext.bind (reads_skipWithin_value item hItem hBlanks hItems.ends (by omega) ?_)
    exact fun left hLeft => reads_goesOn_items items hItems (by omega) fun left' hLeft' =>
      hRest left' (by omega)

/-- Behind the members of an object, the object is closed. -/
theorem reads_goesOn_members (members : List (List Letter × Value)) {first : Bool}
    {body : List Char} {bound : Nat} {stack : List Frame} {rest : List Char}
    (h : SpellsMembers first members body) (hBound : body.length ≤ bound)
    (hRest : ∀ left, bound ≤ left + body.length → Reads (goesOn left stack true) rest () after) :
    Reads (goesOn bound (.object :: stack) (!first)) (body ++ '}' :: rest) () after := by
  match members, h with
  | [], h => exact reads_goesOn_close h (hRest bound (by omega))
  | (key, item) :: members, ⟨lead, name, colon, written, more, hBody, hLeads, hKey, hColon, hItem,
      hMembers⟩ =>
    obtain rfl := hBody
    simp only [List.length_append, List.length_cons] at hBound hRest
    have hBegins : Begins '\x22' := by decide
    obtain ⟨blanks, hBlanks, hNext⟩ := reads_skipClosers hLeads hBegins
    obtain ⟨behind, hBehind, hSkip⟩ := reads_skipKey hBlanks hKey hColon
    simp only [List.append_assoc, List.cons_append]
    -- a member is its key and a value, and behind the value the object goes on
    refine hNext.bind (hSkip.bind
      (reads_skipWithin_value item hItem hBehind hMembers.ends (by omega) ?_))
    exact fun left hLeft => reads_goesOn_members members hMembers (by omega) fun left' hLeft' =>
      hRest left' (by omega)

end

/-- A value is stepped over. -/
theorem reads_skipValue (h : value.Spells written) (hBlanks : Blanks blanks) (hEnds : Ends rest) :
    Reads Reader.skipValue (blanks ++ (written ++ rest)) () rest := by
  refine reads_remaining.bind (reads_skipWithin_value value h hBlanks hEnds ?_ ?_)
  -- the text that is left bounds the values in it, and no container is open around the value
  · simp only [List.length_append]
    omega
  · exact fun left _ => .pure

end

end KeyRegistry.Json

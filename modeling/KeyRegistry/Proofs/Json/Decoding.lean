import KeyRegistry.Proofs.Json.Stepping
import Mathlib.Data.List.Forall2

/-!
# Values read as typed values

A reader decodes a value to something if it reads this from every text that spells the value. A
record is decoded from an object member by member: a known field is put into the record, anything
else is stepped over.

What an object says of a record depends neither on the order of its members nor on members of
unknown names. Whoever shows that each field goes into its own place of the record, and into no
other, has shown this for all orders and all subsets of the fields.

Main definitions:

* `Decodes` — what a reader makes of a value
* `Assigns` — what the members of an object make of a record
* `Holds` — an object with some known members, in any order and among others
* `Overlays` — records of which some fields are given

Main statements:

* `decodes_text`, `decodes_boolean`, `decodes_natural`, `decodes_list` — values
* `Assigns.decodes` — records, member by member
* `Overlays.decodes` — records, for every subset and every order of their fields
* `decode_eq_ok` — whole texts
-/

namespace KeyRegistry.Json

open KeyRegistry.Text

/-- However a value is written, a reader reads it as something. -/
def Decodes {α : Type} (r : Reader α) (value : Value) (a : α) : Prop :=
  ∀ ⦃written : List Char⦄, value.Spells written → ∀ ⦃blanks rest : List Char⦄, Blanks blanks →
    Ends rest → Reads r (blanks ++ (written ++ rest)) a rest

section Values

variable {α β : Type} {r : Reader α} {value : Value} {a : α} {blanks rest body : List Char}
  {c : Char} {first : Bool} {bound : Nat}

/-- What is made of a value afterwards does not change how it is read. -/
theorem Decodes.map {f : α → β} {b : β} (h : Decodes r value a) (hMap : f a = b) :
    Decodes (do return f (← r)) value b :=
  fun _ hSpells _ _ hBlanks hEnds => hMap ▸ (h hSpells hBlanks hEnds).map

/-- White space in front of a value is skipped to see how it begins. -/
theorem reads_peekValue (hBlanks : Blanks blanks) (hVisible : Reader.isBlank c = false) :
    Reads Reader.peekValue (blanks ++ c :: rest) c (c :: rest) :=
  (reads_peekToken hBlanks hVisible).bind .pure

/-- A text is decoded to itself. -/
theorem decodes_text {expected text : String} :
    Decodes (Reader.text expected) (.ofText text) text := by
  rintro _ ⟨body, rfl, hSpells⟩ blanks rest hBlanks -
  rw [List.cons_append, List.append_assoc, List.singleton_append]
  exact (reads_peekValue hBlanks (by decide)).bind (reads_advance.bind (reads_textBody hSpells))

/-- A truth value is decoded to itself. -/
theorem decodes_boolean {value : Bool} : Decodes Reader.boolean (.boolean value) value := by
  intro written hSpells blanks rest hBlanks _
  cases value <;> obtain rfl : written = _ := hSpells <;>
    exact (reads_peekValue hBlanks (by decide)).bind
      (reads_advance.bind ((reads_word _ rest).bind .pure))

/-- A number of 64 bits is decoded to itself. -/
theorem decodes_natural {n : UInt64} : Decodes Reader.natural (.ofNat n.toNat) n := by
  intro written hSpells blanks rest hBlanks hEnds
  obtain rfl : written = (Nat.repr n.toNat).toList := hSpells
  rw [Nat.repr, String.toList_ofList]
  have hWhole := isWhole_toDigits n.toNat
  have hNumber := reads_number hWhole (Nat.ofDigitChars_toDigits (by omega) (by omega))
    n.toNat_lt_size hEnds
  rw [UInt64.ofNat_toNat] at hNumber
  obtain ⟨c, more, hDigits, hDigit⟩ := hWhole.exists_cons
  rw [hDigits] at hNumber ⊢
  refine (reads_peekValue hBlanks (begins_of_isDigit hDigit).1).bind ?_
  -- the first digit tells the reader that a number without a sign comes
  have hNotMinus : c ≠ '-' := by
    rintro rfl
    cases hDigit
  rw [if_neg hNotMinus, if_pos hDigit]
  exact hNumber.bind .pure

/-- Null is decoded to nothing. -/
theorem decodes_optional_null : Decodes (Reader.optional r) .null none := by
  rintro _ rfl blanks rest hBlanks -
  exact (reads_peekToken hBlanks (by decide)).bind
    (reads_advance.bind ((reads_word _ rest).bind .pure))

/-- A text that may be absent is decoded as the text. -/
theorem Decodes.optional {letters : List Letter} (h : Decodes r (.text letters) a) :
    Decodes (Reader.optional r) (.text letters) (some a) := by
  rintro _ ⟨body, rfl, hSpells⟩ blanks rest hBlanks hEnds
  have hValue := h ⟨body, rfl, hSpells⟩ .nil hEnds
  rw [List.nil_append] at hValue
  exact (reads_peekToken hBlanks (by decide)).bind (hValue.bind .pure)

/-! ## Lists -/

/-- There is another item where one begins. -/
theorem reads_hasMember {lead : List Char} (hLeads : Leads first lead) (hBegins : Begins c) :
    Reads (Reader.hasMember first) (lead ++ c :: rest) true (c :: rest) := by
  obtain ⟨hVisible, hNotComma, hNotCloser, -⟩ := hBegins
  -- whatever the reader does with the first character that is no bracket, it is reached
  have hToken : ∀ d, some c = some d → d ≠ ']' := by
    rintro _ ⟨⟩
    exact hNotCloser
  cases first with
  | true =>
    refine (reads_peekToken hLeads hVisible).bind ?_
    split
    · next hNone => cases hNone
    · next hCloser => exact absurd rfl (hToken _ hCloser)
    · exact .pure
  | false =>
    obtain ⟨before, behind, rfl, hBefore, hBehind⟩ := hLeads
    rw [List.append_assoc]
    refine (reads_peekToken hBefore (by decide)).bind (reads_advance.bind
      ((reads_peekToken hBehind hVisible).bind ?_))
    split
    · next hNone => cases hNone
    · next hCloser => exact absurd rfl (hToken _ hCloser)
    · exact .pure

/-- There is no other item at the closing bracket. -/
theorem reads_hasMember_end (hBlanks : Blanks blanks) :
    Reads (Reader.hasMember first) (blanks ++ ']' :: rest) false (']' :: rest) :=
  (reads_peekToken hBlanks rfl).bind .pure

theorem reads_closeList : Reads Reader.closeList (']' :: rest) () rest :=
  (reads_peekToken .nil rfl).bind reads_advance

/-- The items of a list are read one by one, if the bound is larger than what is written. -/
theorem reads_membersWithin {items : List Value} {values : List α}
    (h : List.Forall₂ (Decodes r) items values) (hItems : SpellsItems first items body)
    (hBound : body.length < bound) :
    Reads (Reader.membersWithin r bound first) (body ++ ']' :: rest) values (']' :: rest) := by
  induction h generalizing first body bound with
  | nil =>
    obtain ⟨left, rfl⟩ := Nat.exists_eq_add_of_lt hBound
    exact (reads_hasMember_end hItems).bind .pure
  | cons hItem _ ih =>
    obtain ⟨lead, written, more, rfl, hLeads, hSpells, hRest⟩ := hItems
    -- an item takes one from the bound, and its text is not empty
    have hLength := hSpells.length_pos
    rw [List.length_append, List.length_append] at hBound
    obtain ⟨left, rfl⟩ : ∃ left, bound = left + 1 := ⟨bound - 1, by omega⟩
    have hEnds : Ends (more ++ ']' :: rest) := hRest.ends
    have hValue := hItem hSpells .nil hEnds
    obtain ⟨c, value, rfl, hBegins⟩ := hSpells.exists_cons
    rw [List.append_assoc, List.append_assoc]
    exact (reads_hasMember hLeads hBegins).bind (hValue.bind ((ih hRest (by omega)).bind .pure))

/-- A list is decoded item by item. -/
theorem decodes_list {items : List Value} {values : List α}
    (h : List.Forall₂ (Decodes r) items values) : Decodes (Reader.list r) (.list items) values := by
  rintro _ ⟨body, rfl, hSpells⟩ blanks rest hBlanks -
  rw [List.cons_append, List.append_assoc, List.singleton_append]
  refine (reads_peekValue hBlanks (by decide)).bind (reads_advance.bind (reads_remaining.bind
    ((reads_membersWithin h hSpells ?_).bind (reads_closeList.bind .pure))))
  rw [List.length_append]
  omega

end Values

/-! ## Records -/

/-- What the members of an object make of a record, one after the other; `seen` are the fields that
came before them. -/
inductive Assigns {α : Type} (fields : List (Field α)) :
    List (String × Value) → List String → α → α → Prop
  | nil {seen : List String} {a : α} : Assigns fields [] seen a a
  | known {name : String} {value : Value} {members : List (String × Value)} {seen : List String}
      {a b c : α} {field : Field α}
      (isField : fields.find? (fun field => field.name == name) = some field)
      (isNew : name ∉ seen) (decodes : Decodes (field.read a) value b)
      (rest : Assigns fields members (name :: seen) b c) :
      Assigns fields ((name, value) :: members) seen a c
  | unknown {name : String} {value : Value} {members : List (String × Value)} {seen : List String}
      {a b : α} (isUnknown : fields.find? (fun field => field.name == name) = none)
      (rest : Assigns fields members seen a b) :
      Assigns fields ((name, value) :: members) seen a b

section Records

variable {α : Type} {fields : List (Field α)} {members known : List (String × Value)}
  {value : Value} {name : String} {seen given : List String} {a b c : α} {first : Bool}
  {body blanks lead colon text rest : List Char}

/-- There is another member where a quote begins its name. -/
theorem reads_hasKey (hLeads : Leads first lead) :
    Reads (Reader.hasKey first) (lead ++ '\x22' :: rest) true ('\x22' :: rest) := by
  cases first with
  | true => exact (reads_peekToken hLeads rfl).bind .pure
  | false =>
    obtain ⟨before, behind, rfl, hBefore, hBehind⟩ := hLeads
    rw [List.append_assoc]
    exact (reads_peekToken hBefore rfl).bind
      (reads_advance.bind ((reads_peekToken hBehind rfl).bind .pure))

/-- There is no other member at the closing brace. -/
theorem reads_hasKey_end (hBlanks : Blanks blanks) :
    Reads (Reader.hasKey first) (blanks ++ '}' :: rest) false ('}' :: rest) :=
  (reads_peekToken hBlanks rfl).bind .pure

/-- A colon is read with the white space in front of it. -/
theorem reads_colon (hColon : IsColon colon) :
    ∃ behind, Blanks behind ∧ Reads Reader.colon (colon ++ rest) () (behind ++ rest) := by
  obtain ⟨before, behind, rfl, hBefore, hBehind⟩ := hColon
  rw [List.append_assoc]
  exact ⟨behind, hBehind, (reads_peekToken hBefore rfl).bind reads_advance⟩

/-- A member whose name is that of a field is read into the field. -/
theorem reads_member_known {field : Field α} (hColon : IsColon colon)
    (hField : fields.find? (fun field => field.name == name) = some field) (hNew : name ∉ seen)
    (hDecodes : Decodes (field.read a) value b) (hValue : value.Spells text) (hEnds : Ends rest) :
    Reads (Reader.member fields seen name a) (colon ++ (text ++ rest)) (b, name :: seen) rest := by
  obtain ⟨behind, hBehind, hPoints⟩ := reads_colon hColon
  rw [Reader.member, hField]
  dsimp only
  rw [List.contains_eq_mem, decide_eq_false hNew, if_neg Bool.false_ne_true]
  exact hPoints.bind ((hDecodes hValue hBehind hEnds).bind .pure)

/-- A member of another name is skipped, whatever its value is. -/
theorem reads_member_unknown (hColon : IsColon colon)
    (hUnknown : fields.find? (fun field => field.name == name) = none)
    (hValue : value.Spells text) (hEnds : Ends rest) :
    Reads (Reader.member fields seen name a) (colon ++ (text ++ rest)) (a, seen) rest := by
  obtain ⟨behind, hBehind, hPoints⟩ := reads_colon hColon
  rw [Reader.member, hUnknown]
  exact hPoints.bind ((reads_skipValue hValue hBehind hEnds).bind .pure)

/-- A member is read, and then the others. -/
theorem reads_fieldsWithin {seen' : List String} {bound : Nat}
    (hSpells : SpellsMembers first (lettered (name, value) :: members.map lettered) body)
    (hBound : body.length < bound)
    (hMember : ∀ {colon text after : List Char}, IsColon colon → value.Spells text → Ends after →
      Reads (Reader.member fields seen name a) (colon ++ (text ++ after)) (b, seen') after)
    (hOthers : ∀ {others : List Char} {left : Nat},
      SpellsMembers false (members.map lettered) others → others.length < left →
        Reads (Reader.fieldsWithin fields left false seen' b) (others ++ '}' :: rest) c
          ('}' :: rest)) :
    Reads (Reader.fieldsWithin fields bound first seen a) (body ++ '}' :: rest) c
      ('}' :: rest) := by
  obtain ⟨lead, key, colon, text, others, rfl, hLeads, hKey, hColon, hValue, hSpelled⟩ := hSpells
  -- the member takes one from the bound, and its text is longer than that
  simp only [List.length_append, List.length_cons] at hBound
  obtain ⟨left, rfl⟩ : ∃ left, bound = left + 1 := ⟨bound - 1, by omega⟩
  have hLeft : others.length < left := by omega
  have hEnds : Ends (others ++ '}' :: rest) := hSpelled.ends
  simp only [List.append_assoc, List.cons_append]
  exact (reads_hasKey hLeads).bind (reads_advance.bind ((reads_textBody hKey).bind
    ((hMember hColon hValue hEnds).bind (hOthers hSpelled hLeft))))

/-- The members of an object are read to the end. -/
theorem Assigns.reads {bound : Nat} (h : Assigns fields members seen a b)
    (hSpells : SpellsMembers first (members.map lettered) body) (hBound : body.length < bound) :
    Reads (Reader.fieldsWithin fields bound first seen a) (body ++ '}' :: rest) b
      ('}' :: rest) := by
  induction h generalizing first body bound with
  | nil =>
    obtain ⟨left, rfl⟩ := Nat.exists_eq_add_of_lt hBound
    exact (reads_hasKey_end hSpells).bind .pure
  | known isField isNew decodes _ ih =>
    refine reads_fieldsWithin hSpells hBound ?_ ih
    intro colon text after hColon hValue hEnds
    exact reads_member_known hColon isField isNew decodes hValue hEnds
  | unknown isUnknown _ ih =>
    refine reads_fieldsWithin hSpells hBound ?_ ih
    intro colon text after hColon hValue hEnds
    exact reads_member_unknown hColon isUnknown hValue hEnds

/-- A record is decoded to what the members make of it. -/
theorem Assigns.decodes {expected : String} (h : Assigns fields members [] a b) :
    Decodes (Reader.record expected fields a) (.ofMembers members) b := by
  rintro _ ⟨body, rfl, hSpells⟩ blanks rest hBlanks -
  rw [List.cons_append, List.append_assoc, List.singleton_append]
  refine (reads_peekValue hBlanks rfl).bind (reads_advance.bind (reads_remaining.bind
    ((h.reads hSpells ?_).bind (reads_advance.bind .pure))))
  rw [List.length_append]
  omega

/-! ## Parts of records -/

/-- Whether an object has some of the known members, in any order, and besides them only members of
other names. -/
def Holds (known : List (String × Value)) (given : List String) (members : List (String × Value)) :
    Prop :=
  ∃ others, members.Perm (known.filter (fun member => member.1 ∈ given) ++ others) ∧
    ∀ member ∈ others, member.1 ∉ known.map Prod.fst

theorem Holds.all (known : List (String × Value)) : Holds known (known.map Prod.fst) known := by
  refine ⟨[], ?_, List.forall_mem_nil _⟩
  rw [List.append_nil, List.filter_eq_self.mpr]
  intro member hMember
  exact decide_eq_true (List.mem_map_of_mem hMember)

/-- Records of which only the fields with given names have been read: each known member goes into
its own field and leaves the others alone. -/
structure Overlays (fields : List (Field α)) (known : List (String × Value))
    (only : List String → α) : Prop where
  /-- There is one member for each field. -/
  names : known.map Prod.fst = fields.map Field.name
  /-- No name stands for two fields. -/
  distinct : (known.map Prod.fst).Nodup
  /-- A member is read into its field. -/
  reads : ∀ member ∈ known, ∀ seen, ∃ field,
    fields.find? (fun field => field.name == member.1) = some field ∧
      Decodes (field.read (only seen)) member.2 (only (member.1 :: seen))
  /-- Which names are given counts, and nothing else about them. -/
  same : ∀ given seen, (∀ name ∈ known.map Prod.fst, name ∈ given ↔ name ∈ seen) →
    only given = only seen

variable {only : List String → α}

/-- A name that is not among the known members is that of no field. -/
theorem Overlays.find?_eq_none (h : Overlays fields known only)
    (hName : name ∉ known.map Prod.fst) :
    fields.find? (fun field => field.name == name) = none := by
  rw [List.find?_eq_none]
  intro field hField hSame
  rw [h.names] at hName
  exact hName (eq_of_beq hSame ▸ List.mem_map_of_mem hField)

/-- Members of known names that come once each, among any others, make the record of these names. -/
theorem Overlays.assigns (h : Overlays fields known only)
    (hKnown : ∀ member ∈ members, member.1 ∈ known.map Prod.fst → member ∈ known)
    (hOnce : (members.map Prod.fst |>.filter (· ∈ known.map Prod.fst)).Nodup)
    (hNew : ∀ name ∈ members.map Prod.fst, name ∈ known.map Prod.fst → name ∉ seen)
    (hGiven : ∀ name ∈ known.map Prod.fst,
      name ∈ given ↔ name ∈ seen ∨ name ∈ members.map Prod.fst) :
    Assigns fields members seen (only seen) (only given) := by
  induction members generalizing seen with
  | nil =>
    rw [h.same given seen fun name hName => by simpa using hGiven name hName]
    exact .nil
  | cons member members ih =>
    obtain ⟨name, value⟩ := member
    rw [List.forall_mem_cons] at hKnown
    rw [List.map_cons, List.forall_mem_cons] at hNew
    rw [List.map_cons] at hOnce hGiven
    by_cases hName : name ∈ known.map Prod.fst
    · obtain ⟨field, hField, hDecodes⟩ := h.reads _ (hKnown.1 hName) seen
      rw [List.filter_cons_of_pos (by simpa using hName), List.nodup_cons] at hOnce
      refine .known hField (hNew.1 hName) hDecodes (ih hKnown.2 hOnce.2 ?_ ?_)
      · -- the name does not come again
        intro other hOther hOtherKnown
        rw [List.mem_cons, not_or]
        refine ⟨?_, hNew.2 other hOther hOtherKnown⟩
        rintro rfl
        exact hOnce.1 (List.mem_filter.mpr ⟨hOther, by simpa using hOtherKnown⟩)
      · intro other hOther
        rw [hGiven other hOther, List.mem_cons, List.mem_cons]
        tauto
    · rw [List.filter_cons_of_neg (by simpa using hName)] at hOnce
      refine .unknown (h.find?_eq_none hName) (ih hKnown.2 hOnce hNew.2 ?_)
      intro other hOther
      have hOtherNe : other ≠ name := by
        rintro rfl
        exact hName hOther
      rw [hGiven other hOther, List.mem_cons, or_iff_right hOtherNe]

/-- Whatever part of its fields an object holds, a record is decoded to that part of it. -/
theorem Overlays.decodes {expected : String} (h : Overlays fields known only)
    (hHolds : Holds known given members) :
    Decodes (Reader.record expected fields (only [])) (.ofMembers members) (only given) := by
  obtain ⟨others, hPerm, hOthers⟩ := hHolds
  -- what the members are asked for does not depend on their order
  refine (h.assigns ?_ ?_ ?_ ?_).decodes
  · intro member hMember hName
    rcases List.mem_append.mp (hPerm.mem_iff.mp hMember) with hPart | hOther
    · exact (List.mem_filter.mp hPart).1
    · exact absurd hName (hOthers member hOther)
  · -- the others have no known names, and those of the part are some of the known ones
    refine (((hPerm.map Prod.fst).filter _).nodup_iff).mpr ?_
    have hNone : (others.map Prod.fst).filter (fun name => name ∈ known.map Prod.fst) = [] := by
      rw [List.filter_eq_nil_iff]
      simpa using hOthers
    rw [List.map_append, List.filter_append, hNone, List.append_nil]
    exact h.distinct.sublist (List.filter_sublist.trans (List.filter_sublist.map _))
  · exact fun name _ _ => List.not_mem_nil
  · intro name hName
    rw [(hPerm.map Prod.fst).mem_iff, List.map_append, List.mem_append]
    constructor
    · intro hGiven
      obtain ⟨member, hMember, rfl⟩ := List.mem_map.mp hName
      exact .inr (.inl (List.mem_map_of_mem (List.mem_filter.mpr ⟨hMember, by simpa using hGiven⟩)))
    · rintro (hSeen | hPart | hOther)
      · cases hSeen
      · obtain ⟨member, hMember, rfl⟩ := List.mem_map.mp hPart
        exact of_decide_eq_true (List.mem_filter.mp hMember).2
      · obtain ⟨member, hMember, rfl⟩ := List.mem_map.mp hOther
        exact absurd hName (hOthers member hMember)

end Records

/-! ## Whole texts -/

/-- A text that holds a value is decoded to what its reader makes of it. -/
theorem decode_eq_ok {α : Type} {r : Reader α} {value : Value} {a : α} {text : String}
    (h : Decodes r value a) (hText : value.Fills text) : decode r text = .ok a := by
  obtain ⟨before, written, after, hText, hBefore, hSpells, hAfter⟩ := hText
  have hValue := h hSpells hBefore (Ends.of_blanks hAfter)
  have hComplete : Reads (Reader.complete r) (before ++ (written ++ after)) a [] :=
    hValue.bind ((reads_peekToken_end hAfter).bind .pure)
  obtain ⟨p, hRun⟩ := hComplete {}
  rw [← hText] at hRun
  show Except.bind (Reader.complete r ⟨text.toList, {}⟩) _ = _
  rw [hRun]
  rfl

end KeyRegistry.Json

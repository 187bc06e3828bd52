import KeyRegistry.Pattern.Set

/-!
# The order of texts is the order of their bytes

Texts are compared code point by code point. Written in UTF-8 they come in the same order byte by
byte: of two characters the lesser one has the lesser byte at the first place where their bytes
differ, whatever follows them.

Main statements:

* `Text.utf8EncodeChar_append_lt` — the lesser character has the lesser bytes
* `Text.lt_iff_bytes_lt` — the two orders agree
-/

namespace KeyRegistry.Text

/-! ## Characters -/

/-- Bytes are compared as numbers, and what follows them only if they are equal. -/
theorem cons_ofNat_lt_iff {a b : Nat} {l m : List UInt8} (ha : a < 256) (hb : b < 256) :
    UInt8.ofNat a :: l < UInt8.ofNat b :: m ↔ a < b ∨ a = b ∧ l < m := by
  rw [List.cons_lt_cons_iff, UInt8.lt_iff_toNat_lt, ← UInt8.toNat_inj, UInt8.toNat_ofNat',
    UInt8.toNat_ofNat', Nat.mod_eq_of_lt ha, Nat.mod_eq_of_lt hb]

/-- No character has a larger code than the largest one. -/
theorem toNat_le (c : Char) : c.toNat ≤ 0x10ffff := by
  have hValid : c.toNat < 0xd800 ∨ 0xdfff < c.toNat ∧ c.toNat < 0x110000 := c.valid
  omega

/-- The four lengths of an encoded character. -/
theorem utf8EncodeChar_cases (c : Char) :
    (c.toNat ≤ 0x7f ∧ String.utf8EncodeChar c = [UInt8.ofNat c.toNat]) ∨
    (0x7f < c.toNat ∧ c.toNat ≤ 0x7ff ∧ String.utf8EncodeChar c =
      [UInt8.ofNat (c.toNat / 64 + 0xc0), UInt8.ofNat (c.toNat % 0x40 + 0x80)]) ∨
    (0x7ff < c.toNat ∧ c.toNat ≤ 0xffff ∧ String.utf8EncodeChar c =
      [UInt8.ofNat (c.toNat / 4096 + 0xe0), UInt8.ofNat (c.toNat / 64 % 0x40 + 0x80),
        UInt8.ofNat (c.toNat % 0x40 + 0x80)]) ∨
    (0xffff < c.toNat ∧ String.utf8EncodeChar c =
      [UInt8.ofNat (c.toNat / 262144 + 0xf0), UInt8.ofNat (c.toNat / 4096 % 0x40 + 0x80),
        UInt8.ofNat (c.toNat / 64 % 0x40 + 0x80), UInt8.ofNat (c.toNat % 0x40 + 0x80)]) := by
  have hCode : c.val.toNat = c.toNat := rfl
  -- the leading digits need no mask: nothing lies above them in the code
  have hMost := toNat_le c
  unfold String.utf8EncodeChar
  simp only [hCode]
  by_cases hOne : c.toNat ≤ 0x7f
  · exact Or.inl ⟨hOne, if_pos hOne⟩
  rw [if_neg hOne]
  by_cases hTwo : c.toNat ≤ 0x7ff
  · have hLead : c.toNat / 64 % 0x20 = c.toNat / 64 := Nat.mod_eq_of_lt (by omega)
    rw [if_pos hTwo, hLead]
    exact Or.inr (Or.inl ⟨by omega, hTwo, rfl⟩)
  rw [if_neg hTwo]
  by_cases hThree : c.toNat ≤ 0xffff
  · have hLead : c.toNat / 4096 % 0x10 = c.toNat / 4096 := Nat.mod_eq_of_lt (by omega)
    rw [if_pos hThree, hLead]
    exact Or.inr (Or.inr (Or.inl ⟨by omega, hThree, rfl⟩))
  · have hLead : c.toNat / 262144 % 0x08 = c.toNat / 262144 := Nat.mod_eq_of_lt (by omega)
    rw [if_neg hThree, hLead]
    exact Or.inr (Or.inr (Or.inr ⟨by omega, rfl⟩))

/-- Of two codes the lesser one is less in its leading digits, or in its last one. -/
theorem digits_lt {v w : Nat} (h : v < w) :
    v / 64 < w / 64 ∨ v / 64 = w / 64 ∧ v % 64 < w % 64 := by
  omega

/-- The lesser character has the lesser bytes, whatever follows. -/
theorem utf8EncodeChar_append_lt {c d : Char} (h : c < d) (x y : List UInt8) :
    String.utf8EncodeChar c ++ x < String.utf8EncodeChar d ++ y := by
  have hLess : c.toNat < d.toNat := h
  have hMost := toNat_le d
  -- the leading digits of a code are those of its quotients
  have hQuotient : ∀ code : Nat,
      code / 64 / 64 = code / 4096 ∧ code / 4096 / 64 = code / 262144 := by
    omega
  have hOne := digits_lt hLess
  have hTwo : c.toNat / 64 < d.toNat / 64 → _ := digits_lt
  have hThree : c.toNat / 4096 < d.toNat / 4096 → _ := digits_lt
  rw [(hQuotient _).1, (hQuotient _).1] at hTwo
  rw [(hQuotient _).2, (hQuotient _).2] at hThree
  rcases utf8EncodeChar_cases c with ⟨_, hc⟩ | ⟨_, _, hc⟩ | ⟨_, _, hc⟩ | ⟨_, hc⟩
  -- of two lengths the shorter one has the lesser lead byte; at one length the bytes are compared
  -- like the digits of the codes to the base 64
  all_goals
    rcases utf8EncodeChar_cases d with ⟨_, hd⟩ | ⟨_, _, hd⟩ | ⟨_, _, hd⟩ | ⟨_, hd⟩
    all_goals
      rw [hc, hd]
      simp (disch := omega) only [List.cons_append, List.nil_append, cons_ofNat_lt_iff]
      omega

/-! ## Texts -/

/-- The bytes of a text in UTF-8. -/
def bytes (text : String) : List UInt8 :=
  text.toUTF8.data.toList

/-- The bytes of a text are read as the text. -/
theorem fromUTF8?_toUTF8 (text : String) : String.fromUTF8? text.toUTF8 = some text := by
  have hValid : text.toUTF8.IsValidUTF8 := text.isValidUTF8
  rw [String.fromUTF8?, dif_pos hValid]
  rfl

theorem bytes_eq (text : String) : bytes text = text.toList.flatMap String.utf8EncodeChar := by
  have hText : text.toUTF8 = (String.ofList text.toList).toByteArray := by
    rw [String.ofList_toList]
    rfl
  rw [bytes, hText, String.toByteArray_ofList, List.utf8Encode, List.toList_data_toByteArray]

/-- The order of characters is that of their bytes. -/
theorem flatMap_utf8EncodeChar_lt {first second : List Char} (h : first < second) :
    first.flatMap String.utf8EncodeChar < second.flatMap String.utf8EncodeChar := by
  induction h with
  | nil =>
    rename_i c rest
    rw [List.flatMap_nil, List.flatMap_cons]
    -- a character has at least one byte
    cases hBytes : String.utf8EncodeChar c with
    | nil => exact absurd hBytes String.utf8EncodeChar_ne_nil
    | cons byte bytes => exact List.nil_lt_cons _ _
  | cons _ ih =>
    rw [List.flatMap_cons, List.flatMap_cons]
    exact List.append_left_lt ih
  | rel hLess =>
    rw [List.flatMap_cons, List.flatMap_cons]
    exact utf8EncodeChar_append_lt hLess _ _

/-- The order of texts is that of their bytes. -/
theorem bytes_lt_of_lt {first second : String} (h : first < second) :
    bytes first < bytes second := by
  rw [bytes_eq, bytes_eq]
  exact flatMap_utf8EncodeChar_lt h

/-- The order of texts is the order of their bytes. -/
theorem lt_iff_bytes_lt {first second : String} : first < second ↔ bytes first < bytes second := by
  -- both orders are linear, so the converse follows from the one direction
  refine ⟨bytes_lt_of_lt, fun h => Classical.byContradiction fun hNot => ?_⟩
  rcases Classical.em (second < first) with hOther | hNone
  · exact List.lt_asymm h (bytes_lt_of_lt hOther)
  · have hEq : first = second :=
      String.le_antisymm (String.not_lt.mp hNone) (String.not_lt.mp hNot)
    rw [hEq] at h
    exact List.lt_irrefl _ h

end KeyRegistry.Text

import KeyRegistry.Ignore
import KeyRegistry.Proofs.Document.Reading
import KeyRegistry.Text.Utf8

/-!
# Texts as ignore rules

A file of ignore rules is read line by line, and any text can be such a file. A text none of whose
lines starts with an exclamation mark allows nothing: a path that some line matches is ignored. A
document is such a text.

The file is cut into lines as bytes, before it is decoded. A line feed is the only character with
its byte, so the lines are those of the text.

Main statements:

* `Ignore.linesOf_toUTF8` — the lines of a text that was written as UTF-8
* `Ignore.Rules.verdict?_of_ignoring` — a text without exclamation marks ignores what its lines
  match
* `Document.verdict?_of_line` — a document ignores what its lines match
-/

namespace KeyRegistry

namespace Text

/-- Text that was written as UTF-8 is decoded to itself. -/
theorem decodeLossy_toUTF8 (text : String) : Text.decodeLossy text.toUTF8 = text := by
  rw [Text.decodeLossy, Text.fromUTF8?_toUTF8]

/-! ## Bytes of texts -/

theorem toList_loop (bytes : ByteArray) (index : Nat) (done : List UInt8) :
    ByteArray.toList.loop bytes index done = done.reverse ++ bytes.data.toList.drop index := by
  fun_induction ByteArray.toList.loop bytes index done with
  | case1 index done hLess ih =>
    have hIndex : index < bytes.data.toList.length := by simpa using hLess
    -- the loop takes the byte at the index, which is the first one that is left
    have hByte : bytes.get! index = bytes.data.toList[index] := by
      simp only [ByteArray.get!, Array.getElem_toList]
      exact getElem!_pos bytes.data index (by simpa using hLess)
    rw [ih, List.drop_eq_getElem_cons hIndex, hByte]
    simp
  | case2 index done hEnd =>
    have hLength : bytes.data.toList.length ≤ index := by simpa using hEnd
    rw [List.drop_eq_nil_of_le hLength, List.append_nil]

/-- The bytes of a text, as a list. -/
theorem toList_toUTF8 (text : String) : text.toUTF8.toList = bytes text := by
  rw [ByteArray.toList, toList_loop, List.drop_zero]
  rfl

/-- The byte of a control character occurs in no other character. -/
theorem not_mem_utf8EncodeChar {c control : Char} (hControl : control.toNat < 128)
    (hNe : c ≠ control) : UInt8.ofNat control.toNat ∉ String.utf8EncodeChar c := by
  have hCode : c.toNat ≠ control.toNat := fun hEq => hNe (Char.toNat_inj.mp hEq)
  have hMost := toNat_le c
  -- a byte of a longer character is at least 128
  have hOther : ∀ n, n < 256 → n ≠ control.toNat →
      UInt8.ofNat control.toNat ≠ UInt8.ofNat n := by
    intro n hByte hNe hEq
    have hNat := congrArg UInt8.toNat hEq
    rw [UInt8.toNat_ofNat', UInt8.toNat_ofNat'] at hNat
    omega
  rcases utf8EncodeChar_cases c with ⟨_, hc⟩ | ⟨_, _, hc⟩ | ⟨_, _, hc⟩ | ⟨_, hc⟩
  all_goals
    rw [hc]
    simp only [List.mem_cons, List.not_mem_nil, or_false, not_or]
  · exact hOther _ (by omega) hCode
  · exact ⟨hOther _ (by omega) (by omega), hOther _ (by omega) (by omega)⟩
  · exact ⟨hOther _ (by omega) (by omega), hOther _ (by omega) (by omega),
      hOther _ (by omega) (by omega)⟩
  · exact ⟨hOther _ (by omega) (by omega), hOther _ (by omega) (by omega),
      hOther _ (by omega) (by omega), hOther _ (by omega) (by omega)⟩

/-- A control character is in the bytes of a text only if it is in the text. -/
theorem not_mem_flatMap_utf8EncodeChar {text : List Char} (control : Char)
    (hControl : control.toNat < 128) (h : control ∉ text) :
    UInt8.ofNat control.toNat ∉ text.flatMap String.utf8EncodeChar := by
  intro hMem
  obtain ⟨c, hChar, hByte⟩ := List.mem_flatMap.mp hMem
  have hNe : c ≠ control := by
    rintro rfl
    exact h hChar
  exact not_mem_utf8EncodeChar hControl hNe hByte

/-- Encoding joined texts joins the encoded texts. -/
theorem flatMap_join {α β : Type} {separator : α} {byte : β} {write : α → List β}
    (h : write separator = [byte]) (texts : List (List α)) :
    (join separator texts).flatMap write = join byte (texts.map (·.flatMap write)) := by
  -- there is no separator behind the last text, so that one is a case of its own
  induction texts with
  | nil => rfl
  | cons text texts ih =>
    cases texts with
    | nil => rfl
    | cons next texts =>
      have hMore : (next :: texts).map (·.flatMap write) ≠ [] := by simp
      have hRight : join byte ((text :: next :: texts).map (·.flatMap write)) =
          text.flatMap write ++ byte :: join byte ((next :: texts).map (·.flatMap write)) :=
        join_cons hMore
      rw [hRight, ← ih, join_cons (List.cons_ne_nil next texts), List.flatMap_append,
        List.flatMap_cons, h]
      rfl

/-- The bytes of a text are cut where the text is. -/
theorem pieces_toUTF8 (text : String) :
    pieces Ignore.lineFeed text.toUTF8.toList =
      (piecesOf '\n' text).map fun line => line.toUTF8.toList := by
  -- no line has the byte of a line feed in it, so cutting the bytes finds the same lines
  have hFree : ∀ line ∈ (pieces '\n' text.toList).map (·.flatMap String.utf8EncodeChar),
      Ignore.lineFeed ∉ line := by
    intro line hMem
    obtain ⟨chars, hChars, rfl⟩ := List.mem_map.mp hMem
    exact not_mem_flatMap_utf8EncodeChar '\n' (by decide) (not_mem_of_mem_pieces hChars)
  have hSome : (pieces '\n' text.toList).map (·.flatMap String.utf8EncodeChar) ≠ [] := by
    simpa using pieces_ne_nil '\n' text.toList
  have hBytes : text.toUTF8.toList =
      join Ignore.lineFeed ((pieces '\n' text.toList).map (·.flatMap String.utf8EncodeChar)) := by
    have hFeed : String.utf8EncodeChar '\n' = [Ignore.lineFeed] := by decide
    rw [toList_toUTF8, bytes_eq, ← flatMap_join hFeed, join_pieces]
  rw [hBytes, pieces_join hSome hFree, piecesOf, List.map_map]
  refine List.map_congr_left fun chars _ => ?_
  rw [Function.comp_apply, toList_toUTF8, bytes_eq, String.toList_ofList]

end Text

namespace Ignore

variable {bytes : ByteArray} {line : List Char} {lines : List (List Char)} {rule : Rule}
  {rules : Rules} {path : String} {isDirectory : Bool}

/-! ## Lines -/

/-- Lines of text are readable, all of them. -/
theorem readableLines_toUTF8 (texts : List String) :
    readableLines (texts.map fun text => text.toUTF8.toList) = texts := by
  induction texts with
  | nil => rfl
  | cons text texts ih =>
    have hBytes : (⟨text.toUTF8.toList.toArray⟩ : ByteArray) = text.toUTF8 := by
      rw [Text.toList_toUTF8, Text.bytes, Array.toArray_toList]
    rw [List.map_cons, readableLines, hBytes, Text.fromUTF8?_toUTF8]
    dsimp only
    rw [ih]

theorem dropReturns_of_free {lines : List (List UInt8)} (h : ∀ line ∈ lines, 0x0D ∉ line) :
    dropReturns lines = lines := by
  fun_induction dropReturns lines with
  | case1 => rfl
  | case2 => rfl
  | case3 line lines _ ih =>
    have hLast : line.getLast? ≠ some 0x0D := fun hEnd =>
      h line List.mem_cons_self (List.mem_of_getLast? hEnd)
    rw [if_neg hLast, ih fun other hMem => h other (List.mem_cons_of_mem _ hMem)]

/-- The lines of a text that was written as UTF-8. -/
theorem linesOf_toUTF8 {text first : String} {texts : List String}
    (hLines : Text.piecesOf '\n' text = first :: texts)
    (hReturns : ∀ line ∈ first :: texts, '\r' ∉ line.toList) :
    linesOf text.toUTF8 = first.toList.dropWhile (· == '\uFEFF') :: texts.map String.toList := by
  -- without carriage returns nothing is dropped from the end of a line
  have hFree : ∀ line ∈ (first :: texts).map fun line => line.toUTF8.toList, 0x0D ∉ line := by
    intro line hMem
    obtain ⟨text, hText, rfl⟩ := List.mem_map.mp hMem
    rw [Text.toList_toUTF8, Text.bytes_eq]
    exact Text.not_mem_flatMap_utf8EncodeChar '\r' (by decide) (hReturns text hText)
  rw [linesOf, Text.pieces_toUTF8, hLines, dropReturns_of_free hFree, readableLines_toUTF8]

/-! ## Rules that ignore -/

/-- Dropping white space at the end leaves the first character, or nothing. -/
theorem head?_trimLine {c : Char} {rest : List Char} (h : trimLine line = c :: rest) :
    line.head? = some c := by
  have hPrefix : trimLine line <+: line := by
    unfold trimLine
    split
    · exact List.prefix_refl line
    · have hSuffix := List.dropWhile_suffix (l := line.reverse) Text.isBlank
      simpa using List.reverse_prefix.mpr hSuffix
  obtain ⟨more, hMore⟩ := hPrefix
  rw [← hMore, h]
  rfl

/-- A line without a mark ignores. -/
theorem Line.verdict_ofChars (hMark : line.head? ≠ some '!') :
    (Line.ofChars line).verdict = .ignored := by
  -- the cases are the ways in which a line may begin
  unfold Line.ofChars
  split
  · rfl
  · rfl
  · exact absurd rfl hMark
  · exact absurd rfl hMark
  · rfl
  · rfl

/-- Only an exclamation mark makes a rule that allows. -/
theorem Rule.verdict_of_ofLine? (hMark : line.head? ≠ some '!')
    (h : Rule.ofLine? line = some rule) :
    rule.verdict = .ignored := by
  unfold Rule.ofLine? at h
  split at h
  · cases h
  · split at h
    · cases h
    · next chars hTrim =>
      obtain ⟨glob, -, rfl⟩ := Option.map_eq_some_iff.mp h
      refine Line.verdict_ofChars ?_
      cases hChars : trimLine line with
      | nil => simp
      | cons c rest =>
        rw [head?_trimLine hChars] at hMark
        exact hMark

/-- Rules that only ignore settle what one of them matches. -/
theorem Rules.verdict?_of_all (hAll : ∀ rule ∈ rules, rule.verdict = .ignored)
    (hMem : rule ∈ rules) (hMatches : rule.matchesPath path isDirectory = true) :
    rules.verdict? path isDirectory = some .ignored := by
  unfold Rules.verdict?
  -- the last matching rule settles it, whichever it is
  cases hFound : rules.reverse.find? fun rule => rule.matchesPath path isDirectory with
  | none =>
    have hNone := List.find?_eq_none.mp hFound rule (List.mem_reverse.mpr hMem)
    exact absurd hMatches hNone
  | some found =>
    have hIn := List.mem_reverse.mp (List.mem_of_find?_eq_some hFound)
    rw [Option.map_some, hAll found hIn]

/-- A text none of whose lines starts with an exclamation mark ignores what its lines match. -/
theorem Rules.verdict?_of_ignoring (hLines : linesOf bytes = lines)
    (hMarks : ∀ line ∈ lines, line.head? ≠ some '!') (hLine : line ∈ lines)
    (hRule : Rule.ofLine? line = some rule) (hMatches : rule.matchesPath path isDirectory = true) :
    (Rules.ofBytes bytes).verdict? path isDirectory = some .ignored := by
  rw [Rules.ofBytes, hLines]
  refine Rules.verdict?_of_all ?_ (List.mem_filterMap.mpr ⟨line, hLine, hRule⟩) hMatches
  intro other hOther
  obtain ⟨written, hWritten, hRead⟩ := List.mem_filterMap.mp hOther
  exact Rule.verdict_of_ofLine? (hMarks written hWritten) hRead

end Ignore

/-! ## Documents -/

/-- No line of a document starts with an exclamation mark. -/
theorem Document.head?_line {patterns : PatternSet} {moduleName line : String}
    (h : line ∈ lines patterns moduleName) : line.toList.head? ≠ some '!' := by
  have hFixed : ∀ text ∈ fixed, text.toList.head? ≠ some '!' := by decide
  rcases line_cases h with hText | ⟨opening, hOpening, closing, -, text, rfl⟩
  · exact hFixed line hText
  · rw [String.append_assoc, String.toList_append, List.head?_append]
    -- a line may begin with its quoted text, which begins with a quotation mark
    cases hFirst : opening.toList.head? with
    | none =>
      rw [Option.none_or, String.toList_append, Text.toList_quote]
      simp
    | some c =>
      rw [Option.some_or, ← hFirst]
      exact hFixed opening hOpening

/-- A document, taken for a file of ignore rules, ignores what its lines match. -/
theorem Document.verdict?_of_line {patterns : PatternSet} {moduleName line path : String}
    {rule : Ignore.Rule} {isDirectory : Bool} (hLine : line ∈ lines patterns moduleName)
    (hRule : Ignore.Rule.ofLine? line.toList = some rule)
    (hMatches : rule.matchesPath path isDirectory = true) :
    (Ignore.Rules.ofBytes (text patterns moduleName).toUTF8).verdict? path isDirectory =
      some .ignored := by
  have hReturns : ∀ line ∈ lines patterns moduleName, '\r' ∉ line.toList :=
    fun _ => not_mem_lines (by decide)
  have hLines : Ignore.linesOf (text patterns moduleName).toUTF8 =
      (lines patterns moduleName).map String.toList :=
    Ignore.linesOf_toUTF8 (piecesOf_text patterns moduleName) hReturns
  refine Ignore.Rules.verdict?_of_ignoring hLines ?_ (List.mem_map_of_mem hLine) hRule hMatches
  intro other hOther
  obtain ⟨written, hWritten, rfl⟩ := List.mem_map.mp hOther
  exact head?_line hWritten

end KeyRegistry

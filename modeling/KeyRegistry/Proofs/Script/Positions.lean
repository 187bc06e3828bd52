import KeyRegistry.Proofs.Script.Extraction
import KeyRegistry.Proofs.Script.Texts
import KeyRegistry.Proofs.Text.ByteOrder

/-!
# Where marker calls stand

A location has three numbers: an offset in bytes, a line, and a column in bytes. The reader keeps
each of them by itself and moves them on character by character, and yet they say the same: the line
and the column can be told from the bytes in front of the offset. Only a line feed ends a line here,
and its byte is part of no other character, so that counting bytes and counting characters come to
the same lines.

The location of a marker call is that of the literal in its arguments. In whatever way the reader
has come there, past characters of several bytes, ends of lines of all kinds, comments, templates
and broken parts, a literal starts at the offset in the source, no other literal does, and it is the
one that the pattern was decoded from.

Main definitions:

* `Location.Tells` — the three numbers of a location say the same about some bytes

Main statements:

* `Location.tells_behind` — those of a reader that has read from the start do
* `Extraction.positions_agree` — what the location of an extracted call tells
-/

namespace KeyRegistry.Script

open KeyRegistry.Text (bytes IsLiteral)

/-! ## Lines of characters -/

/-- A text is what ends with its last line feed, and a line behind it. -/
theorem exists_last_line (text : List Char) :
    ∃ above line, text = above ++ line ∧ '\n' ∉ line ∧
      (above = [] ∨ ∃ front, above = front ++ ['\n']) := by
  induction text with
  | nil => exact ⟨[], [], rfl, List.not_mem_nil, Or.inl rfl⟩
  | cons c text ih =>
    obtain ⟨above, line, rfl, hLine, rfl | ⟨front, rfl⟩⟩ := ih
    · by_cases hFeed : c = '\n'
      · exact ⟨[c], line, rfl, hLine, Or.inr ⟨[], by rw [hFeed]; rfl⟩⟩
      · exact ⟨[], c :: line, rfl, by simp [Ne.symm hFeed, hLine], Or.inl rfl⟩
    · exact ⟨c :: (front ++ ['\n']), line, rfl, hLine, Or.inr ⟨c :: front, rfl⟩⟩

namespace Position

/-- Rows are counted by their line feeds. -/
theorem row_foldl_advance (text : List Char) (p : Position) :
    (text.foldl advance p).row = p.row + text.count '\n' := by
  induction text generalizing p with
  | nil => rfl
  | cons c text ih =>
    rw [List.foldl_cons, ih, List.count_cons]
    by_cases hFeed : c = '\n'
    · rw [advance, if_pos hFeed, if_pos (beq_iff_eq.mpr hFeed), Nat.add_right_comm, Nat.add_assoc]
    · rw [advance, if_neg hFeed, if_neg (by simpa using hFeed), Nat.add_zero]

/-- Inside a row the column grows by the bytes. -/
theorem column_foldl_advance {line : List Char} (hLine : '\n' ∉ line) (p : Position) :
    (line.foldl advance p).column = p.column + byteLength line := by
  induction line generalizing p with
  | nil => rfl
  | cons c line ih =>
    rw [List.mem_cons, not_or] at hLine
    rw [List.foldl_cons, ih hLine.2, advance, if_neg (Ne.symm hLine.1), byteLength_cons,
      Nat.add_assoc]

/-- A row starts with the column zero. -/
theorem column_of_above {above : List Char}
    (h : above = [] ∨ ∃ front, above = front ++ ['\n']) : (behind above).column = 0 := by
  rcases h with rfl | ⟨front, rfl⟩
  · rfl
  · rw [behind, List.foldl_append, List.foldl_cons, List.foldl_nil, advance, if_pos rfl]

/-- The offset behind a text is its length in bytes. -/
theorem offset_behind (text : List Char) : (behind text).offset = byteLength text := by
  rw [behind, offset_foldl_advance]
  exact Nat.zero_add _

end Position

/-! ## Lines of bytes -/

/-- The bytes of a text are as many as its length says. -/
theorem length_flatMap_utf8EncodeChar (text : List Char) :
    (text.flatMap String.utf8EncodeChar).length = byteLength text := by
  induction text with
  | nil => rfl
  | cons c text ih =>
    rw [List.flatMap_cons, List.length_append, ih, String.length_utf8EncodeChar, byteLength_cons]

/-- The size of a text is what its characters take. -/
theorem byteLength_toList (text : String) : byteLength text.toList = text.utf8ByteSize := by
  rw [← length_flatMap_utf8EncodeChar, ← Text.bytes_eq]
  rfl

/-- The byte of a line feed is part of no other character. -/
theorem mem_utf8EncodeChar_iff {c : Char} : (10 : UInt8) ∈ String.utf8EncodeChar c ↔ c = '\n' := by
  have hByte : ∀ {code : Nat}, code < 256 → ((10 : UInt8) = UInt8.ofNat code ↔ code = 10) := by
    intro code hCode
    rw [← UInt8.toNat_inj, UInt8.toNat_ofNat', Nat.mod_eq_of_lt hCode]
    exact eq_comm
  have hChar : c = '\n' ↔ c.toNat = 10 :=
    ⟨fun hFeed => by rw [hFeed]; rfl, fun hCode => Char.ext (UInt32.toNat_inj.mp hCode)⟩
  have hMost := Text.toNat_le c
  -- a character of one byte is its code, and all bytes of longer ones are greater
  rw [hChar]
  rcases Text.utf8EncodeChar_cases c with ⟨_, hc⟩ | ⟨_, _, hc⟩ | ⟨_, _, hc⟩ | ⟨_, hc⟩
  · rw [hc, List.mem_singleton, hByte (by omega)]
  all_goals
    rw [hc]
    simp (disch := omega) only [List.mem_cons, List.not_mem_nil, or_false, hByte]
    omega

/-- Line ends are told by their byte. -/
theorem mem_flatMap_utf8EncodeChar_iff {text : List Char} :
    (10 : UInt8) ∈ text.flatMap String.utf8EncodeChar ↔ '\n' ∈ text := by
  simp [List.mem_flatMap, mem_utf8EncodeChar_iff]

/-- There are as many of its bytes as there are line feeds. -/
theorem count_flatMap_utf8EncodeChar (text : List Char) :
    (text.flatMap String.utf8EncodeChar).count 10 = text.count '\n' := by
  induction text with
  | nil => rfl
  | cons c text ih =>
    rw [List.flatMap_cons, List.count_append, ih, List.count_cons, Nat.add_comm]
    congr 1
    by_cases hFeed : c = '\n'
    · rw [hFeed]
      rfl
    · rw [if_neg (by simpa using hFeed), List.count_eq_zero]
      exact mt mem_utf8EncodeChar_iff.mp hFeed

namespace Location

/-- The three numbers of a location say the same about some bytes: as many lines have ended in front
of the offset as the line says, and the column counts from where the last of them ended. -/
structure Tells (bytes : List UInt8) (l : Location) : Prop where
  inside : l.offset ≤ bytes.length
  line   : l.line = 1 + (bytes.take l.offset).count 10
  column : ∃ start ≤ l.offset, (start = 0 ∨ (bytes.take start).getLast? = some 10) ∧
    10 ∉ (bytes.take l.offset).drop start ∧ l.column = l.offset - start

theorem Tells.line_le {bytes : List UInt8} {l : Location} (h : l.Tells bytes) :
    l.line ≤ l.offset + 1 := by
  have hCount : (bytes.take l.offset).count 10 ≤ (bytes.take l.offset).length :=
    List.count_le_length
  have hTake : (bytes.take l.offset).length ≤ l.offset := List.length_take_le _ _
  rw [h.line]
  omega

theorem Tells.column_le {bytes : List UInt8} {l : Location} (h : l.Tells bytes) :
    l.column ≤ l.offset := by
  obtain ⟨start, -, -, -, hColumn⟩ := h.column
  rw [hColumn]
  exact Nat.sub_le _ _

/-- The location of a reader tells the same by each of its numbers, wherever in a source the reader
stands. -/
theorem tells_behind {source : String} {before behind : List Char}
    (h : source.toList = before ++ behind) :
    (ofPosition (.behind before)).Tells (bytes source) := by
  have hOffset : (ofPosition (.behind before)).offset = byteLength before :=
    Position.offset_behind before
  have hBytes : bytes source =
      before.flatMap String.utf8EncodeChar ++ behind.flatMap String.utf8EncodeChar := by
    rw [Text.bytes_eq, h, List.flatMap_append]
  have hLength := length_flatMap_utf8EncodeChar before
  refine ⟨?_, ?_, ?_⟩
  · rw [hOffset, hBytes, List.length_append]
    omega
  · rw [hOffset, hBytes, List.take_left' hLength, count_flatMap_utf8EncodeChar]
    show (before.foldl Position.advance .start).row + 1 = _
    rw [Position.row_foldl_advance, Nat.add_comm]
    exact congrArg (1 + ·) (Nat.zero_add _)
  · -- the column counts from the last line feed in front of the offset
    obtain ⟨above, line, rfl, hLine, hAbove⟩ := exists_last_line before
    have hStart := length_flatMap_utf8EncodeChar above
    have hFront : (bytes source).take (byteLength above) = above.flatMap String.utf8EncodeChar := by
      rw [hBytes, List.flatMap_append, List.append_assoc, List.take_left' hStart]
    refine ⟨byteLength above, ?_, ?_, ?_, ?_⟩
    · rw [hOffset, byteLength_append]
      exact Nat.le_add_right _ _
    · rcases hAbove with rfl | ⟨front, rfl⟩
      · exact Or.inl rfl
      · rw [hFront, List.flatMap_append]
        exact Or.inr List.getLast?_concat
    · rw [hOffset, hBytes, List.take_left' hLength, List.flatMap_append, List.drop_left' hStart]
      exact mt mem_flatMap_utf8EncodeChar_iff.mp hLine
    · show (Position.behind (above ++ line)).column = _
      rw [hOffset, byteLength_append, Position.behind, List.foldl_append,
        Position.column_foldl_advance hLine]
      show (Position.behind above).column + _ = _
      rw [Position.column_of_above hAbove]
      omega

end Location

/-! ## Marker calls -/

variable {dialect : Dialect} {source : String} {markers : List String} {call : MarkerCall}

/-- The text of a node is what the source says between its offsets. -/
theorem Node.text?_of_append {node : Node} {before literal behind : String}
    (hSource : source = before ++ literal ++ behind)
    (hStart : node.start.offset = before.utf8ByteSize)
    (hEnding : node.ending = before.utf8ByteSize + literal.utf8ByteSize) :
    node.text? source = some literal := by
  have hFront : (before ++ literal).toByteArray.size = node.ending := by
    rw [String.size_toByteArray, String.utf8ByteSize_append, hEnding]
  -- what is behind the literal goes first, then what is in front of it
  have hBytes : source.toUTF8.extract node.start.offset node.ending = literal.toUTF8 := by
    show source.toByteArray.extract node.start.offset node.ending = literal.toByteArray
    have hBehind : node.start.offset - node.ending = 0 := by omega
    rw [hSource, String.toByteArray_append, ByteArray.extract_append, hFront, hBehind, Nat.sub_self,
      ByteArray.extract_same, ByteArray.append_empty, String.toByteArray_append]
    refine ByteArray.extract_append_eq_right ?_ ?_
    · rw [String.size_toByteArray, hStart]
    · rw [String.size_toByteArray, String.size_toByteArray, hEnding]
  have hInside : node.start.offset ≤ node.ending ∧ node.ending ≤ source.utf8ByteSize := by
    rw [hSource, String.utf8ByteSize_append, String.utf8ByteSize_append, hStart, hEnding]
    omega
  rw [Node.text?, if_pos hInside, hBytes, Text.fromUTF8?_toUTF8]

namespace Extraction

/-- **Positions agree.** Take any source, in order or not, and any call that is extracted from it.
The source falls into what stands in front of the offset of the call, a literal, and what stands
behind it. The literal is the first argument of the call, no other literal starts there, and the
pattern is what it decodes to. The line is one more than the line feeds among the bytes in front of
the offset, and the column is how far the offset is behind the last of them, or behind the start of
the source. No number exceeds the size of the source, so each fits wherever the size does. -/
theorem positions_agree (h : call ∈ (Extraction.of dialect source markers).calls) :
    (∃ before literal behind : String, source = before ++ literal ++ behind ∧
      call.location.offset = before.utf8ByteSize ∧
      (∃ place node callee argument, (parse dialect source).at? place = some node ∧
        node.Calls callee argument ∧ callee.text? source = some call.callee ∧
        argument.start.offset = call.location.offset ∧ argument.text? source = some literal) ∧
      IsLiteral literal ∧
      (∀ other rest : String, IsLiteral other → literal ++ behind = other ++ rest →
        other = literal) ∧
      Text.decodeLiteral literal = some call.pattern.text) ∧
    call.location.Tells (bytes source) ∧
    call.location.line ≤ source.utf8ByteSize ∧ call.location.column < source.utf8ByteSize ∧
    call.location.offset < source.utf8ByteSize := by
  -- the argument of the call is a text of the tree, so it is a literal and stands in the source
  obtain ⟨place, node, callee, argument, raw, hNode, hCalls, hCallee, -, hRaw, hValue, hLocation⟩ :=
    (mem_calls_iff (wellFormed_parse dialect source)).mp h
  obtain ⟨inner, hInner⟩ := hCalls.exists_at?
  have hArgument : (parse dialect source).at? (place ++ inner) = some argument := by
    rw [Node.at?_append, hNode, Option.bind_some, hInner]
  obtain ⟨before, literal, behind, hSource, hStart, hEnding, hLiteral⟩ :=
    hasLiterals_parse dialect source _ _ hArgument hCalls.isText
  have hOffset : call.location.offset = byteLength before := by
    rw [hLocation, hStart]
    exact Position.offset_behind before
  have hBefore : (String.ofList before).utf8ByteSize = byteLength before := by
    rw [← byteLength_toList, String.toList_ofList]
  have hSplit : source = String.ofList before ++ literal ++ String.ofList behind := by
    rw [String.ext_iff]
    simpa using hSource
  have hText : argument.text? source = some literal := by
    refine Node.text?_of_append hSplit ?_ ?_
    · rw [hStart, Position.offset_behind, hBefore]
    · rw [hEnding, hBefore, byteLength_toList]
  obtain rfl : raw = literal := Option.some.inj (hRaw.symm.trans hText)
  have hTells : call.location.Tells (bytes source) := by
    rw [hLocation, hStart]
    exact Location.tells_behind (hSource.trans (List.append_assoc ..))
  have hInside : call.location.offset < source.utf8ByteSize := by
    have hSome := byteLength_pos hLiteral.ne_nil
    rw [← byteLength_toList, hSource, byteLength_append, byteLength_append]
    omega
  have hLine := hTells.line_le
  have hColumn := hTells.column_le
  refine ⟨⟨String.ofList before, raw, String.ofList behind, hSplit, hOffset.trans hBefore.symm,
    ⟨place, node, callee, argument, hNode, hCalls, hCallee, by rw [hLocation]; rfl, hText⟩,
    hLiteral, fun other rest hOther hEq => ?_, hValue⟩, hTells, by omega, by omega, hInside⟩
  rw [String.ext_iff, String.toList_append, String.toList_append] at hEq
  exact (hLiteral.unique hOther hEq).symm

/-- Two calls behind a template, a comment over two lines, a line that goes on inside a literal, and
a carriage return, which ends no line; the source breaks off. -/
theorem positions_agree_of_lines :
    let source := "`é`;/*\r\n*/f('\\\r\nü');\rqk('ö');("
    let calls := (Extraction.of .typed source ["f", "qk"]).calls
    let first : MarkerCall := ⟨"f", ⟨"ü"⟩, ⟨2, 4, 13⟩⟩
    let second : MarkerCall := ⟨"qk", ⟨"ö"⟩, ⟨3, 9, 26⟩⟩
    (first ∈ calls ∧ first.location.Tells (bytes source)) ∧
    (second ∈ calls ∧ second.location.Tells (bytes source)) ∧
    ∃ literal, IsLiteral literal ∧ Text.decodeLiteral literal = some "ö" := by
  intro source calls first second
  have hRoot : (parse .typed source).WellFormed := wellFormed_parse .typed source
  have hFirst : first ∈ calls := (mem_calls_iff hRoot).mpr
    ⟨[2, 0], isMarkerCall_of_any hRoot (by decide +kernel)⟩
  have hSecond : second ∈ calls := (mem_calls_iff hRoot).mpr
    ⟨[3, 0], isMarkerCall_of_any hRoot (by decide +kernel)⟩
  obtain ⟨-, hFirstTells, -⟩ := positions_agree hFirst
  obtain ⟨⟨before, literal, behind, -, -, -, hLiteral, -, hValue⟩, hSecondTells, -⟩ :=
    positions_agree hSecond
  exact ⟨⟨hFirst, hFirstTells⟩, ⟨hSecond, hSecondTells⟩, literal, hLiteral, hValue⟩

end Extraction

end KeyRegistry.Script

import KeyRegistry.Document
import KeyRegistry.Proofs.Scan.Candidates
import KeyRegistry.Proofs.Text.ByteOrder
import KeyRegistry.Proofs.Text.Quotation

/-!
# Documents are read back

A document says which module it extends and which patterns it registers, and nothing else: it has
one line for each pattern, and a reader that goes line by line recovers the module and the patterns,
whatever characters they hold. A quoted text holds no line feed, so it cannot be mistaken for a line
of the document.

Main definitions:

* `Document.lines` — the lines of the document of a set
* `Document.read?` — the reader

Main statements:

* `Document.piecesOf_text` — a document has these lines
* `Document.read?_text` — what was written is read back
* `Document.faithful` — documents tell apart modules and sets, and nothing else
-/

namespace KeyRegistry

/-! ## Lines -/

namespace Text

/-- A quoted text holds no control character. -/
theorem not_mem_spell {c control : Char} (h : control.toNat < 32) : control ∉ spell c := by
  -- what `spell` writes is a printable character or a digit
  have hDigit : ∀ n < 16, control ≠ hexDigit n := by
    intro n hLess hEq
    have hPrintable : ∀ n < 16, 32 ≤ (hexDigit n).toNat := by decide
    have := hPrintable n hLess
    rw [← hEq] at this
    omega
  have hOther : ∀ {d : Char}, 32 ≤ d.toNat → control ≠ d := by
    rintro d hPrintable rfl
    omega
  unfold spell
  split
  -- the short escapes consist of a backslash and one character
  all_goals try
    simp only [List.mem_cons, List.not_mem_nil, or_false, not_or]
    exact ⟨hOther (by decide), hOther (by decide)⟩
  split
  · next hControl =>
    simp only [List.mem_cons, List.not_mem_nil, or_false, not_or]
    exact ⟨hOther (by decide), hOther (by decide), hOther (by decide), hOther (by decide),
      hDigit _ (by omega), hDigit _ (by omega)⟩
  · next hPrintable =>
    rw [List.mem_singleton]
    exact hOther (by omega)

/-- There is no control character in a quoted text. -/
theorem not_mem_quote {control : Char} (h : control.toNat < 32) (text : String) :
    control ∉ (quote text).toList := by
  have hMark : control ≠ '\x22' := by
    rintro rfl
    revert h
    decide
  rw [toList_quote]
  simp only [List.mem_cons, List.mem_append, List.mem_flatMap, List.not_mem_nil, or_false, not_or]
  exact ⟨hMark, fun ⟨_, _, hMem⟩ => not_mem_spell h hMem, hMark⟩

end Text

namespace Document

variable {patterns : PatternSet} {moduleName : String}

/-- The line of a pattern. -/
def entryLine (p : Pattern) : String :=
  "    " ++ Text.quote p.text ++ ": true;"

/-- The line that names the module. -/
def importLine (moduleName : String) : String :=
  "import " ++ Text.quote moduleName ++ ";"

/-- The lines about the patterns: one for each of them, in order, or none if there are no
patterns. -/
def body (patterns : PatternSet) (moduleName : String) : List String :=
  if patterns.isEmpty then ["declare module " ++ Text.quote moduleName ++ " \x7b\x7d"]
  else ("declare module " ++ Text.quote moduleName ++ " \x7b") ::
    "  export interface RegisteredPaths \x7b" ::
      (patterns.members.map entryLine ++ ["  \x7d", "\x7d"])

/-- The lines of the document of a set. The last one is empty, since all others are ended. -/
def lines (patterns : PatternSet) (moduleName : String) : List String :=
  "// @ts-nocheck" :: "// This file is auto-generated. Do not edit manually." :: "" ::
    importLine moduleName :: "" :: (body patterns moduleName ++ [""])

/-- The entries of a document are lines. -/
theorem joinAll_entries {more : List String} (h : more ≠ []) (ps : List Pattern) :
    Text.joinAll '\n' (ps.map entryLine ++ more) =
      String.join (ps.map entry) ++ Text.joinAll '\n' more := by
  -- each entry brings its own line feed along, so the join of the lines goes on behind it
  induction ps with
  | nil => simp
  | cons p ps ih =>
    have hEntry : entry p = entryLine p ++ "\n" := by
      rw [entry, entryLine, String.append_assoc, String.append_assoc, String.append_assoc]
      rfl
    rw [List.map_cons, List.cons_append, Text.joinAll_cons (by simp [h]), ih, List.map_cons,
      String.join_cons, hEntry]
    simp only [String.append_assoc]
    rfl

/-- A document consists of its lines, each ended by a line feed. -/
theorem text_eq (patterns : PatternSet) (moduleName : String) :
    text patterns moduleName = Text.joinAll '\n' (lines patterns moduleName) := by
  -- the header holds its line feeds in one literal
  have hHeader : header =
      "// @ts-nocheck" ++ ("\n" ++ ("// This file is auto-generated. Do not edit manually." ++
        ("\n" ++ ("" ++ "\n")))) := by decide
  have hLast : Text.joinAll '\n' [""] = "" := by decide
  unfold text lines body
  split
  · simp only [List.cons_append, List.nil_append, ne_eq, reduceCtorEq, not_false_eq_true,
      Text.joinAll_cons, hLast, empty, importLine, hHeader, String.append_assoc]
    rfl
  · -- the entries stand between the lines that open the interface and those that close it
    have hSome : patterns.members.map entryLine ++ ["  \x7d", "\x7d", ""] ≠ [] := by simp
    simp only [List.cons_append, List.nil_append, List.append_assoc, ne_eq, reduceCtorEq,
      not_false_eq_true, Text.joinAll_cons, joinAll_entries, hSome, hLast, populated, importLine,
      hHeader, String.append_assoc]
    rfl

/-- The texts that are the same in all documents, between line feeds and quoted texts. -/
def fixed : List String :=
  ["// @ts-nocheck", "// This file is auto-generated. Do not edit manually.", "", "import ", ";",
    "declare module ", " \x7b\x7d", " \x7b", "  export interface RegisteredPaths \x7b", "    ",
    ": true;", "  \x7d", "\x7d"]

/-- Every line is a fixed text, or a quoted text between two fixed ones. -/
theorem line_cases {line : String} (h : line ∈ lines patterns moduleName) :
    line ∈ fixed ∨ ∃ opening ∈ fixed, ∃ closing ∈ fixed, ∃ text,
      line = opening ++ Text.quote text ++ closing := by
  -- the cases are the two shapes of a document, and in each of them its lines one by one
  unfold lines body at h
  split at h
  · simp only [List.cons_append, List.nil_append, List.mem_cons, List.not_mem_nil, or_false] at h
    rcases h with rfl | rfl | rfl | rfl | rfl | rfl | rfl
    all_goals first
      | exact Or.inl (by decide)
      | exact Or.inr ⟨"import ", by decide, ";", by decide, moduleName, rfl⟩
      | exact Or.inr ⟨"declare module ", by decide, " \x7b\x7d", by decide, moduleName, rfl⟩
  · simp only [List.cons_append, List.append_assoc, List.nil_append, List.mem_cons,
      List.mem_append, List.mem_map, List.not_mem_nil, or_false] at h
    rcases h with rfl | rfl | rfl | rfl | rfl | rfl | rfl | ⟨p, _, rfl⟩ | rfl | rfl | rfl
    all_goals first
      | exact Or.inl (by decide)
      | exact Or.inr ⟨"import ", by decide, ";", by decide, moduleName, rfl⟩
      | exact Or.inr ⟨"declare module ", by decide, " \x7b", by decide, moduleName, rfl⟩
      | exact Or.inr ⟨"    ", by decide, ": true;", by decide, p.text, rfl⟩

/-- No line holds a control character. -/
theorem not_mem_lines {control : Char} {line : String} (h : control.toNat < 32)
    (hLine : line ∈ lines patterns moduleName) : control ∉ line.toList := by
  -- the fixed texts are looked at once, not for each control character
  have hFixed : ∀ text ∈ fixed, control ∉ text.toList := by
    have hPrintable :
        (fixed.all fun text => text.toList.all fun c => decide (32 ≤ c.toNat)) = true :=
      rfl
    simp only [List.all_eq_true, decide_eq_true_eq] at hPrintable
    intro text hText hMem
    have := hPrintable text hText control hMem
    omega
  rcases line_cases hLine with hText | ⟨opening, hOpening, closing, hClosing, text, rfl⟩
  · exact hFixed line hText
  · simp only [String.toList_append, List.mem_append, not_or]
    exact ⟨⟨hFixed opening hOpening, Text.not_mem_quote h text⟩, hFixed closing hClosing⟩

/-- A document has these lines: no text in it holds a line feed. -/
theorem piecesOf_text (patterns : PatternSet) (moduleName : String) :
    Text.piecesOf '\n' (text patterns moduleName) = lines patterns moduleName := by
  rw [text_eq, Text.piecesOf_joinAll (by simp [lines]) fun _ => not_mem_lines (by decide)]

/-! ## Reading -/

/-- The text that is quoted between an opening and a closing. -/
def between? (opening closing line : String) : Option String := do
  let rest ← opening.toList.isPrefixOf? line.toList
  let quoted ← closing.toList.isSuffixOf? rest
  Text.decodeLiteral (String.ofList quoted)

/-- The pattern of a line, if the line is an entry. -/
def entryOf? (line : String) : Option Pattern :=
  (between? "    " ": true;" line).map Pattern.mk

/-- The module and the patterns of a document: the module is named in the fourth line, and each
entry among the lines that follow is a pattern. -/
def read? (document : String) : Option (String × List Pattern) :=
  match Text.piecesOf '\n' document with
  | _ :: _ :: _ :: moduleLine :: rest =>
    (between? "import " ";" moduleLine).map fun name => (name, rest.filterMap entryOf?)
  | _ => none

/-- What stands between two fixed texts is taken out of a line and decoded. -/
theorem between?_eq_some {opening closing line text : String} :
    between? opening closing line = some text ↔
      ∃ raw, line = opening ++ raw ++ closing ∧ Text.decodeLiteral raw = some text := by
  simp only [between?, Option.bind_eq_bind, Option.bind_eq_some_iff,
    List.isPrefixOf?_eq_some_iff_append_eq, List.isSuffixOf?_eq_some_iff_append_eq]
  constructor
  · rintro ⟨_, hOpening, quoted, rfl, hText⟩
    refine ⟨String.ofList quoted, ?_, hText⟩
    rw [← String.toList_inj, ← hOpening]
    simp
  · rintro ⟨raw, rfl, hText⟩
    refine ⟨raw.toList ++ closing.toList, by simp, raw.toList, rfl, ?_⟩
    rwa [String.ofList_toList]

/-- What was quoted is read back. -/
theorem between?_quote (opening closing text : String) :
    between? opening closing (opening ++ Text.quote text ++ closing) = some text := by
  have hText : Text.decodeLiteral (Text.quote text) = some text := by
    rw [Text.decodeLiteral_of_spelled (Or.inr rfl) Text.spelled_spell (Text.toList_quote text),
      String.ofList_toList]
  exact between?_eq_some.mpr ⟨Text.quote text, rfl, hText⟩

/-- The pattern of an entry is read back from its line. -/
theorem entryOf?_entryLine (p : Pattern) : entryOf? (entryLine p) = some p := by
  rw [entryOf?, entryLine, between?_quote]
  rfl

/-- A line that does not begin with four blanks is no entry. -/
theorem entryOf?_eq_none {line : String} (h : line.toList.take 4 ≠ "    ".toList) :
    entryOf? line = none := by
  rw [entryOf?, Option.map_eq_none_iff, Option.eq_none_iff_forall_ne_some]
  intro text hText
  obtain ⟨raw, rfl, -⟩ := between?_eq_some.mp hText
  -- an entry begins with its opening, and that is the four blanks
  refine h ?_
  rw [String.append_assoc, String.toList_append]
  rfl

/-- The lines that are the same in all documents are no entries. -/
theorem entryOf?_fixed {line : String} (h : line ∈ ["", "// @ts-nocheck",
    "// This file is auto-generated. Do not edit manually.",
    "  export interface RegisteredPaths \x7b", "  \x7d", "\x7d"]) : entryOf? line = none := by
  refine entryOf?_eq_none ?_
  revert line
  decide

/-- The entries among the lines about the patterns are the patterns, in order. -/
theorem filterMap_body (patterns : PatternSet) (moduleName : String) :
    (body patterns moduleName).filterMap entryOf? = patterns.members := by
  -- the name of the module may hold anything, but it stands behind other text
  have hDeclare (rest : String) : entryOf? ("declare module " ++ rest) = none := by
    refine entryOf?_eq_none ?_
    rw [String.toList_append]
    simp
  have hEntries : entryOf? ∘ entryLine = some := by
    funext p
    rw [Function.comp_apply, entryOf?_entryLine]
  unfold body
  split
  · next hEmpty =>
    have hNone : patterns.members = [] := List.isEmpty_iff.mp hEmpty
    rw [String.append_assoc, List.filterMap_cons_none (hDeclare _), hNone, List.filterMap_nil]
  · rw [String.append_assoc, List.filterMap_cons_none (hDeclare _),
      List.filterMap_cons_none (entryOf?_fixed (by simp)), List.filterMap_append,
      List.filterMap_map, hEntries, List.filterMap_some,
      List.filterMap_cons_none (entryOf?_fixed (by simp)),
      List.filterMap_cons_none (entryOf?_fixed (by simp)), List.filterMap_nil, List.append_nil]

/-- No other line of a document is an entry. -/
theorem filterMap_lines (patterns : PatternSet) (moduleName : String) :
    (lines patterns moduleName).filterMap entryOf? = patterns.members := by
  have hImport : entryOf? (importLine moduleName) = none := by
    refine entryOf?_eq_none ?_
    rw [importLine, String.append_assoc, String.toList_append]
    simp
  rw [lines, List.filterMap_cons_none (entryOf?_fixed (by simp)),
    List.filterMap_cons_none (entryOf?_fixed (by simp)),
    List.filterMap_cons_none (entryOf?_fixed (by simp)), List.filterMap_cons_none hImport,
    List.filterMap_cons_none (entryOf?_fixed (by simp)), List.filterMap_append, filterMap_body,
    List.filterMap_cons_none (entryOf?_fixed (by simp)), List.filterMap_nil, List.append_nil]

/-- What was written is read back. -/
theorem read?_text (patterns : PatternSet) (moduleName : String) :
    read? (text patterns moduleName) = some (moduleName, patterns.members) := by
  have hEmpty : entryOf? "" = none := entryOf?_fixed (by simp)
  rw [read?, piecesOf_text]
  dsimp only [lines]
  rw [importLine, between?_quote, Option.map_some, List.filterMap_cons_none hEmpty,
    List.filterMap_append, filterMap_body, List.filterMap_cons_none hEmpty, List.filterMap_nil,
    List.append_nil]

theorem text_inj {first second : PatternSet} {firstName secondName : String} :
    text first firstName = text second secondName ↔
      (∀ p, p ∈ first ↔ p ∈ second) ∧ firstName = secondName := by
  constructor
  · -- equal documents are read alike
    intro hText
    have hRead : some (firstName, first.members) = some (secondName, second.members) := by
      rw [← read?_text, ← read?_text, hText]
    obtain ⟨hName, hMembers⟩ := Prod.mk.inj (Option.some.inj hRead)
    refine ⟨fun p => ?_, hName⟩
    show p ∈ first.members ↔ p ∈ second.members
    rw [hMembers]
  · rintro ⟨hMembers, rfl⟩
    rw [PatternSet.ext_mem hMembers]

theorem document_of (patterns : PatternSet) (moduleName : String) :
    (Rendering.of patterns moduleName).document = text patterns moduleName := rfl

/-- **A document is a faithful encoding.** A reader recovers the module and the patterns from it, in
ascending order of their bytes; each pattern has one line, and no other line is an entry. Documents
are the same exactly if they are about the same module and the same patterns; how a set was made up
does not matter. -/
theorem faithful (first second : PatternSet) (firstName secondName : String) :
    read? (Rendering.of first firstName).document = some (firstName, first.members) ∧
      (first.members.Pairwise fun p q => Text.bytes p.text < Text.bytes q.text) ∧
      (Text.piecesOf '\n' (Rendering.of first firstName).document).filterMap entryOf? =
        first.members ∧
      ((Rendering.of first firstName).document = (Rendering.of second secondName).document ↔
        first = second ∧ firstName = secondName) ∧
      ∀ made remade : List Pattern,
        (Rendering.of (.ofList made) firstName).document =
            (Rendering.of (.ofList remade) secondName).document ↔
          (∀ p, p ∈ made ↔ p ∈ remade) ∧ firstName = secondName := by
  -- a set knows its members, not the order in which they came
  have hMem (p : Pattern) (ps : List Pattern) : p ∈ PatternSet.ofList ps ↔ p ∈ ps := by
    rw [PatternSet.ofList, PatternSet.mem_insertAll]
    simp
  simp only [document_of]
  refine ⟨read?_text first firstName, ?_, ?_, ?_, ?_⟩
  · exact first.ascending.imp Text.bytes_lt_of_lt
  · rw [piecesOf_text, filterMap_lines]
  · refine text_inj.trans (and_congr_left fun _ => ?_)
    exact ⟨PatternSet.ext_mem, fun hEq p => by rw [hEq]⟩
  · intro made remade
    refine text_inj.trans (and_congr_left fun _ => ?_)
    simp only [hMem]

end Document

end KeyRegistry

import KeyRegistry.Proofs.Script.Layout
import KeyRegistry.Proofs.Text.Parts
import KeyRegistry.Script.Marker

/-!
# The text literals of a script

A text literal ends at the next quote of its own kind that no backslash stands in front of, and no
line ends inside it unless a backslash does. That is said here without any reader, and it leaves no
choice: of all that can follow an opening quote one text is the literal. Every text literal that the
reader of scripts puts into a tree is of this form, whatever rules have led to it.

Main definitions:

* `Text.Body`, `Text.IsLiteral` — what stands between quotes, and with them
* `Node.HasLiterals`, `State.HasLiterals` — all texts of a tree or of a state are literals of a
  source

Main statements:

* `Text.IsLiteral.unique` — one literal starts at a place
* `textLength_eq_some` — the length of a literal leads behind the quote that closes it
* `hasLiterals_parse` — the texts of a script that was read are literals of its source
-/

namespace KeyRegistry.Text

/-! ## Literals -/

/-- A character that stands between two quotes for itself. -/
def IsPlain (quote c : Char) : Prop :=
  c ≠ quote ∧ c ≠ '\\' ∧ c ≠ '\n' ∧ c ≠ '\r'

instance (quote c : Char) : Decidable (IsPlain quote c) :=
  inferInstanceAs (Decidable (_ ∧ _))

/-- What stands between two quotes: plain characters, and any characters that a backslash stands in
front of. A carriage return with a line feed behind it counts as one. -/
inductive Body (quote : Char) : List Char → Prop
  | nil : Body quote []
  | plain {body : List Char} (c : Char) (hPlain : IsPlain quote c) (hBody : Body quote body) :
      Body quote (c :: body)
  | escape {body : List Char} (c : Char) (hBody : Body quote body) : Body quote ('\\' :: c :: body)
  | returnAndFeed {body : List Char} (hBody : Body quote body) :
      Body quote ('\\' :: '\r' :: '\n' :: body)

/-- A text is a literal: a quote, what stands between two quotes, and the same quote. -/
def IsLiteral (text : String) : Prop :=
  ∃ quote body, IsQuote quote ∧ Body quote body ∧ text = quoted quote body

variable {quote : Char} {body first second rest others : List Char}

theorem IsQuote.ne_backslash (h : IsQuote quote) : quote ≠ '\\' := by
  rcases h with rfl | rfl <;> decide

theorem IsQuote.ne_lineFeed (h : IsQuote quote) : quote ≠ '\n' := by
  rcases h with rfl | rfl <;> decide

/-- What stands between two quotes does not start with the end of a line. -/
theorem Body.head_ne (hQuote : IsQuote quote) (h : Body quote body) :
    body ++ quote :: rest ≠ '\n' :: others := by
  intro hEq
  cases h with
  | nil => exact hQuote.ne_lineFeed (List.cons.inj hEq).1
  | plain c hPlain => exact hPlain.2.2.1 (List.cons.inj hEq).1
  | escape | returnAndFeed => exact absurd (List.cons.inj hEq).1 (by decide)

/-- What stands between two quotes leaves no choice for the quote that closes it. -/
theorem Body.unique (hQuote : IsQuote quote) (hFirst : Body quote first)
    (hSecond : Body quote second)
    (hEq : first ++ quote :: rest = second ++ quote :: others) : first = second := by
  induction hFirst generalizing second with
  | nil =>
    cases hSecond with
    | nil => rfl
    | plain c hPlain => exact absurd (List.cons.inj hEq).1.symm hPlain.1
    | escape | returnAndFeed => exact absurd (List.cons.inj hEq).1 hQuote.ne_backslash
  | plain c hPlain _ ih =>
    cases hSecond with
    | nil => exact absurd (List.cons.inj hEq).1 hPlain.1
    | plain d _ hOther =>
      obtain ⟨hHead, hTail⟩ := List.cons.inj hEq
      rw [hHead, ih hOther hTail]
    | escape | returnAndFeed => exact absurd (List.cons.inj hEq).1 hPlain.2.1
  | escape c hBody ih =>
    cases hSecond with
    | nil => exact absurd (List.cons.inj hEq).1.symm hQuote.ne_backslash
    | plain d hPlain => exact absurd (List.cons.inj hEq).1.symm hPlain.2.1
    | escape d hOther =>
      obtain ⟨hHead, hTail⟩ := List.cons.inj (List.cons.inj hEq).2
      rw [hHead, ih hOther hTail]
    | returnAndFeed =>
      -- a line feed behind an escaped carriage return would have to open what follows it
      exact absurd (List.cons.inj (List.cons.inj hEq).2).2 (hBody.head_ne hQuote)
  | returnAndFeed _ ih =>
    cases hSecond with
    | nil => exact absurd (List.cons.inj hEq).1.symm hQuote.ne_backslash
    | plain d hPlain => exact absurd (List.cons.inj hEq).1.symm hPlain.2.1
    | escape d hOther =>
      exact absurd (List.cons.inj (List.cons.inj hEq).2).2.symm (hOther.head_ne hQuote)
    | returnAndFeed hOther =>
      rw [ih hOther (List.cons.inj (List.cons.inj (List.cons.inj hEq).2).2).2]

/-- One literal starts at a place. -/
theorem IsLiteral.unique {literal other : String} (h : IsLiteral literal) (hOther : IsLiteral other)
    (hEq : literal.toList ++ rest = other.toList ++ others) : literal = other := by
  obtain ⟨quote, body, hQuote, hBody, rfl⟩ := h
  obtain ⟨otherQuote, otherBody, -, hOtherBody, rfl⟩ := hOther
  simp only [quoted, String.toList_ofList, List.cons_append, List.append_assoc,
    List.cons.injEq] at hEq
  obtain ⟨rfl, hRest⟩ := hEq
  rw [hBody.unique hQuote hOtherBody hRest]

/-- A literal is not empty. -/
theorem IsLiteral.ne_nil {literal : String} (h : IsLiteral literal) : literal.toList ≠ [] := by
  obtain ⟨quote, body, -, -, rfl⟩ := h
  simp [quoted]

theorem Body.of_plain (hPlain : ∀ c ∈ first, IsPlain quote c) (h : Body quote body) :
    Body quote (first ++ body) := by
  induction first with
  | nil => exact h
  | cons c first ih =>
    obtain ⟨hHead, hTail⟩ := List.forall_mem_cons.mp hPlain
    exact .plain c hHead (ih hTail)

/-- A hexadecimal digit stands for itself. -/
theorem IsPlain.of_hexDigit {c : Char} (hQuote : IsQuote quote) (h : (hexValue? c).isSome = true) :
    IsPlain quote c := by
  refine ⟨?_, ?_, ?_, ?_⟩ <;> rintro rfl
  · rcases hQuote with rfl | rfl <;> exact absurd h (by decide)
  all_goals exact absurd h (by decide)

/-- So does a brace. -/
theorem IsPlain.of_brace {c : Char} (hQuote : IsQuote quote) (h : c = '\x7b' ∨ c = '\x7d') :
    IsPlain quote c := by
  rcases hQuote with rfl | rfl <;> rcases h with rfl | rfl <;> decide

/-- Digits that can be read are there. -/
theorem isSome_readHex {count value : Nat} {text : List Char}
    (h : (readHex count value text).isSome = true) :
    ∀ c ∈ text.take count, (hexValue? c).isSome = true := by
  induction count generalizing value text with
  | zero => simp
  | succ count ih =>
    cases text with
    | nil => cases h
    | cons c text =>
      cases hDigit : hexValue? c with
      | none => simp [readHex, hDigit] at h
      | some digit =>
        simp only [readHex, hDigit, Option.bind_eq_bind, Option.bind_some] at h
        exact List.forall_mem_cons.mpr ⟨by rw [hDigit]; rfl, ih h⟩

end KeyRegistry.Text

namespace KeyRegistry.Script

open KeyRegistry.Text

variable {quote : Char} {chars known tail body : List Char} {skip : Nat} {extent : Extent}

/-! ## How far a literal reaches -/

/-- An escape that is cut short is one of a code. -/
theorem head?_of_escapeLength_eq_zero (h : escapeLength chars = 0) :
    chars = [] ∨ chars.head? = some 'x' ∨ chars.head? = some 'u' := by
  unfold escapeLength at h
  split at h <;> simp_all

/-- What is left of an escape that is cut short may stand behind a backslash all the same. -/
theorem body_of_escapeLength_eq_zero {behind : List Char} (hQuote : IsQuote quote)
    (hEscape : escapeLength (body ++ quote :: behind) = 0) (hBody : Body quote body) :
    Body quote ('\\' :: body) := by
  rcases head?_of_escapeLength_eq_zero hEscape with hNone | hCode
  · simp at hNone
  · cases hBody with
    | nil => rcases hQuote with rfl | rfl <;> simp at hCode
    | plain c _ hBody => exact .escape c hBody
    | escape | returnAndFeed => simp at hCode

/-- Digits that were counted may stand between quotes. -/
theorem body_of_digits {count : Nat} (hQuote : IsQuote quote)
    (hRead : (readHex count 0 (known ++ tail)).isSome = true) (hLength : known.length = count)
    (hBody : Body quote body) : Body quote (known ++ body) := by
  have hDigits := isSome_readHex hRead
  rw [List.take_left' hLength] at hDigits
  exact .of_plain (fun c hMem => .of_hexDigit hQuote (hDigits c hMem)) hBody

/-- So may digits with braces around them. -/
theorem body_of_braces (hQuote : IsQuote quote)
    (hClosed : ((known ++ tail).drop
      ((known ++ tail).takeWhile fun c => (hexValue? c).isSome).length).head? = some '\x7d')
    (hLength : known.length = ((known ++ tail).takeWhile fun c => (hexValue? c).isSome).length + 1)
    (hBody : Body quote body) : Body quote ('\x7b' :: (known ++ body)) := by
  have hDigits := List.all_eq_true.mp
    (List.all_takeWhile (p := fun c => (hexValue? c).isSome) (l := known ++ tail))
  have hFront := List.prefix_iff_eq_take.mp
    (List.takeWhile_prefix (l := known ++ tail) fun c => (hexValue? c).isSome)
  generalize (known ++ tail).takeWhile (fun c => (hexValue? c).isSome) = digits at *
  obtain ⟨more, hMore⟩ := List.head?_eq_some_iff.mp hClosed
  -- the digits and the brace behind them are just what is known to belong to the literal
  have hKnown : known = digits ++ ['\x7d'] := by
    have hSplit : known ++ tail = (digits ++ ['\x7d']) ++ more := by
      calc known ++ tail
          = (known ++ tail).take digits.length ++ (known ++ tail).drop digits.length :=
            (List.take_append_drop _ _).symm
        _ = digits ++ '\x7d' :: more := by rw [← hFront, hMore]
        _ = (digits ++ ['\x7d']) ++ more := List.append_cons ..
    exact (List.append_inj hSplit (by simp [hLength])).1
  rw [hKnown, List.append_assoc]
  refine .plain _ (.of_brace hQuote (Or.inl rfl)) (.of_plain (fun c hMem => ?_) ?_)
  · exact .of_hexDigit hQuote (hDigits c hMem)
  · exact .plain _ (.of_brace hQuote (Or.inr rfl)) hBody

/-- What an escape takes is what may stand behind a backslash. -/
theorem body_of_escapeLength (hQuote : IsQuote quote)
    (hLength : escapeLength (known ++ tail) = known.length) (hSome : known ≠ [])
    (hBody : Body quote body) : Body quote ('\\' :: (known ++ body)) := by
  obtain ⟨c, taken, rfl⟩ := List.exists_cons_of_ne_nil hSome
  rw [List.cons_append, List.length_cons] at hLength
  -- the cases are those of the count; a count of none is not the length of something
  unfold escapeLength at hLength
  split at hLength
  · next hNil => cases hNil
  · next digits hEq =>
    obtain ⟨rfl, rfl⟩ := List.cons.inj hEq
    split at hLength
    · next hRead => exact .escape 'x' (body_of_digits hQuote hRead (by omega) hBody)
    · cases hLength
  · next digits hEq =>
    obtain ⟨rfl, hBrace⟩ := List.cons.inj hEq
    dsimp only at hLength
    split at hLength
    · next hClosed =>
      obtain ⟨brace, inner, rfl⟩ := List.exists_cons_of_ne_nil
        (l := taken) (by rintro rfl; simp at hLength)
      rw [List.cons_append] at hBrace
      obtain ⟨rfl, rfl⟩ := List.cons.inj hBrace
      rw [List.length_cons] at hLength
      exact .escape 'u' (body_of_braces hQuote hClosed.1 (by omega) hBody)
    · cases hLength
  · next digits _ hEq =>
    obtain ⟨rfl, rfl⟩ := List.cons.inj hEq
    split at hLength
    · next hRead => exact .escape 'u' (body_of_digits hQuote hRead (by omega) hBody)
    · cases hLength
  · next hEq =>
    obtain ⟨rfl, hFeed⟩ := List.cons.inj hEq
    obtain ⟨feed, rfl⟩ := List.length_eq_one_iff.mp (show taken.length = 1 by omega)
    obtain ⟨rfl, -⟩ := List.cons.inj hFeed
    exact .returnAndFeed hBody
  · obtain rfl := List.length_eq_zero_iff.mp (show taken.length = 0 by omega)
    exact .escape c hBody

/-- What an escape takes, or what is left of one that is cut short, may stand behind a backslash. -/
theorem body_of_escape {behind : List Char} (hQuote : IsQuote quote)
    (hLength : escapeLength (known ++ (body ++ quote :: behind)) = known.length)
    (hBody : Body quote body) : Body quote ('\\' :: (known ++ body)) := by
  cases known with
  | nil => exact body_of_escapeLength_eq_zero hQuote hLength hBody
  | cons c known => exact body_of_escapeLength hQuote hLength (List.cons_ne_nil c known) hBody

/-- A literal goes on with the quote that closes it, with a backslash and what the escape takes, or
with a character that stands for itself. -/
theorem textLength_cases {c : Char} {rest : List Char}
    (h : textLength quote 0 (c :: rest) = some extent) :
    c = quote ∧ extent.length = 1 ∨
      ∃ shorter, extent.length = shorter.length + 1 ∧
        (c = '\\' ∧ textLength quote (escapeLength rest) rest = some shorter ∨
          IsPlain quote c ∧ textLength quote 0 rest = some shorter) := by
  -- in the order in which the scanner asks: the closing quote, an end of line, a backslash
  rw [textLength] at h
  split at h
  · next hClose =>
    cases h
    exact Or.inl ⟨hClose, rfl⟩
  · next hClose =>
    split at h
    · cases h
    · next hEnd =>
      right
      split at h
      · next hBackslash =>
        -- a backslash that opens no escape makes the text a flawed one, but does not end it
        cases hEscape : escapeLength rest with
        | zero =>
          rw [hEscape] at h
          obtain ⟨shorter, hRest, rfl⟩ := Option.map_eq_some_iff.mp h
          exact ⟨shorter, rfl, Or.inl ⟨hBackslash, hRest⟩⟩
        | succ count =>
          rw [hEscape] at h
          obtain ⟨shorter, hRest, rfl⟩ := Option.map_eq_some_iff.mp h
          exact ⟨shorter, rfl, Or.inl ⟨hBackslash, hRest⟩⟩
      · next hBackslash =>
        obtain ⟨shorter, hRest, rfl⟩ := Option.map_eq_some_iff.mp h
        rw [not_or] at hEnd
        exact ⟨shorter, rfl, Or.inr ⟨⟨hClose, hBackslash, hEnd⟩, hRest⟩⟩

/-- The length of a literal, behind its opening quote and behind what is known to belong to it,
leads behind the quote that closes it. -/
theorem textLength_eq_some (hQuote : IsQuote quote)
    (h : textLength quote skip chars = some extent) :
    ∃ known body behind, chars = known ++ (body ++ quote :: behind) ∧ known.length = skip ∧
      Body quote body ∧ extent.length = skip + (body.length + 1) := by
  induction chars generalizing skip extent with
  | nil => simp [textLength] at h
  | cons c rest ih =>
    cases skip with
    | succ skip =>
      obtain ⟨shorter, hRest, rfl⟩ := Option.map_eq_some_iff.mp h
      obtain ⟨known, body, behind, rfl, rfl, hBody, hLength⟩ := ih hRest
      refine ⟨c :: known, body, behind, rfl, rfl, hBody, ?_⟩
      simp only [Extent.more, hLength]
      omega
    | zero =>
      rcases textLength_cases h with ⟨rfl, hOne⟩ | ⟨shorter, hMore, ⟨rfl, hRest⟩ | ⟨hPlain, hRest⟩⟩
      · exact ⟨[], [], rest, rfl, rfl, .nil, hOne⟩
      · -- what the escape takes is known to belong to the rest, and here it belongs to the body
        obtain ⟨known, body, behind, rfl, hKnown, hBody, hLength⟩ := ih hRest
        refine ⟨[], '\\' :: (known ++ body), behind, by simp, rfl,
          body_of_escape hQuote hKnown.symm hBody, ?_⟩
        rw [hMore, hLength, ← hKnown, List.length_cons, List.length_append]
        omega
      · obtain ⟨known, body, behind, rfl, hNone, hBody, hLength⟩ := ih hRest
        obtain rfl := List.length_eq_zero_iff.mp hNone
        refine ⟨[], c :: body, behind, rfl, rfl, .plain c hPlain hBody, ?_⟩
        rw [hMore, hLength, List.length_cons]
        omega

/-- What is taken for a literal is one. -/
theorem isLiteral_of_textLength (hQuote : IsQuote quote)
    (h : textLength quote 0 tail = some extent) :
    IsLiteral (String.ofList ((quote :: tail).take (extent.length + 1))) := by
  obtain ⟨known, body, behind, rfl, hNone, hBody, hLength⟩ := textLength_eq_some hQuote h
  obtain rfl := List.length_eq_zero_iff.mp hNone
  refine ⟨quote, body, hQuote, hBody, ?_⟩
  rw [Nat.zero_add] at hLength
  rw [hLength, quoted, List.take_succ_cons, List.nil_append, List.append_cons,
    List.take_left' (by simp)]

/-! ## Trees -/

/-- Where a reader stands that has read some characters from the start of a source. -/
def Position.behind (text : List Char) : Position :=
  text.foldl advance start

namespace Node

variable {source : List Char} {root node : Node}

/-- A node is a literal of a source: it starts where the reader stood in front of the opening quote,
and it ends with the closing one. -/
def IsLiteralOf (source : List Char) (node : Node) : Prop :=
  ∃ (before : List Char) (literal : String) (behind : List Char),
    source = before ++ literal.toList ++ behind ∧ node.start = .behind before ∧
    node.ending = byteLength before + byteLength literal.toList ∧ IsLiteral literal

/-- All texts of a tree are literals of a source. -/
def HasLiterals (source : List Char) (root : Node) : Prop :=
  root.All fun node => node.kind = .string → node.IsLiteralOf source

theorem hasLiterals_leaf {label : Label} (h : label.kind ≠ .string) :
    (leaf label).HasLiterals source :=
  all_leaf.mpr fun hKind => absurd hKind h

end Node

/-! ## States of the reader -/

/-- The reader stands behind what it has read of a source, and all texts that it has read are
literals of the source. -/
structure State.HasLiterals (source : List Char) (s : State) : Prop where
  reached : ∃ before, source = before ++ s.rest ∧ s.position = .behind before
  literals : ∀ tree ∈ s.trees, tree.HasLiterals source

namespace State.HasLiterals

variable {source : List Char} {s : State}

/-- The reader keeps its three coordinates in step with what it has read. -/
theorem take (h : s.HasLiterals source) (count : Nat) :
    (Parser.take count s).2.HasLiterals source where
  reached := by
    obtain ⟨before, hSource, hPosition⟩ := h.reached
    refine ⟨before ++ s.rest.take count, ?_, ?_⟩
    · rw [List.append_assoc, hSource]
      exact congrArg _ (List.take_append_drop count s.rest).symm
    · show (s.rest.take count).foldl Position.advance s.position = _
      rw [Position.behind, List.foldl_append, hPosition]
      rfl
  literals := h.literals

theorem push (h : s.HasLiterals source) (count : Nat) (flawed : Bool) {tree : Node}
    (hTree : tree.HasLiterals source) :
    ({ (Parser.take count s).2 with trees := tree :: s.trees, flawed } : State).HasLiterals
      source where
  reached := (h.take count).reached
  literals := List.forall_mem_cons.mpr ⟨hTree, h.literals⟩

/-- What is taken for a text literal is one, and it stands where the reader stood. -/
theorem isLiteralOf_text (h : s.HasLiterals source) {extent : Extent} {tail : List Char}
    (hRest : s.rest = quote :: tail) (hQuote : IsQuote quote)
    (hLength : textLength quote 0 tail = some extent) (children : List Node) :
    (Node.mk {
      kind := .string
      start := s.position
      ending := (Parser.take (extent.length + 1) s).2.position.offset } children).IsLiteralOf
        source := by
  obtain ⟨before, hSource, hPosition⟩ := h.reached
  let literal := String.ofList (s.rest.take (extent.length + 1))
  have hText : literal.toList = s.rest.take (extent.length + 1) := String.toList_ofList
  have hOffset : s.position.offset = byteLength before := by
    rw [hPosition, Position.behind, Position.offset_foldl_advance]
    exact Nat.zero_add _
  refine ⟨before, literal, s.rest.drop (extent.length + 1), ?_, hPosition, ?_, ?_⟩
  · rw [hText, List.append_assoc, List.take_append_drop, hSource]
  · show ((s.rest.take _).foldl Position.advance s.position).offset = _
    rw [Position.offset_foldl_advance, hOffset, hText]
  · show IsLiteral (String.ofList (s.rest.take (extent.length + 1)))
    rw [hRest]
    exact isLiteral_of_textLength hQuote hLength

instance : Stable (State.HasLiterals source) where
  flags _ _ _ _ h := ⟨h.reached, h.literals⟩
  take _ count h := h.take count
  leaf _ _ count hKind h := h.push count _ (Node.hasLiterals_leaf hKind)
  text s quote tail extent hRest hQuote hLength h := by
    refine h.push (extent.length + 1) _ (Node.all_iff.mpr ⟨fun _ => ?_, ?_⟩)
    · exact h.isLiteralOf_text hRest hQuote hLength _
    · -- what is wrong inside of a literal is no literal
      cases extent.flawed with
      | false => simp
      | true => exact List.forall_mem_singleton.mpr (Node.hasLiterals_leaf nofun)
  missing _ h := h.push 0 true (Node.hasLiterals_leaf nofun)
  wrap s kind mark hKind h := by
    refine ⟨h.reached, List.forall_mem_append.mpr ⟨?_, fun tree hTree => ?_⟩⟩
    · refine all_of_mem_gather (fun node field hNode hText => ?_)
        (fun label children hLabel _ hText => ?_)
        fun tree hTree => h.literals tree (List.mem_of_mem_take hTree)
      · simpa [Node.IsLiteralOf] using hNode (by simpa using hText)
      · exact absurd (hLabel.symm.trans hText) hKind
    · exact h.literals tree (List.mem_of_mem_drop hTree)

end State.HasLiterals

/-! ## Scripts -/

/-- The texts in the tree of a script are literals of its source. -/
theorem hasLiterals_parse (dialect : Dialect) (source : String) :
    (parse dialect source).HasLiterals source.toList := by
  have hRead : (Parser.script dialect { rest := source.toList }).2.HasLiterals source.toList :=
    Keeps.keeps _ ⟨⟨[], rfl, rfl⟩, fun _ hMem => absurd hMem List.not_mem_nil⟩
  exact Node.all_iff.mpr ⟨nofun, fun child hChild =>
    hRead.literals child (List.mem_reverse.mp hChild)⟩

end KeyRegistry.Script

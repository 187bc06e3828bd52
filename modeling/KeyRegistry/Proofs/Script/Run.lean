import KeyRegistry.Proofs.Script.Layout

/-!
# Runs of parsers

What a parser does at a given place of a source is followed step by step. Where it stands is all
that counts: what is left to read, and whether a line ends there. A parser that looks ahead is
replaced by what it sees, and one that reads leads to the next place; the offsets and the trees take
care of themselves, as long as nothing is flawed and no call is read.

Main definitions:

* `Spot` — where a parser stands
* `Reads`, `Fails`, `Still` — what a parser does at a spot
* `Loops` — how a step is repeated from one spot to another

Main statements:

* `meets_startsWith`, `meets_peekName`, … — parsers that look ahead
* `Reads.bind` — parsers one after the other
* `reads_repeatWhile` — a repetition goes where its steps lead
-/

namespace KeyRegistry.Script

/-! ## Spots -/

/-- Where a parser stands: what is left to read, and whether a line ends in front of it. -/
structure Spot where
  rest : List Char
  newline : Bool

/-- Where a state stands. -/
def State.spot (s : State) : Spot :=
  ⟨s.rest, s.newline⟩

/-- The spot in front of the next word: white space and comments are left behind. -/
def Spot.settled (chars : List Char) : Spot :=
  let gap := Parser.gap (.blank 0) [] false chars
  ⟨chars.drop gap.length, gap.newline⟩

/-- Settling reads on, never back. -/
theorem Spot.length_settled_le (chars : List Char) :
    (Spot.settled chars).rest.length ≤ chars.length := by
  rw [settled, List.length_drop]
  exact Nat.sub_le _ _

/-! ## Silent trees -/

/-- Whether a kind of nodes is neither a call nor an error. -/
def Kind.IsSilent (kind : Kind) : Prop :=
  kind ≠ .call ∧ kind ≠ .error

instance (kind : Kind) : Decidable kind.IsSilent :=
  inferInstanceAs (Decidable (_ ∧ _))

/-- No node of a tree is a call or an error, and none had to be put in. -/
def Node.Silent (tree : Node) : Prop :=
  tree.All fun node => node.kind.IsSilent ∧ node.label.isMissing = false

/-- A node is silent if it is neither a call nor an error, nothing was put in for it, and the nodes
in it are silent. -/
theorem Node.silent_mk {label : Label} {children : List Node} (hKind : label.kind.IsSilent)
    (hMissing : label.isMissing = false) (h : ∀ child ∈ children, child.Silent) :
    (Node.mk label children).Silent :=
  Node.all_iff.mpr ⟨⟨hKind, hMissing⟩, h⟩

/-- A leaf is silent if it is neither an error nor put in. -/
theorem Node.silent_leaf {label : Label} (hKind : label.kind.IsSilent)
    (hMissing : label.isMissing = false) : (Node.leaf label).Silent :=
  Node.silent_mk hKind hMissing nofun

/-- A state has come out of another one without flaws and without calls. -/
structure State.Grown (s t : State) : Prop where
  flawed : t.flawed = s.flawed
  trees : ∃ added, t.trees = added ++ s.trees ∧ ∀ tree ∈ added, tree.Silent

theorem State.Grown.refl (s : State) : s.Grown s :=
  ⟨rfl, [], rfl, by simp⟩

/-- Growing twice is growing: the trees of the second step lie on top of those of the first. -/
theorem State.Grown.trans {s t u : State} (h : s.Grown t) (h' : t.Grown u) : s.Grown u := by
  obtain ⟨added, hTrees, hSilent⟩ := h.trees
  obtain ⟨added', hTrees', hSilent'⟩ := h'.trees
  refine ⟨h'.flawed.trans h.flawed, added' ++ added, ?_, ?_⟩
  · rw [hTrees', hTrees, List.append_assoc]
  · intro tree hTree
    exact (List.mem_append.mp hTree).elim (hSilent' tree) (hSilent tree)

namespace Parser

variable {α β : Type} {p : Parser α} {f : α → Parser β} {x y z : Spot} {a : α} {b : β}
  {Q : State → Option β × State → Prop}

/-! ## Judgements -/

/-- One parser after another, at a state: the second one starts where the first one ended, unless
the first one failed. -/
theorem bind_apply (p : Parser α) (f : α → Parser β) (s : State) :
    (p >>= f) s = match p s with
      | (some a, t) => f a t
      | (none, t) => (none, t) := rfl

instance : LawfulMonad Parser :=
  LawfulMonad.mk' Parser
    (fun p => by
      funext s
      show (p >>= fun a => pure (id a)) s = p s
      rw [bind_apply]
      rcases p s with ⟨_ | a, t⟩ <;> rfl)
    (fun _ _ => rfl)
    (fun p f g => by
      funext s
      rw [bind_apply, bind_apply, bind_apply]
      rcases p s with ⟨_ | a, t⟩ <;> rfl)

/-- What a parser gives at a spot, in terms of the state that it starts in. -/
def Meets (p : Parser α) (x : Spot) (Q : State → Option α × State → Prop) : Prop :=
  ∀ s : State, s.spot = x → Q s (p s)

/-- A parser reads from one spot to another and gives a value, without flaws and calls. -/
abbrev Reads (p : Parser α) (x : Spot) (a : α) (y : Spot) : Prop :=
  Meets p x fun s result => ∃ t, result = (some a, t) ∧ t.spot = y ∧ s.Grown t

/-- A parser fails at a spot. -/
abbrev Fails (p : Parser α) (x : Spot) : Prop :=
  Meets p x fun _ result => result.1 = none

/-- A parser gives a value at a spot and reads nothing. -/
abbrev Still (p : Parser α) (x : Spot) (a : α) : Prop :=
  Meets p x fun s result => result = (some a, s)

/-- A parser that stays where it is reads nothing. -/
theorem Still.reads (h : Still p x a) : Reads p x a x :=
  fun s hSpot => ⟨s, h s hSpot, hSpot, .refl s⟩

@[simp] theorem still_pure : Still (pure a : Parser α) x a :=
  fun _ _ => rfl

theorem reads_pure : Reads (pure a) x a x :=
  still_pure.reads

/-- The parser that fails does so at every spot. -/
@[simp] theorem fails_fail : Fails (fail : Parser α) x :=
  fun _ _ => rfl

/-- Parsers one after the other read what each of them reads. -/
theorem Reads.bind (h : Reads p x a y) (h' : Reads (f a) y b z) : Reads (p >>= f) x b z := by
  intro s hSpot
  obtain ⟨t, hFirst, hBetween, hGrown⟩ := h s hSpot
  obtain ⟨u, hThen, hEnd, hGrown'⟩ := h' t hBetween
  exact ⟨u, by rw [bind_apply, hFirst]; exact hThen, hEnd, hGrown.trans hGrown'⟩

/-- What is made of a result afterwards does not change what is read. -/
theorem Reads.map {g : α → β} (h : Reads p x a y) : Reads (g <$> p) x (g a) y :=
  h.bind reads_pure

/-! ## Looking ahead -/

/-- A parser that reads nothing stands for its value. -/
theorem meets_of_still (h : Still p x a) : Meets (p >>= f) x Q ↔ Meets (f a) x Q := by
  refine forall₂_congr fun s hSpot => ?_
  rw [bind_apply, h s hSpot]

/-- The name that some characters start with. -/
def nameOf (chars : List Char) : Option String :=
  (peekName { rest := chars }).1.join

section Looking

variable {f : Bool → Parser β}

/-- Asking for a sign is answered by what is left to read. -/
@[simp] theorem meets_startsWith {sign : String} :
    Meets (startsWith sign >>= f) x Q ↔ Meets (f (sign.toList.isPrefixOf x.rest)) x Q :=
  meets_of_still fun s hSpot => by rw [← hSpot]; rfl

/-- Asking for one of some characters is answered by the next character. -/
@[simp] theorem meets_nextIn {characters : String} :
    Meets (nextIn characters >>= f) x Q ↔
      Meets (f (x.rest.head?.any characters.toList.contains)) x Q :=
  meets_of_still fun s hSpot => by rw [← hSpot]; rfl

/-- Asking for the end of a line is answered by the spot. -/
@[simp] theorem meets_newline : Meets (newline >>= f) x Q ↔ Meets (f x.newline) x Q :=
  meets_of_still fun s hSpot => by rw [← hSpot]; rfl

/-- Asking for the end is answered by whether anything is left. -/
@[simp] theorem meets_atEnd : Meets (atEnd >>= f) x Q ↔ Meets (f x.rest.isEmpty) x Q :=
  meets_of_still fun s hSpot => by rw [← hSpot]; rfl

/-- Looking at the next character shows the first one that is left. -/
@[simp] theorem meets_peek {f : Option Char → Parser β} :
    Meets (peek >>= f) x Q ↔ Meets (f x.rest.head?) x Q :=
  meets_of_still fun s hSpot => by rw [← hSpot]; rfl

/-- Looking at everything shows what is left to read. -/
@[simp] theorem meets_rest {f : List Char → Parser β} :
    Meets (rest >>= f) x Q ↔ Meets (f x.rest) x Q :=
  meets_of_still fun s hSpot => by rw [← hSpot]; rfl

/-- Looking for a name shows the one that what is left starts with. -/
@[simp] theorem meets_peekName {f : Option String → Parser β} :
    Meets (peekName >>= f) x Q ↔ Meets (f (nameOf x.rest)) x Q :=
  meets_of_still fun s hSpot => by
    rw [← hSpot]
    show peekName s = (some (nameOf s.rest), s)
    unfold nameOf peekName
    repeat' split
    all_goals simp_all

/-- Asking for a word is answered by the name that what is left starts with. -/
@[simp] theorem meets_atWord {given : String} :
    Meets (atWord given >>= f) x Q ↔ Meets (f (nameOf x.rest == some given)) x Q := by
  rw [atWord, bind_assoc, meets_peekName, pure_bind]

/-- A sign that does not come next is not read. -/
@[simp] theorem meets_symbol?_of_not {sign : String} (h : sign.toList.isPrefixOf x.rest = false) :
    Meets (symbol? sign >>= f) x Q ↔ Meets (f false) x Q := by
  simp [symbol?, h]

/-- A word that does not come next is not read. -/
@[simp] theorem meets_word?_of_not {given : String} (h : (nameOf x.rest == some given) = false) :
    Meets (word? given >>= f) x Q ↔ Meets (f false) x Q := by
  simp [word?, h]

/-- What fails is not ahead. -/
@[simp] theorem meets_ahead_of_fails (h : Fails p x) :
    Meets (ahead p >>= f) x Q ↔ Meets (f false) x Q :=
  meets_of_still fun s hSpot => by
    rw [ahead, h s hSpot]
    rfl

/-- Trying a parser that reads on answers yes, and nothing is read. -/
theorem meets_ahead_of_reads (h : Reads p x a y) :
    Meets (ahead p >>= f) x Q ↔ Meets (f true) x Q :=
  meets_of_still fun s hSpot => by
    obtain ⟨t, hRead, -⟩ := h s hSpot
    rw [ahead, hRead]
    rfl

end Looking

/-- Nothing comes after a parser that fails. -/
@[simp] theorem fail_bind : (fail >>= f) = fail := rfl

/-- A word fails where another name stands, or none. -/
@[simp] theorem fails_word {given : String} {f : Unit → Parser β}
    (h : (nameOf x.rest == some given) = false) : Fails (word given >>= f) x := by
  simp [word, h]

/-- A result that is discarded makes no difference to what comes next. -/
@[simp] theorem discard_bind {f : Unit → Parser β} :
    (discard p >>= f) = p >>= fun _ => f () := by
  show ((p >>= fun _ => pure ()) >>= f) = _
  rw [bind_assoc]
  rfl

/-- A step that says no at once is not repeated. -/
@[simp] theorem still_repeatWhile {step : Parser Bool} (h : Still step x false) :
    Still (repeatWhile step) x () := by
  intro s hSpot
  show (step >>= fun again => if again then repeatWithin step s.rest.length else pure ()) s = _
  rw [bind_apply, h s hSpot]
  rfl

/-- A repetition whose step stays where it is ends at once. -/
@[simp] theorem meets_repeatWhile_of_still {step : Parser Bool} {f : Unit → Parser β}
    (h : Still step x false) : Meets (repeatWhile step >>= f) x Q ↔ Meets (f ()) x Q :=
  meets_of_still (still_repeatWhile h)

/-- Comments in the manner of markup are not read where another sign comes next. -/
@[simp] theorem meets_skipMarkupComments {f : Unit → Parser β} {c : Char} {chars : List Char}
    {newline : Bool} (hOpen : c ≠ '<') (hClose : c ≠ '-') :
    Meets (skipMarkupComments >>= f) ⟨c :: chars, newline⟩ Q ↔
      Meets (f ()) ⟨c :: chars, newline⟩ Q :=
  meets_repeatWhile_of_still (by simp [List.isPrefixOf_cons_cons, Ne.symm hOpen, Ne.symm hClose])

/-- At the end there are no comments to skip. -/
@[simp] theorem meets_skipMarkupComments_nil {f : Unit → Parser β} {newline : Bool} :
    Meets (skipMarkupComments >>= f) ⟨[], newline⟩ Q ↔ Meets (f ()) ⟨[], newline⟩ Q :=
  meets_repeatWhile_of_still (by simp)

/-! ## Reading -/

/-- A step over characters that leaves at most a silent tree. -/
theorem reads_take (count : Nat) (x : Spot) :
    Reads (take count) x () ⟨x.rest.drop count, x.newline⟩ := by
  rintro s rfl
  exact ⟨_, rfl, rfl, rfl, [], rfl, by simp⟩

/-- A leaf reads as many characters as it has; white space behind it is not settled. -/
theorem reads_leafTight {kind : Kind} (hKind : kind.IsSilent) (count : Nat) (x : Spot) :
    Reads (leafTight kind count) x () ⟨x.rest.drop count, x.newline⟩ := by
  rintro s rfl
  refine ⟨_, rfl, rfl, ?_, [_], rfl, List.forall_mem_singleton.mpr (Node.silent_leaf hKind rfl)⟩
  simp [hKind.2]

/-- Comments are stepped over. -/
theorem reads_comments (found : List (Nat × Nat)) (x : Spot) :
    Reads (comments found) x () ⟨x.rest.drop (commentsLength found), x.newline⟩ := by
  induction found generalizing x with
  | nil => exact reads_pure
  | cons comment found ih =>
    obtain ⟨blanks, length⟩ := comment
    have hOthers := ih ⟨(x.rest.drop blanks).drop length, x.newline⟩
    rw [commentsLength, ← List.drop_drop, ← List.drop_drop]
    show Reads (take blanks >>= fun _ => leafTight .comment length >>= fun _ => comments found)
      _ _ _
    exact (reads_take blanks x).bind ((reads_leafTight (by decide) length _).bind hOthers)

/-- Skipping a gap settles the spot, and only leaves for comments are added. -/
theorem reads_skipGap (x : Spot) : Reads skipGap x () (.settled x.rest) := by
  rintro s rfl
  let found := gap (.blank 0) [] false s.rest
  have hGap := (reads_comments found.comments ⟨s.rest, found.newline⟩).bind
    (f := fun _ => take found.blanks) (reads_take found.blanks _)
  obtain ⟨t, hRead, hEnd, hGrown⟩ := hGap { s with newline := found.newline } rfl
  rw [List.drop_drop] at hEnd
  exact ⟨t, hRead, hEnd, hGrown.flawed, hGrown.trees⟩

/-- A leaf and the gap behind it lead to the settled spot behind the characters. -/
theorem reads_leaf {kind : Kind} (hKind : kind.IsSilent) (count : Nat) (x : Spot) :
    Reads (leaf kind count) x () (.settled (x.rest.drop count)) :=
  (reads_leafTight hKind count x).bind (reads_skipGap _)

theorem reads_step (count : Nat) (x : Spot) :
    Reads (step count) x () (.settled (x.rest.drop count)) :=
  reads_leaf (by decide) count x

variable {given : String}

/-- A word is read where it stands. -/
theorem reads_word (h : nameOf x.rest = some given)
    (hAfter : .settled (x.rest.drop given.length) = y) : Reads (word given) x () y := by
  simp [word, h, ← hAfter, reads_step]

/-- A name is read where it stands, as a leaf of its kind. -/
theorem reads_name {kind : Kind} (hKind : kind.IsSilent) (h : nameOf x.rest = some given)
    (hAfter : .settled (x.rest.drop given.length) = y) : Reads (name kind) x () y := by
  simp [name, h, ← hAfter, reads_leaf hKind]

/-- A sign is read where what is left starts with it. -/
theorem reads_symbol (h : given.toList.isPrefixOf x.rest)
    (hAfter : .settled (x.rest.drop given.length) = y) : Reads (symbol given) x () y := by
  simp [symbol, h, ← hAfter, reads_step]

/-- A sign that may be absent is read where it stands. -/
theorem reads_symbol? (h : given.toList.isPrefixOf x.rest)
    (hAfter : .settled (x.rest.drop given.length) = y) : Reads (symbol? given) x true y := by
  simp only [symbol?, meets_startsWith, h, if_true, ← hAfter]
  exact (reads_step _ _).bind reads_pure

/-- A word that may be absent is read where it stands. -/
theorem reads_word? (h : nameOf x.rest = some given)
    (hAfter : .settled (x.rest.drop given.length) = y) : Reads (word? given) x true y := by
  simp only [word?, meets_atWord, h, beq_self_eq_true, if_true, ← hAfter]
  exact (reads_step _ _).bind reads_pure

/-- How line ends count inside brackets does not change what is read. -/
theorem reads_inside {breaks : Bool} (h : Reads p x a y) : Reads (inside breaks p) x a y := by
  intro s hSpot
  obtain ⟨t, hRead, hEnd, hGrown⟩ := h { s with breaks, resultTypes := true } hSpot
  refine ⟨{ t with breaks := s.breaks, resultTypes := s.resultTypes }, ?_, hEnd, hGrown.flawed,
    hGrown.trees⟩
  rw [inside, hRead]

/-- Gathering what was read into a node changes nothing about where the parser stands. -/
theorem reads_node {kind : Kind} {p : Parser Unit} (hKind : kind.IsSilent) (h : Reads p x () y) :
    Reads (node kind p) x () y := by
  intro s hSpot
  obtain ⟨t, hRead, hEnd, hFlawed, added, hTrees, hSilent⟩ := h s hSpot
  -- the trees above the mark are those that were added, and they become the part
  refine ⟨(wrap kind s.trees.length t).2, ?_, hEnd, ?_, gather kind t.position added, ?_, ?_⟩
  · show (p >>= fun _ => wrap kind s.trees.length) s = _
    rw [bind_apply, hRead]
    rfl
  · simp [wrap, hFlawed, hKind.2]
  · simp [wrap, hTrees]
  · refine all_of_mem_gather (fun node field hNode => ?_) (fun label children hLabel hMissing => ?_)
      hSilent
    · cases node
      exact hNode
    · exact ⟨show label.kind.IsSilent from hLabel ▸ hKind, hMissing⟩

/-- A mark reads nothing; what comes next has to read alike from every mark. -/
theorem reads_mark {f : Nat → Parser β} (h : ∀ start, Reads (f start) x b y) :
    Reads (mark >>= f) x b y :=
  fun s hSpot => h s.trees.length s hSpot

/-- How a step is repeated from one spot to another; each step but the last reads something. -/
inductive Loops (step : Parser Bool) : Spot → Spot → Prop
  | stop {x y : Spot} : Reads step x false y → Loops step x y
  | more {x y z : Spot} : Reads step x true y → y.rest.length < x.rest.length → Loops step y z →
    Loops step x z

/-- A repetition goes where its steps lead, by induction on these steps. -/
theorem reads_repeatWhile {step : Parser Bool} (h : Loops step x y) :
    Reads (repeatWhile step) x () y := by
  -- each step but the last reads a character, so the bound does not run out before the loop does
  have hWithin : ∀ bound, x.rest.length < bound → Reads (repeatWithin step bound) x () y := by
    induction h with
    | stop h =>
      intro bound hBound
      obtain ⟨bound, rfl⟩ := Nat.exists_eq_add_of_lt hBound
      exact h.bind reads_pure
    | more h hLess _ ih =>
      intro bound hBound
      obtain ⟨bound, rfl⟩ := Nat.exists_eq_add_of_lt hBound
      exact h.bind (ih _ (by omega))
  intro s hSpot
  have hLength : s.rest.length = x.rest.length := by rw [← hSpot]; rfl
  exact hWithin _ (by omega) s hSpot

end Parser

end KeyRegistry.Script

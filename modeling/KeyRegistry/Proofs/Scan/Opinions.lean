import KeyRegistry.Proofs.FileSystem.Tree
import KeyRegistry.Scan.Walk

/-!
# Opinions of rule files

A file of ignore rules has an opinion about what lies below its directory. The walk and the filter
of events both go by these opinions, but ask for them in different orders: the walk asks all files
of one name before those of the next name, for each entry on the way; the filter asks the
directories one by one, each about all entries on the way. Here both are put in terms of the same
opinions.

The entries on the way are counted: `names.take item` is the entry, `names.take depth` the directory
that is asked.

Main definitions:

* `Walk.opinion?` — what a rule file of a directory says about an entry
* `Matcher.opinion?` — what a directory says about an entry, in the eyes of the filter
* `Matcher.Decides` — which directory and entry settle a path for the filter

Main statements:

* `Walk.verdictOf?_eq_some`, `Walk.isIgnored_of_reaches` — how the walk decides
* `Matcher.isScannable_eq_false_iff` — how the filter decides
-/

namespace KeyRegistry

open KeyRegistry.Path Ignore

variable {fs : FileSystem} {file names root below : List String} {depth item : Nat}
  {isDirectory : Bool} {verdict : Verdict} {m : Matcher}

/-- What gives the same answer for all values finds the same one first. -/
theorem findSome?_congr {α β : Type} {f g : α → Option β} {values : List α}
    (h : ∀ value ∈ values, f value = g value) : values.findSome? f = values.findSome? g := by
  induction values with
  | nil => rfl
  | cons value values ih =>
    rw [List.findSome?_cons, List.findSome?_cons, h value List.mem_cons_self,
      ih fun other hMem => h other (List.mem_cons_of_mem _ hMem)]

/-- If the bound goes up by one, the last number with a value is the old bound, or the one it was.
-/
theorem exists_last_succ {α : Type} (f : Nat → Option α) (value : α) (low bound : Nat) :
    (∃ i, low ≤ i ∧ i < bound + 1 ∧ f i = some value ∧ ∀ j, i < j → j < bound + 1 → f j = none) ↔
      low ≤ bound ∧ f bound = some value ∨ f bound = none ∧
        ∃ i, low ≤ i ∧ i < bound ∧ f i = some value ∧ ∀ j, i < j → j < bound → f j = none := by
  constructor
  · rintro ⟨i, hLow, hBound, hValue, hNone⟩
    rcases Nat.lt_succ_iff_lt_or_eq.mp hBound with hBelow | rfl
    · exact Or.inr ⟨hNone bound hBelow (Nat.lt_succ_self bound), i, hLow, hBelow, hValue,
        fun j hAbove hLess => hNone j hAbove (Nat.lt_succ_of_lt hLess)⟩
    · exact Or.inl ⟨hLow, hValue⟩
  · rintro (⟨hLow, hValue⟩ | ⟨hLast, i, hLow, hBelow, hValue, hNone⟩)
    · exact ⟨bound, hLow, Nat.lt_succ_self bound, hValue, fun j hAbove hLess => by omega⟩
    · refine ⟨i, hLow, Nat.lt_succ_of_lt hBelow, hValue, fun j hAbove hLess => ?_⟩
      rcases Nat.lt_succ_iff_lt_or_eq.mp hLess with hBelow | rfl
      · exact hNone j hAbove hBelow
      · exact hLast

/-- The greatest number with a value, if numbers are tried from above. -/
theorem findSome?_reverse_range {α : Type} {f : Nat → Option α} {value : α} (bound : Nat) :
    (List.range bound).reverse.findSome? f = some value ↔
      ∃ i, i < bound ∧ f i = some value ∧ ∀ j, i < j → j < bound → f j = none := by
  -- the bound goes up, and the last number below it is tried first
  induction bound with
  | zero => simp
  | succ bound ih =>
    have hNext := exists_last_succ f value 0 bound
    simp only [Nat.zero_le, true_and] at hNext
    rw [hNext, ← ih, List.range_succ, List.reverse_append, List.reverse_singleton,
      List.singleton_append, List.findSome?_cons]
    cases f bound <;> simp

/-- Nothing is found below a bound if no number below it has an answer. -/
theorem findSome?_reverse_range_eq_none {α : Type} {f : Nat → Option α} (bound : Nat) :
    (List.range bound).reverse.findSome? f = none ↔ ∀ i, i < bound → f i = none := by
  rw [List.findSome?_eq_none_iff]
  simp

/-! ## The walk -/

/-- What rules of the directory at a depth say about an entry. -/
def Ignore.Rules.opinion? (rules : Rules) (names : List String) (depth item : Nat) :
    Option Verdict :=
  rules.verdict? (Text.joinAll '/' ((names.take item).drop depth)) (item < names.length)

/-- A directory sees the entries on the way by the names below it. -/
theorem Route.text_entry {top count : Nat} (hCount : count ≤ top - depth) :
    (Route.toPath ⟨false, ((names.take top).drop depth).take count⟩).text =
      Text.joinAll '/' ((names.take (depth + count)).drop depth) := by
  rw [List.drop_take, List.drop_take, List.take_take, Nat.add_sub_cancel_left,
    Nat.min_eq_left hCount]
  simp [Route.toPath]

/-- Rules speak about the nearest entry that they have an opinion about: the path itself, or one of
the directories above it. -/
theorem Ignore.Rules.verdictAbove?_toPath {rules : Rules} {top : Nat}
    (hNames : ∀ name ∈ names, IsName name) (hDepth : depth < top) (hTop : top ≤ names.length) :
    rules.verdictAbove? (Route.toPath ⟨false, (names.take top).drop depth⟩) (top < names.length) =
      (List.range (top - depth + 1)).reverse.findSome? fun count =>
        rules.opinion? names depth (depth + count) := by
  have hBelow : ∀ name ∈ (names.take top).drop depth, IsName name := fun name hMem =>
    hNames name (List.mem_of_mem_take (List.mem_of_mem_drop hMem))
  have hLength : ((names.take top).drop depth).length = top - depth := by
    rw [List.length_drop, List.length_take, Nat.min_eq_left hTop]
  have hSelf : rules.opinion? names depth (depth + (top - depth)) =
      rules.verdict? (Route.toPath ⟨false, ((names.take top).drop depth).take (top - depth)⟩).text
        (top < names.length) := by
    rw [Route.text_entry (Nat.le_refl _), Rules.opinion?,
      Nat.add_sub_cancel' (Nat.le_of_lt hDepth)]
  -- the entries above the path itself are directories
  have hRest : ((List.range (top - depth)).reverse.map fun count =>
        Route.toPath ⟨false, ((names.take top).drop depth).take count⟩).findSome? (fun directory =>
          rules.verdict? directory.text true) =
      (List.range (top - depth)).reverse.findSome? fun count =>
        rules.opinion? names depth (depth + count) := by
    rw [List.findSome?_map]
    refine findSome?_congr fun count hMem => ?_
    rw [List.mem_reverse, List.mem_range] at hMem
    rw [Function.comp_apply, Route.text_entry (Nat.le_of_lt hMem), Rules.opinion?,
      decide_eq_true (by omega)]
  rw [Rules.verdictAbove?, Route.lineage_toPath hBelow, hLength, List.range_succ,
    List.reverse_append, List.reverse_singleton, List.singleton_append, List.map_cons,
    List.findSome?_cons]
  dsimp only
  rw [← hSelf, hRest]
  cases rules.opinion? names depth (depth + (top - depth)) <;> rfl

/-- Rules of a directory speak about the nearest entry that they have an opinion about, the empty
path being the last one. -/
theorem Ignore.Rules.verdictUnder?_toPath {rules : Rules} {top : Nat}
    (hNames : ∀ name ∈ names, IsName name) (hDepth : depth < top) (hTop : top ≤ names.length) :
    rules.verdictUnder? (Route.toPath ⟨true, names.take depth⟩)
        (Route.toPath ⟨true, names.take top⟩) (top < names.length) =
      (List.range (top - depth + 1)).reverse.findSome? fun count =>
        rules.opinion? names depth (depth + count) := by
  have hAbove : ∀ name ∈ names.take depth, IsName name := fun name hMem =>
    hNames name (List.mem_of_mem_take hMem)
  have hBelow : ∀ name ∈ (names.take top).drop depth, IsName name := fun name hMem =>
    hNames name (List.mem_of_mem_take (List.mem_of_mem_drop hMem))
  have hWhole : names.take depth ++ (names.take top).drop depth = names.take top := by
    rw [← Nat.min_eq_left (Nat.le_of_lt hDepth), ← List.take_take,
      Nat.min_eq_left (Nat.le_of_lt hDepth),
      List.take_append_drop]
  have hRelative := Route.relativeTo?_toPath hAbove hBelow
  rw [hWhole] at hRelative
  -- a path that is asked about is below the directory, so it is not empty
  have hMore : (names.take top).drop depth ≠ [] := by
    rw [ne_eq, ← List.length_eq_zero_iff, List.length_drop, List.length_take, Nat.min_eq_left hTop]
    omega
  have hSome : (Route.toPath ⟨false, (names.take top).drop depth⟩).text.isEmpty = false :=
    Route.text_toPath_open_isEmpty hBelow hMore
  rw [Rules.verdictUnder?, hRelative]
  show (if _ then none else _) = _
  rw [hSome, if_neg (by simp), Rules.verdictAbove?_toPath hNames hDepth hTop]

/-- What a rule file of the directory at a depth says about an entry. -/
def Walk.opinion? (fs : FileSystem) (file names : List String) (depth item : Nat) :
    Option Verdict :=
  (Rules.load fs (Route.toPath ⟨true, names.take depth ++ file⟩)).verdict?
    (Text.joinAll '/' ((names.take item).drop depth)) (item < names.length)

namespace Walk

/-- The paths of rule files are made of names. -/
theorem isName_of_mem_ruleFiles (hFile : file ∈ ruleFiles) : ∀ name ∈ file, IsName name := by
  have hAll : ∀ file ∈ ruleFiles, ∀ name ∈ file, ¬ (name = "" ∨ name = ".") ∧ name ≠ ".." ∧
      '/' ∉ name.toList := by decide
  intro name hMem
  obtain ⟨hIdle, hUp, hSlash⟩ := hAll file hFile name hMem
  exact ⟨hIdle, hUp, hSlash⟩

/-- The two rule files that the filter knows are among those of the walk. -/
theorem mem_ruleFiles (hFile : file ∈ [[".ignore"], [".gitignore"]]) : file ∈ ruleFiles := by
  have hAll : ∀ file ∈ [[".ignore"], [".gitignore"]], file ∈ ruleFiles := by decide
  exact hAll file hFile

/-- The rule file of a directory lies below the directory. -/
theorem join_ruleFile (hNames : ∀ name ∈ names, IsName name) (hFile : file ∈ ruleFiles) :
    (Route.toPath ⟨true, names⟩).join ⟨Text.joinAll '/' file⟩ =
      Route.toPath ⟨true, names ++ file⟩ := by
  -- every rule file has a name
  have hSome : file ≠ [] := by
    rintro rfl
    revert hFile
    decide
  have hText : (⟨Text.joinAll '/' file⟩ : Path) = Route.toPath ⟨false, file⟩ := by
    simp [Route.toPath]
  rw [hText]
  exact Route.join_toPath hNames (isName_of_mem_ruleFiles hFile) hSome

/-- The nearest directory above an entry that says something is heard. -/
theorem verdictOf?_eq (hNames : ∀ name ∈ names, IsName name) (hFile : file ∈ ruleFiles)
    (hDepth : depth ≤ item) :
    verdictOf? fs file (names.take item) (item < names.length) depth =
      (List.range depth).reverse.findSome? fun above => opinion? fs file names above item := by
  -- the nearest directory is the one at the depth just below
  induction depth with
  | zero => rw [verdictOf?, List.range_zero, List.reverse_nil, List.findSome?_nil]
  | succ depth ih =>
    have hAbove : ∀ name ∈ names.take depth, IsName name := fun name hMem =>
      hNames name (List.mem_of_mem_take hMem)
    have hTake : (names.take item).take depth = names.take depth := by
      rw [List.take_take, Nat.min_eq_left (by omega)]
    have hOpinion : (Rules.load fs ((Route.toPath ⟨true, (names.take item).take depth⟩).join
        ⟨Text.joinAll '/' file⟩)).verdict? (Text.joinAll '/' ((names.take item).drop depth))
          (item < names.length) = opinion? fs file names depth item := by
      rw [hTake, join_ruleFile hAbove hFile]
      rfl
    rw [verdictOf?, hOpinion, ih (by omega), List.range_succ, List.reverse_append,
      List.reverse_singleton,
      List.singleton_append, List.findSome?_cons]
    cases opinion? fs file names depth item <;> rfl

/-- The files of one name speak through the nearest directory that says something. -/
theorem fileVerdict?_eq (hNames : ∀ name ∈ names, IsName name) (hItem : item ≤ names.length) :
    fileVerdict? fs (names.take item) (item < names.length) =
      ruleFiles.findSome? fun file =>
        (List.range item).reverse.findSome? fun above => opinion? fs file names above item := by
  have hLength : (names.take item).length = item := by
    rw [List.length_take, Nat.min_eq_left hItem]
  rw [fileVerdict?, hLength]
  exact findSome?_congr fun file hFile => verdictOf?_eq hNames hFile (Nat.le_refl item)

/-- What the files of the directories say is what counts, whatever the rules of the user say. -/
theorem verdict?_of_file (h : fileVerdict? fs names isDirectory = some verdict) :
    verdict? fs names isDirectory = some verdict := by
  rw [verdict?, h]
  rfl

/-- Where the files of the directories say nothing, the rules of the user are asked. -/
theorem verdict?_of_user (h : fileVerdict? fs names isDirectory = none) :
    verdict? fs names isDirectory = userVerdict? fs names isDirectory := by
  rw [verdict?, h]
  rfl

/-- A user who keeps no settings has no rules. -/
theorem userVerdict?_of_none (hUser : fs.user = {}) :
    userVerdict? fs names isDirectory = none := by
  have hFile : userRuleFile? fs = none := by
    rw [userRuleFile?, hUser]
    rfl
  rw [userVerdict?, hFile]
  rfl

/-- Nothing on the way to a file that the walk comes to is ignored. -/
theorem isIgnored_of_reaches (hReaches : reaches m fs root below = true)
    (hRespect : m.respectIgnores = true) (hAbove : root.length < item)
    (hItem : item ≤ (root ++ below).length) :
    isIgnored fs ((root ++ below).take item) (item < (root ++ below).length) = false := by
  simp only [reaches, hRespect, Bool.true_and, Bool.and_eq_true, Bool.not_eq_true',
    List.all_eq_true] at hReaches
  obtain ⟨hWay, hFile⟩ := hReaches
  rw [List.length_append] at hItem
  -- the last entry is the file itself, and the others are directories that the walk enters
  by_cases hLast : item = (root ++ below).length
  · rw [hLast, List.take_length]
    simpa using hFile
  · rw [List.length_append] at hLast
    -- the root itself is not asked about, so the range starts at one
    have hMem : item - root.length ∈ (List.range below.length).drop 1 := by
      rw [List.mem_drop_iff_getElem]
      exact ⟨item - root.length - 1, by simp; omega, by simp; omega⟩
    have hEnters := hWay _ hMem
    simp only [enters, hRespect, Bool.true_and, Bool.and_eq_true, Bool.not_eq_true'] at hEnters
    have hTake : (root ++ below).take item = root ++ below.take (item - root.length) := by
      rw [List.take_append, List.take_of_length_le (by omega)]
    have hInside : (decide (item < (root ++ below).length)) = true := by
      rw [decide_eq_true_iff, List.length_append]
      omega
    rw [hTake, hInside]
    exact hEnters.1.1

end Walk

/-! ## The filter -/

/-- What the directory at a depth says about an entry, in the eyes of the filter: the rules of its
`.ignore` stand behind those of its `.gitignore`, and later rules have more weight. -/
def Matcher.opinion? (fs : FileSystem) (names : List String) (depth item : Nat) :
    Option Verdict :=
  Walk.opinion? fs [".ignore"] names depth item <|>
    Walk.opinion? fs [".gitignore"] names depth item

/-- The filter has no opinion if neither of its rule files has one. -/
theorem Matcher.opinion?_eq_none_iff : Matcher.opinion? fs names depth item = none ↔
    Walk.opinion? fs [".ignore"] names depth item = none ∧
      Walk.opinion? fs [".gitignore"] names depth item = none := by
  unfold Matcher.opinion?
  -- the opinions are generalized, since only whether they are there matters
  generalize Walk.opinion? fs [".ignore"] names depth item = own
  generalize Walk.opinion? fs [".gitignore"] names depth item = git
  cases own <;> simp

/-- The filter has the opinion of the first of its rule files that has one. -/
theorem Matcher.opinion?_eq_some_iff : Matcher.opinion? fs names depth item = some verdict ↔
    Walk.opinion? fs [".ignore"] names depth item = some verdict ∨
      Walk.opinion? fs [".ignore"] names depth item = none ∧
        Walk.opinion? fs [".gitignore"] names depth item = some verdict := by
  unfold Matcher.opinion?
  generalize Walk.opinion? fs [".ignore"] names depth item = own
  generalize Walk.opinion? fs [".gitignore"] names depth item = git
  cases own <;> simp

/-- The directory at a depth and an entry settle a path for the filter: the directory says something
about the entry, and neither a nearer directory nor this one about a nearer entry says anything. An
entry at the depth itself is the empty path. -/
structure Matcher.Decides (fs : FileSystem) (names : List String) (top depth item : Nat)
    (verdict : Verdict) : Prop where
  inside  : top ≤ depth ∧ depth < names.length
  onTheWay : depth ≤ item ∧ item ≤ names.length
  opinion : opinion? fs names depth item = some verdict
  nearer  : ∀ other, item < other → other ≤ names.length → opinion? fs names depth other = none
  below   : ∀ lower other, depth < lower → lower < names.length → lower ≤ other →
              other ≤ names.length → opinion? fs names lower other = none

/-- The last rule that applies decides. -/
theorem Rules.verdict?_append (first second : Rules) (path : String) :
    Rules.verdict? (first ++ second) path isDirectory =
      (second.verdict? path isDirectory <|> first.verdict? path isDirectory) := by
  rw [Rules.verdict?, Rules.verdict?, Rules.verdict?, List.reverse_append, List.find?_append]
  cases second.reverse.find? fun rule => rule.matchesPath path isDirectory <;> rfl

/-- A file that is none has no rules. -/
theorem Rules.load_of_isFile (path : Path) :
    (if fs.isFile path then Rules.load fs path else []) = Rules.load fs path := by
  split
  · rfl
  · next hNone =>
    unfold Rules.load FileSystem.read
    unfold FileSystem.isFile at hNone
    cases hLookup : fs.lookup path with
    | error cause => rfl
    | ok entry =>
      rw [hLookup] at hNone
      cases entry with
      | file content => exact absurd rfl hNone
      | directory | link => rfl

/-- The rules of a file are what its bytes say. -/
theorem Rules.load_of_file {content : ByteArray} (hTree : fs.IsTree)
    (hNames : ∀ name ∈ names, IsName name) (hFits : FileSystem.Fits names)
    (hFile : fs.at? (Place.ofNames names) = some (.file content)) :
    Rules.load fs (Route.toPath ⟨true, names⟩) = Rules.ofBytes content := by
  rw [Rules.load, (FileSystem.read_eq_ok_iff hTree hNames).mpr ⟨hFits, hFile⟩]

/-- Where there is no file there are no rules. -/
theorem Rules.load_of_none (hTree : fs.IsTree) (hNames : ∀ name ∈ names, IsName name)
    (hNone : ∀ content, fs.at? (Place.ofNames names) ≠ some (.file content)) :
    Rules.load fs (Route.toPath ⟨true, names⟩) = [] := by
  unfold Rules.load
  split
  · next content hRead =>
    exact absurd ((FileSystem.read_eq_ok_iff hTree hNames).mp hRead).2 (hNone content)
  · rfl

/-- Where no directory has a rule file of a name, these files say nothing. -/
theorem Walk.verdictOf?_eq_none (hTree : fs.IsTree) (hNames : ∀ name ∈ names, IsName name)
    (hFile : file ∈ ruleFiles)
    (hNone : ∀ directory content,
      fs.at? (Place.ofNames (directory ++ file)) ≠ some (.file content)) :
    verdictOf? fs file names isDirectory depth = none := by
  -- no directory above has anything to say about the entry
  induction depth with
  | zero => rw [verdictOf?]
  | succ depth ih =>
    have hAbove : ∀ name ∈ names.take depth, IsName name := fun name hMem =>
      hNames name (List.mem_of_mem_take hMem)
    have hRuleFile : ∀ name ∈ names.take depth ++ file, IsName name :=
      List.forall_mem_append.mpr ⟨hAbove, isName_of_mem_ruleFiles hFile⟩
    rw [verdictOf?, join_ruleFile hAbove hFile, Rules.load_of_none hTree hRuleFile (hNone _), ih]
    rfl

namespace Matcher

/-- The rules of a directory for the filter are those of its two rule files. -/
theorem localRules_eq (hNames : ∀ name ∈ names, IsName name) :
    localRules fs (Route.toPath ⟨true, names⟩) =
      Rules.load fs (Route.toPath ⟨true, names ++ [".gitignore"]⟩) ++
        Rules.load fs (Route.toPath ⟨true, names ++ [".ignore"]⟩) := by
  have hGit : (Route.toPath ⟨true, names⟩).join ⟨Text.joinAll '/' [".gitignore"]⟩ = _ :=
    Walk.join_ruleFile hNames (by decide)
  have hOwn : (Route.toPath ⟨true, names⟩).join ⟨Text.joinAll '/' [".ignore"]⟩ = _ :=
    Walk.join_ruleFile hNames (by decide)
  simp only [localRules, localIgnoreFiles, List.map_cons, List.map_nil, List.flatMap_cons,
    List.flatMap_nil, List.append_nil, Rules.load_of_isFile]
  rw [← hGit, ← hOwn]
  rfl

/-- A directory speaks about the nearest entry that it has an opinion about, the empty path
being the last one. -/
theorem verdictUnder?_eq (hNames : ∀ name ∈ names, IsName name) (hDepth : depth < names.length) :
    (localRules fs (Route.toPath ⟨true, names.take depth⟩)).verdictUnder?
        (Route.toPath ⟨true, names.take depth⟩) (Route.toPath ⟨true, names⟩) false =
      (List.range (names.length - depth + 1)).reverse.findSome? fun count =>
        opinion? fs names depth (depth + count) := by
  have hAbove : ∀ name ∈ names.take depth, IsName name := fun name hMem =>
    hNames name (List.mem_of_mem_take hMem)
  have hUnder := fun rules : Rules => rules.verdictUnder?_toPath hNames hDepth (Nat.le_refl _)
  simp only [List.take_length, decide_eq_false (Nat.lt_irrefl names.length)] at hUnder
  rw [hUnder]
  -- the rules of a directory are those of its two files
  refine findSome?_congr fun count _ => ?_
  rw [Rules.opinion?, localRules_eq hAbove, Rules.verdict?_append]
  rfl

/-- What a directory says about the nearest entry that it has an opinion about. -/
def directoryOpinion? (fs : FileSystem) (names : List String) (depth : Nat) : Option Verdict :=
  (List.range (names.length - depth + 1)).reverse.findSome? fun count =>
    opinion? fs names depth (depth + count)

/-- The directories are asked from the path upwards to the root. -/
theorem localVerdict?_range {top bound : Nat} (hNames : ∀ name ∈ names, IsName name)
    (hRoot : m.root = Route.toPath ⟨true, names.take top⟩) (hTop : top < bound)
    (hBound : bound ≤ names.length) :
    m.localVerdict? fs (Route.toPath ⟨true, names⟩)
        ((List.range bound).reverse.map fun depth => Route.toPath ⟨true, names.take depth⟩) =
          some verdict ↔
      ∃ depth, top ≤ depth ∧ depth < bound ∧ directoryOpinion? fs names depth = some verdict ∧
        ∀ lower, depth < lower → lower < bound → directoryOpinion? fs names lower = none := by
  -- the directory that is asked next is the one at the bound; the induction goes up to the root
  induction bound with
  | zero => omega
  | succ bound ih =>
    have hUnder : (localRules fs (Route.toPath ⟨true, names.take bound⟩)).verdictUnder?
        (Route.toPath ⟨true, names.take bound⟩) (Route.toPath ⟨true, names⟩) false =
          directoryOpinion? fs names bound := verdictUnder?_eq hNames (by omega)
    have hTake : ∀ count, ∀ name ∈ names.take count, IsName name := fun count name hMem =>
      hNames name (List.mem_of_mem_take hMem)
    have hSame : (Route.toPath ⟨true, names.take bound⟩).same m.root = true ↔ bound = top := by
      rw [hRoot, Route.same_toPath (hTake bound) (hTake top)]
      constructor
      · intro hEq
        have hLength := congrArg List.length hEq
        rw [List.length_take, List.length_take] at hLength
        omega
      · rintro rfl
        rfl
    rw [List.range_succ, List.reverse_append, List.reverse_singleton, List.singleton_append,
      List.map_cons, localVerdict?, hUnder, exists_last_succ]
    cases hOwn : directoryOpinion? fs names bound with
    | some own => simp [Nat.le_of_lt_succ hTop]
    | none =>
      by_cases hLast : bound = top
      · -- the root is the last one that is asked
        simp only [hSame.mpr hLast, if_true, reduceCtorEq, and_false, true_and, false_or, false_iff]
        rintro ⟨depth, hAbove, hDepth, -⟩
        omega
      · have hNotSame : ¬ (Route.toPath ⟨true, names.take bound⟩).same m.root = true :=
          fun h => hLast (hSame.mp h)
        simp only [hNotSame, Bool.false_eq_true, if_false]
        rw [ih (by omega) (by omega)]
        simp

/-- A directory without opinions has none on anything that lies in it. -/
theorem directoryOpinion?_eq_none (h : directoryOpinion? fs names depth = none)
    (hItem : depth ≤ item) (hEnd : item ≤ names.length) : opinion? fs names depth item = none := by
  have hNone := (findSome?_reverse_range_eq_none _).mp h (item - depth) (by omega)
  rwa [Nat.add_sub_cancel' hItem] at hNone

/-- A directory settles a path if it says something and no directory below it does. -/
theorem exists_decides_iff {top : Nat} : (∃ item, Decides fs names top depth item verdict) ↔
    top ≤ depth ∧ depth < names.length ∧ directoryOpinion? fs names depth = some verdict ∧
      ∀ lower, depth < lower → lower < names.length → directoryOpinion? fs names lower = none := by
  constructor
  · rintro ⟨item, ⟨hAbove, hDepth⟩, ⟨hItem, hEnd⟩, hSays, hNearer, hBelow⟩
    refine ⟨hAbove, hDepth, ?_, ?_⟩
    · refine (findSome?_reverse_range _).mpr ⟨item - depth, by omega, ?_, ?_⟩
      · rwa [Nat.add_sub_cancel' hItem]
      · intro count hCount hLimit
        exact hNearer (depth + count) (by omega) (by omega)
    · intro lower hLower hInside
      refine (findSome?_reverse_range_eq_none _).mpr fun count hCount => ?_
      exact hBelow lower (lower + count) hLower hInside (by omega) (by omega)
  · rintro ⟨hAbove, hDepth, hSome, hNone⟩
    -- the directory counts the entries below it, and they are counted on the way
    obtain ⟨count, hCount, hSays, hNearer⟩ := (findSome?_reverse_range _).mp hSome
    refine ⟨depth + count, ⟨hAbove, hDepth⟩, ⟨by omega, by omega⟩, hSays, ?_, ?_⟩
    · intro other hOther hEnd
      have hQuiet := hNearer (other - depth) (by omega) (by omega)
      rwa [Nat.add_sub_cancel' (by omega)] at hQuiet
    · intro lower other hLower hInside hOther hEnd
      exact directoryOpinion?_eq_none (hNone lower hLower hInside) hOther hEnd

/-- If a directory says something, then it settles the path, or one below it does. -/
theorem exists_decides {top : Nat} (hTop : top ≤ depth) (hDepth : depth < names.length)
    (hItem : depth ≤ item) (hEnd : item ≤ names.length)
    (hSays : opinion? fs names depth item = some verdict) :
    ∃ lower other settled, Decides fs names top lower other settled ∧
      (depth < lower ∨ depth = lower ∧ item ≤ other) := by
  cases hFound : (List.range names.length).reverse.findSome? (directoryOpinion? fs names) with
  | none =>
    have hNone := (findSome?_reverse_range_eq_none _).mp hFound depth hDepth
    rw [directoryOpinion?_eq_none hNone hItem hEnd] at hSays
    cases hSays
  | some settled =>
    obtain ⟨lower, hLower, hSome, hNone⟩ := (findSome?_reverse_range _).mp hFound
    -- the nearest directory that says something does not lie above this one
    have hBelow : depth ≤ lower := by
      rcases Nat.lt_or_ge lower depth with hAbove | hBelow
      · rw [directoryOpinion?_eq_none (hNone depth hAbove hDepth) hItem hEnd] at hSays
        cases hSays
      · exact hBelow
    obtain ⟨other, hDecides⟩ :=
      exists_decides_iff.mpr ⟨Nat.le_trans hTop hBelow, hLower, hSome, hNone⟩
    refine ⟨lower, other, settled, hDecides, (Nat.lt_or_eq_of_le hBelow).imp_right fun hSame => ?_⟩
    refine ⟨hSame, ?_⟩
    -- nor is the entry that settles the path farther away than this one
    rcases Nat.lt_or_ge other item with hFarther | hNearer
    · rw [hSame, hDecides.nearer item hFarther hEnd] at hSays
      cases hSays
    · exact hNearer

/-- The filter goes by the directory and the entry that settle a path. -/
theorem localVerdict?_eq_some {top : Nat} (hNames : ∀ name ∈ names, IsName name)
    (hRoot : m.root = Route.toPath ⟨true, names.take top⟩) (hTop : top < names.length) :
    m.localVerdict? fs (Route.toPath ⟨true, names⟩) (Route.toPath ⟨true, names⟩).lineage.tail =
        some verdict ↔
      ∃ depth item, Decides fs names top depth item verdict := by
  rw [Route.lineage_toPath hNames, List.range_succ, List.reverse_append, List.reverse_singleton,
    List.singleton_append, List.map_cons, List.tail_cons,
    localVerdict?_range hNames hRoot hTop (Nat.le_refl _)]
  exact exists_congr fun depth => exists_decides_iff.symm

/-- A path is hidden if one of its names starts with a dot. -/
theorem isHidden_iff (hBelow : ∀ name ∈ below, IsName name) :
    Matcher.isHidden (Route.toPath ⟨false, below⟩) = true ↔
      ∃ name ∈ below, name.toList.head? = some '.' := by
  rw [Matcher.isHidden, Route.names_toPath hBelow, List.any_eq_true]
  simp only [beq_iff_eq]

/-- What a scan reads was chosen by the globs. -/
theorem isCandidate_of_isScannable {p : Path} (h : m.isScannable fs p = true) :
    m.isCandidate p = true := by
  rw [isScannable, Bool.and_eq_true] at h
  exact h.1

/-- A candidate is not the artifact, and the globs see something of it. -/
theorem seen_of_isCandidate {p : Path} (h : m.isCandidate p = true) :
    m.isOutput p = false ∧ ∃ seen, m.relative? p = some seen := by
  rw [isCandidate, Bool.and_eq_true, Bool.not_eq_true', Option.any_eq_true] at h
  obtain ⟨hOther, seen, hSeen, -⟩ := h
  exact ⟨hOther, seen, hSeen⟩

/-- A file that the globs choose is scannable unless an entry on the way to it is hidden or the
directories settle it as ignored. -/
theorem isScannable_eq_false_iff (hRoot : m.root = Route.toPath ⟨true, root⟩)
    (hNames : ∀ name ∈ root ++ below, IsName name) (hMore : below ≠ [])
    (hCandidate : m.isCandidate (Route.toPath ⟨true, root ++ below⟩) = true) :
    m.isScannable fs (Route.toPath ⟨true, root ++ below⟩) = false ↔
      m.respectIgnores = true ∧ ((∃ name ∈ below, name.toList.head? = some '.') ∨
        ∃ depth item, Matcher.Decides fs (root ++ below) root.length depth item .ignored) := by
  have hBase : ∀ name ∈ root, IsName name := fun name hMem =>
    hNames name (List.mem_append_left _ hMem)
  have hBelow : ∀ name ∈ below, IsName name := fun name hMem =>
    hNames name (List.mem_append_right _ hMem)
  have hRelative : m.relative? (Route.toPath ⟨true, root ++ below⟩) =
      some (Route.toPath ⟨false, below⟩) := by
    rw [Matcher.relative?, if_pos Route.isAbsolute_toPath_rooted, hRoot,
      Route.relativeTo?_toPath hBase hBelow]
  have hTop : root.length < (root ++ below).length := by
    have := List.length_pos_iff.mpr hMore
    rw [List.length_append]
    omega
  have hTake : m.root = Route.toPath ⟨true, (root ++ below).take root.length⟩ := by
    rw [List.take_left]
    exact hRoot
  have hLocal : m.ignoredByLocalFiles fs (Route.toPath ⟨false, below⟩) = true ↔
      ∃ depth item, Matcher.Decides fs (root ++ below) root.length depth item .ignored := by
    rw [Matcher.ignoredByLocalFiles, hRoot, Route.join_toPath hBase hBelow hMore, beq_iff_eq]
    exact Matcher.localVerdict?_eq_some hNames hTake hTop
  rw [Matcher.isScannable, hCandidate, hRelative, Option.any_some, ← hLocal,
    ← isHidden_iff hBelow]
  -- what remains is a matter of three truth values
  cases m.respectIgnores <;> cases Matcher.isHidden (Route.toPath ⟨false, below⟩) <;>
    cases m.ignoredByLocalFiles fs (Route.toPath ⟨false, below⟩) <;> simp

/-- Where the ignore files count, a file that the filter lets pass is chosen by the globs, and
neither is an entry on the way to it hidden nor does a rule that ignores settle it. -/
theorem passes_of_isScannable (hRoot : m.root = Route.toPath ⟨true, root⟩)
    (hNames : ∀ name ∈ root ++ below, IsName name) (hMore : below ≠ [])
    (hRespect : m.respectIgnores = true)
    (h : m.isScannable fs (Route.toPath ⟨true, root ++ below⟩) = true) :
    m.isCandidate (Route.toPath ⟨true, root ++ below⟩) = true ∧
      (∀ name ∈ below, name.toList.head? ≠ some '.') ∧
        ∀ depth item, ¬ Matcher.Decides fs (root ++ below) root.length depth item .ignored := by
  have hChosen := isCandidate_of_isScannable h
  have hPasses := mt (isScannable_eq_false_iff hRoot hNames hMore hChosen).mpr
    (by rw [h]; exact Bool.noConfusion)
  rw [not_and, not_or] at hPasses
  obtain ⟨hSeen, hSettled⟩ := hPasses hRespect
  exact ⟨hChosen, fun name hMem hHidden => hSeen ⟨name, hMem, hHidden⟩,
    fun depth item hDecides => hSettled ⟨depth, item, hDecides⟩⟩

end Matcher

end KeyRegistry

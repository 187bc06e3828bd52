import KeyRegistry.Proofs.Config.Canonical
import KeyRegistry.Proofs.Pattern.Closure
import KeyRegistry.Proofs.Scan.Opinions

/-!
# What a scan depends on

A scan finds the patterns of its candidates. Which files are candidates, and what they hold, depends
on the files alone, not on the directories; it does not depend on the artifact, unless the artifact
is a file of ignore rules. Nor does it matter to the filter of events what is in any file but the
files of ignore rules below the root.

Main definitions:

* `Scanner.Finds` — what a scan finds, as a relation
* `Scanner.IsCanonical` — a scanner of a resolved configuration

Main statements:

* `Scanner.mem_scan` — the relation describes the scan
* `Scanner.finds_congr` — the artifact does not matter to a scan
* `Matcher.isScannable_congr` — what matters to the filter
-/

namespace KeyRegistry

open KeyRegistry.Path Ignore

variable {fs before after : FileSystem} {m : Matcher} {names root below : List String} {p : Path}
  {place : Place} {depth : Nat} {isDirectory : Bool} {s : Scanner}

/-! ## Candidates -/

/-- A file that lies below a root, by its names from there. -/
theorem Walk.mem_filesBelow_of (h : below ∈ Walk.filesBelow fs root) :
    below ≠ [] ∧ ∃ content, (Place.ofNames (root ++ below), Entry.file content) ∈ fs.entries := by
  obtain ⟨⟨place, entry⟩, hMem, hItem⟩ := List.mem_filterMap.mp h
  simp only [Option.bind_eq_bind, Option.bind_eq_some_iff] at hItem
  obtain ⟨names, hPlace, hEntry⟩ := hItem
  -- directories and links are left out
  cases entry with
  | directory | link => cases hEntry
  | file content =>
    simp only at hEntry
    split at hEntry
    · next hInside =>
      cases hEntry
      rw [Bool.and_eq_true, List.isPrefixOf_iff_prefix, decide_eq_true_iff] at hInside
      obtain ⟨⟨rest, rfl⟩, hLength⟩ := hInside
      rw [Place.names?_eq_some.mp hPlace] at hMem
      rw [List.drop_left]
      refine ⟨?_, content, hMem⟩
      rintro rfl
      simp at hLength
    · cases hEntry

/-- The names on the way to a file that is listed are proper. -/
theorem Walk.names_of_mem_filesBelow (hFiles : fs.HasNames) (h : below ∈ Walk.filesBelow fs root) :
    ∀ name ∈ root ++ below, IsName name := by
  intro name hName
  obtain ⟨-, content, hItem⟩ := Walk.mem_filesBelow_of h
  exact hFiles.entries _ hItem name (List.mem_map_of_mem hName)

/-- A candidate is a file that the walk comes to and that the globs choose. -/
theorem Matcher.mem_candidates : p ∈ m.candidates fs ↔
    ∃ below ∈ Walk.filesBelow fs m.root.names, p = Route.toPath ⟨true, m.root.names ++ below⟩ ∧
      Walk.reaches m fs m.root.names below = true ∧ m.isCandidate p = true := by
  unfold candidates
  simp only [List.mem_filterMap, List.mem_mergeSort]
  constructor
  · rintro ⟨below, hBelow, hChosen⟩
    split at hChosen
    · next hReached =>
      cases hChosen
      rw [Bool.and_eq_true] at hReached
      exact ⟨below, hBelow, rfl, hReached⟩
    · cases hChosen
  · rintro ⟨below, hBelow, rfl, hReaches, hCandidate⟩
    refine ⟨below, hBelow, ?_⟩
    rw [if_pos (by rw [hReaches, hCandidate]; rfl)]

/-- A file is a candidate exactly if the walk lists it and comes to it and the globs choose it: a
path determines the names that it is made of. -/
theorem Matcher.toPath_mem_candidates (hFiles : fs.HasNames)
    (hRoot : m.root = Route.toPath ⟨true, root⟩) (hNames : ∀ name ∈ root ++ below, IsName name) :
    Route.toPath ⟨true, root ++ below⟩ ∈ m.candidates fs ↔
      below ∈ Walk.filesBelow fs root ∧ Walk.reaches m fs root below = true ∧
        m.isCandidate (Route.toPath ⟨true, root ++ below⟩) = true := by
  rw [Matcher.mem_candidates, hRoot, Route.names_toPath (List.forall_mem_append.mp hNames).1]
  constructor
  · rintro ⟨other, hListed, hPath, hReaches, hChosen⟩
    obtain rfl : below = other := List.append_cancel_left
      (Route.toPath_inj hNames (Walk.names_of_mem_filesBelow hFiles hListed) hPath)
    exact ⟨hListed, hReaches, hChosen⟩
  · rintro ⟨hListed, hReaches, hChosen⟩
    exact ⟨below, hListed, rfl, hReaches, hChosen⟩

/-- A file below a root is found by its names from there. -/
theorem Walk.mem_filesBelow_of_file {content : ByteArray} (hMore : below ≠ [])
    (hFile : fs.at? (Place.ofNames (root ++ below)) = some (.file content)) :
    below ∈ Walk.filesBelow fs root := by
  have hTop : Place.ofNames (root ++ below) ≠ [] := FileSystem.ne_top_of_at? (by rw [hFile]; simp)
  rw [FileSystem.at?, if_neg hTop] at hFile
  -- a place holds what is listed, so the entry is found in the table
  refine List.mem_filterMap.mpr ⟨_, FileSystem.mem_of_lookup hFile, ?_⟩
  simp only [Option.bind_eq_bind]
  rw [Place.names?_eq_some.mpr rfl, Option.bind_some]
  simpa using hMore

/-- The files below a root are those in the table, if each place holds what is listed for it. -/
theorem Walk.mem_filesBelow_iff_of_listed
    (hListed : ∀ item ∈ fs.entries, item.1 ≠ [] → fs.at? item.1 = some item.2) :
    below ∈ Walk.filesBelow fs root ↔
      below ≠ [] ∧ ∃ content, fs.at? (Place.ofNames (root ++ below)) = some (.file content) := by
  constructor
  · intro h
    obtain ⟨hMore, content, hItem⟩ := Walk.mem_filesBelow_of h
    exact ⟨hMore, content, hListed _ hItem (by simpa [Place.ofNames] using fun _ => hMore)⟩
  · rintro ⟨hMore, content, hFile⟩
    exact Walk.mem_filesBelow_of_file hMore hFile

/-- In a tree, the files below a root are those in the table. -/
theorem Walk.mem_filesBelow_iff (hTree : fs.IsTree) :
    below ∈ Walk.filesBelow fs root ↔
      below ≠ [] ∧ ∃ content, fs.at? (Place.ofNames (root ++ below)) = some (.file content) :=
  Walk.mem_filesBelow_iff_of_listed fun item hItem _ => hTree.listed item hItem

open FileSystem

/-- A file that cannot be read has no rules, whatever the reason. -/
theorem Rules.load_eq (fs : FileSystem) (p : Path) :
    Rules.load fs p = ((fs.read p).toOption.map Rules.ofBytes).getD [] := by
  unfold Rules.load
  cases fs.read p <;> rfl

/-- The rules in a file depend on the file. -/
theorem Rules.load_congr (hBefore : before.IsTree) (hAfter : after.IsTree)
    (hNames : ∀ name ∈ names, IsName name)
    (hSame : ∀ content, after.at? (Place.ofNames names) = some (.file content) ↔
      before.at? (Place.ofNames names) = some (.file content)) :
    Rules.load after (Route.toPath ⟨true, names⟩) =
      Rules.load before (Route.toPath ⟨true, names⟩) := by
  rw [Rules.load_eq, Rules.load_eq, toOption_read_congr hBefore hAfter hNames hSame]

/-! ## The walk -/

namespace Walk

/-- The rule files of all directories hold the same rules, and so do those of the user. -/
structure SameRules (before after : FileSystem) : Prop where
  directories : ∀ directory file, (∀ name ∈ directory, IsName name) → file ∈ ruleFiles →
    Rules.load after (Route.toPath ⟨true, directory ++ file⟩) =
      Rules.load before (Route.toPath ⟨true, directory ++ file⟩)
  user        : ∀ names isDirectory,
    userVerdict? after names isDirectory = userVerdict? before names isDirectory

/-- None of the files that the rules of the user come from lies at a place given by names, and the
paths of these files have no step up in them. -/
def SparesUser (fs : FileSystem) (names : List String) : Prop :=
  ∀ p ∈ userFiles fs,
    ".." ∉ Text.piecesOf '/' p.text ∧ fs.plainPlace p ≠ Place.ofNames names

/-- A user who keeps no settings has no files for rules. -/
theorem sparesUser_of_none (hUser : fs.user = {}) (names : List String) : SparesUser fs names := by
  have hNone : userFiles fs = [] := by
    rw [userFiles, userRuleFile?, hUser]
    rfl
  intro p hMem
  rw [hNone] at hMem
  cases hMem

/-- The rules of the user come from the same files, if none of them is where the difference is. -/
theorem userRuleFile?_congr (hBefore : before.IsTree) (hAfter : after.IsTree)
    (hSame : SameFilesBut (Place.ofNames names) before after) (hSpares : SparesUser before names) :
    userRuleFile? after = userRuleFile? before := by
  have hNamed : ∀ settings ∈ settingsFiles before.user,
      namedRuleFile? after settings = namedRuleFile? before settings := by
    intro settings hMem
    obtain ⟨hUp, hOther⟩ := hSpares settings (List.mem_append_left _ hMem)
    rw [namedRuleFile?, namedRuleFile?, hSame.user,
      toOption_read_plain hBefore hAfter hSame hUp hOther]
  rw [userRuleFile?, userRuleFile?, hSame.user, findSome?_congr hNamed]

/-- Whether a place is spared by the files of the user does not depend on what lies there. -/
theorem SparesUser.congr (hSpares : SparesUser before names) (hBefore : before.IsTree)
    (hAfter : after.IsTree) (hSame : SameFilesBut (Place.ofNames names) before after) :
    SparesUser after names := by
  have hPlace : ∀ p, after.plainPlace p = before.plainPlace p := fun p => by
    rw [plainPlace, plainPlace, startOf, startOf, hSame.current]
  intro p hMem
  rw [userFiles, userRuleFile?_congr hBefore hAfter hSame hSpares, hSame.user] at hMem
  rw [hPlace]
  exact hSpares p hMem

/-- The rules of the user are the same, if none of their files is where the difference is. -/
theorem userVerdict?_congr (hBefore : before.IsTree) (hAfter : after.IsTree)
    (hSame : SameFilesBut (Place.ofNames names) before after) (hSpares : SparesUser before names)
    (entry : List String) (isDirectory : Bool) :
    userVerdict? after entry isDirectory = userVerdict? before entry isDirectory := by
  have hSeen : seenByUser after entry = seenByUser before entry := by
    rw [seenByUser, seenByUser, hSame.current]
  rw [userVerdict?, userVerdict?, userRuleFile?_congr hBefore hAfter hSame hSpares, hSeen]
  cases hFile : userRuleFile? before with
  | none => rfl
  | some file =>
    obtain ⟨hUp, hOther⟩ := hSpares file (List.mem_append_right _ (by rw [hFile]; simp))
    simp only [Option.bind_eq_bind, Option.bind_some]
    rw [Rules.load_eq, Rules.load_eq, toOption_read_plain hBefore hAfter hSame hUp hOther]

/-- Nothing but a rule file matters to the rules. -/
theorem sameRules_of_sameFilesBut (hBefore : before.IsTree) (hAfter : after.IsTree)
    (hSame : SameFilesBut (Place.ofNames names) before after)
    (hNoRules : ∀ directory, ∀ file ∈ ruleFiles, names ≠ directory ++ file)
    (hSpares : SparesUser before names) : SameRules before after where
  directories directory file hDirectory hFile := by
    have hNames : ∀ name ∈ directory ++ file, IsName name :=
      List.forall_mem_append.mpr ⟨hDirectory, isName_of_mem_ruleFiles hFile⟩
    refine Rules.load_congr hBefore hAfter hNames (hSame.files _ ?_)
    intro hEq
    exact hNoRules directory file hFile (Place.ofNames_inj.mp hEq).symm
  user := userVerdict?_congr hBefore hAfter hSame hSpares

/-- Files with the same rules give the same verdicts. -/
theorem verdictOf?_congr {file : List String} (hRules : SameRules before after)
    (hNames : ∀ name ∈ names, IsName name) (hFile : file ∈ ruleFiles) :
    verdictOf? after file names isDirectory depth =
      verdictOf? before file names isDirectory depth := by
  induction depth with
  | zero => rw [verdictOf?, verdictOf?]
  | succ depth ih =>
    have hAbove : ∀ name ∈ names.take depth, IsName name := fun name hMem =>
      hNames name (List.mem_of_mem_take hMem)
    rw [verdictOf?, verdictOf?, ih, join_ruleFile hAbove hFile,
      hRules.directories _ _ hAbove hFile]

/-- Files with the same rules ignore the same. -/
theorem isIgnored_congr (hRules : SameRules before after) (hNames : ∀ name ∈ names, IsName name) :
    isIgnored after names isDirectory = isIgnored before names isDirectory := by
  have hFiles : fileVerdict? after names isDirectory = fileVerdict? before names isDirectory :=
    findSome?_congr fun file hFile => verdictOf?_congr hRules hNames hFile
  rw [isIgnored, isIgnored, verdict?, verdict?, hFiles, hRules.user]

/-- Whether the walk comes to a file depends on the rules. -/
theorem reaches_congr (hRules : m.respectIgnores = true → SameRules before after)
    (hNames : ∀ name ∈ root ++ below, IsName name) :
    reaches m after root below = reaches m before root below := by
  -- where rules do not count, they need not be the same
  have hSame : ∀ (way : List String) (isDirectory : Bool), (∀ name ∈ way, IsName name) →
      (m.respectIgnores && isIgnored after way isDirectory) =
        (m.respectIgnores && isIgnored before way isDirectory) := by
    intro way isDirectory hWay
    cases hRespect : m.respectIgnores with
    | false => rfl
    | true => rw [isIgnored_congr (hRules hRespect) hWay]
  have hEnters : ∀ depth, enters m after (root ++ below.take depth) =
      enters m before (root ++ below.take depth) := by
    intro depth
    rw [enters, enters, hSame]
    intro name hMem
    rcases List.mem_append.mp hMem with hMem | hMem
    · exact hNames name (List.mem_append_left _ hMem)
    · exact hNames name (List.mem_append_right _ (List.mem_of_mem_take hMem))
  rw [reaches, reaches, hSame _ _ hNames]
  simp only [hEnters]

end Walk

/-! ## What is found -/

/-- The scanner of a resolved configuration: its paths are canonical, and its matcher has the same
ones. -/
structure Scanner.IsCanonical (s : Scanner) : Prop where
  root : s.config.root.IsCanonical
  output : s.config.output.IsCanonical
  sameRoot : s.matcher.root = s.config.root
  sameOutput : s.matcher.output = s.config.output
  sameRespect : s.matcher.respectIgnores = s.config.respectIgnores

/-- A file that the globs choose, by its path. -/
def Matcher.Chooses (m : Matcher) (p : Path) : Prop :=
  ∃ below, below ≠ [] ∧ (∀ name ∈ below, IsName name) ∧
    p = Route.toPath ⟨true, m.root.names ++ below⟩ ∧ m.isCandidate p = true

/-- The artifact is neither a file of ignore rules nor one that the rules of the user come from. -/
structure Walk.KeepsRules (fs : FileSystem) (output : List String) : Prop where
  directories : ∀ directory, ∀ file ∈ ruleFiles, output ≠ directory ++ file
  user        : SparesUser fs output

/-- The artifact is not a file of ignore rules, or these do not count. -/
def Scanner.KeepsRules (s : Scanner) (fs : FileSystem) : Prop :=
  s.config.respectIgnores = true → Walk.KeepsRules fs s.config.output.names

theorem Scanner.KeepsRules.congr {s : Scanner} (h : s.KeepsRules before) (hBefore : before.IsTree)
    (hAfter : after.IsTree)
    (hSame : SameFilesBut (Place.ofNames s.config.output.names) before after) :
    s.KeepsRules after := fun hRespect =>
  ⟨(h hRespect).directories, (h hRespect).user.congr hBefore hAfter hSame⟩

/-- What a scan finds: the patterns in the files that it reads. -/
def Scanner.Finds (s : Scanner) (fs : FileSystem) (pattern : Pattern) : Prop :=
  ∃ path ∈ s.candidates fs, ∃ source, Source.read fs path = .ok source ∧
    pattern ∈ source.patterns s.config.markers

namespace Scanner

/-- The relation describes the scan. -/
theorem mem_scan {pattern : Pattern} : pattern ∈ (s.scan fs).patterns ↔ s.Finds fs pattern := by
  have hPatterns : (s.scan fs).patterns =
      s.patternsOf (((s.candidates fs).map (Source.read fs)).filterMap Except.toOption) := rfl
  rw [hPatterns, patternsOf, PatternSet.ofList, PatternSet.mem_insertAll]
  simp only [PatternSet.not_mem_empty, or_false, List.mem_flatMap, List.mem_filterMap, List.mem_map]
  constructor
  · -- files that cannot be read add nothing
    rintro ⟨source, ⟨_, ⟨path, hPath, rfl⟩, hSource⟩, hPattern⟩
    cases hRead : Source.read fs path with
    | error e =>
      rw [hRead] at hSource
      cases hSource
    | ok other =>
      rw [hRead] at hSource
      cases hSource
      exact ⟨path, hPath, source, hRead, hPattern⟩
  · rintro ⟨path, hPath, source, hRead, hPattern⟩
    exact ⟨source, ⟨_, ⟨path, hPath, rfl⟩, by rw [hRead]; rfl⟩, hPattern⟩

theorem IsCanonical.matcher_root (h : s.IsCanonical) :
    s.matcher.root = Route.toPath ⟨true, s.config.root.names⟩ := by
  rw [h.sameRoot, h.root.toPath_names]

theorem isOutput_iff (hScanner : s.IsCanonical) (hNames : ∀ name ∈ names, IsName name) :
    s.matcher.isOutput (Route.toPath ⟨true, names⟩) = true ↔ names = s.config.output.names := by
  rw [Matcher.isOutput, Route.absolutize_toPath hNames, hScanner.sameOutput,
    ← hScanner.output.toPath_names, Route.same_toPath hNames hScanner.output.names,
    hScanner.output.toPath_names]

/-- The artifact is not among the files that are chosen. -/
theorem ne_output_of_isCandidate (hScanner : s.IsCanonical) (hNames : ∀ name ∈ names, IsName name)
    (hCandidate : s.matcher.isCandidate (Route.toPath ⟨true, names⟩) = true) :
    names ≠ s.config.output.names := by
  have hOther := (Matcher.seen_of_isCandidate hCandidate).1
  intro hEq
  rw [(isOutput_iff hScanner hNames).mpr hEq] at hOther
  cases hOther

theorem chooses_of_mem_candidates (hTree : fs.IsTree) (h : p ∈ s.candidates fs) :
    s.matcher.Chooses p := by
  obtain ⟨below, hFile, hPath, -, hCandidate⟩ := Matcher.mem_candidates.mp h
  obtain ⟨-, hNames⟩ :=
    List.forall_mem_append.mp (Walk.names_of_mem_filesBelow hTree.names hFile)
  exact ⟨below, (Walk.mem_filesBelow_of hFile).1, hNames, hPath, hCandidate⟩

theorem names_of_chooses (hScanner : s.IsCanonical) (h : s.matcher.Chooses p) :
    ∃ names, (∀ name ∈ names, IsName name) ∧ p = Route.toPath ⟨true, names⟩ ∧
      names ≠ s.config.output.names ∧ s.config.root.names.length < names.length := by
  obtain ⟨below, hMore, hBelow, rfl, hCandidate⟩ := h
  rw [hScanner.sameRoot] at hCandidate ⊢
  have hNames : ∀ name ∈ s.config.root.names ++ below, IsName name :=
    List.forall_mem_append.mpr ⟨hScanner.root.names, hBelow⟩
  refine ⟨_, hNames, rfl, ne_output_of_isCandidate hScanner hNames hCandidate, ?_⟩
  have := List.length_pos_iff.mpr hMore
  rw [List.length_append]
  omega

/-- What a chosen file holds depends neither on the artifact nor on the root itself. -/
theorem read_of_chooses (hBefore : before.IsTree) (hAfter : after.IsTree) (hScanner : s.IsCanonical)
    (hSame : SameFilesBut (Place.ofNames names) before after)
    (hOther : names = s.config.output.names ∨ names = s.config.root.names)
    (hChosen : s.matcher.Chooses p) {source : Source} :
    Source.read after p = .ok source ↔ Source.read before p = .ok source := by
  obtain ⟨chosen, hNames, rfl, hNotOutput, hLonger⟩ := names_of_chooses hScanner hChosen
  -- a chosen file lies below the root, and the artifact is never chosen
  have hNe : chosen ≠ names := by
    rcases hOther with rfl | rfl
    · exact hNotOutput
    · rintro rfl
      exact Nat.lt_irrefl _ hLonger
  have hFile := hSame.files (Place.ofNames chosen) fun hEq => hNe (Place.ofNames_inj.mp hEq)
  -- a source is determined by the content of its file
  have hRead : ∀ fs, Source.read fs (Route.toPath ⟨true, chosen⟩) = .ok source ↔
      ∃ content, fs.read (Route.toPath ⟨true, chosen⟩) = .ok content ∧
        source = ⟨Route.toPath ⟨true, chosen⟩, Text.decodeLossy content⟩ := by
    intro fs
    unfold Source.read
    cases fs.read (Route.toPath ⟨true, chosen⟩) with
    | error cause => simp
    | ok content =>
      simp only [Except.ok.injEq, exists_eq_left']
      exact eq_comm
  rw [hRead, hRead]
  simp only [read_congr hBefore hAfter hNames hFile]

/-- The artifact does not matter to which files are read. -/
theorem mem_candidates_congr (hBefore : before.IsTree) (hAfter : after.IsTree)
    (hScanner : s.IsCanonical)
    (hSame : SameFilesBut (Place.ofNames s.config.output.names) before after)
    (hRules : s.KeepsRules before) :
    p ∈ s.candidates after ↔ p ∈ s.candidates before := by
  -- one half of the statement, to be used both ways round
  have hOne : ∀ {before after : FileSystem}, before.IsTree → after.IsTree →
      SameFilesBut (Place.ofNames s.config.output.names) before after → s.KeepsRules before →
      p ∈ s.candidates before → p ∈ s.candidates after := by
    intro before after hBefore hAfter hSame hRules hMem
    obtain ⟨names, hNames, hNamesPath, hOther, -⟩ :=
      names_of_chooses hScanner (chooses_of_mem_candidates hBefore hMem)
    obtain ⟨below, hFile, rfl, hReaches, hCandidate⟩ := Matcher.mem_candidates.mp hMem
    obtain ⟨hMore, content, hContent⟩ := (Walk.mem_filesBelow_iff hBefore).mp hFile
    have hWay := Walk.names_of_mem_filesBelow hBefore.names hFile
    have hEq := Route.toPath_inj hWay hNames hNamesPath
    have hSameRules : s.matcher.respectIgnores = true → Walk.SameRules before after := by
      intro hRespect
      rw [hScanner.sameRespect] at hRespect
      exact Walk.sameRules_of_sameFilesBut hBefore hAfter hSame (hRules hRespect).directories
        (hRules hRespect).user
    -- the globs look at the path alone, so two things can change: whether the file is there and
    -- whether the walk comes to it
    refine Matcher.mem_candidates.mpr ⟨below, ?_, rfl, ?_, hCandidate⟩
    · refine (Walk.mem_filesBelow_iff hAfter).mpr ⟨hMore, content, ?_⟩
      rw [hSame.files _ fun hPlace => hOther (hEq ▸ Place.ofNames_inj.mp hPlace)]
      exact hContent
    · rw [Walk.reaches_congr hSameRules hWay]
      exact hReaches
  exact ⟨hOne hAfter hBefore hSame.symm (hRules.congr hBefore hAfter hSame),
    hOne hBefore hAfter hSame hRules⟩

/-- The artifact does not matter to a scan. -/
theorem finds_congr (hBefore : before.IsTree) (hAfter : after.IsTree) (hScanner : s.IsCanonical)
    (hSame : SameFilesBut (Place.ofNames s.config.output.names) before after)
    (hRules : s.KeepsRules before)
    (pattern : Pattern) : s.Finds after pattern ↔ s.Finds before pattern := by
  have hCandidates : ∀ path, path ∈ s.candidates after ↔ path ∈ s.candidates before :=
    fun path => mem_candidates_congr hBefore hAfter hScanner hSame hRules
  unfold Finds
  constructor
  · rintro ⟨path, hMem, source, hRead, hPattern⟩
    have hChosen := chooses_of_mem_candidates hAfter hMem
    exact ⟨path, (hCandidates path).mp hMem, source,
      (read_of_chooses hBefore hAfter hScanner hSame (Or.inl rfl) hChosen).mp hRead, hPattern⟩
  · rintro ⟨path, hMem, source, hRead, hPattern⟩
    have hChosen := chooses_of_mem_candidates hBefore hMem
    exact ⟨path, (hCandidates path).mpr hMem, source,
      (read_of_chooses hBefore hAfter hScanner hSame (Or.inl rfl) hChosen).mpr hRead, hPattern⟩

/-- A root with a file below it is a directory. -/
theorem at?_root_of_file {content : ByteArray} (hTree : fs.IsTree) (hMore : below ≠ [])
    (hFile : fs.at? (Place.ofNames (root ++ below)) = some (.file content)) :
    fs.at? (Place.ofNames root) = some .directory := by
  rw [Place.ofNames_append] at hFile
  exact hTree.inside.above (by rw [hFile]; rfl) (by simpa [Place.ofNames] using hMore)

/-- Where no file but the artifact lies below the root, nothing is found. -/
theorem not_finds_of_no_file (hTree : fs.IsTree) (hScanner : s.IsCanonical)
    (hNone : ∀ below content, below ≠ [] →
      fs.at? (Place.ofNames (s.config.root.names ++ below)) = some (.file content) →
      s.config.root.names ++ below = s.config.output.names)
    (pattern : Pattern) : ¬ s.Finds fs pattern := by
  rintro ⟨path, hMem, -⟩
  obtain ⟨below, hFile, rfl, -, hCandidate⟩ := Matcher.mem_candidates.mp hMem
  have hNames := Walk.names_of_mem_filesBelow hTree.names hFile
  rw [hScanner.sameRoot] at hFile hCandidate hNames
  obtain ⟨hMore, content, hContent⟩ := (Walk.mem_filesBelow_iff hTree).mp hFile
  exact ne_output_of_isCandidate hScanner hNames hCandidate (hNone below content hMore hContent)

theorem scan_eq_empty (hTree : fs.IsTree) (hScanner : s.IsCanonical)
    (hNone : ∀ below content, below ≠ [] →
      fs.at? (Place.ofNames (s.config.root.names ++ below)) = some (.file content) →
      s.config.root.names ++ below = s.config.output.names) :
    (s.scan fs).patterns = PatternSet.empty := by
  refine PatternSet.ext_mem fun pattern => ?_
  rw [mem_scan]
  exact iff_of_false (not_finds_of_no_file hTree hScanner hNone pattern) PatternSet.not_mem_empty

/-- What becomes of the root itself does not matter to a scan: if anything lies below the root, it
is a directory before and after. -/
theorem finds_congr_root (hBefore : before.IsTree) (hAfter : after.IsTree)
    (hScanner : s.IsCanonical)
    (hSame : SameFilesBut (Place.ofNames s.config.root.names) before after)
    (hRules : s.KeepsRules before)
    (pattern : Pattern) : s.Finds after pattern ↔ s.Finds before pattern := by
  have hBelow : ∀ below content, below ≠ [] →
      (after.at? (Place.ofNames (s.config.root.names ++ below)) = some (.file content) ↔
        before.at? (Place.ofNames (s.config.root.names ++ below)) = some (.file content)) := by
    intro below content hMore
    refine hSame.files _ (fun hEq => hMore ?_) content
    exact List.append_right_eq_self.mp (Place.ofNames_inj.mp hEq)
  -- with a file below it the root is a directory in both, and without one nothing is found in
  -- either
  by_cases hSome : ∃ below content, below ≠ [] ∧
      before.at? (Place.ofNames (s.config.root.names ++ below)) = some (.file content)
  · obtain ⟨below, content, hMore, hFile⟩ := hSome
    refine finds_congr hBefore hAfter hScanner
      ⟨fun other _ content => ?_, hSame.current, hSame.user⟩ hRules pattern
    by_cases hRoot : other = Place.ofNames s.config.root.names
    · rw [hRoot, at?_root_of_file hBefore hMore hFile,
        at?_root_of_file hAfter hMore ((hBelow _ _ hMore).mpr hFile)]
    · exact hSame.files other hRoot content
  · have hNone : ∀ below content, below ≠ [] →
        before.at? (Place.ofNames (s.config.root.names ++ below)) ≠ some (.file content) :=
      fun below content hMore hFile => hSome ⟨below, content, hMore, hFile⟩
    exact iff_of_false
      (not_finds_of_no_file hAfter hScanner (fun below content hMore hFile =>
        absurd ((hBelow below content hMore).mp hFile) (hNone below content hMore)) pattern)
      (not_finds_of_no_file hBefore hScanner (fun below content hMore hFile =>
        absurd hFile (hNone below content hMore)) pattern)

/-- A resolved configuration has a canonical scanner. -/
theorem IsCanonical.of_new {fs₀ fs₁ : FileSystem} {config : Config} {resolved : Resolved}
    (hStart : fs₀.HasNames) (hResolved : config.resolve fs₀ = .ok resolved)
    (hScanner : Scanner.new fs₁ resolved = .ok s) : s.IsCanonical ∧ s.config = resolved := by
  obtain ⟨hConfig, hRoot, hOutput, hRespect⟩ := Scanner.new_frame hScanner
  obtain ⟨hCanonicalRoot, hCanonicalOutput⟩ := Config.resolve_isCanonical hStart hResolved
  rw [← hConfig] at hCanonicalRoot hCanonicalOutput hRoot hOutput hRespect
  exact ⟨⟨hCanonicalRoot, hCanonicalOutput, hRoot, hOutput, hRespect⟩, hConfig⟩

end Scanner

/-! ## The filter -/

namespace Matcher

theorem Decides.congr {top item : Nat} {verdict : Verdict}
    (h : Decides before names top depth item verdict)
    (hSame : ∀ depth item, top ≤ depth →
      opinion? after names depth item = opinion? before names depth item) :
    Decides after names top depth item verdict where
  inside := h.inside
  onTheWay := h.onTheWay
  opinion := by
    rw [hSame _ _ h.inside.1]
    exact h.opinion
  nearer := by
    intro other hOther hEnd
    rw [hSame _ _ h.inside.1]
    exact h.nearer other hOther hEnd
  below := by
    intro lower other hLower hInside hOther hEnd
    have hTop := h.inside.1
    rw [hSame _ _ (by omega)]
    exact h.below lower other hLower hInside hOther hEnd

/-- The directories from the root downwards have the same opinions if their rules are the same. -/
theorem opinion?_congr {item : Nat} (hNames : ∀ name ∈ root ++ below, IsName name)
    (hDepth : root.length ≤ depth)
    (hRules : ∀ more, (∀ name ∈ more, IsName name) → ∀ file ∈ [[".ignore"], [".gitignore"]],
      Rules.load after (Route.toPath ⟨true, root ++ more ++ file⟩) =
        Rules.load before (Route.toPath ⟨true, root ++ more ++ file⟩)) :
    opinion? after (root ++ below) depth item = opinion? before (root ++ below) depth item := by
  have hTake : (root ++ below).take depth = root ++ below.take (depth - root.length) := by
    rw [List.take_append, List.take_of_length_le hDepth]
  have hTaken : ∀ name ∈ below.take (depth - root.length), IsName name := fun name hMem =>
    hNames name (List.mem_append_right _ (List.mem_of_mem_take hMem))
  rw [opinion?, opinion?, Walk.opinion?, Walk.opinion?, Walk.opinion?, Walk.opinion?, hTake,
    hRules _ hTaken [".ignore"] (by simp), hRules _ hTaken [".gitignore"] (by simp)]

/-- Whether the filter takes events for a file depends on the rules of the directories from the root
downwards. -/
theorem isScannable_congr (hRoot : m.root = Route.toPath ⟨true, root⟩)
    (hNames : ∀ name ∈ root ++ below, IsName name) (hMore : below ≠ [])
    (hRules : m.respectIgnores = true → ∀ more, (∀ name ∈ more, IsName name) →
      ∀ file ∈ [[".ignore"], [".gitignore"]],
        Rules.load after (Route.toPath ⟨true, root ++ more ++ file⟩) =
          Rules.load before (Route.toPath ⟨true, root ++ more ++ file⟩)) :
    m.isScannable after (Route.toPath ⟨true, root ++ below⟩) =
      m.isScannable before (Route.toPath ⟨true, root ++ below⟩) := by
  by_cases hCandidate : m.isCandidate (Route.toPath ⟨true, root ++ below⟩) = true
  · have hIff : m.isScannable after (Route.toPath ⟨true, root ++ below⟩) = false ↔
        m.isScannable before (Route.toPath ⟨true, root ++ below⟩) = false := by
      rw [isScannable_eq_false_iff hRoot hNames hMore hCandidate,
        isScannable_eq_false_iff hRoot hNames hMore hCandidate]
      refine and_congr_right fun hRespect => or_congr_right ?_
      -- the directories that are asked lie below the root, so they say what they said before
      have hSame : ∀ depth item, root.length ≤ depth →
          opinion? after (root ++ below) depth item = opinion? before (root ++ below) depth item :=
        fun depth item hDepth => opinion?_congr hNames hDepth (hRules hRespect)
      constructor
      · rintro ⟨depth, item, hDecides⟩
        exact ⟨depth, item, hDecides.congr fun depth item hTop => (hSame depth item hTop).symm⟩
      · rintro ⟨depth, item, hDecides⟩
        exact ⟨depth, item, hDecides.congr hSame⟩
    rw [Bool.eq_iff_iff, ← Bool.not_eq_false, hIff, Bool.not_eq_false]
  · rw [Bool.not_eq_true] at hCandidate
    rw [isScannable, isScannable, hCandidate, Bool.false_and, Bool.false_and]

end Matcher

end KeyRegistry

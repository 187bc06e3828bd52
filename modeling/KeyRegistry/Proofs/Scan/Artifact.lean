import KeyRegistry.Proofs.Pass.Commit
import KeyRegistry.Proofs.Scan.Candidates
import KeyRegistry.Proofs.Scan.RuleText

/-!
# A scan does not see the artifact

The artifact is never a candidate, so a scan does not read it, whatever the globs say. It could
still matter as a file of ignore rules; an artifact that is none of those that the walk reads does
not matter at all: the candidates are the same files in the same order, with it, without it and
whatever is in it.

The list of candidates says more than the set of them: a file that a table listed twice would be
read twice. Writing a document lists no place twice.

Main definitions:

* `FileSystem.ListsOnce` — the table lists each place once

Main statements:

* `FileSystem.ListsOnce.writeDocument` — it still does so after a document was written
* `Scanner.new_congr` — the artifact does not matter to the scanner of a configuration
* `Scanner.candidates_congr`, `Scanner.scan_congr` — nor to the candidates and what is found in them
-/

namespace KeyRegistry

open FileSystem KeyRegistry.Path

variable {fs before after : FileSystem} {m : Matcher} {s : Scanner}

/-! ## Tables without repetitions -/

namespace FileSystem

/-- The table lists each place once. -/
def ListsOnce (fs : FileSystem) : Prop :=
  (fs.entries.map Prod.fst).Nodup

instance (fs : FileSystem) : Decidable fs.ListsOnce :=
  inferInstanceAs (Decidable (fs.entries.map Prod.fst).Nodup)

/-- A place that is listed once holds what is listed. -/
theorem ListsOnce.at? (hOnce : fs.ListsOnce) {place : Place} {entry : Entry}
    (hItem : (place, entry) ∈ fs.entries) (hTop : place ≠ []) : fs.at? place = some entry := by
  rw [FileSystem.at?, if_neg hTop]
  unfold ListsOnce at hOnce
  generalize fs.entries = entries at hOnce hItem
  induction entries with
  | nil => cases hItem
  | cons item entries ih =>
    obtain ⟨other, value⟩ := item
    rw [List.map_cons, List.nodup_cons] at hOnce
    rw [List.lookup_cons]
    rcases List.mem_cons.mp hItem with hHead | hTail
    · cases hHead
      rw [beq_self_eq_true]
    · -- the place is listed farther down, so this is another one
      have hOther : (place == other) = false := by
        rw [beq_eq_false_iff_ne]
        rintro rfl
        exact hOnce.1 (List.mem_map.mpr ⟨_, hTail, rfl⟩)
      rw [hOther]
      exact ih hOnce.2 hTail

/-- Setting an entry keeps every place listed once. -/
theorem ListsOnce.set (h : fs.ListsOnce) (place : Place) (entry : Entry) :
    (fs.set place entry).ListsOnce := by
  -- the new entry comes first, and all that was listed for its place goes
  have hOthers : ((fs.entries.filter (·.1 ≠ place)).map Prod.fst).Nodup :=
    h.sublist (List.filter_sublist.map Prod.fst)
  have hGone : place ∉ (fs.entries.filter (·.1 ≠ place)).map Prod.fst := by
    intro hMem
    obtain ⟨item, hItem, hPlace⟩ := List.mem_map.mp hMem
    have hNe := (List.mem_filter.mp hItem).2
    simp [hPlace] at hNe
  exact List.nodup_cons.mpr ⟨hGone, hOthers⟩

/-- Creating directories keeps every place listed once. -/
theorem ListsOnce.createDirectories (h : fs.ListsOnce) (hTree : fs.Hierarchical) (p : Path) :
    (fs.createDirectories p).1.ListsOnce := by
  -- each directory on the way is one more entry at a place of its own; that the table stays a
  -- hierarchy says where the entry goes
  refine (createAlong_induction (P := fun made => made.Hierarchical ∧ made.ListsOnce) ?_
    ⟨hTree, h⟩).2
  rintro before after p - ⟨hBefore, hOnce⟩ hMade
  obtain ⟨place, -, -, hSet⟩ := createDirectory_eq_ok hBefore hMade
  refine ⟨hBefore.createDirectory hMade, ?_⟩
  rw [hSet]
  exact hOnce.set place .directory

/-- Creating the directory of a file keeps every place listed once. -/
theorem ListsOnce.createParent (h : fs.ListsOnce) (hTree : fs.Hierarchical) (p : Path) :
    (fs.createParent p).1.ListsOnce := by
  unfold FileSystem.createParent
  split
  · exact h
  · next parent _ =>
    split
    · exact h
    · have hMade : (fs.createDirectories parent).1.ListsOnce := h.createDirectories hTree parent
      split <;> next hCase => rw [hCase] at hMade; exact hMade

/-- Writing a document keeps every place listed once, whatever becomes of the write. -/
theorem ListsOnce.writeDocument (h : fs.ListsOnce) (hTree : fs.Hierarchical) (p : Path)
    (document : String) : (fs.writeDocument p document).1.ListsOnce := by
  have hParent := h.createParent hTree p
  -- a write that fails may have made the directory of the file
  rcases writeDocument_files fs p document with hMade | hWritten
  · rw [hMade]
    exact hParent
  · rw [hWritten]
    rcases write_files (fs.createParent p).1 p document.toUTF8 with
      hSame | ⟨place, bytes, -, -, hSet⟩
    · rw [hSame]
      exact hParent
    · rw [hSet]
      exact hParent.set place _

end FileSystem

/-! ## The list of candidates -/

/-- The walk lists no file twice. -/
theorem Walk.nodup_filesBelow (h : fs.ListsOnce) (root : List String) :
    (Walk.filesBelow fs root).Nodup := by
  have hPlaces : fs.entries.Pairwise fun item other => item.1 ≠ other.1 := List.pairwise_map.mp h
  refine hPlaces.filterMap _ ?_
  intro item other hNe below hItem _ hOther hEq
  -- the names below the root say where an item is listed
  have hFirst : below ∈ Walk.filesBelow { entries := [item] } root :=
    List.mem_filterMap.mpr ⟨item, List.mem_singleton_self item, hItem⟩
  have hSecond : below ∈ Walk.filesBelow { entries := [other] } root :=
    List.mem_filterMap.mpr ⟨other, List.mem_singleton_self other, hEq ▸ hOther⟩
  obtain ⟨-, content, hListed⟩ := Walk.mem_filesBelow_of hFirst
  obtain ⟨-, otherContent, hOtherListed⟩ := Walk.mem_filesBelow_of hSecond
  refine hNe ?_
  rw [← List.mem_singleton.mp hListed, ← List.mem_singleton.mp hOtherListed]

/-- The order of the walk is the order of names. -/
theorem Walk.inOrder_iff {first second : List String} :
    inOrder first second = true ↔ ¬ second < first := by
  rw [inOrder, Bool.not_eq_true', ← Bool.not_eq_true, List.lex_eq_true_iff_lex]
  simp only [decide_eq_true_eq]
  exact Iff.rfl

/-- The candidates in the order of their names: each is listed once. -/
theorem Matcher.candidates_ascending (h : fs.ListsOnce) (m : Matcher) :
    ∃ chosen : List (List String), chosen.Pairwise (· < ·) ∧
      (∀ below ∈ chosen, below ∈ Walk.filesBelow fs m.root.names) ∧
      m.candidates fs = chosen.map fun below => Route.toPath ⟨true, m.root.names ++ below⟩ := by
  -- the order does not know equal names, so it is strict on a list without repetitions
  let files := (Walk.filesBelow fs m.root.names).mergeSort Walk.inOrder
  have hSorted : files.Pairwise (· < ·) := by
    have hOrder : files.Pairwise fun a b => Walk.inOrder a b = true := by
      refine List.pairwise_mergeSort ?_ ?_ _
      · intro a b c hFirst hSecond
        exact Walk.inOrder_iff.mpr
          (List.le_trans (Walk.inOrder_iff.mp hFirst) (Walk.inOrder_iff.mp hSecond))
      · intro a b
        rw [Bool.or_eq_true, Walk.inOrder_iff, Walk.inOrder_iff]
        exact List.le_total a b
    have hNodup : files.Nodup := List.nodup_mergeSort.mpr (Walk.nodup_filesBelow h _)
    refine (hOrder.and hNodup).imp ?_
    rintro a b ⟨hInOrder, hNe⟩
    exact (List.le_iff_lt_or_eq.mp (Walk.inOrder_iff.mp hInOrder)).resolve_right hNe
  refine ⟨files.filter fun below => Walk.reaches m fs m.root.names below &&
    m.isCandidate (Route.toPath ⟨true, m.root.names ++ below⟩), hSorted.filter _, ?_, ?_⟩
  · intro below hMem
    exact List.mem_mergeSort.mp (List.mem_of_mem_filter hMem)
  · rw [← List.filterMap_eq_map, List.filterMap_filter]
    rfl

/-- Two lists of candidates with the same members are the same. -/
theorem Matcher.candidates_eq_of_mem (hBefore : before.HasNames) (hAfter : after.HasNames)
    (hOnceBefore : before.ListsOnce) (hOnceAfter : after.ListsOnce)
    (hSame : ∀ p, p ∈ m.candidates after ↔ p ∈ m.candidates before) :
    m.candidates after = m.candidates before := by
  obtain ⟨first, hFirstSorted, hFirst, hFirstEq⟩ := m.candidates_ascending hOnceBefore
  obtain ⟨second, hSecondSorted, hSecond, hSecondEq⟩ := m.candidates_ascending hOnceAfter
  -- one half of the statement, to be used both ways round
  have hOne : ∀ {before after : FileSystem} {first second : List (List String)},
      before.HasNames → after.HasNames →
      (∀ below ∈ first, below ∈ Walk.filesBelow before m.root.names) →
      (∀ below ∈ second, below ∈ Walk.filesBelow after m.root.names) →
      (∀ p, p ∈ first.map (fun below => Route.toPath ⟨true, m.root.names ++ below⟩) →
        p ∈ second.map fun below => Route.toPath ⟨true, m.root.names ++ below⟩) →
      ∀ below ∈ first, below ∈ second := by
    intro before after first second hBefore hAfter hFirst hSecond hMap below hMem
    obtain ⟨other, hOther, hPath⟩ := List.mem_map.mp (hMap _ (List.mem_map_of_mem hMem))
    -- a path determines the names that it was made of, if they are names
    have hEq := Route.toPath_inj (Walk.names_of_mem_filesBelow hAfter (hSecond other hOther))
      (Walk.names_of_mem_filesBelow hBefore (hFirst below hMem)) hPath
    rwa [← List.append_cancel_left hEq]
  rw [hFirstEq, hSecondEq] at hSame ⊢
  have hMembers : ∀ below, below ∈ second ↔ below ∈ first := fun below =>
    ⟨hOne hAfter hBefore hSecond hFirst (fun p => (hSame p).mp) below,
      hOne hBefore hAfter hFirst hSecond (fun p => (hSame p).mpr) below⟩
  -- both lists are ascending, and such a list is determined by its members
  have : Std.Irrefl (fun a b : List String => a < b) := ⟨List.lt_irrefl⟩
  have : Std.Asymm (fun a b : List String => a < b) := ⟨fun _ _ => List.lt_asymm⟩
  rw [hSecondSorted.eq_of_mem_iff hFirstSorted hMembers]

/-! ## Reading files -/

namespace Source

/-- Every path is either read or counted among the failures. -/
theorem length_readAll (fs : FileSystem) (paths : List Path) :
    (readAll fs paths).1.length + (readAll fs paths).2.length = paths.length := by
  induction paths with
  | nil => rfl
  | cons path paths ih =>
    simp only [readAll, List.map_cons, List.filterMap_cons] at ih ⊢
    cases read fs path with
    | ok source =>
      simp only [Except.toOption, List.length_cons]
      omega
    | error e =>
      simp only [Except.toOption, List.length_cons]
      omega

/-- Files with the same contents are read alike. -/
theorem readAll_congr {paths : List Path} (h : ∀ path ∈ paths, ∀ source,
    read after path = .ok source ↔ read before path = .ok source) :
    (readAll after paths).1 = (readAll before paths).1 := by
  simp only [readAll, List.filterMap_map]
  refine List.filterMap_congr fun path hMem => Option.ext fun source => ?_
  exact toOption_eq_some_iff.trans ((h path hMem source).trans toOption_eq_some_iff.symm)

end Source

/-! ## The artifact -/

namespace Scanner

/-- The guard of a scanner is about its artifact. -/
theorem IsCanonical.guard_output (h : s.IsCanonical) : s.guard.output = s.config.output := by
  show (absolutize s.config.root s.config.output).toPath = s.config.output
  rw [← h.output.toPath_names, Route.absolutize_toPath h.output.names]

/-- The scanner of a configuration depends on the configured ignore file alone. -/
theorem new_congr {fs₀ : FileSystem} {config : Config} {resolved : Resolved}
    (hBefore : before.IsTree)
    (hAfter : after.IsTree) (hStart : fs₀.HasNames) (hResolved : config.resolve fs₀ = .ok resolved)
    (hSame : SameFilesBut (Place.ofNames resolved.output.names) before after)
    (hOther : resolved.ignoreFile ≠ some resolved.output) :
    Scanner.new after resolved = Scanner.new before resolved := by
  have hLoad : resolved.ignoreFile.map (Matcher.loadIgnoreFile after) =
      resolved.ignoreFile.map (Matcher.loadIgnoreFile before) := by
    -- the artifact may be anything but the ignore file, so that file has stayed as it was
    refine Option.map_congr fun p hFile => ?_
    obtain ⟨names, hNames, rfl⟩ := Config.resolve_ignoreFile hStart hResolved hFile
    have hPlace : Place.ofNames names ≠ Place.ofNames resolved.output.names := by
      intro hEq
      have hOutput := (Config.resolve_isCanonical hStart hResolved).2
      rw [Place.ofNames_inj.mp hEq, hOutput.toPath_names] at hFile
      exact hOther hFile
    rw [Matcher.loadIgnoreFile, Matcher.loadIgnoreFile,
      Rules.load_congr hBefore hAfter hNames (hSame.files _ hPlace)]
  rw [Scanner.new, Scanner.new, Matcher.new, Matcher.new, hLoad]

/-- The artifact does not matter to the candidates. -/
theorem candidates_congr (hBefore : before.IsTree) (hAfter : after.IsTree)
    (hOnceBefore : before.ListsOnce) (hOnceAfter : after.ListsOnce) (hScanner : s.IsCanonical)
    (hRules : s.KeepsRules before)
    (hSame : SameFilesBut (Place.ofNames s.config.output.names) before after) :
    s.candidates after = s.candidates before :=
  Matcher.candidates_eq_of_mem hBefore.names hAfter.names hOnceBefore hOnceAfter fun _ =>
    mem_candidates_congr hBefore hAfter hScanner hSame hRules

/-- Nor does it matter to what is found in them. -/
theorem scan_congr (hBefore : before.IsTree) (hAfter : after.IsTree)
    (hOnceBefore : before.ListsOnce) (hOnceAfter : after.ListsOnce) (hScanner : s.IsCanonical)
    (hRules : s.KeepsRules before)
    (hSame : SameFilesBut (Place.ofNames s.config.output.names) before after) :
    (s.scan after).patterns = (s.scan before).patterns ∧
      (s.scan after).filesRead = (s.scan before).filesRead ∧
      (s.scan after).errors.length = (s.scan before).errors.length := by
  have hCandidates :=
    candidates_congr hBefore hAfter hOnceBefore hOnceAfter hScanner hRules hSame
  have hSources : (Source.readAll after (s.candidates before)).1 =
      (Source.readAll before (s.candidates before)).1 := by
    refine Source.readAll_congr fun path hMem source => ?_
    exact read_of_chooses hBefore hAfter hScanner hSame (Or.inl rfl)
      (chooses_of_mem_candidates hBefore hMem)
  -- what could not be read is counted by what is left over
  have hErrors : (Source.readAll after (s.candidates before)).2.length =
      (Source.readAll before (s.candidates before)).2.length := by
    have hSum := Source.length_readAll after (s.candidates before)
    rw [hSources, ← Source.length_readAll before (s.candidates before)] at hSum
    exact Nat.add_left_cancel hSum
  simp only [scan, hCandidates, hSources, hErrors, and_self]

end Scanner

/-! ## An artifact that is a file of ignore rules -/

namespace Excluded

/-- The name of a file: a line of every document for the module. -/
def name : String := "import \"m\";"

/-- The names on the way to the artifact, which is a file of ignore rules. -/
def output : List String := ["r", ".git", "info", "exclude"]

/-- A project with a file that is named like a line of its document. -/
def project : FileSystem where
  entries := [
    ([.text "r"], .directory),
    ([.text "r", .text ".git"], .directory),
    ([.text "r", .text ".git", .text "info"], .directory),
    ([.text "r", .text name], .file "qk('y')".toUTF8)]

/-- A configuration of the project. -/
def config : Config where
  scan := {
    root := ⟨"/r"⟩, includes := ["**/*"], output := ⟨".git/info/exclude"⟩, moduleName := "m" }

/-- What the configuration is resolved to. -/
def resolved : Resolved where
  root := ⟨"/r"⟩
  includes := ["**/*"]
  excludes := standardExcludes
  markers := [defaultMarker]
  output := ⟨"/r/.git/info/exclude"⟩
  moduleName := "m"
  ignoreFile := none
  respectIgnores := true
  verbose := false
  watch := {}

/-- The scanner of the project. -/
def scanner : Scanner where
  config := resolved
  matcher := {
    root := ⟨"/r"⟩
    output := ⟨"/r/.git/info/exclude"⟩
    includes := [⟨[.anyAbove, .star]⟩]
    excludes := Matcher.standardGlobs
    excludedDirectories := [.ofName "node_modules" []]
    ignoreFile := none
    respectIgnores := true }

theorem project_isTree : project.IsTree :=
  FileSystem.isTree_sound (by decide)

theorem resolve_config : config.resolve project = .ok resolved := by
  have hRoot : config.scan.canonicalRoot project = .ok (Route.toPath ⟨true, ["r"]⟩) :=
    ScanConfig.canonicalRoot_of_directory project_isTree (by decide) (by decide) rfl rfl
  have hPath : (Path.absolutize (Route.toPath ⟨true, ["r"]⟩) config.scan.output).toPath =
      Route.toPath ⟨true, output⟩ := rfl
  have hOutput : project.isDirectory
      (Path.absolutize (Route.toPath ⟨true, ["r"]⟩) config.scan.output).toPath = false := by
    rw [hPath]
    exact FileSystem.isDirectory_of_none project_isTree (by decide) rfl
  rw [Config.resolve_of hRoot rfl rfl markerNames_default hOutput, hPath]
  rfl

theorem new_scanner : Scanner.new project resolved = .ok scanner := by
  have hIncludes : Matcher.readGlobs resolved.includes = .ok scanner.matcher.includes := by cbv
  exact Scanner.new_of_standard hIncludes rfl rfl

theorem writable : project.Writable output := by
  have hFree : project.at? (Place.ofNames output) = none := rfl
  exact ⟨⟨by decide, by decide, by decide, by simp [output], rfl, by simp [hFree]⟩,
    fun _ => rfl⟩

/-- The names on the way to the artifact. -/
theorem output_names : resolved.output.names = output := by
  have hOutput : resolved.output = Route.toPath ⟨true, output⟩ := rfl
  rw [hOutput, Route.names_toPath writable.proper]

/-- The scanner is that of a resolved configuration. -/
theorem isCanonical : scanner.IsCanonical :=
  (Scanner.IsCanonical.of_new project_isTree.names resolve_config new_scanner).1

/-- The guard knows the artifact by its route. -/
theorem guard_output : scanner.guard.output = Route.toPath ⟨true, output⟩ :=
  isCanonical.guard_output

/-! ### The first scan -/

/-- The only file of the project. -/
theorem file_of_at? {place : Place} {content : ByteArray}
    (h : project.at? place = some (.file content)) : place = Place.ofNames ["r", name] := by
  have hTop : place ≠ [] := FileSystem.ne_top_of_at? (by rw [h]; simp)
  rw [FileSystem.at?, if_neg hTop] at h
  have hMem := FileSystem.mem_of_lookup h
  simp only [project, List.mem_cons, Prod.mk.injEq, reduceCtorEq, and_false, false_or,
    List.not_mem_nil, or_false] at hMem
  exact hMem.1

/-- The artifact is the rule file of no directory but the one that it lies in. -/
theorem not_ruleFile {file directory : List String} (hFile : file ∈ Walk.ruleFiles) :
    directory ++ file ≠ ["r", name] := by
  intro hEq
  have hSuffix : file <:+ ["r", name] := ⟨directory, hEq⟩
  have hNone : ∀ file ∈ Walk.ruleFiles, ¬ file <:+ ["r", name] := by decide
  exact hNone file hFile hSuffix

/-- As long as the artifact is not there, nothing is ignored. -/
theorem isIgnored_project : Walk.isIgnored project ["r", name] false = false := by
  have hVerdict : Walk.verdict? project ["r", name] false = none := by
    rw [Walk.verdict?_of_user, Walk.userVerdict?_of_none rfl]
    refine List.findSome?_eq_none_iff.mpr fun file hFile => ?_
    refine Walk.verdictOf?_eq_none project_isTree (by decide) hFile ?_
    intro directory content hContent
    exact not_ruleFile hFile (Place.ofNames_inj.mp (file_of_at? hContent))
  rw [Walk.isIgnored, hVerdict]
  decide

theorem root_names : scanner.matcher.root.names = ["r"] := by
  have hRoot : scanner.matcher.root = Route.toPath ⟨true, ["r"]⟩ := rfl
  rw [hRoot, Route.names_toPath (by decide)]

/-- The file of the project is its only candidate at first. -/
theorem candidates_project :
    scanner.candidates project = [Route.toPath ⟨true, ["r", name]⟩] := by
  have hFiles : Walk.filesBelow project ["r"] = [[name]] := rfl
  have hReaches : Walk.reaches scanner.matcher project ["r"] [name] = true := by
    rw [Walk.reaches, show ["r"] ++ [name] = ["r", name] from rfl, isIgnored_project]
    rfl
  have hCandidate : scanner.matcher.isCandidate (Route.toPath ⟨true, ["r"] ++ [name]⟩) = true := by
    decide +kernel
  rw [Scanner.candidates, Matcher.candidates, root_names, hFiles, List.mergeSort_singleton]
  simp only [List.filterMap_cons, List.filterMap_nil]
  rw [hReaches, hCandidate]
  rfl

/-- The file calls for one key. -/
theorem read_file : Source.read project (Route.toPath ⟨true, ["r", name]⟩) =
    .ok ⟨Route.toPath ⟨true, ["r", name]⟩, "qk('y')"⟩ := by
  have hRead : project.read (Route.toPath ⟨true, ["r", name]⟩) = .ok "qk('y')".toUTF8 :=
    (FileSystem.read_eq_ok_iff project_isTree (by decide)).mpr ⟨by decide, rfl⟩
  rw [Source.read, hRead]
  dsimp only
  rw [Text.decodeLossy_toUTF8]

/-- The patterns of the project: the one in its file. -/
def patterns : PatternSet := PatternSet.ofList [⟨"y"⟩]

/-- So a first pass finds the key. -/
theorem scan_project : (scanner.scan project).patterns = patterns := by
  -- the call in the file is parsed here
  have hFound :
      Source.patterns ⟨Route.toPath ⟨true, ["r", name]⟩, "qk('y')"⟩ scanner.config.markers =
      [⟨"y"⟩] := by decide +kernel
  refine PatternSet.ext_mem fun pattern => ?_
  rw [Scanner.mem_scan, patterns, PatternSet.ofList, PatternSet.mem_insertAll, Scanner.Finds]
  simp only [candidates_project, List.mem_singleton, exists_eq_left, read_file, Except.ok.injEq,
    exists_eq_left', hFound, PatternSet.not_mem_empty, or_false]

/-! ### The document as a file of ignore rules -/

/-- The document of the project. -/
def document : String := (Rendering.of patterns.expand "m").document

/-- The rule that a line of the document makes. -/
def rule : Ignore.Rule := ⟨.ofName name [], .ignored, false⟩

/-- The document of that key, read as rules, ignores the file. -/
theorem verdict?_document :
    (Ignore.Rules.ofBytes document.toUTF8).verdict? name false = some .ignored := by
  have hLine : name ∈ Document.lines patterns.expand "m" := by
    -- the file is named like the line that imports the module
    have hName : name = Document.importLine "m" := by decide
    rw [hName, Document.lines]
    simp
  have hRule : Ignore.Rule.ofLine? name.toList = some rule := by cbv
  have hMatches : rule.matchesPath name false = true := by cbv
  exact Document.verdict?_of_line hLine hRule hMatches

/-- The first pass renders that document. -/
theorem rendering_document {scan : Scan} (h : scan.patterns = patterns) :
    (scan.rendering "m").document = document := by
  rw [Scan.rendering, h]
  rfl

/-- The project with the document in it. -/
def written : FileSystem := project.set (Place.ofNames output) (.file document.toUTF8)

/-- What the first pass leaves is a tree. -/
theorem written_isTree : written.IsTree :=
  writable.toOpenable.set project_isTree document.toUTF8

/-- The artifact has the fingerprint of the document then. -/
theorem fingerprint?_written :
    written.fingerprint? (Route.toPath ⟨true, output⟩) = some (Fingerprint.ofText document) :=
  FileSystem.fingerprint?_writeDocument project_isTree.inside
    (FileSystem.writeDocument_of_writable project_isTree writable document)

/-- The document ignores the file. -/
theorem isIgnored_written : Walk.isIgnored written ["r", name] false = true := by
  -- neither of the other kinds of rule files is there
  have hSilent : ∀ file ∈ [[".ignore"], [".gitignore"]],
      Walk.verdictOf? written file ["r", name] false 2 = none := by
    intro file hFile
    have hRuleFile := Walk.mem_ruleFiles hFile
    refine Walk.verdictOf?_eq_none written_isTree (by decide) hRuleFile ?_
    intro directory content hFound
    have hOther : directory ++ file ≠ output := by
      intro hEq
      have hSuffix : file <:+ output := ⟨directory, hEq⟩
      have hNone : ∀ file ∈ [[".ignore"], [".gitignore"]], ¬ file <:+ output := by decide
      exact hNone file hFile hSuffix
    rw [written, FileSystem.at?_set_ne fun hEq => hOther (Place.ofNames_inj.mp hEq)] at hFound
    exact not_ruleFile hRuleFile (Place.ofNames_inj.mp (file_of_at? hFound))
  have hLoad : Ignore.Rules.load written (Route.toPath ⟨true, output⟩) =
      Ignore.Rules.ofBytes document.toUTF8 :=
    Rules.load_of_file written_isTree writable.proper writable.fits
      (FileSystem.at?_set_self (by decide))
  have hJoin : (Route.toPath ⟨true, ["r"]⟩).join ⟨Text.joinAll '/' [".git", "info", "exclude"]⟩ =
      Route.toPath ⟨true, output⟩ := Walk.join_ruleFile (by decide) (by decide)
  -- the third kind of rule file is the artifact, and it speaks below its root
  have hSpoken : Walk.verdictOf? written [".git", "info", "exclude"] ["r", name] false 2 =
      some .ignored := by
    rw [Walk.verdictOf?, show ["r", name].take 1 = ["r"] from rfl, hJoin, hLoad,
      show Text.joinAll '/' (["r", name].drop 1) = name from rfl, verdict?_document]
    rfl
  have hVerdict : Walk.verdict? written ["r", name] false = some .ignored := by
    refine Walk.verdict?_of_file ?_
    rw [Walk.fileVerdict?, Walk.ruleFiles, List.findSome?_cons, List.findSome?_cons,
      List.findSome?_cons]
    rw [show ["r", name].length = 2 from rfl, hSilent _ (by simp), hSilent _ (by simp), hSpoken]
  rw [Walk.isIgnored, hVerdict]
  rfl

/-- A second pass finds no keys, since the file is ignored now. -/
theorem scan_written : (scanner.scan written).patterns = PatternSet.empty := by
  have hFiles : Walk.filesBelow written ["r"] = [[".git", "info", "exclude"], [name]] := rfl
  have hReaches : Walk.reaches scanner.matcher written ["r"] [name] = false := by
    rw [Walk.reaches, show ["r"] ++ [name] = ["r", name] from rfl, isIgnored_written]
    rfl
  have hNone : ∀ p, p ∉ scanner.candidates written := by
    intro p hMem
    rw [Scanner.candidates, Matcher.mem_candidates, root_names, hFiles] at hMem
    obtain ⟨below, hBelow, rfl, hReached, hCandidate⟩ := hMem
    rcases List.mem_cons.mp hBelow with rfl | hBelow
    · -- the artifact is no candidate
      have hNames : ∀ name ∈ ["r"] ++ [".git", "info", "exclude"], IsName name := writable.proper
      exact Scanner.ne_output_of_isCandidate isCanonical hNames hCandidate output_names.symm
    · rw [List.mem_singleton.mp hBelow, hReaches] at hReached
      cases hReached
  refine PatternSet.ext_mem fun pattern => ?_
  rw [Scanner.mem_scan]
  refine iff_of_false ?_ PatternSet.not_mem_empty
  rintro ⟨path, hMem, -⟩
  exact hNone path hMem

end Excluded

end KeyRegistry

import KeyRegistry.Proofs.Glob.Covering
import KeyRegistry.Proofs.Scan.Artifact
import KeyRegistry.Proofs.Scan.Filter

/-!
# What the walk leaves out

The walk does not enter a directory if an exclude glob covers it, which is a shortcut: the files
below it would be excluded one by one. So without ignore files the candidates are what a search
through all files gives: those that the globs choose, but for the ones in directories that are never
entered. The shortcut fails for hollow globs. Such a glob covers every directory, and excludes no
file; with one among the excludes, nothing but the files of the root itself is found.

Main definitions:

* `Matcher.IsSought` — what a search through all files gives

Main statements:

* `Walk.enters_eq_false_iff` — which directories are left out
* `Scanner.candidates_exact` — which files are found
-/

namespace KeyRegistry

open KeyRegistry.Path FileSystem

variable {fs fs₀ fs₁ : FileSystem} {m : Matcher} {config : Config} {resolved : Resolved}
  {s : Scanner} {root below way rest : List String} {globs : List Glob} {glob : Glob}
  {texts : List String} {whole directory : String}

/-! ## Globs of a configuration -/

/-- Reading ends at the first fault, so that success means that every text was read. -/
theorem Matcher.readGlobs_cons_eq_ok {text : String} (h : readGlobs (text :: texts) = .ok globs) :
    ∃ first others, Glob.read false text = .ok first ∧ readGlobs texts = .ok others ∧
      globs = first :: others := by
  rw [readGlobs] at h
  cases hRead : Glob.read false text with
  | error fault =>
    rw [hRead] at h
    cases h
  | ok first =>
    rw [hRead] at h
    cases hOthers : readGlobs texts with
    | error e =>
      rw [hOthers] at h
      cases h
    | ok others =>
      rw [hOthers] at h
      cases h
      exact ⟨first, others, rfl, rfl, rfl⟩

/-- The globs that are read are those of the texts. -/
theorem Matcher.mem_readGlobs (h : readGlobs texts = .ok globs) :
    glob ∈ globs ↔ ∃ text ∈ texts, Glob.read false text = .ok glob := by
  induction texts generalizing globs with
  | nil =>
    cases h
    simp
  | cons text texts ih =>
    obtain ⟨first, others, hRead, hOthers, rfl⟩ := readGlobs_cons_eq_ok h
    rw [List.mem_cons, ih hOthers, List.exists_mem_cons_iff, hRead, Except.ok.injEq, eq_comm]

/-- Each text is read. -/
theorem Matcher.exists_of_readGlobs (h : readGlobs texts = .ok globs) {text : String}
    (hText : text ∈ texts) : ∃ glob, Glob.read false text = .ok glob := by
  induction texts generalizing globs with
  | nil => cases hText
  | cons first texts ih =>
    obtain ⟨glob, others, hRead, hOthers, -⟩ := readGlobs_cons_eq_ok h
    rcases List.mem_cons.mp hText with rfl | hText
    · exact ⟨glob, hRead⟩
    · exact ih hOthers hText

/-- A glob covers a directory if it is the glob of the directory with `/**` behind it. -/
theorem Matcher.directoryGlob?_eq_some : directoryGlob? whole = some directory ↔
    whole.toList = directory.toList ++ Glob.anythingBelow ∧ directory.toList ≠ [] := by
  unfold directoryGlob? Ignore.endsWith
  rw [Option.ite_none_right_eq_some, List.isSuffixOf_iff_suffix]
  constructor
  · rintro ⟨⟨⟨front, hFront⟩, hLength⟩, hDirectory⟩
    cases hDirectory
    rw [← hFront] at hLength ⊢
    -- cutting three characters off takes away exactly the ending
    have hTake :
        (front ++ ['/', '*', '*']).take ((front ++ ['/', '*', '*']).length - 3) = front := by
      simp
    rw [hTake, String.toList_ofList]
    refine ⟨rfl, ?_⟩
    rintro rfl
    simp at hLength
  · rintro ⟨hWhole, hSome⟩
    have hLength := List.length_pos_iff.mpr hSome
    refine ⟨⟨⟨directory.toList, hWhole.symm⟩, ?_⟩, ?_⟩
    · rw [hWhole, Glob.anythingBelow]
      simp
      omega
    · rw [hWhole]
      simp [Glob.anythingBelow]

/-- The excludes of a scanner, and the globs of the directories that they cover. -/
theorem Scanner.new_globs (h : Scanner.new fs resolved = .ok s) :
    Matcher.readGlobs resolved.excludes = .ok s.matcher.excludes ∧
      Matcher.readGlobs (resolved.excludes.filterMap Matcher.directoryGlob?) =
        .ok s.matcher.excludedDirectories ∧
      s.matcher.ignoreFile = resolved.ignoreFile.map (Matcher.loadIgnoreFile fs) := by
  unfold Scanner.new at h
  split at h
  · next matcher hMatcher =>
    cases h
    unfold Matcher.new at hMatcher
    -- three lists are read, and a fault in any of them leaves no scanner
    cases hIncludes : Matcher.readGlobs resolved.includes with
    | error e =>
      rw [hIncludes] at hMatcher
      cases hMatcher
    | ok includes =>
      cases hExcludes : Matcher.readGlobs resolved.excludes with
      | error e =>
        rw [hIncludes, hExcludes] at hMatcher
        cases hMatcher
      | ok excludes =>
        cases hDirectories : Matcher.readGlobs
            (resolved.excludes.filterMap Matcher.directoryGlob?) with
        | error e =>
          rw [hIncludes, hExcludes, hDirectories] at hMatcher
          cases hMatcher
        | ok directories =>
          rw [hIncludes, hExcludes, hDirectories] at hMatcher
          cases hMatcher
          exact ⟨rfl, rfl, rfl⟩
  · cases h

/-! ## Directories that are left out -/

/-- The globs of a matcher are those of the excludes, and it counts paths from the root. -/
structure Matcher.ReadsExcludes (m : Matcher) (excludes root : List String) : Prop where
  sameRoot        : m.root = Route.toPath ⟨true, root⟩
  names           : ∀ name ∈ root, IsName name
  readExcludes    : readGlobs excludes = .ok m.excludes
  readDirectories : readGlobs (excludes.filterMap directoryGlob?) = .ok m.excludedDirectories

namespace Matcher.ReadsExcludes

variable {excludes : List String}

theorem relative? (h : m.ReadsExcludes excludes root) (hWay : ∀ name ∈ way, IsName name) :
    m.relative? (Route.toPath ⟨true, root ++ way⟩) = some (Route.toPath ⟨false, way⟩) := by
  rw [Matcher.relative?, if_pos Route.isAbsolute_toPath_rooted, h.sameRoot,
    Route.relativeTo?_toPath h.names hWay]

/-- The globs of directories match where some exclude covers. -/
theorem covers_iff (h : m.ReadsExcludes excludes root) :
    matchesSome m.excludedDirectories (Route.toPath ⟨false, way⟩) = true ↔
      ∃ exclude ∈ excludes, ∃ directory glob, directoryGlob? exclude = some directory ∧
        Glob.read false directory = .ok glob ∧
          glob.matchesPath (Text.joinAll '/' way) = true := by
  rw [matchesSome, Route.text_toPath_open, List.any_eq_true]
  constructor
  · rintro ⟨glob, hGlob, hMatch⟩
    obtain ⟨directory, hDirectory, hRead⟩ := (mem_readGlobs h.readDirectories).mp hGlob
    obtain ⟨exclude, hExclude, hCovers⟩ := List.mem_filterMap.mp hDirectory
    exact ⟨exclude, hExclude, directory, glob, hCovers, hRead, hMatch⟩
  · rintro ⟨exclude, hExclude, directory, glob, hCovers, hRead, hMatch⟩
    refine ⟨glob, (mem_readGlobs h.readDirectories).mpr ⟨directory, ?_, hRead⟩, hMatch⟩
    exact List.mem_filterMap.mpr ⟨exclude, hExclude, hCovers⟩

/-- What lies below a directory that some exclude covers is excluded, if no exclude is hollow. -/
theorem excludes_below (h : m.ReadsExcludes excludes root)
    (hFull : ∀ exclude ∈ excludes, ¬ Glob.IsHollow exclude) (hSome : way ≠ []) (hMore : rest ≠ [])
    (hCovered : matchesSome m.excludedDirectories (Route.toPath ⟨false, way⟩) = true) :
    matchesSome m.excludes (Route.toPath ⟨false, way ++ rest⟩) = true := by
  obtain ⟨exclude, hExclude, directory, glob, hCovers, hRead, hMatch⟩ := h.covers_iff.mp hCovered
  obtain ⟨covering, hCovering⟩ := exists_of_readGlobs h.readExcludes hExclude
  have hBelow : covering.matchesPath (Text.joinAll '/' (way ++ rest)) = true := by
    rw [Route.joinAll_append hSome hMore]
    exact Glob.matchesPath_covered (directoryGlob?_eq_some.mp hCovers).1 hRead hCovering
      (hFull exclude hExclude) hMatch _
  rw [matchesSome, List.any_eq_true]
  refine ⟨covering, (mem_readGlobs h.readExcludes).mpr ⟨exclude, hExclude, hCovering⟩, ?_⟩
  rwa [Route.text_toPath_open]

/-- A hollow exclude covers every directory. -/
theorem covers_of_hollow (h : m.ReadsExcludes excludes root) {exclude : String}
    (hExclude : exclude ∈ excludes) (hHollow : Glob.IsHollow exclude) (way : List String) :
    matchesSome m.excludedDirectories (Route.toPath ⟨false, way⟩) = true := by
  obtain ⟨count, hCount⟩ := hHollow
  have hWhole : exclude.toList =
      (String.ofList (Glob.climbs (count + 1))).toList ++ Glob.anythingBelow := by
    rw [String.toList_ofList, hCount]
  have hCovers : directoryGlob? exclude = some (String.ofList (Glob.climbs (count + 1))) :=
    directoryGlob?_eq_some.mpr ⟨hWhole, by simp [Glob.climbs, List.replicate_succ, Glob.climb]⟩
  obtain ⟨glob, hRead⟩ :=
    exists_of_readGlobs h.readDirectories (List.mem_filterMap.mpr ⟨exclude, hExclude, hCovers⟩)
  exact h.covers_iff.mpr ⟨exclude, hExclude, _, glob, hCovers, hRead,
    Glob.matchesPath_directory_of_isHollow hWhole ⟨count, hCount⟩ hRead _⟩

/-- Directories are left out that some exclude covers or the configured ignore file ignores. -/
theorem isExcludedDirectory_eq (h : m.ReadsExcludes excludes root)
    (hWay : ∀ name ∈ way, IsName name) (hSome : way ≠ []) :
    m.isExcludedDirectory (Route.toPath ⟨true, root ++ way⟩) =
      (matchesSome m.excludedDirectories (Route.toPath ⟨false, way⟩) ||
        m.ignoredByFile (Route.toPath ⟨true, root ++ way⟩) true) := by
  rw [isExcludedDirectory, h.relative? hWay, Option.any_some,
    Route.text_toPath_open_isEmpty hWay hSome, Bool.not_false, Bool.true_and, h.sameRoot,
    Route.join_toPath h.names hWay hSome]

end Matcher.ReadsExcludes

/-- The settings of a walk without an ignore file of its own: what is excluded, the globs exclude.
-/
structure Matcher.PrunesByGlobs (m : Matcher) (excludes root : List String) : Prop extends
    m.ReadsExcludes excludes root where
  noIgnoreFile : m.ignoreFile = none

/-- The settings of a walk that goes by the globs alone: nothing is ignored. -/
structure Matcher.GoesByGlobs (m : Matcher) (excludes root : List String) : Prop extends
    m.PrunesByGlobs excludes root where
  ignoresNothing : m.respectIgnores = false

namespace Matcher.PrunesByGlobs

variable {excludes : List String}

/-- Without an ignore file, directories are left out by the globs alone. -/
theorem isExcludedDirectory_eq (h : m.PrunesByGlobs excludes root)
    (hWay : ∀ name ∈ way, IsName name) (hSome : way ≠ []) :
    m.isExcludedDirectory (Route.toPath ⟨true, root ++ way⟩) =
      matchesSome m.excludedDirectories (Route.toPath ⟨false, way⟩) := by
  rw [h.toReadsExcludes.isExcludedDirectory_eq hWay hSome, ignoredByFile, h.noIgnoreFile,
    Bool.or_false]

/-- Directories are left out that some exclude covers. -/
theorem isExcludedDirectory_iff (h : m.PrunesByGlobs excludes root)
    (hWay : ∀ name ∈ way, IsName name) (hSome : way ≠ []) :
    m.isExcludedDirectory (Route.toPath ⟨true, root ++ way⟩) = true ↔
      ∃ exclude ∈ excludes, ∃ directory glob, directoryGlob? exclude = some directory ∧
        Glob.read false directory = .ok glob ∧
          glob.matchesPath (Text.joinAll '/' way) = true := by
  rw [h.isExcludedDirectory_eq hWay hSome, h.covers_iff]

/-- What lies below a directory that is left out is excluded, if no exclude is hollow. -/
theorem excluded_below (h : m.PrunesByGlobs excludes root)
    (hFull : ∀ exclude ∈ excludes, ¬ Glob.IsHollow exclude)
    (hNames : ∀ name ∈ way ++ rest, IsName name) (hSome : way ≠ []) (hMore : rest ≠ [])
    (hLeft : m.isExcludedDirectory (Route.toPath ⟨true, root ++ way⟩) = true) :
    m.isCandidate (Route.toPath ⟨true, root ++ (way ++ rest)⟩) = false := by
  have hWay : ∀ name ∈ way, IsName name := fun name hMem =>
    hNames name (List.mem_append_left _ hMem)
  rw [h.isExcludedDirectory_eq hWay hSome] at hLeft
  have hExcluded := h.excludes_below hFull hSome hMore hLeft
  rw [isCandidate, h.relative? hNames, Option.any_some, selects, hExcluded]
  simp

/-- A hollow exclude leaves out every directory. -/
theorem excluded_of_hollow (h : m.PrunesByGlobs excludes root) {exclude : String}
    (hExclude : exclude ∈ excludes) (hHollow : Glob.IsHollow exclude)
    (hWay : ∀ name ∈ way, IsName name) (hSome : way ≠ []) :
    m.isExcludedDirectory (Route.toPath ⟨true, root ++ way⟩) = true := by
  rw [h.isExcludedDirectory_eq hWay hSome]
  exact h.covers_of_hollow hExclude hHollow way

end Matcher.PrunesByGlobs

/-! ## The walk -/

/-- The walk enters a directory unless it has a name that is never entered or some exclude covers
it. -/
theorem Walk.enters_eq_false_iff {excludes : List String} (h : m.GoesByGlobs excludes root)
    (hWay : ∀ name ∈ way, IsName name) (hSome : way ≠ []) :
    Walk.enters m fs (root ++ way) = false ↔
      (∃ name ∈ Walk.neverEntered, way.getLast? = some name) ∨
        ∃ exclude ∈ excludes, ∃ directory glob, Matcher.directoryGlob? exclude = some directory ∧
          Glob.read false directory = .ok glob ∧
            glob.matchesPath (Text.joinAll '/' way) = true := by
  have hLast : (root ++ way).getLast? = way.getLast? := by
    rw [List.getLast?_append_of_ne_nil _ hSome]
  -- ignore files do not count, which leaves two reasons
  rw [← h.isExcludedDirectory_iff hWay hSome, Walk.enters, h.ignoresNothing, hLast, Bool.false_and,
    Bool.not_false, Bool.true_and, Bool.and_eq_false_iff, Bool.not_eq_false', Bool.not_eq_false',
    List.any_eq_true]
  simp only [beq_iff_eq]

/-- The walk comes to a file if it enters all directories on the way and the file is not ignored. -/
theorem Walk.reaches_eq_true_iff : Walk.reaches m fs root below = true ↔
    (∀ front back, front ++ back = below → front ≠ [] → back ≠ [] →
        Walk.enters m fs (root ++ front) = true) ∧
      (m.respectIgnores = true → Walk.isIgnored fs (root ++ below) false = false) := by
  rw [Walk.reaches, Bool.and_eq_true, List.all_eq_true, Bool.not_eq_true', Bool.and_eq_false_imp]
  refine and_congr_left fun _ => ?_
  -- a depth is the number of names in front; it starts at one, since the root is not asked about
  constructor
  · intro hAll front back hBelow hFront hBack
    have hFrontLength := List.length_pos_iff.mpr hFront
    have hBackLength := List.length_pos_iff.mpr hBack
    have hTake : below.take front.length = front := by rw [← hBelow, List.take_left]
    rw [← hTake]
    refine hAll front.length ?_
    rw [List.mem_drop_iff_getElem]
    refine ⟨front.length - 1, ?_, ?_⟩
    · rw [List.length_range, ← hBelow, List.length_append]
      omega
    · rw [List.getElem_range]
      omega
  · intro hAll depth hDepth
    rw [List.mem_drop_iff_getElem] at hDepth
    obtain ⟨index, hIndex, hEq⟩ := hDepth
    rw [List.length_range] at hIndex
    rw [List.getElem_range] at hEq
    refine hAll _ (below.drop depth) (List.take_append_drop depth below) ?_ ?_
    · rw [ne_eq, ← List.length_eq_zero_iff, List.length_take]
      omega
    · rw [ne_eq, List.drop_eq_nil_iff]
      omega

/-- A hollow exclude keeps the walk from everything that lies in a directory. -/
theorem Walk.reaches_of_isHollow {excludes : List String} (h : m.PrunesByGlobs excludes root)
    {exclude : String}
    (hExclude : exclude ∈ excludes) (hHollow : Glob.IsHollow exclude)
    (hNames : ∀ name ∈ below, IsName name) (hDeep : 1 < below.length) :
    Walk.reaches m fs root below = false := by
  have hSome : below ≠ [] := by
    rintro rfl
    simp at hDeep
  obtain ⟨first, others, rfl⟩ := List.exists_cons_of_ne_nil hSome
  have hOthers : others ≠ [] := by
    rintro rfl
    simp at hDeep
  -- a hollow exclude leaves out every directory, hence the first one on the way
  have hExcluded : m.isExcludedDirectory (Route.toPath ⟨true, root ++ [first]⟩) = true :=
    h.excluded_of_hollow hExclude hHollow
      (fun name hMem => hNames name (by rw [List.mem_singleton.mp hMem]; exact List.mem_cons_self))
      (by simp)
  rw [← Bool.not_eq_true]
  intro hReaches
  have hEnters := (Walk.reaches_eq_true_iff.mp hReaches).1 [first] others rfl (by simp) hOthers
  rw [Walk.enters, hExcluded, Bool.not_true, Bool.and_false] at hEnters
  cases hEnters

/-- Without ignore files the walk comes to a file if it enters all directories on the way. -/
theorem Walk.reaches_iff {excludes : List String} (h : m.GoesByGlobs excludes root) :
    Walk.reaches m fs root below = true ↔
      ∀ front back, front ++ back = below → front ≠ [] → back ≠ [] →
        Walk.enters m fs (root ++ front) = true := by
  rw [Walk.reaches_eq_true_iff, h.ignoresNothing]
  exact and_iff_left fun hRespect => by cases hRespect

/-- No directory on the way to a file that the walk comes to is one that is never entered. -/
theorem Walk.onWay_of_reaches {excludes : List String} (h : m.GoesByGlobs excludes root)
    (hNames : ∀ name ∈ below, IsName name) (hReaches : Walk.reaches m fs root below = true) :
    ∀ name ∈ below.dropLast, name ∉ Walk.neverEntered := by
  intro name hMem hNever
  -- the directory with the name stands on the way, and at least the file stands behind it
  obtain ⟨above, farther, hWay⟩ := List.append_of_mem hMem
  have hSome : below ≠ [] := by
    rintro rfl
    cases hMem
  have hBelow : (above ++ [name]) ++ (farther ++ [below.getLast hSome]) = below := by
    conv_rhs => rw [← List.dropLast_append_getLast hSome, hWay]
    simp
  have hEnters := (Walk.reaches_iff h).mp hReaches _ _ hBelow (by simp) (by simp)
  have hWayNames : ∀ other ∈ above ++ [name], IsName other := fun other hOther =>
    hNames other (by rw [← hBelow]; exact List.mem_append_left _ hOther)
  have hLeft : Walk.enters m fs (root ++ (above ++ [name])) = false :=
    (Walk.enters_eq_false_iff h hWayNames (by simp)).mpr
      (Or.inl ⟨name, hNever, List.getLast?_concat⟩)
  rw [hEnters] at hLeft
  cases hLeft

/-- A file that a search through all files gives: no directory on the way to it is one that is never
entered, and the globs choose it. -/
structure Matcher.IsSought (m : Matcher) (fs : FileSystem) (root below : List String) : Prop where
  isBelow : below ≠ []
  isFile  : ∃ content, fs.at? (Place.ofNames (root ++ below)) = some (.file content)
  onWay   : ∀ name ∈ below.dropLast, name ∉ Walk.neverEntered
  chosen  : m.isCandidate (Route.toPath ⟨true, root ++ below⟩) = true

/-- If no exclude is hollow, the directories on the way to a file that is sought are entered. -/
theorem Matcher.IsSought.enters {excludes front back : List String}
    (hSought : m.IsSought fs root (front ++ back)) (h : m.GoesByGlobs excludes root)
    (hFull : ∀ exclude ∈ excludes, ¬ Glob.IsHollow exclude)
    (hNames : ∀ name ∈ front ++ back, IsName name) (hFront : front ≠ []) (hBack : back ≠ []) :
    Walk.enters m fs (root ++ front) = true := by
  have hFrontNames := (List.forall_mem_append.mp hNames).1
  rw [← Bool.not_eq_false]
  intro hLeft
  have hCases := (Walk.enters_eq_false_iff h hFrontNames hFront).mp hLeft
  rw [← h.isExcludedDirectory_iff hFrontNames hFront] at hCases
  rcases hCases with ⟨name, hNever, hLast⟩ | hExcluded
  · refine hSought.onWay name ?_ hNever
    rw [List.dropLast_append_of_ne_nil hBack]
    exact List.mem_append_left _ (List.mem_of_getLast? hLast)
  · -- a file below a directory that is covered is excluded itself
    have hNotChosen := h.excluded_below hFull hNames hFront hBack hExcluded
    rw [hSought.chosen] at hNotChosen
    cases hNotChosen

/-- The walk comes to a file that is sought, unless the file lies in a directory and an exclude is
hollow. -/
theorem Walk.reaches_iff_of_isSought {excludes : List String} (h : m.GoesByGlobs excludes root)
    (hNames : ∀ name ∈ below, IsName name) (hSought : m.IsSought fs root below) :
    Walk.reaches m fs root below = true ↔
      (below.length = 1 ∨ ∀ exclude ∈ excludes, ¬ Glob.IsHollow exclude) := by
  constructor
  · intro hReaches
    by_cases hHollow : ∃ exclude ∈ excludes, Glob.IsHollow exclude
    · -- then every directory is left out, so there is none on the way
      obtain ⟨exclude, hExclude, hHollow⟩ := hHollow
      left
      have hLength := List.length_pos_iff.mpr hSought.isBelow
      by_contra hDeep
      rw [Walk.reaches_of_isHollow h.toPrunesByGlobs hExclude hHollow hNames (by omega)] at hReaches
      cases hReaches
    · exact Or.inr fun exclude hExclude hIs => hHollow ⟨exclude, hExclude, hIs⟩
  · rw [Walk.reaches_iff h]
    rintro hFull front back rfl hFront hBack
    rcases hFull with hAlone | hFull
    · -- a file in the root has no directory on its way
      have hFrontLength := List.length_pos_iff.mpr hFront
      have hBackLength := List.length_pos_iff.mpr hBack
      rw [List.length_append] at hAlone
      omega
    · exact hSought.enters h hFull hNames hFront hBack

/-! ## What is found -/

/-- The names of the candidates are those of the files that the walk comes to and the globs choose.
-/
theorem Matcher.mem_chosen {chosen : List (List String)} (hFiles : fs.HasNames)
    (hRoot : m.root = Route.toPath ⟨true, root⟩) (hNames : ∀ name ∈ root, IsName name)
    (hListed : ∀ below ∈ chosen, below ∈ Walk.filesBelow fs m.root.names)
    (hCandidates : m.candidates fs =
      chosen.map fun below => Route.toPath ⟨true, m.root.names ++ below⟩) :
    below ∈ chosen ↔ below ∈ Walk.filesBelow fs root ∧ Walk.reaches m fs root below = true ∧
      m.isCandidate (Route.toPath ⟨true, root ++ below⟩) = true := by
  rw [hRoot, Route.names_toPath hNames] at hListed hCandidates
  constructor
  · intro hMem
    have hWay := Walk.names_of_mem_filesBelow hFiles (hListed below hMem)
    rw [← Matcher.toPath_mem_candidates hFiles hRoot hWay, hCandidates]
    exact List.mem_map_of_mem hMem
  · intro hChosen
    have hWay := Walk.names_of_mem_filesBelow hFiles hChosen.1
    rw [← Matcher.toPath_mem_candidates hFiles hRoot hWay, hCandidates] at hChosen
    obtain ⟨other, hOther, hEq⟩ := List.mem_map.mp hChosen
    obtain rfl : other = below := List.append_cancel_left
      (Route.toPath_inj (Walk.names_of_mem_filesBelow hFiles (hListed other hOther)) hWay hEq)
    exact hOther

/-- What the walk lists and comes to and the globs choose are the files that are sought, or those of
the root itself if an exclude is hollow. -/
theorem Matcher.reached_iff_isSought {excludes : List String} (h : m.GoesByGlobs excludes root)
    (hFiles : fs.HasNames) (hOnce : fs.ListsOnce) :
    (below ∈ Walk.filesBelow fs root ∧ Walk.reaches m fs root below = true ∧
        m.isCandidate (Route.toPath ⟨true, root ++ below⟩) = true) ↔
      m.IsSought fs root below ∧
        (below.length = 1 ∨ ∀ exclude ∈ excludes, ¬ Glob.IsHollow exclude) := by
  have hTable : below ∈ Walk.filesBelow fs root ↔ below ≠ [] ∧
      ∃ content, fs.at? (Place.ofNames (root ++ below)) = some (.file content) :=
    Walk.mem_filesBelow_iff_of_listed fun item hItem hTop => hOnce.at? hItem hTop
  constructor
  · rintro ⟨hBelow, hReaches, hCandidate⟩
    obtain ⟨-, hNames⟩ := List.forall_mem_append.mp (Walk.names_of_mem_filesBelow hFiles hBelow)
    obtain ⟨hSome, hFile⟩ := hTable.mp hBelow
    have hSought : m.IsSought fs root below :=
      ⟨hSome, hFile, Walk.onWay_of_reaches h hNames hReaches, hCandidate⟩
    exact ⟨hSought, (Walk.reaches_iff_of_isSought h hNames hSought).mp hReaches⟩
  · rintro ⟨hSought, hFull⟩
    have hBelow := hTable.mpr ⟨hSought.isBelow, hSought.isFile⟩
    obtain ⟨-, hNames⟩ := List.forall_mem_append.mp (Walk.names_of_mem_filesBelow hFiles hBelow)
    exact ⟨hBelow, (Walk.reaches_iff_of_isSought h hNames hSought).mpr hFull, hSought.chosen⟩

/-- The scanner of a configuration has its excludes. -/
theorem Scanner.readsExcludes (hStart : fs₀.HasNames)
    (hResolved : config.resolve fs₀ = .ok resolved)
    (hScanner : Scanner.new fs₁ resolved = .ok s) :
    s.matcher.ReadsExcludes resolved.excludes resolved.root.names := by
  obtain ⟨-, hRoot, -⟩ := Scanner.new_frame hScanner
  obtain ⟨hExcludes, hDirectories, -⟩ := Scanner.new_globs hScanner
  have hCanonical := (Config.resolve_isCanonical hStart hResolved).1
  exact {
    sameRoot := by rw [hRoot, hCanonical.toPath_names]
    names := hCanonical.names
    readExcludes := hExcludes
    readDirectories := hDirectories }

/-- The scanner of a configuration without an ignore file of its own goes by the globs for what is
excluded. -/
theorem Scanner.prunesByGlobs (hStart : fs₀.HasNames)
    (hResolved : config.resolve fs₀ = .ok resolved)
    (hScanner : Scanner.new fs₁ resolved = .ok s) (hIgnoreFile : resolved.ignoreFile = none) :
    s.matcher.PrunesByGlobs resolved.excludes resolved.root.names where
  toReadsExcludes := Scanner.readsExcludes hStart hResolved hScanner
  noIgnoreFile := by
    obtain ⟨-, -, hFile⟩ := Scanner.new_globs hScanner
    rw [hFile, hIgnoreFile]
    rfl

/-- The scanner of a configuration without ignore files goes by the globs. -/
theorem Scanner.goesByGlobs (hStart : fs₀.HasNames) (hResolved : config.resolve fs₀ = .ok resolved)
    (hScanner : Scanner.new fs₁ resolved = .ok s) (hRespect : resolved.respectIgnores = false)
    (hIgnoreFile : resolved.ignoreFile = none) :
    s.matcher.GoesByGlobs resolved.excludes resolved.root.names where
  toPrunesByGlobs := Scanner.prunesByGlobs hStart hResolved hScanner hIgnoreFile
  ignoresNothing := by
    obtain ⟨-, -, -, hSame⟩ := Scanner.new_frame hScanner
    rw [hSame, hRespect]

/-! ## A project with a hollow exclude -/

namespace Hollow

/-- The scanner of a project with a file in a directory, where an exclude is hollow. -/
def scanner : Scanner where
  config := Hidden.resolvedWith ["**//**"] false
  matcher := { Hidden.scanner.matcher with
    excludes := ⟨[.anyAbove, .anyBelow]⟩ :: Matcher.standardGlobs
    excludedDirectories := [⟨[.anyAbove]⟩, .ofName "node_modules" []]
    respectIgnores := false }

theorem new_scanner :
    Scanner.new Hidden.project (Hidden.resolvedWith ["**//**"] false) = .ok scanner := by
  -- only the exclude at hand is read here; what the standard ones read as is known
  have hIncludes : Matcher.readGlobs Hidden.resolved.includes =
      .ok Hidden.scanner.matcher.includes := by cbv
  have hTexts : (Hidden.resolvedWith ["**//**"] false).excludes = "**//**" :: standardExcludes :=
    rfl
  have hWhole : Glob.read false "**//**" = .ok ⟨[.anyAbove, .anyBelow]⟩ := by cbv
  have hDirectory : Glob.read false "**/" = .ok ⟨[.anyAbove]⟩ := by cbv
  have hExcludes : Matcher.readGlobs ("**//**" :: standardExcludes) =
      .ok scanner.matcher.excludes := by
    rw [Matcher.readGlobs, hWhole, Matcher.readGlobs_standard]
    rfl
  have hDirectories : Matcher.readGlobs
      (("**//**" :: standardExcludes).filterMap Matcher.directoryGlob?) =
        .ok scanner.matcher.excludedDirectories := by
    have hCovers : Matcher.directoryGlob? "**//**" = some "**/" := by cbv
    rw [List.filterMap_cons, hCovers]
    simp only
    rw [Matcher.readGlobs, hDirectory, Matcher.readGlobs_standardDirectories]
    rfl
  unfold Scanner.new Matcher.new
  rw [hTexts, hExcludes, hDirectories, show (Hidden.resolvedWith ["**//**"] false).includes =
    Hidden.resolved.includes from rfl, hIncludes]
  rfl

end Hollow

/-- **Leaving out directories.** Without ignore files, the candidates are in the order of their
names and each is listed once. They are the files that a search through all files gives; but if an
exclude is hollow, then only those of the root itself, although a hollow exclude matches no path. No
directory is left out but those with a name that is never entered and those that an exclude covers.
-/
theorem Scanner.candidates_exact (hStart : fs₀.HasNames) (hFiles : fs.HasNames)
    (hOnce : fs.ListsOnce) (hResolved : config.resolve fs₀ = .ok resolved)
    (hScanner : Scanner.new fs₁ resolved = .ok s) (hRespect : resolved.respectIgnores = false)
    (hIgnoreFile : resolved.ignoreFile = none) :
    (∃ chosen : List (List String), chosen.Pairwise (· < ·) ∧
      s.candidates fs =
        chosen.map (fun below => Route.toPath ⟨true, resolved.root.names ++ below⟩) ∧
      ∀ below, below ∈ chosen ↔ s.matcher.IsSought fs resolved.root.names below ∧
        (below.length = 1 ∨ ∀ exclude ∈ resolved.excludes, ¬ Glob.IsHollow exclude)) ∧
    (∀ exclude ∈ resolved.excludes, Glob.IsHollow exclude →
      ∀ glob, Glob.read false exclude = .ok glob → ∀ way, (∀ name ∈ way, IsName name) →
        glob.matchesPath (Text.joinAll '/' way) = false) ∧
    ∀ way, way ≠ [] → (∀ name ∈ way, IsName name) →
      (Walk.enters s.matcher fs (resolved.root.names ++ way) = false ↔
        (∃ name ∈ Walk.neverEntered, way.getLast? = some name) ∨
          ∃ exclude ∈ resolved.excludes, ∃ directory glob,
            Matcher.directoryGlob? exclude = some directory ∧
              Glob.read false directory = .ok glob ∧
                glob.matchesPath (Text.joinAll '/' way) = true) := by
  have hGlobs := Scanner.goesByGlobs hStart hResolved hScanner hRespect hIgnoreFile
  refine ⟨?_, fun exclude _ hHollow glob hRead way hWay => ?_,
    fun way hSome hWay => Walk.enters_eq_false_iff hGlobs hWay hSome⟩
  · -- the candidates are listed by their names
    have hRoot : s.matcher.root.names = resolved.root.names := by
      rw [hGlobs.sameRoot, Route.names_toPath hGlobs.names]
    obtain ⟨chosen, hAscending, hListed, hCandidates⟩ := s.matcher.candidates_ascending hOnce
    refine ⟨chosen, hAscending, by rw [← hRoot]; exact hCandidates, fun below => ?_⟩
    rw [Matcher.mem_chosen hFiles hGlobs.sameRoot hGlobs.names hListed hCandidates]
    exact Matcher.reached_iff_isSought hGlobs hFiles hOnce
  · -- a hollow exclude wants an empty name
    exact Glob.matchesPath_eq_false_of_isHollow hHollow hRead fun name hMem =>
      ⟨fun hEmpty => (hWay name hMem).notIdle (Or.inl hEmpty), (hWay name hMem).noSlash⟩

/-- With a hollow exclude a file in a directory is not found, though the globs choose it. -/
theorem Scanner.candidates_exact_of_hollow :
    Hollow.scanner.matcher.isCandidate (Route.toPath ⟨true, Hidden.way⟩) = true ∧
      Route.toPath ⟨true, Hidden.way⟩ ∉ Hollow.scanner.candidates Hidden.project := by
  refine ⟨by decide +kernel, ?_⟩
  obtain ⟨⟨chosen, -, hCandidates, hChosen⟩, -⟩ := Scanner.candidates_exact
    Hidden.project_isTree.names Hidden.project_isTree.names (by decide)
    (Hidden.resolve_configWith ["**//**"] false) Hollow.new_scanner rfl rfl
  rw [hCandidates, List.mem_map]
  -- a candidate so deep would have to come from a configuration without hollow excludes
  rintro ⟨below, hMem, hPath⟩
  obtain ⟨hSought, hFull⟩ := (hChosen below).mp hMem
  have hRoot : (Hidden.resolvedWith ["**//**"] false).root.names = ["r"] := Hidden.root_names
  rw [hRoot] at hPath hSought
  have hFile : below ∈ Walk.filesBelow Hidden.project ["r"] :=
    (Walk.mem_filesBelow_iff Hidden.project_isTree).mpr ⟨hSought.isBelow, hSought.isFile⟩
  have hBelow : ["r"] ++ below = ["r"] ++ [".storybook", "preview.ts"] :=
    Route.toPath_inj (Walk.names_of_mem_filesBelow Hidden.project_isTree.names hFile) (by decide)
      hPath
  rcases hFull with hLength | hFull
  · rw [List.append_cancel_left hBelow] at hLength
    cases hLength
  · exact hFull "**//**" List.mem_cons_self ⟨0, by decide⟩

end KeyRegistry

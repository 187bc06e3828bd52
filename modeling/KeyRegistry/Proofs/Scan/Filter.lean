import KeyRegistry.Proofs.Scan.Candidates

/-!
# Where the walk and the filter part

The filter of events is meant to let every file pass that a scan reads. It does so but in three
cases, which are made out here exactly. The walk lets a hidden entry pass if a rule allows it, or if
its name ends in a dot, and the filter does not. The filter counts a rule that ignores the empty
path, and the walk never asks about that. And where a directory's `.gitignore` ignores an entry that
the `.ignore` of a directory above allows, the walk goes by the `.ignore` and the filter by the
nearer directory.

Main definitions:

* `Walk.Pardons` — the walk lets a hidden entry pass
* `Walk.Overrules` — the walk does not go by the rule that settles a path for the filter

Main statements:

* `Scanner.deaf_iff` — for which candidates the filter takes no events
-/

namespace KeyRegistry

open KeyRegistry.Path Ignore

variable {fs : FileSystem} {m : Matcher} {names root below : List String} {top depth item : Nat}
  {p : Path}

/-! ## Where they part -/

/-- The walk lets a hidden entry on the way to a file pass: a rule allows it, or its name ends in
a dot. -/
def Walk.Pardons (fs : FileSystem) (names : List String) (top : Nat) : Prop :=
  ∃ index name, top ≤ index ∧ names[index]? = some name ∧ name.toList.head? = some '.' ∧
    (Walk.verdict? fs (names.take (index + 1)) (index + 1 < names.length) = some .allowed ∨
      name.toList.getLast? = some '.')

/-- The path is settled for the filter by a rule that ignores an entry, and the walk does not go by
it: the entry is the empty path, or an `.ignore` farther up allows it and no nearer `.ignore` says
anything. -/
def Walk.Overrules (fs : FileSystem) (names : List String) (top : Nat) : Prop :=
  ∃ depth item, Matcher.Decides fs names top depth item .ignored ∧
    (item = depth ∨ Walk.opinion? fs [".ignore"] names depth item = none ∧
      ∃ above, above < depth ∧ Walk.opinion? fs [".ignore"] names above item = some .allowed ∧
        ∀ between, above < between → between < depth →
          Walk.opinion? fs [".ignore"] names between item = none)

/-- The first verdict of the walk, by the `.ignore` files and then by the `.gitignore` files. -/
theorem Walk.verdict?_of_nearest (hNames : ∀ name ∈ names, IsName name)
    (hItem : item ≤ names.length) {verdict : Verdict} {file : List String} {above : Nat}
    (hFile : file = [".ignore"] ∨ file = [".gitignore"] ∧
      ∀ other, other < item → Walk.opinion? fs [".ignore"] names other item = none)
    (hAbove : above < item) (hSays : Walk.opinion? fs file names above item = some verdict)
    (hNearer : ∀ other, above < other → other < item →
      Walk.opinion? fs file names other item = none) :
    Walk.verdict? fs (names.take item) (item < names.length) = some verdict := by
  have hFound : (List.range item).reverse.findSome?
      (fun above => Walk.opinion? fs file names above item) = some verdict :=
    (findSome?_reverse_range _).mpr ⟨above, hAbove, hSays, hNearer⟩
  refine Walk.verdict?_of_file ?_
  rw [Walk.fileVerdict?_eq hNames hItem, Walk.ruleFiles, List.findSome?_cons]
  -- the `.ignore` files are asked first; if none of them says anything, the `.gitignore` files are
  rcases hFile with rfl | ⟨rfl, hNone⟩
  · rw [hFound]
  · rw [(findSome?_reverse_range_eq_none _).mpr hNone, List.findSome?_cons, hFound]

/-- No directory between the one that settles a path and the entry says anything about it. -/
theorem Matcher.Decides.silent {verdict : Verdict} {other : Nat}
    (h : Matcher.Decides fs names top depth item verdict) (hOther : depth < other)
    (hInside : other < item) : Walk.opinion? fs [".ignore"] names other item = none ∧
      Walk.opinion? fs [".gitignore"] names other item = none := by
  obtain ⟨-, hEnd⟩ := h.onTheWay
  exact Matcher.opinion?_eq_none_iff.mp
    (h.below other item hOther (by omega) (Nat.le_of_lt hInside) hEnd)

/-- Let the `.gitignore` of a directory ignore an entry, and let nothing between the two say
anything. If the walk does not ignore the entry, then an `.ignore` farther up has kept it from
hearing the `.gitignore`. -/
theorem Walk.exists_allowed_above (hNames : ∀ name ∈ names, IsName name)
    (hEnd : item ≤ names.length) (hBelow : depth < item)
    (hNotIgnored : Walk.verdict? fs (names.take item) (item < names.length) ≠ some .ignored)
    (hOwn : Walk.opinion? fs [".ignore"] names depth item = none)
    (hGit : Walk.opinion? fs [".gitignore"] names depth item = some .ignored)
    (hSilent : ∀ other, depth < other → other < item →
      Walk.opinion? fs [".ignore"] names other item = none ∧
        Walk.opinion? fs [".gitignore"] names other item = none) :
    ∃ above, above < depth ∧ Walk.opinion? fs [".ignore"] names above item = some .allowed ∧
      ∀ between, above < between → between < depth →
        Walk.opinion? fs [".ignore"] names between item = none := by
  cases hFound : (List.range item).reverse.findSome?
      (fun above => Walk.opinion? fs [".ignore"] names above item) with
  | none =>
    have hNone := (findSome?_reverse_range_eq_none _).mp hFound
    refine absurd (Walk.verdict?_of_nearest hNames hEnd (Or.inr ⟨rfl, hNone⟩) hBelow hGit ?_)
      hNotIgnored
    exact fun other hOther hInside => (hSilent other hOther hInside).2
  | some verdict =>
    obtain ⟨above, hAbove, hVerdict, hNearer⟩ := (findSome?_reverse_range _).mp hFound
    have hFarther : above < depth := by
      rcases Nat.lt_trichotomy above depth with hLess | rfl | hMore
      · exact hLess
      · rw [hOwn] at hVerdict
        cases hVerdict
      · rw [(hSilent above hMore hAbove).1] at hVerdict
        cases hVerdict
    refine ⟨above, hFarther, ?_, fun between hBetween hDeep => hNearer between hBetween (by omega)⟩
    -- an `.ignore` that ignored the entry would have been heard
    cases verdict with
    | allowed => exact hVerdict
    | ignored =>
      exact absurd (Walk.verdict?_of_nearest hNames hEnd (Or.inl rfl) hAbove hVerdict hNearer)
        hNotIgnored

/-- If the walk comes to a file, then a rule that settles it as ignored for the filter is one that
the walk does not go by. -/
theorem Walk.overrules_of_decides (hNames : ∀ name ∈ root ++ below, IsName name)
    (hReaches : Walk.reaches m fs root below = true) (hRespect : m.respectIgnores = true)
    (hDecides : Matcher.Decides fs (root ++ below) root.length depth item .ignored) :
    Walk.Overrules fs (root ++ below) root.length := by
  refine ⟨depth, item, hDecides, ?_⟩
  by_cases hEmpty : item = depth
  · exact Or.inl hEmpty
  obtain ⟨hItem, hEnd⟩ := hDecides.onTheWay
  have hTop := hDecides.inside.1
  have hBelow : depth < item := by omega
  have hNotIgnored : Walk.verdict? fs ((root ++ below).take item)
      (item < (root ++ below).length) ≠ some .ignored := by
    intro hIgnored
    have hKept := Walk.isIgnored_of_reaches hReaches hRespect (by omega) hEnd
    rw [Walk.isIgnored, hIgnored] at hKept
    cases hKept
  have hSilent : ∀ other, depth < other → other < item →
      Walk.opinion? fs [".ignore"] (root ++ below) other item = none ∧
        Walk.opinion? fs [".gitignore"] (root ++ below) other item = none :=
    fun other => hDecides.silent
  rcases Matcher.opinion?_eq_some_iff.mp hDecides.opinion with hOwn | ⟨hOwn, hGit⟩
  · -- the directory's own `.ignore` would have been heard by the walk
    refine absurd (Walk.verdict?_of_nearest hNames hEnd (Or.inl rfl) hBelow hOwn ?_) hNotIgnored
    exact fun other hOther hInside => (hSilent other hOther hInside).1
  · exact Or.inr ⟨hOwn,
      Walk.exists_allowed_above hNames hEnd hBelow hNotIgnored hOwn hGit hSilent⟩

/-- If the walk comes to a file, then it lets the hidden entries on the way pass. -/
theorem Walk.pardons_of_hidden (hReaches : Walk.reaches m fs root below = true)
    (hRespect : m.respectIgnores = true) {name : String} (hName : name ∈ below)
    (hHidden : name.toList.head? = some '.') : Walk.Pardons fs (root ++ below) root.length := by
  obtain ⟨index, hIndex, hEq⟩ := List.getElem_of_mem hName
  have hAt : (root ++ below)[root.length + index]? = some name := by
    rw [List.getElem?_append_right (by omega), Nat.add_sub_cancel_left,
      List.getElem?_eq_getElem hIndex, hEq]
  have hInside : root.length + index + 1 ≤ (root ++ below).length := by
    rw [List.length_append]
    omega
  refine ⟨root.length + index, name, by omega, hAt, hHidden, ?_⟩
  have hKept := Walk.isIgnored_of_reaches hReaches hRespect (by omega) hInside
  have hLast : ((root ++ below).take (root.length + index + 1)).getLast? = some name := by
    rw [List.take_add_one, hAt]
    exact List.getLast?_concat
  rw [Walk.isIgnored] at hKept
  -- a hidden entry that no rule speaks about is let pass if its name ends in a dot
  cases hVerdict : Walk.verdict? fs ((root ++ below).take (root.length + index + 1))
      (root.length + index + 1 < (root ++ below).length) with
  | some verdict =>
    rw [hVerdict] at hKept
    cases verdict with
    | allowed => exact Or.inl rfl
    | ignored => cases hKept
  | none =>
    rw [hVerdict, hLast] at hKept
    refine Or.inr ?_
    simpa [Walk.isHidden, hHidden] using hKept

/-! ## A hidden directory that a rule allows -/

namespace Hidden

/-- A project whose rules allow a hidden directory. -/
def project : FileSystem where
  entries := [
    ([.text "r"], .directory),
    ([.text "r", .text ".gitignore"], .file "!.storybook".toUTF8),
    ([.text "r", .text ".storybook"], .directory),
    ([.text "r", .text ".storybook", .text "preview.ts"], .file "qk('a')".toUTF8)]

/-- A configuration of the project. -/
def config : Config where
  scan := { root := ⟨"/r"⟩, includes := ["**/*.ts"], output := ⟨"out.d.ts"⟩, moduleName := "m" }

/-- What the configuration is resolved to. -/
def resolved : Resolved where
  root := ⟨"/r"⟩
  includes := ["**/*.ts"]
  excludes := ["**/node_modules/**", "**/vite.config.*"]
  markers := ["qk"]
  output := ⟨"/r/out.d.ts"⟩
  moduleName := "m"
  ignoreFile := none
  respectIgnores := true
  verbose := false
  watch := {}

/-- The scanner of the project. -/
def scanner : Scanner where
  config := resolved
  matcher := {
    root := ⟨"/r"⟩
    output := ⟨"/r/out.d.ts"⟩
    includes := [⟨[.anyAbove, .star, .literal '.', .literal 't', .literal 's']⟩]
    excludes := Matcher.standardGlobs
    excludedDirectories := [.ofName "node_modules" []]
    ignoreFile := none
    respectIgnores := true }

theorem project_isTree : project.IsTree :=
  FileSystem.isTree_sound (by decide)

theorem root_names : resolved.root.names = ["r"] := by
  show (Route.toPath ⟨true, ["r"]⟩).names = ["r"]
  exact Route.names_toPath (by decide)

theorem isBlankText_moduleName : Text.isBlankText "m" = false := by
  decide

/-- The configuration with other excludes, and with ignore files that count or do not. -/
def configWith (excludes : List String) (respectIgnores : Bool) : Config :=
  { config with scan := { config.scan with excludes, respectIgnores } }

/-- What that is resolved to. -/
def resolvedWith (excludes : List String) (respectIgnores : Bool) : Resolved :=
  { resolved with excludes := appendMissing excludes standardExcludes, respectIgnores }

/-- The configuration is resolved to what it is said to be. -/
theorem resolve_configWith (excludes : List String) (respectIgnores : Bool) :
    (configWith excludes respectIgnores).resolve project =
      .ok (resolvedWith excludes respectIgnores) := by
  have hRoot : (configWith excludes respectIgnores).scan.canonicalRoot project =
      .ok (Route.toPath ⟨true, ["r"]⟩) :=
    ScanConfig.canonicalRoot_of_directory project_isTree (by decide) (by decide) rfl rfl
  have hMarkers :
      markerNames [] (defaultMarker :: (configWith excludes respectIgnores).scan.markers) =
      .ok ["qk"] := markerNames_default
  have hOutputPath :
      absolutize (Route.toPath ⟨true, ["r"]⟩) ⟨"out.d.ts"⟩ = ⟨true, ["r", "out.d.ts"]⟩ :=
    Route.absolutize_name (by decide) (by decide)
  have hOutput : project.isDirectory
      (absolutize (Route.toPath ⟨true, ["r"]⟩) ⟨"out.d.ts"⟩).toPath = false := by
    rw [hOutputPath]
    exact FileSystem.isDirectory_of_none project_isTree (by decide) rfl
  rw [Config.resolve_of hRoot rfl isBlankText_moduleName hMarkers hOutput]
  show Except.ok { resolvedWith excludes respectIgnores with
    output := (absolutize (Route.toPath ⟨true, ["r"]⟩) ⟨"out.d.ts"⟩).toPath } = _
  rw [hOutputPath]
  rfl

theorem resolve_config : config.resolve project = .ok resolved :=
  resolve_configWith [] true

/-- The scanner of the configuration is the one above. -/
theorem new_scanner : Scanner.new project resolved = .ok scanner := by
  have hIncludes : Matcher.readGlobs resolved.includes = .ok scanner.matcher.includes := by cbv
  exact Scanner.new_of_standard hIncludes rfl rfl

/-- A scanner for which ignore files do not count. -/
def plainScanner : Scanner where
  config := resolvedWith [] false
  matcher := { scanner.matcher with respectIgnores := false }

/-- The scanner for which ignore files do not count is the one above. -/
theorem new_plainScanner :
    Scanner.new project (resolvedWith [] false) = .ok plainScanner := by
  have hIncludes : Matcher.readGlobs resolved.includes =
      .ok scanner.matcher.includes := by cbv
  have hExcludes : (resolvedWith [] false).excludes = standardExcludes := by decide +kernel
  exact Scanner.new_of_standard hIncludes hExcludes rfl

/-- The names on the way to the file of the project. -/
def way : List String := ["r", ".storybook", "preview.ts"]

/-- The rule of the project. -/
def rule : Rule := ⟨.ofName ".storybook" [], .allowed, false⟩

/-- The only rule allows the hidden directory. -/
theorem load_rule : Rules.load project (Route.toPath ⟨true, ["r", ".gitignore"]⟩) = [rule] := by
  rw [Rules.load_of_file project_isTree (by decide) (by decide) rfl]
  cbv

/-- There are no other rules. -/
theorem load_eq_nil (hNames : ∀ name ∈ names, IsName name) (hRule : names ≠ ["r", ".gitignore"])
    (hFile : names ≠ way) : Rules.load project (Route.toPath ⟨true, names⟩) = [] := by
  refine Rules.load_of_none project_isTree hNames ?_
  intro content hContent
  have hTop : Place.ofNames names ≠ [] := FileSystem.ne_top_of_at? (by rw [hContent]; simp)
  rw [FileSystem.at?, if_neg hTop] at hContent
  have hMem := FileSystem.mem_of_lookup hContent
  simp only [project, List.mem_cons, Prod.mk.injEq, reduceCtorEq, and_false, false_or,
    List.not_mem_nil, or_false] at hMem
  -- the table lists two files: the rules and the file that is scanned
  rcases hMem with ⟨hPlace, -⟩ | ⟨hPlace, -⟩
  · exact hRule (Place.ofNames_inj.mp hPlace)
  · exact hFile (Place.ofNames_inj.mp hPlace)

/-- The rule files of a directory other than the root have no opinions. -/
theorem opinion?_eq_none {file : List String} (hFile : file ∈ Walk.ruleFiles) (depth item : Nat)
    (hRule : way.take depth ++ file ≠ ["r", ".gitignore"]) :
    Walk.opinion? project file way depth item = none := by
  have hWay : ∀ name ∈ way, IsName name := by decide
  have hNames : ∀ name ∈ way.take depth ++ file, IsName name :=
    List.forall_mem_append.mpr
      ⟨fun name hMem => hWay name (List.mem_of_mem_take hMem), Walk.isName_of_mem_ruleFiles hFile⟩
  have hOther : way.take depth ++ file ≠ way := by
    intro hEq
    have hSuffix : file <:+ way := ⟨_, hEq⟩
    have hNone : ∀ file ∈ Walk.ruleFiles, ¬ file <:+ way := by decide
    exact hNone file hFile hSuffix
  rw [Walk.opinion?, load_eq_nil hNames hRule hOther]
  rfl

/-- The directory is allowed. -/
theorem verdict?_directory :
    Walk.verdict? project (way.take 2) (2 < way.length) = some .allowed := by
  refine Walk.verdict?_of_nearest (by decide) (by decide) (Or.inr ⟨rfl, ?_⟩)
    (by decide : 1 < 2) ?_ ?_
  · intro depth _
    refine opinion?_eq_none (by decide) depth 2 ?_
    intro hEq
    have hSuffix : [".ignore"] <:+ ["r", ".gitignore"] := ⟨_, hEq⟩
    revert hSuffix
    decide
  · rw [Walk.opinion?, show way.take 1 ++ [".gitignore"] = ["r", ".gitignore"] from rfl, load_rule]
    decide +kernel
  · intro other hAbove hBelow
    omega

/-- The file is not spoken about. -/
theorem verdict?_file : Walk.verdict? project (way.take 3) (3 < way.length) = none := by
  rw [Walk.verdict?_of_user, Walk.userVerdict?_of_none rfl]
  rw [Walk.fileVerdict?_eq (by decide) (by decide), List.findSome?_eq_none_iff]
  intro file hFile
  rw [findSome?_reverse_range_eq_none]
  intro depth hDepth
  -- only the rule of the root could speak about the file, and it does not
  by_cases hRule : way.take depth ++ file = ["r", ".gitignore"]
  · have hSilent : ∀ depth < 3, Rules.verdict? [rule]
        (Text.joinAll '/' ((way.take 3).drop depth)) false = none := by decide +kernel
    rw [Walk.opinion?, hRule, load_rule]
    exact hSilent depth hDepth
  · exact opinion?_eq_none hFile depth 3 hRule

/-- The file is read. -/
theorem mem_candidates : Route.toPath ⟨true, way⟩ ∈ scanner.candidates project := by
  -- the rules let both the directory and the file in it pass, so the walk goes down and keeps it
  have hDirectory : Walk.isIgnored project (way.take 2) true = false := by
    have hVerdict := verdict?_directory
    rw [show decide (2 < way.length) = true by decide] at hVerdict
    rw [Walk.isIgnored, hVerdict]
    rfl
  have hFile : Walk.isIgnored project (way.take 3) false = false := by
    have hVerdict := verdict?_file
    rw [show decide (3 < way.length) = false by decide] at hVerdict
    rw [Walk.isIgnored, hVerdict]
    decide
  have hEnters : Walk.enters scanner.matcher project (way.take 2) = true := by
    rw [Walk.enters, hDirectory]
    decide +kernel
  have hReaches :
      Walk.reaches scanner.matcher project ["r"] [".storybook", "preview.ts"] = true := by
    have hRange : (List.range [".storybook", "preview.ts"].length).drop 1 = [1] := by decide
    rw [Walk.reaches, hRange, List.all_cons, List.all_nil,
      show ["r"] ++ [".storybook", "preview.ts"].take 1 = way.take 2 from rfl, hEnters,
      show ["r"] ++ [".storybook", "preview.ts"] = way.take 3 from rfl, hFile]
    rfl
  exact Matcher.mem_candidates.mpr
    ⟨[".storybook", "preview.ts"], by decide, by decide, hReaches,
      by decide +kernel⟩

end Hidden

/-! ## The exact condition -/

/-- **Where the walk and the filter part.** The filter takes no events for a file that a scan reads
exactly if the ignore files count and the walk lets a hidden entry on the way to the file pass, or
does not go by the rule that settles the file for the filter. -/
theorem Scanner.deaf_iff {fs₀ fs₁ : FileSystem} {config : Config} {resolved : Resolved}
    {scanner : Scanner} (hStart : fs₀.HasNames) (hFiles : fs.HasNames)
    (hResolved : config.resolve fs₀ = .ok resolved)
    (hScanner : Scanner.new fs₁ resolved = .ok scanner) (hCandidate : p ∈ scanner.candidates fs) :
    scanner.concerns fs p = false ↔
      resolved.respectIgnores = true ∧
        (Walk.Pardons fs p.names resolved.root.names.length ∨
          Walk.Overrules fs p.names resolved.root.names.length) := by
  obtain ⟨-, hSameRoot, -, hSameRespect⟩ := Scanner.new_frame hScanner
  obtain ⟨root, hRootNames, hRoot⟩ := (Config.resolve_isCanonical hStart hResolved).1
  obtain ⟨below, hFile, rfl, hReaches, hChosen⟩ := Matcher.mem_candidates.mp hCandidate
  rw [hSameRoot, hRoot, Route.names_toPath hRootNames] at hFile hReaches hChosen ⊢
  have hMore := (Walk.mem_filesBelow_of hFile).1
  have hNames := Walk.names_of_mem_filesBelow hFiles hFile
  have hNotOutput : scanner.matcher.isOutput (Route.toPath ⟨true, root ++ below⟩) = false := by
    rw [Matcher.isCandidate, Bool.and_eq_true, Bool.not_eq_true'] at hChosen
    exact hChosen.1
  rw [Scanner.concerns, hNotOutput, Bool.false_or,
    Matcher.isScannable_eq_false_iff (hSameRoot.trans hRoot) hNames hMore hChosen, hSameRespect,
    Route.names_toPath hNames]
  refine and_congr_right fun hRespect => ?_
  have hRespected : scanner.matcher.respectIgnores = true := hSameRespect.trans hRespect
  -- the walk has come to the file, so each reason for the filter to refuse it is one that the walk
  -- does not go by; the other direction forgets the walk
  constructor
  · rintro (⟨name, hName, hHidden⟩ | ⟨depth, item, hDecides⟩)
    · exact Or.inl (Walk.pardons_of_hidden hReaches hRespected hName hHidden)
    · exact Or.inr (Walk.overrules_of_decides hNames hReaches hRespected hDecides)
  · rintro (⟨index, name, hIndex, hAt, hHidden, -⟩ | ⟨depth, item, hDecides, -⟩)
    · refine Or.inl ⟨name, ?_, hHidden⟩
      rw [List.getElem?_append_right hIndex] at hAt
      exact List.mem_of_getElem? hAt
    · exact Or.inr ⟨depth, item, hDecides⟩

/-- The walk reads a file in a hidden directory that a rule allows, and the filter takes no events
for it. -/
theorem Scanner.deaf_iff_of_hidden :
    Route.toPath ⟨true, Hidden.way⟩ ∈ Hidden.scanner.candidates Hidden.project ∧
      Hidden.scanner.concerns Hidden.project (Route.toPath ⟨true, Hidden.way⟩) = false := by
  refine ⟨Hidden.mem_candidates, ?_⟩
  refine (Scanner.deaf_iff Hidden.project_isTree.names Hidden.project_isTree.names
    Hidden.resolve_config Hidden.new_scanner Hidden.mem_candidates).mpr ⟨rfl, Or.inl ?_⟩
  rw [Route.names_toPath (by decide)]
  exact ⟨1, ".storybook", by decide +kernel, rfl, by decide +kernel,
    Or.inl Hidden.verdict?_directory⟩

end KeyRegistry

import KeyRegistry.Proofs.Scan.Pruning

/-!
# What an ignore file takes back

The walk does not enter a directory that the configured ignore file ignores, so nothing below it is
read. The test for candidates asks the same rules about the file, and then the directories above it,
and the nearest opinion counts. So it comes to another answer where a rule allows something below an
ignored directory: the file is a candidate, and no walk ever comes to it. The same holds below a
directory that the walk leaves out only for a hollow exclude. These are the only two cases.

Main definitions:

* `Rules.Settles` — the nearest opinion of some rules about what lies on a way
* `Matcher.Readmits` — the ignore file allows something below a directory

Main statements:

* `Matcher.ignoredByFile_below` — below an ignored directory all is ignored but what is readmitted
* `Scanner.candidate_below_iff` — which files below a directory that is left out are candidates
-/

namespace KeyRegistry

open KeyRegistry.Path Ignore

section Verdicts

variable {fs fs₀ fs₁ : FileSystem} {m : Matcher} {config : Config} {resolved : Resolved}
  {s : Scanner}
  {names root way rest : List String} {rules : Rules} {depth top bottom item other : Nat}
  {verdict otherVerdict : Verdict} {directory p : Path}

/-! ## The nearest opinion -/

/-- Rules of the directory at a depth settle the entry at `top`: they say something about it or
about an entry above it, and nothing about what is nearer. -/
structure Ignore.Rules.Settles (rules : Rules) (names : List String) (depth top item : Nat)
    (verdict : Verdict) : Prop where
  inside  : depth ≤ item ∧ item ≤ top
  opinion : rules.opinion? names depth item = some verdict
  nearer  : ∀ other, item < other → other ≤ top → rules.opinion? names depth other = none

/-- An entry is settled in one way. -/
theorem Ignore.Rules.Settles.unique (h : rules.Settles names depth top item verdict)
    (h' : rules.Settles names depth top other otherVerdict) :
    item = other ∧ verdict = otherVerdict := by
  -- the one that is farther away would have to be silent about the nearer one
  have hSame : item = other := by
    rcases Nat.lt_trichotomy item other with hLess | hSame | hMore
    · have hSilent := h.nearer other hLess h'.inside.2
      rw [h'.opinion] at hSilent
      cases hSilent
    · exact hSame
    · have hSilent := h'.nearer item hMore h.inside.2
      rw [h.opinion] at hSilent
      cases hSilent
  subst hSame
  have hSays := h.opinion
  rw [h'.opinion] at hSays
  exact ⟨rfl, (Option.some.inj hSays).symm⟩

/-- What settles an entry and is not below one above it settles that one too. -/
theorem Ignore.Rules.Settles.above (h : rules.Settles names depth bottom item verdict)
    (hTop : top ≤ bottom) (hItem : item ≤ top) : rules.Settles names depth top item verdict where
  inside := ⟨h.inside.1, hItem⟩
  opinion := h.opinion
  nearer other hOther hInside := h.nearer other hOther (by omega)

/-- The entries are tried from the nearest one upwards. -/
theorem Ignore.Rules.findSome?_eq_some_iff (hDepth : depth ≤ top) :
    ((List.range (top - depth + 1)).reverse.findSome? fun count =>
        rules.opinion? names depth (depth + count)) = some verdict ↔
      ∃ item, rules.Settles names depth top item verdict := by
  rw [findSome?_reverse_range]
  constructor
  · rintro ⟨count, hCount, hSays, hNone⟩
    refine ⟨depth + count, ⟨by omega, by omega⟩, hSays, fun other hOther hInside => ?_⟩
    have hSilent := hNone (other - depth) (by omega) (by omega)
    rwa [Nat.add_sub_cancel' (by omega)] at hSilent
  · rintro ⟨item, ⟨hAbove, hInside⟩, hSays, hNearer⟩
    refine ⟨item - depth, by omega, by rwa [Nat.add_sub_cancel' hAbove],
      fun count hCount hBound => ?_⟩
    exact hNearer (depth + count) (by omega) (by omega)

/-- Where an entry is settled, everything below it is settled in some way. -/
theorem Ignore.Rules.Settles.exists_below (h : rules.Settles names depth top item verdict)
    (hBottom : top ≤ bottom) :
    ∃ nearest settled, rules.Settles names depth bottom nearest settled := by
  obtain ⟨hAbove, hInside⟩ := h.inside
  cases hFound : (List.range (bottom - depth + 1)).reverse.findSome? fun count =>
      rules.opinion? names depth (depth + count) with
  | none =>
    have hSilent := (findSome?_reverse_range_eq_none _).mp hFound (item - depth) (by omega)
    rw [Nat.add_sub_cancel' hAbove, h.opinion] at hSilent
    cases hSilent
  | some settled =>
    obtain ⟨nearest, hNearest⟩ := (Rules.findSome?_eq_some_iff (by omega)).mp hFound
    exact ⟨nearest, settled, hNearest⟩

/-- What some rules say about a path below their directory is what settles it. -/
theorem Ignore.Rules.verdictUnder?_eq_some_iff (hNames : ∀ name ∈ names, IsName name)
    (hDepth : depth < top) (hTop : top ≤ names.length) :
    rules.verdictUnder? (Route.toPath ⟨true, names.take depth⟩)
        (Route.toPath ⟨true, names.take top⟩) (top < names.length) = some verdict ↔
      ∃ item, rules.Settles names depth top item verdict := by
  rw [Rules.verdictUnder?_toPath hNames hDepth hTop]
  exact Rules.findSome?_eq_some_iff (Nat.le_of_lt hDepth)

/-! ## The configured ignore file -/

namespace Matcher

/-- The rules of the configured ignore file are counted from a canonical path. -/
def AnchorsIgnoreFile (m : Matcher) : Prop :=
  ∀ directory rules, m.ignoreFile = some (directory, rules) → directory.IsCanonical

/-- The configured ignore file ignores what lies below its directory and is settled as ignored. -/
theorem ignoredByFile_iff (hFile : m.ignoreFile = some (directory, rules))
    (hCanonical : directory.IsCanonical) (hNames : ∀ name ∈ names, IsName name)
    (hTop : top ≤ names.length) :
    m.ignoredByFile (Route.toPath ⟨true, names.take top⟩) (top < names.length) = true ↔
      directory.names <+: names ∧ directory.names.length < top ∧
        ∃ item, rules.Settles names directory.names.length top item .ignored := by
  rw [ignoredByFile, hFile]
  show (_ == _) = true ↔ _
  rw [beq_iff_eq, ← hCanonical.toPath_names, Route.names_toPath hCanonical.names]
  have hBase := hCanonical.names
  generalize directory.names = base at hBase
  constructor
  · intro hVerdict
    have hTaken : ∀ name ∈ names.take top, IsName name := fun name hMem =>
      hNames name (List.mem_of_mem_take hMem)
    -- only what lies below the directory is seen from there, and the directory itself is not judged
    obtain ⟨relative, hRelative, hJudged⟩ := Option.bind_eq_some_iff.mp hVerdict
    obtain ⟨below, hBelow⟩ := Route.prefix_of_relativeTo? hBase hTaken hRelative
    have hStart : base <+: names := by
      have hTakenPrefix : names.take top <+: names := List.take_prefix top names
      rw [hBelow] at hTakenPrefix
      exact (List.prefix_append base below).trans hTakenPrefix
    have hMore : below ≠ [] := by
      rintro rfl
      rw [hBelow, Route.relativeTo?_toPath hBase (by simp)] at hRelative
      cases hRelative
      cases hJudged
    have hProper : base.length < top := by
      have hLength := congrArg List.length hBelow
      rw [List.length_take, List.length_append, Nat.min_eq_left hTop] at hLength
      have := List.length_pos_iff.mpr hMore
      omega
    rw [List.prefix_iff_eq_take.mp hStart,
      Rules.verdictUnder?_eq_some_iff hNames hProper hTop] at hVerdict
    exact ⟨hStart, hProper, hVerdict⟩
  · rintro ⟨hStart, hProper, hSettles⟩
    rw [List.prefix_iff_eq_take.mp hStart]
    exact (Rules.verdictUnder?_eq_some_iff hNames hProper hTop).mpr hSettles

/-- The configured ignore file allows something below the entry at `top`, and says nothing about
what is nearer. -/
def Readmits (m : Matcher) (names : List String) (top : Nat) : Prop :=
  ∃ directory rules item, m.ignoreFile = some (directory, rules) ∧ top < item ∧
    rules.Settles names directory.names.length names.length item .allowed

/-- What is readmitted is not ignored. -/
theorem ignoredByFile_of_readmits (hCanonical : m.AnchorsIgnoreFile)
    (hNames : ∀ name ∈ names, IsName name) (h : m.Readmits names top) :
    m.ignoredByFile (Route.toPath ⟨true, names⟩) false = false := by
  obtain ⟨directory, rules, item, hFile, -, hAllowed⟩ := h
  have hWhole := ignoredByFile_iff hFile (hCanonical _ _ hFile) hNames
    (Nat.le_refl names.length)
  rw [List.take_length, decide_eq_false (Nat.lt_irrefl _)] at hWhole
  rw [Bool.eq_false_iff, ne_eq, hWhole]
  rintro ⟨-, -, other, hIgnored⟩
  cases (hIgnored.unique hAllowed).2

/-- Below an ignored directory all is ignored but what is readmitted. -/
theorem ignoredByFile_below (hCanonical : m.AnchorsIgnoreFile)
    (hNames : ∀ name ∈ names, IsName name) (hTop : top < names.length)
    (hIgnored : m.ignoredByFile (Route.toPath ⟨true, names.take top⟩) true = true) :
    m.ignoredByFile (Route.toPath ⟨true, names⟩) false = false ↔ m.Readmits names top := by
  refine ⟨fun hKept => ?_, ignoredByFile_of_readmits hCanonical hNames⟩
  cases hFile : m.ignoreFile with
  | none =>
    rw [ignoredByFile, hFile] at hIgnored
    cases hIgnored
  | some loaded =>
    obtain ⟨directory, rules⟩ := loaded
    have hAbove := ignoredByFile_iff hFile (hCanonical _ _ hFile) hNames (Nat.le_of_lt hTop)
    have hWhole := ignoredByFile_iff hFile (hCanonical _ _ hFile) hNames
      (Nat.le_refl names.length)
    rw [decide_eq_true hTop] at hAbove
    rw [List.take_length, decide_eq_false (Nat.lt_irrefl _)] at hWhole
    obtain ⟨hStart, hProper, item, hSettles⟩ := hAbove.mp hIgnored
    obtain ⟨settling, verdict, hNearest⟩ := hSettles.exists_below (Nat.le_of_lt hTop)
    -- the file is settled, and not as ignored, so it is not what settles the directory that does it
    have hAllowed : verdict = .allowed := by
      cases verdict with
      | allowed => rfl
      | ignored =>
        rw [hWhole.mpr ⟨hStart, by omega, settling, hNearest⟩] at hKept
        cases hKept
    subst hAllowed
    refine ⟨directory, rules, settling, hFile, ?_, hNearest⟩
    by_contra hFar
    cases (hSettles.unique (hNearest.above (Nat.le_of_lt hTop) (by omega))).2

end Matcher

/-- The rules of the configured ignore file count from the directory that holds it, which is given
by a canonical path. -/
theorem Scanner.anchorsIgnoreFile (hStart : fs₀.HasNames)
    (hResolved : config.resolve fs₀ = .ok resolved) (hScanner : Scanner.new fs₁ resolved = .ok s) :
    s.matcher.AnchorsIgnoreFile := by
  intro directory rules hFile
  obtain ⟨-, -, hLoaded⟩ := Scanner.new_globs hScanner
  rw [hLoaded, Option.map_eq_some_iff] at hFile
  obtain ⟨file, hConfigured, hLoad⟩ := hFile
  obtain ⟨path, hPath, rfl⟩ := Config.resolve_ignoreFile hStart hResolved hConfigured
  obtain ⟨rfl, -⟩ := Prod.mk.inj hLoad
  -- the directory of a file is the path without its last name; the top directory is its own
  by_cases hTop : path = []
  · rw [hTop, Route.parent?_toPath_nil]
    exact ⟨[], by simp, rfl⟩
  · rw [Route.parent?_toPath hPath hTop]
    exact ⟨path.dropLast, fun name hMem => hPath name (List.dropLast_subset _ hMem), rfl⟩

/-! ## Paths below the root -/

/-- A path leads from the root along some names: it is written from the top, or from the root. -/
def Path.LeadsAlong (p : Path) (root way : List String) : Prop :=
  p = Route.toPath ⟨true, root ++ way⟩ ∨ p = Route.toPath ⟨false, way⟩

/-- The globs pick a path below the root: it is not the artifact, it is included, and it is not
excluded. -/
structure Matcher.PicksByGlobs (m : Matcher) (root way : List String) : Prop where
  other    : m.isOutput (Route.toPath ⟨true, root ++ way⟩) = false
  included : matchesSome m.includes (Route.toPath ⟨false, way⟩) = true
  kept     : matchesSome m.excludes (Route.toPath ⟨false, way⟩) = false

namespace Matcher.ReadsExcludes

variable {excludes : List String}

/-- A path that leads along a way below the root is that way from the root. -/
theorem relative?_of_leadsAlong (h : m.ReadsExcludes excludes root)
    (hWay : ∀ name ∈ way, IsName name) (hPath : p.LeadsAlong root way) :
    m.relative? p = some (Route.toPath ⟨false, way⟩) := by
  rcases hPath with rfl | rfl
  · exact h.relative? hWay
  · rw [Matcher.relative?, Route.isAbsolute_toPath_open hWay, if_neg (by simp)]

/-- Such a path is the artifact exactly if the way leads to it. -/
theorem isOutput_of_leadsAlong (h : m.ReadsExcludes excludes root)
    (hWay : ∀ name ∈ way, IsName name) (hSome : way ≠ []) (hPath : p.LeadsAlong root way) :
    m.isOutput p = m.isOutput (Route.toPath ⟨true, root ++ way⟩) := by
  rcases hPath with rfl | rfl
  · rfl
  · rw [isOutput, isOutput, h.sameRoot, Route.absolutize_toPath_open h.names hWay hSome,
      Route.absolutize_toPath (List.forall_mem_append.mpr ⟨h.names, hWay⟩)]

/-- A candidate is picked by the globs and not ignored by the configured ignore file. -/
theorem isCandidate_iff (h : m.ReadsExcludes excludes root)
    (hWay : ∀ name ∈ way, IsName name) (hSome : way ≠ []) (hPath : p.LeadsAlong root way) :
    m.isCandidate p = true ↔ m.PicksByGlobs root way ∧
      m.ignoredByFile (Route.toPath ⟨true, root ++ way⟩) false = false := by
  rw [isCandidate, h.isOutput_of_leadsAlong hWay hSome hPath, h.relative?_of_leadsAlong hWay hPath,
    Option.any_some, selects, h.sameRoot, Route.join_toPath h.names hWay hSome]
  simp only [Bool.and_eq_true, Bool.not_eq_true']
  constructor
  · rintro ⟨hOther, ⟨hIncluded, hKept⟩, hIgnored⟩
    exact ⟨⟨hOther, hIncluded, hKept⟩, hIgnored⟩
  · rintro ⟨⟨hOther, hIncluded, hKept⟩, hIgnored⟩
    exact ⟨hOther, ⟨hIncluded, hKept⟩, hIgnored⟩

/-- The root is never left out; another directory is if it is covered or ignored. -/
theorem isExcludedDirectory_iff (h : m.ReadsExcludes excludes root)
    (hWay : ∀ name ∈ way, IsName name) (hPath : p.LeadsAlong root way) :
    m.isExcludedDirectory p = true ↔ way ≠ [] ∧
      (matchesSome m.excludedDirectories (Route.toPath ⟨false, way⟩) = true ∨
        m.ignoredByFile (Route.toPath ⟨true, root ++ way⟩) true = true) := by
  have hSame :
      m.isExcludedDirectory p = m.isExcludedDirectory (Route.toPath ⟨true, root ++ way⟩) := by
    rw [isExcludedDirectory, isExcludedDirectory, h.relative?_of_leadsAlong hWay hPath,
      h.relative? hWay]
  rw [hSame]
  by_cases hRoot : way = []
  · subst hRoot
    rw [isExcludedDirectory, h.relative? hWay]
    simp [Route.toPath, Text.joinAll, Text.join]
  · rw [h.isExcludedDirectory_eq hWay hRoot, Bool.or_eq_true]
    simp [hRoot]

end Matcher.ReadsExcludes

end Verdicts

/-! ## A file that is allowed in an ignored directory -/

namespace Readmitted

/-- A project with an ignore file of its own, which ignores a directory and allows a file in it. -/
def project : FileSystem where
  entries := [
    ([.text "r"], .directory),
    ([.text "r", .text ".qkignore"], .file "dist/\n!dist/a.ts\n".toUTF8),
    ([.text "r", .text "dist"], .directory),
    ([.text "r", .text "dist", .text "a.ts"], .file "qk('a')".toUTF8)]

/-- A configuration with the ignore file. -/
def config : Config :=
  { Hidden.config with scan := { Hidden.config.scan with ignoreFile := some ⟨".qkignore"⟩ } }

/-- What the configuration is resolved to. -/
def resolved : Resolved :=
  { Hidden.resolved with ignoreFile := some (Route.toPath ⟨true, ["r", ".qkignore"]⟩) }

/-- The rules of the ignore file. -/
def rules : Rules :=
  [⟨.ofName "dist" [], .ignored, true⟩, ⟨⟨"dist/a.ts".toList.map .literal⟩, .allowed, false⟩]

/-- The scanner of the project. -/
def scanner : Scanner where
  config := resolved
  matcher := { Hidden.scanner.matcher with
    ignoreFile := some (Route.toPath ⟨true, ["r"]⟩, rules) }

theorem project_isTree : project.IsTree :=
  FileSystem.isTree_sound (by decide)

theorem resolve_config : config.resolve project = .ok resolved := by
  have hRoot : config.scan.canonicalRoot project = .ok (Route.toPath ⟨true, ["r"]⟩) :=
    ScanConfig.canonicalRoot_of_directory project_isTree (by decide) (by decide) rfl rfl
  have hOutputPath :
      absolutize (Route.toPath ⟨true, ["r"]⟩) ⟨"out.d.ts"⟩ = ⟨true, ["r", "out.d.ts"]⟩ :=
    Route.absolutize_name (by decide) (by decide)
  have hIgnorePath :
      absolutize (Route.toPath ⟨true, ["r"]⟩) ⟨".qkignore"⟩ = ⟨true, ["r", ".qkignore"]⟩ :=
    Route.absolutize_name (by decide) (by decide)
  have hOutput : project.isDirectory
      (absolutize (Route.toPath ⟨true, ["r"]⟩) ⟨"out.d.ts"⟩).toPath = false := by
    rw [hOutputPath]
    exact FileSystem.isDirectory_of_none project_isTree (by decide) rfl
  rw [Config.resolve_of hRoot rfl Hidden.isBlankText_moduleName markerNames_default hOutput]
  show Except.ok { resolved with
    output := (absolutize (Route.toPath ⟨true, ["r"]⟩) ⟨"out.d.ts"⟩).toPath
    ignoreFile := some (absolutize (Route.toPath ⟨true, ["r"]⟩) ⟨".qkignore"⟩).toPath } = _
  rw [hOutputPath, hIgnorePath]
  rfl

theorem load_rules : Rules.load project (Route.toPath ⟨true, ["r", ".qkignore"]⟩) = rules := by
  rw [Rules.load_of_file project_isTree (by decide) (by decide) rfl]
  cbv

theorem new_scanner : Scanner.new project resolved = .ok scanner := by
  have hIncludes : Matcher.readGlobs resolved.includes = .ok scanner.matcher.includes := by cbv
  have hLoad : resolved.ignoreFile.map (Matcher.loadIgnoreFile project) =
      some (Route.toPath ⟨true, ["r"]⟩, rules) := by
    show some (_, _) = _
    rw [load_rules, Route.parent?_toPath (by decide) (by simp)]
    rfl
  unfold Scanner.new Matcher.new
  rw [hIncludes, hLoad, show resolved.excludes = standardExcludes from rfl,
    Matcher.readGlobs_standard, Matcher.readGlobs_standardDirectories]
  rfl

/-- The ignore file allows the file and does not say more. -/
theorem readmits : scanner.matcher.Readmits ["r", "dist", "a.ts"] 2 := by
  refine ⟨_, rules, 3, rfl, by decide, ⟨by decide, ?_, fun other hOther hEnd => ?_⟩⟩
  · decide +kernel
  · exact absurd hEnd (by simpa using hOther)

end Readmitted

/-! ## The exact condition -/

/-- No scan reads a file below a directory that the walk leaves out. -/
theorem Matcher.not_mem_candidates_below {fs : FileSystem} {m : Matcher}
    {root way rest : List String} (hFiles : fs.HasNames)
    (hRoot : m.root = Route.toPath ⟨true, root⟩)
    (hNames : ∀ name ∈ root ++ (way ++ rest), IsName name) (hWay : way ≠ []) (hRest : rest ≠ [])
    (hExcluded : m.isExcludedDirectory (Route.toPath ⟨true, root ++ way⟩) = true) :
    Route.toPath ⟨true, root ++ (way ++ rest)⟩ ∉ m.candidates fs := by
  rw [Matcher.toPath_mem_candidates hFiles hRoot hNames]
  rintro ⟨-, hReaches, -⟩
  -- the walk would have to enter the directory
  have hEnters := (Walk.reaches_eq_true_iff.mp hReaches).1 way rest rfl hWay hRest
  rw [Walk.enters, hExcluded, Bool.not_true, Bool.and_false] at hEnters
  cases hEnters

/-- A directory is left out for one of two reasons, and each has its way out: a file below it that
is neither excluded nor ignored is readmitted, or an exclude is hollow. -/
theorem Matcher.ReadsExcludes.readmits_or_hollow {m : Matcher}
    {root excludes way rest : List String} (hReads : m.ReadsExcludes excludes root)
    (hAnchors : m.AnchorsIgnoreFile)
    (hNames : ∀ name ∈ root ++ (way ++ rest), IsName name) (hWay : way ≠ []) (hRest : rest ≠ [])
    (hReason : matchesSome m.excludedDirectories (Route.toPath ⟨false, way⟩) = true ∨
      m.ignoredByFile (Route.toPath ⟨true, root ++ way⟩) true = true)
    (hExcluded : matchesSome m.excludes (Route.toPath ⟨false, way ++ rest⟩) = false)
    (hKept : m.ignoredByFile (Route.toPath ⟨true, root ++ (way ++ rest)⟩) false = false) :
    m.Readmits (root ++ (way ++ rest)) (root ++ way).length ∨
      ∃ exclude ∈ excludes, Glob.IsHollow exclude := by
  rcases hReason with hCovered | hIgnored
  · -- an exclude that covers the directory would match the file, but for a hollow one
    right
    by_contra hFull
    rw [hReads.excludes_below (fun exclude hMem hHollow => hFull ⟨exclude, hMem, hHollow⟩) hWay
      hRest hCovered] at hExcluded
    cases hExcluded
  · -- the ignore file would ignore the file too, but for what it allows
    left
    have hTop : (root ++ way).length < (root ++ (way ++ rest)).length := by
      have := List.length_pos_iff.mpr hRest
      simp only [List.length_append]
      omega
    have hTake : (root ++ (way ++ rest)).take (root ++ way).length = root ++ way := by
      rw [← List.append_assoc, List.take_left]
    rw [← hTake] at hIgnored
    exact (Matcher.ignoredByFile_below hAnchors hNames hTop hIgnored).mp hKept

/-- **Files below a directory that is left out.** Let a directory be left out by the walk, because
an exclude covers it or the configured ignore file ignores it. A file below it is a candidate
exactly if the globs pick it, and either the ignore file allows something on the way from the
directory to the file and says nothing about what is nearer to the file, or some exclude is hollow
and the ignore file does not ignore the file. No scan reads the file in any case. -/
theorem Scanner.candidate_below_iff {fs₀ fs₁ : FileSystem} {config : Config} {resolved : Resolved}
    {s : Scanner} {way rest : List String} {d f : Path} (hStart : fs₀.HasNames)
    (hResolved : config.resolve fs₀ = .ok resolved) (hScanner : Scanner.new fs₁ resolved = .ok s)
    (hNames : ∀ name ∈ way ++ rest, IsName name) (hMore : rest ≠ [])
    (hDirectory : d.LeadsAlong resolved.root.names way)
    (hFile : f.LeadsAlong resolved.root.names (way ++ rest))
    (hLeft : s.matcher.isExcludedDirectory d = true) :
    (s.matcher.isCandidate f = true ↔ s.matcher.PicksByGlobs resolved.root.names (way ++ rest) ∧
      (s.matcher.Readmits (resolved.root.names ++ (way ++ rest))
        (resolved.root.names ++ way).length ∨
        (∃ exclude ∈ resolved.excludes, Glob.IsHollow exclude) ∧ s.matcher.ignoredByFile
          (Route.toPath ⟨true, resolved.root.names ++ (way ++ rest)⟩) false = false)) ∧
    ∀ fs, fs.HasNames →
      Route.toPath ⟨true, resolved.root.names ++ (way ++ rest)⟩ ∉ s.candidates fs := by
  have hReads := Scanner.readsExcludes hStart hResolved hScanner
  have hAnchors := Scanner.anchorsIgnoreFile hStart hResolved hScanner
  generalize resolved.root.names = root at *
  have hWay : ∀ name ∈ way, IsName name := fun name hMem =>
    hNames name (List.mem_append_left _ hMem)
  have hAll : ∀ name ∈ root ++ (way ++ rest), IsName name :=
    List.forall_mem_append.mpr ⟨hReads.names, hNames⟩
  have hBelow : way ++ rest ≠ [] := by simp [hMore]
  obtain ⟨hSome, hReason⟩ := (hReads.isExcludedDirectory_iff hWay hDirectory).mp hLeft
  -- whether the path is a candidate is a question of rules; that no walk lists it follows from the
  -- directory alone, whatever the rules say of the file
  refine ⟨?_, fun fs hFiles => ?_⟩
  · rw [hReads.isCandidate_iff hNames hBelow hFile]
    refine and_congr_right fun hPicked => ⟨fun hKept => ?_, ?_⟩
    · have hEither :=
        hReads.readmits_or_hollow hAnchors hAll hSome hMore hReason hPicked.kept hKept
      exact hEither.imp_right fun hHollow => ⟨hHollow, hKept⟩
    · rintro (hReadmitted | ⟨-, hKept⟩)
      · exact Matcher.ignoredByFile_of_readmits hAnchors hAll hReadmitted
      · exact hKept
  · exact Matcher.not_mem_candidates_below hFiles hReads.sameRoot hAll hSome hMore
      ((hReads.isExcludedDirectory_iff hWay (Or.inl rfl)).mpr ⟨hSome, hReason⟩)

/-- A file that the ignore file allows is a candidate, though the directory that it lies in is left
out, and so no scan reads it. -/
theorem Scanner.candidate_below_iff_of_allowed :
    Readmitted.scanner.matcher.isExcludedDirectory (Route.toPath ⟨true, ["r", "dist"]⟩) = true ∧
      Readmitted.scanner.matcher.isCandidate (Route.toPath ⟨false, ["dist", "a.ts"]⟩) = true ∧
      Route.toPath ⟨true, ["r", "dist", "a.ts"]⟩ ∉
        Readmitted.scanner.candidates Readmitted.project := by
  have hLeft : Readmitted.scanner.matcher.isExcludedDirectory
      (Route.toPath ⟨true, ["r", "dist"]⟩) = true := by decide +kernel
  have hRoot : Readmitted.resolved.root.names = ["r"] := Hidden.root_names
  have hNames : ∀ name ∈ ["dist"] ++ ["a.ts"], IsName name := by decide
  obtain ⟨hCandidate, hUnread⟩ := Scanner.candidate_below_iff Readmitted.project_isTree.names
    Readmitted.resolve_config Readmitted.new_scanner hNames (by simp) (Or.inl (by rw [hRoot]; rfl))
      (Or.inr rfl) hLeft
  rw [hRoot] at hCandidate hUnread
  refine ⟨hLeft, hCandidate.mpr ⟨⟨?_, ?_, ?_⟩, Or.inl Readmitted.readmits⟩,
    hUnread _ Readmitted.project_isTree.names⟩
  · decide +kernel
  · decide +kernel
  · decide +kernel

end KeyRegistry

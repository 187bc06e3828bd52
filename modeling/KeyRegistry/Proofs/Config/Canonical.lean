import Mathlib
import KeyRegistry.Proofs.FileSystem.Tree
import KeyRegistry.Scan

/-!
# Resolved paths are canonical

Whatever the root and the output are written like in a configuration, resolving turns them into the
written forms of routes from the top. The scanner of a resolved configuration keeps to them.

Main statements:

* `Config.resolve_paths`, `Config.checks_of_resolve` — the paths of a resolved configuration, and
  what was checked
* `Config.resolve_isCanonical` — its root and its output are canonical
* `Scanner.new_frame` — what a scanner takes over from its configuration
-/

namespace KeyRegistry

open KeyRegistry.Path

variable {fs : FileSystem} {config : Config} {resolved : Resolved} {scanner : Scanner}

/-- The root is what its path leads to, a directory whose own path is a text and not too long. -/
theorem ScanConfig.canonicalRoot_eq_ok_iff {c : ScanConfig} {root : Path} :
    c.canonicalRoot fs = .ok root ↔ ∃ names, fs.locate c.root = .ok (Place.ofNames names) ∧
      fs.at? (Place.ofNames names) = some .directory ∧
      Place.pathSize (Place.ofNames names) < FileSystem.pathLimit ∧
      root = Route.toPath ⟨true, names⟩ := by
  unfold canonicalRoot
  -- the root is located twice, and both times it is the same place
  constructor
  · intro h
    split at h
    · next hThere =>
      obtain ⟨place, hLocate, hDirectory⟩ := FileSystem.isDirectory_eq_true_iff.mp hThere
      split at h
      · cases h
      · next found hFound =>
        obtain ⟨hAgain, hShort⟩ := FileSystem.canonicalize_eq_ok_iff.mp hFound
        rw [hLocate, Except.ok.injEq] at hAgain
        subst hAgain
        split at h
        · next path hPath =>
          cases h
          obtain ⟨names, hNames, rfl⟩ := Option.map_eq_some_iff.mp hPath
          rw [Place.names?_eq_some] at hNames
          subst hNames
          exact ⟨names, hLocate, hDirectory, hShort, rfl⟩
        · cases h
    · cases h
  · rintro ⟨names, hLocate, hDirectory, hShort, rfl⟩
    have hThere := FileSystem.isDirectory_eq_true_iff.mpr ⟨_, hLocate, hDirectory⟩
    have hFound := FileSystem.canonicalize_eq_ok_iff.mpr ⟨hLocate, hShort⟩
    rw [if_pos hThere, hFound]
    simp only [Place.path?_ofNames]

/-- A root that was found is canonical. -/
theorem ScanConfig.canonicalRoot_isCanonical {c : ScanConfig} {root : Path} (hNames : fs.HasNames)
    (h : c.canonicalRoot fs = .ok root) : root.IsCanonical := by
  -- the place of the root is found by following links, and its names are proper like those of all
  -- places
  obtain ⟨names, hLocate, -, -, rfl⟩ := canonicalRoot_eq_ok_iff.mp h
  exact ⟨names, fun name hMem => hNames.locate hLocate name (List.mem_map_of_mem hMem), rfl⟩

/-- A root that was found is absolute. -/
theorem ScanConfig.canonicalRoot_isAbsolute {c : ScanConfig} {root : Path}
    (h : c.canonicalRoot fs = .ok root) : root.isAbsolute = true := by
  obtain ⟨names, -, -, -, rfl⟩ := canonicalRoot_eq_ok_iff.mp h
  exact Route.isAbsolute_toPath_rooted

/-- A canonical root is its own canonical path. -/
theorem ScanConfig.canonicalRoot_of_directory {c : ScanConfig} {names : List String}
    (hTree : fs.IsTree) (hNames : ∀ name ∈ names, IsName name) (hFits : FileSystem.Fits names)
    (hRoot : c.root = Route.toPath ⟨true, names⟩)
    (hDirectory : fs.at? (Place.ofNames names) = some .directory) :
    c.canonicalRoot fs = .ok (Route.toPath ⟨true, names⟩) := by
  have hLocate : fs.locate (Route.toPath ⟨true, names⟩) = .ok (Place.ofNames names) :=
    (FileSystem.find_eq_ok_iff hTree hNames).mpr ⟨hFits, rfl, Or.inl (by rw [hDirectory]; rfl)⟩
  have hShort := Place.toPath_short_iff.mp (Nat.lt_of_not_le hFits.short)
  rw [← hRoot] at hLocate
  exact canonicalRoot_eq_ok_iff.mpr ⟨names, hLocate, hDirectory, hShort, rfl⟩

/-- A configuration without faults is resolved. -/
theorem Config.resolve_of {root : Path} {markers : List String}
    (hRoot : config.scan.canonicalRoot fs = .ok root)
    (hIncludes : config.scan.includes.isEmpty = false)
    (hModule : Text.isBlankText config.scan.moduleName = false)
    (hMarkers : markerNames [] (defaultMarker :: config.scan.markers) = .ok markers)
    (hOutput : fs.isDirectory (absolutize root config.scan.output).toPath = false) :
    config.resolve fs = .ok {
      root
      includes := config.scan.includes
      excludes := appendMissing config.scan.excludes standardExcludes
      markers
      output := (absolutize root config.scan.output).toPath
      moduleName := config.scan.moduleName
      ignoreFile := config.scan.ignoreFile.map fun path => (absolutize root path).toPath
      respectIgnores := config.scan.respectIgnores
      verbose := config.scan.verbose
      watch := config.watch } := by
  unfold Config.resolve
  rw [hRoot, hIncludes, hModule, hMarkers]
  simp only [bind, Except.bind, pure, Except.pure, Bool.false_eq_true, if_false]
  rw [hOutput]
  rfl

/-- What a configuration is resolved to, but for the names of the markers. -/
theorem Config.eq_of_resolve (h : config.resolve fs = .ok resolved) :
    config.scan.canonicalRoot fs = .ok resolved.root ∧ resolved = {
      root := resolved.root
      includes := config.scan.includes
      excludes := appendMissing config.scan.excludes standardExcludes
      markers := resolved.markers
      output := (absolutize resolved.root config.scan.output).toPath
      moduleName := config.scan.moduleName
      ignoreFile := config.scan.ignoreFile.map fun path => (absolutize resolved.root path).toPath
      respectIgnores := config.scan.respectIgnores
      verbose := config.scan.verbose
      watch := config.watch } := by
  unfold Config.resolve at h
  -- the other checks have to pass as well, but none of them changes anything
  cases hRoot : config.scan.canonicalRoot fs with
  | error e =>
    rw [hRoot] at h
    cases h
  | ok root =>
    rw [hRoot] at h
    simp only [bind, Except.bind, throw, throwThe, MonadExceptOf.throw, pure, Except.pure] at h
    repeat' split at h
    all_goals cases h
    all_goals exact ⟨rfl, rfl⟩

/-- The output and the ignore file are counted from the root. -/
theorem Config.resolve_paths (h : config.resolve fs = .ok resolved) :
    config.scan.canonicalRoot fs = .ok resolved.root ∧
      resolved.output = (absolutize resolved.root config.scan.output).toPath ∧
      resolved.ignoreFile =
        config.scan.ignoreFile.map fun path => (absolutize resolved.root path).toPath := by
  obtain ⟨hRoot, hEq⟩ := Config.eq_of_resolve h
  have hOutput := congrArg Resolved.output hEq
  have hIgnoreFile := congrArg Resolved.ignoreFile hEq
  exact ⟨hRoot, hOutput, hIgnoreFile⟩

/-- The checks that a configuration passed. -/
theorem Config.checks_of_resolve (h : config.resolve fs = .ok resolved) :
    config.scan.includes.isEmpty = false ∧ Text.isBlankText config.scan.moduleName = false ∧
      markerNames [] (defaultMarker :: config.scan.markers) = .ok resolved.markers ∧
      fs.isDirectory resolved.output = false := by
  obtain ⟨hRoot, hOutput, -⟩ := Config.resolve_paths h
  rw [hOutput]
  unfold Config.resolve at h
  rw [hRoot] at h
  simp only [bind, Except.bind, throw, throwThe, MonadExceptOf.throw, pure, Except.pure] at h
  -- the checks are made one after the other, and one that fails is the answer
  cases hIncludes : config.scan.includes.isEmpty with
  | true => simp [hIncludes] at h
  | false =>
    cases hModule : Text.isBlankText config.scan.moduleName with
    | true => simp [hIncludes, hModule] at h
    | false =>
      cases hMarkers : markerNames [] (defaultMarker :: config.scan.markers) with
      | error e => simp [hIncludes, hModule, hMarkers] at h
      | ok found =>
        cases hDirectory : fs.isDirectory (absolutize resolved.root config.scan.output).toPath with
        | true => simp [hIncludes, hModule, hMarkers, hDirectory] at h
        | false =>
          simp only [hIncludes, hModule, hMarkers, hDirectory, Bool.false_eq_true, if_false,
            Except.ok.injEq] at h
          exact ⟨rfl, rfl, by rw [← h], rfl⟩

/-- Appending what is missing loses nothing and adds nothing else. -/
theorem mem_appendMissing {texts more : List String} {text : String} :
    text ∈ appendMissing texts more ↔ text ∈ texts ∨ text ∈ more := by
  unfold appendMissing
  induction more generalizing texts with
  | nil => simp
  | cons first more ih =>
    rw [List.foldl_cons, ih, List.mem_cons, ← or_assoc]
    refine or_congr_left ?_
    split
    · next hListed =>
      -- nothing is appended that is listed already
      rw [or_iff_left_of_imp]
      rintro rfl
      exact List.contains_iff_mem.mp hListed
    · rw [List.mem_append, List.mem_singleton]

/-- The standard excludes are among those of every configuration. -/
theorem Config.resolve_excludes (h : config.resolve fs = .ok resolved) :
    ∀ exclude ∈ standardExcludes, exclude ∈ resolved.excludes := by
  intro exclude hMem
  rw [congrArg Resolved.excludes (Config.eq_of_resolve h).2]
  exact mem_appendMissing.mpr (Or.inr hMem)

/-- Resolving makes paths canonical. -/
theorem Config.resolve_isCanonical (hNames : fs.HasNames)
    (h : config.resolve fs = .ok resolved) :
    resolved.root.IsCanonical ∧ resolved.output.IsCanonical := by
  obtain ⟨hRoot, hOutput, -⟩ := Config.resolve_paths h
  have hCanonical := ScanConfig.canonicalRoot_isCanonical hNames hRoot
  refine ⟨hCanonical, ?_⟩
  rw [hOutput]
  exact absolutize_isCanonical hCanonical.isAbsolute _

theorem Config.resolve_ignoreFile {p : Path} (hNames : fs.HasNames)
    (h : config.resolve fs = .ok resolved) (hFile : resolved.ignoreFile = some p) :
    p.IsCanonical := by
  obtain ⟨hRoot, -, hIgnoreFile⟩ := Config.resolve_paths h
  have hCanonical := ScanConfig.canonicalRoot_isCanonical hNames hRoot
  rw [hIgnoreFile, Option.map_eq_some_iff] at hFile
  obtain ⟨path, -, rfl⟩ := hFile
  exact absolutize_isCanonical hCanonical.isAbsolute _

/-- A scanner has the paths and the settings of its configuration. -/
theorem Scanner.new_frame (h : Scanner.new fs resolved = .ok scanner) :
    scanner.config = resolved ∧ scanner.matcher.root = resolved.root ∧
      scanner.matcher.output = resolved.output ∧
      scanner.matcher.respectIgnores = resolved.respectIgnores := by
  -- the globs may be wrong; if they are read, the rest is taken over as it is
  unfold Scanner.new Matcher.new at h
  split at h
  · next matcher hMatcher =>
    cases h
    simp only [bind, Except.bind, pure, Except.pure] at hMatcher
    repeat' split at hMatcher
    all_goals cases hMatcher
    all_goals exact ⟨rfl, rfl, rfl, rfl⟩
  · cases h

/-! ## Default settings -/

/-- The glob of a name below any directories. -/
def Glob.ofName (name : String) (more : List Glob.Token) : Glob :=
  ⟨.anyAbove :: name.toList.map .literal ++ more⟩

/-- The globs that are left out of every scan. -/
def Matcher.standardGlobs : List Glob :=
  [.ofName "node_modules" [.anyBelow], .ofName "vite.config." [.star]]

/-- The default settings are valid. -/
theorem markerNames_default :
    markerNames [] [defaultMarker, defaultMarker] = .ok [defaultMarker] := by
  have hName : Text.isIdentifier defaultMarker = true := by decide +kernel
  rw [markerNames, if_pos hName, markerNames, if_pos hName, markerNames]
  rfl

theorem Matcher.readGlobs_standard : readGlobs standardExcludes = .ok standardGlobs := by
  cbv

theorem Matcher.readGlobs_standardDirectories :
    readGlobs (standardExcludes.filterMap directoryGlob?) = .ok [.ofName "node_modules" []] := by
  have hDirectories : standardExcludes.filterMap directoryGlob? = ["**/node_modules"] := by
    decide +kernel
  rw [hDirectories]
  cbv

/-- A configuration with the standard excludes and no ignore file of its own has a scanner, if its
includes are globs. -/
theorem Scanner.new_of_standard {includes : List Glob}
    (hIncludes : Matcher.readGlobs resolved.includes = .ok includes)
    (hExcludes : resolved.excludes = standardExcludes) (hIgnoreFile : resolved.ignoreFile = none) :
    Scanner.new fs resolved = .ok {
      config := resolved
      matcher := {
        root := resolved.root
        output := resolved.output
        includes
        excludes := Matcher.standardGlobs
        excludedDirectories := [.ofName "node_modules" []]
        ignoreFile := none
        respectIgnores := resolved.respectIgnores } } := by
  unfold Scanner.new Matcher.new
  rw [hIncludes, hExcludes, hIgnoreFile, Matcher.readGlobs_standard,
    Matcher.readGlobs_standardDirectories]
  rfl

end KeyRegistry

import KeyRegistry.Proofs.Config.Canonical

/-!
# Resolving twice

What a configuration is resolved to is itself a configuration: its paths are those that were found,
its names and globs those that count. Resolving that one gives the same again. The root is found
again by its own path, since only directories are on the way to it; the paths that were made
absolute stay as they are; and neither the default name nor the standard excludes are added a second
time.

The names are checked one by one while repetitions are dropped, and the first one that is no
identifier ends the whole.

Main definitions:

* `FileSystem.IsSound` — what is there lies in a directory and has a name that a path can hold

Main statements:

* `FileSystem.locate_of_directory` — a directory is found by its own path
* `appendMissing_eq` — what is appended, and in which order
* `markerNames_eq_ok_iff`, `markerNames_eq_error_iff` — how names are checked
* `Config.resolve_projection` — what is resolved stays as it is when it is resolved again
-/

namespace KeyRegistry

open KeyRegistry.Path

variable {fs : FileSystem} {names texts more : List String} {text : String} {e : ConfigError}

/-! ## Directories and their own paths -/

namespace FileSystem

/-- A text that an entry can have for its name: no detour, not too long, and without slashes and
zero bytes. -/
structure Storable (text : String) : Prop extends IsName text where
  short  : ¬ text.utf8ByteSize > nameLimit
  noZero : '\x00' ∉ text.toList

instance : DecidablePred Storable := fun text =>
  decidable_of_iff (IsName text ∧ ¬ text.utf8ByteSize > nameLimit ∧ '\x00' ∉ text.toList)
    ⟨fun ⟨hName, hShort, hZero⟩ => ⟨hName, hShort, hZero⟩,
      fun h => ⟨h.toIsName, h.short, h.noZero⟩⟩

/-- What every system sees to: whatever is there lies in a directory, and has a name that can be
looked up. There may be links. -/
structure IsSound (fs : FileSystem) : Prop where
  inside : fs.Hierarchical
  names  : ∀ item ∈ fs.entries, ∀ text, FileName.text text ∈ item.1 → Storable text

theorem Storable.namesEntry (h : Storable text) : NamesEntry text :=
  ⟨h.notIdle, h.notUp, h.short⟩

/-- All names in a sound file system can be stored. -/
theorem IsSound.storable {entry : Entry} (hSound : fs.IsSound)
    (hEntry : fs.at? (Place.ofNames names) = some entry) : ∀ name ∈ names, Storable name := by
  intro name hName
  have hMem : FileName.text name ∈ Place.ofNames names := List.mem_map_of_mem hName
  -- the top is not listed, but nothing leads there
  have hTop : Place.ofNames names ≠ [] := List.ne_nil_of_mem hMem
  rw [at?, if_neg hTop] at hEntry
  exact hSound.names _ (mem_of_lookup hEntry) name hMem

/-- The path of names that can be stored has no zero character. -/
theorem contains_toPath_eq_false (hNames : ∀ name ∈ names, Storable name) :
    (Route.toPath ⟨true, names⟩).text.toList.contains '\x00' = false := by
  have hText : (Route.toPath ⟨true, names⟩).text.toList =
      '/' :: Text.join '/' (names.map String.toList) := by
    simp [Route.toPath, Text.joinAll]
  rw [hText, Bool.eq_false_iff, ne_eq, List.contains_iff_mem, List.mem_cons, not_or]
  refine ⟨by decide, fun hMem => ?_⟩
  rcases Text.mem_join hMem with hSlash | ⟨part, hPart, hZero⟩
  · cases hSlash
  · obtain ⟨name, hName, rfl⟩ := List.mem_map.mp hPart
    exact (hNames name hName).noZero hZero

/-- A directory is found by its own path, if the path is not too long. No link is on the way, since
directories lie in directories. -/
theorem locate_of_directory (hSound : fs.IsSound)
    (hDirectory : fs.at? (Place.ofNames names) = some .directory)
    (hShort : Place.pathSize (Place.ofNames names) < pathLimit) :
    fs.locate (Route.toPath ⟨true, names⟩) = .ok (Place.ofNames names) := by
  have hStorable := hSound.storable hDirectory
  have hNames : ∀ name ∈ names, IsName name := fun name hMem => (hStorable name hMem).toIsName
  have hSome : (Route.toPath ⟨true, names⟩).text.isEmpty = false := by simp [Route.toPath]
  have hDescends : Descends fs false true linkLimit []
      (Text.piecesOf '/' (Route.toPath ⟨true, names⟩).text) (Place.ofNames names) := by
    refine (descends_toPath_iff hNames).mpr (Descends.along hSound.inside ?_ ?_ ?_)
    · exact fun name hMem => (hStorable name hMem).namesEntry
    -- what the path leads to is a directory and no link itself
    · intro target hLink
      rw [List.nil_append, hDirectory] at hLink
      cases hLink
    · exact Or.inl (by rw [List.nil_append, hDirectory]; rfl)
  rw [locate, find, contains_toPath_eq_false hStorable, if_neg Bool.false_ne_true, hSome,
    if_neg Bool.false_ne_true, if_neg (Nat.not_le.mpr (Place.toPath_short_iff.mpr hShort)),
    if_pos Route.isAbsolute_toPath_rooted]
  exact hDescends.descend

end FileSystem

/-- A canonical root is found again, also where there are links. -/
theorem ScanConfig.canonicalRoot_again {c d : ScanConfig} (hSound : fs.IsSound)
    (h : c.canonicalRoot fs = .ok d.root) : d.canonicalRoot fs = .ok d.root := by
  obtain ⟨names, -, hDirectory, hShort, hRoot⟩ := canonicalRoot_eq_ok_iff.mp h
  refine canonicalRoot_eq_ok_iff.mpr ⟨names, ?_, hDirectory, hShort, hRoot⟩
  rw [hRoot]
  exact FileSystem.locate_of_directory hSound hDirectory hShort

/-! ## Lists without repetitions -/

/-- Texts are appended one by one, each unless it is there. -/
theorem appendMissing_cons : appendMissing texts (text :: more) =
    appendMissing (if texts.contains text then texts else texts ++ [text]) more := rfl

/-- What is not listed yet is appended, in the order in which it comes up first. -/
theorem appendMissing_eq (texts more : List String) :
    appendMissing texts more = texts ++ (more.filter (!texts.contains ·)).eraseDups := by
  induction more generalizing texts with
  | nil => simp [appendMissing]
  | cons text more ih =>
    rw [appendMissing_cons, ih]
    cases hListed : texts.contains text with
    | true =>
      rw [if_pos rfl, List.filter_cons_of_neg (by rw [hListed]; decide)]
    | false =>
      -- what is appended counts as listed from then on
      have hRest : more.filter (!(texts ++ [text]).contains ·) =
          (more.filter (!texts.contains ·)).filter (fun other => !other == text) := by
        rw [List.filter_filter]
        refine List.filter_congr fun other _ => ?_
        rw [List.contains_append, List.contains_cons, List.contains_nil, Bool.or_false, Bool.not_or,
          Bool.and_comm]
      rw [if_neg Bool.false_ne_true, hRest, List.filter_cons_of_pos (by rw [hListed]; decide),
        List.eraseDups_cons, List.append_assoc, List.singleton_append]

/-- What has been appended is not appended a second time. -/
theorem appendMissing_again (texts more : List String) :
    appendMissing (appendMissing texts more) more = appendMissing texts more := by
  have hNone : more.filter (!(appendMissing texts more).contains ·) = [] := by
    rw [List.filter_eq_nil_iff]
    intro text hMem
    have hListed : text ∈ appendMissing texts more := mem_appendMissing.mpr (Or.inr hMem)
    rw [List.contains_iff_mem.mpr hListed]
    decide
  rw [appendMissing_eq (appendMissing texts more), hNone, List.eraseDups_nil, List.append_nil]

/-- Appending what is missing repeats nothing. -/
theorem nodup_appendMissing (h : texts.Nodup) (more : List String) :
    (appendMissing texts more).Nodup := by
  induction more generalizing texts with
  | nil => exact h
  | cons text more ih =>
    rw [appendMissing_cons]
    refine ih ?_
    split
    · exact h
    · next hListed =>
      rw [List.contains_iff_mem] at hListed
      exact List.concat_eq_append ▸ h.concat hListed

/-- What is appended to nothing is the list without repetitions. -/
theorem appendMissing_nil (more : List String) : appendMissing [] more = more.eraseDups := by
  rw [appendMissing_eq]
  simp

/-- A list without its repetitions repeats nothing. -/
theorem nodup_eraseDups (texts : List String) : texts.eraseDups.Nodup := by
  rw [← appendMissing_nil]
  exact nodup_appendMissing List.nodup_nil texts

/-- A list that repeats nothing has no repetitions to leave out. -/
theorem eraseDups_of_nodup (h : texts.Nodup) : texts.eraseDups = texts := by
  induction texts with
  | nil => rfl
  | cons text texts ih =>
    obtain ⟨hNew, hRest⟩ := List.nodup_cons.mp h
    have hOthers : texts.filter (!· == text) = texts := by
      rw [List.filter_eq_self]
      intro other hMem
      have hNe : other ≠ text := fun hEq => hNew (hEq ▸ hMem)
      simp [hNe]
    rw [List.eraseDups_cons, hOthers, ih hRest]

/-- Nothing is left to be dropped, also behind another copy of the first text. -/
theorem eraseDups_again (text : String) (texts : List String) :
    (text :: (text :: texts).eraseDups).eraseDups = (text :: texts).eraseDups := by
  have hForm : (text :: texts).eraseDups =
      text :: (texts.filter fun other => !other == text).eraseDups := List.eraseDups_cons
  have hFirst : ∀ others : List String,
      (text :: text :: others).eraseDups = (text :: others).eraseDups := by
    intro others
    rw [List.eraseDups_cons, List.eraseDups_cons, List.filter_cons_of_neg (by simp)]
  rw [hForm, hFirst, ← hForm]
  exact eraseDups_of_nodup (nodup_eraseDups _)

/-! ## Names -/

/-- Names are taken if all of them are identifiers. -/
theorem markerNames_eq_ok_iff {found : List String} : markerNames texts more = .ok found ↔
    (∀ name ∈ more, Text.isIdentifier name = true) ∧ found = appendMissing texts more := by
  induction more generalizing texts with
  | nil =>
    rw [markerNames, Except.ok.injEq, eq_comm]
    simp [appendMissing]
  | cons name more ih =>
    rw [markerNames, List.forall_mem_cons]
    cases Text.isIdentifier name with
    | true =>
      rw [if_pos rfl, ih, and_iff_right rfl]
      rfl
    | false => simp

/-- The first name that is no identifier is blamed. -/
theorem markerNames_eq_error_iff : markerNames texts more = .error e ↔
    ∃ name, more.find? (!Text.isIdentifier ·) = some name ∧
      e = .invalidOption "function_names" ("'" ++ name ++ "' is not a valid identifier") := by
  induction more generalizing texts with
  | nil => simp [markerNames]
  | cons name more ih =>
    rw [markerNames, List.find?_cons]
    cases Text.isIdentifier name with
    | true =>
      rw [if_pos rfl, ih]
      rfl
    | false => simp [eq_comm]

/-! ## Resolving -/

section Resolving

variable {config : Config} {resolved : Resolved}

/-- Looking for the root does not complain about an option. -/
theorem ScanConfig.canonicalRoot_ne_invalidOption {c : ScanConfig} (option reason : String) :
    c.canonicalRoot fs ≠ .error (.invalidOption option reason) := by
  unfold canonicalRoot
  split
  · split
    · simp
    · split <;> simp
  · simp

/-- A wrong name is the answer if nothing that is looked at before is wrong. -/
theorem Config.resolve_eq_names_error_iff {reason : String} :
    config.resolve fs = .error (.invalidOption "function_names" reason) ↔
      (∃ root, config.scan.canonicalRoot fs = .ok root) ∧ config.scan.includes.isEmpty = false ∧
        Text.isBlankText config.scan.moduleName = false ∧
        markerNames [] (defaultMarker :: config.scan.markers) =
          .error (.invalidOption "function_names" reason) := by
  unfold Config.resolve
  simp only [bind, Except.bind, throw, throwThe, MonadExceptOf.throw, pure, Except.pure]
  cases hRoot : config.scan.canonicalRoot fs with
  | error e =>
    simp only [Except.error.injEq, reduceCtorEq, exists_false, false_and, iff_false]
    rintro rfl
    exact ScanConfig.canonicalRoot_ne_invalidOption _ _ hRoot
  | ok root =>
    cases config.scan.includes.isEmpty with
    | true => simp
    | false =>
      cases Text.isBlankText config.scan.moduleName with
      | true => simp
      | false =>
        cases markerNames [] (defaultMarker :: config.scan.markers) with
        | error e => simp
        | ok found =>
          -- only the output is left to be wrong
          refine iff_of_false ?_ (by simp)
          simp only [Bool.false_eq_true, if_false]
          split <;> simp

/-- What is absolute and without detours stays as it is. -/
theorem Path.absolutize_again {base : Path} (hBase : base.isAbsolute = true) (p : Path) :
    (absolutize base (absolutize base p).toPath).toPath = (absolutize base p).toPath := by
  obtain ⟨names, hNames, hPath⟩ := absolutize_isCanonical hBase p
  rw [hPath, Route.absolutize_toPath hNames]

/-- Marker names that were found are found again, and no more of them. -/
theorem markerNames_again {names markers : List String}
    (h : markerNames [] (defaultMarker :: names) = .ok markers) :
    markerNames [] (defaultMarker :: markers) = .ok markers := by
  obtain ⟨hIdentifiers, hFound⟩ := markerNames_eq_ok_iff.mp h
  rw [appendMissing_nil] at hFound
  rw [markerNames_eq_ok_iff, appendMissing_nil, hFound]
  refine ⟨fun name hMem => hIdentifiers name ?_, (eraseDups_again _ _).symm⟩
  rcases List.mem_cons.mp hMem with rfl | hMem
  · exact List.mem_cons_self
  · exact List.mem_eraseDups.mp hMem

/-- What was resolved is resolved to itself. -/
theorem Config.resolve_toConfig (hSound : fs.IsSound) (h : config.resolve fs = .ok resolved) :
    resolved.toConfig.resolve fs = .ok resolved := by
  obtain ⟨hRoot, hEq⟩ := Config.eq_of_resolve h
  obtain ⟨hIncludes, hModule, hMarkers, hOutput⟩ := Config.checks_of_resolve h
  have hAbsolute := ScanConfig.canonicalRoot_isAbsolute hRoot
  -- each field is what it would be made of; the others are taken over as they are
  have hExcludes : appendMissing resolved.excludes standardExcludes = resolved.excludes := by
    rw [congrArg Resolved.excludes hEq]
    exact appendMissing_again _ _
  have hPath : (absolutize resolved.root resolved.output).toPath = resolved.output := by
    rw [congrArg Resolved.output hEq]
    exact absolutize_again hAbsolute _
  have hIgnoreFile : resolved.ignoreFile.map (fun path => (absolutize resolved.root path).toPath) =
      resolved.ignoreFile := by
    rw [congrArg Resolved.ignoreFile hEq, Option.map_map]
    exact congrArg (Option.map · config.scan.ignoreFile)
      (funext fun path => absolutize_again hAbsolute path)
  have hNames := markerNames_again hMarkers
  have hRootAgain : resolved.toConfig.scan.canonicalRoot fs = .ok resolved.root :=
    ScanConfig.canonicalRoot_again hSound hRoot
  have hIncludesAgain : resolved.toConfig.scan.includes.isEmpty = false := by
    rw [← hIncludes]
    exact congrArg (fun other : Resolved => other.includes.isEmpty) hEq
  have hModuleAgain : Text.isBlankText resolved.toConfig.scan.moduleName = false := by
    rw [← hModule]
    exact congrArg (fun other : Resolved => Text.isBlankText other.moduleName) hEq
  have hOutputAgain : fs.isDirectory
      (absolutize resolved.root resolved.toConfig.scan.output).toPath = false := by
    rw [← hOutput]
    exact congrArg fs.isDirectory hPath
  rw [Config.resolve_of hRootAgain hIncludesAgain hModuleAgain hNames hOutputAgain]
  show Except.ok { resolved with
    excludes := appendMissing resolved.excludes standardExcludes
    output := (absolutize resolved.root resolved.output).toPath
    ignoreFile := resolved.ignoreFile.map fun path => (absolutize resolved.root path).toPath } = _
  rw [hExcludes, hPath, hIgnoreFile]

/-- Resolving is a projection, on every file system. What was resolved is resolved to itself. Its
names are the default one and the configured ones, each where it comes up first; its excludes are
the configured ones and then the standard ones that are missing. Names are the reason to fail if and
only if all that is checked before them is right and one of them is no identifier; the first one is
blamed. -/
theorem Config.resolve_projection (hSound : fs.IsSound) :
    (∀ resolved, config.resolve fs = .ok resolved →
      resolved.toConfig.resolve fs = .ok resolved ∧
        resolved.markers = (defaultMarker :: config.scan.markers).eraseDups ∧
        resolved.markers.Nodup ∧
        (∀ name ∈ resolved.markers, Text.isIdentifier name = true) ∧
        resolved.excludes = config.scan.excludes ++
          standardExcludes.filter (!config.scan.excludes.contains ·)) ∧
      ∀ reason, config.resolve fs = .error (.invalidOption "function_names" reason) ↔
        (∃ root, config.scan.canonicalRoot fs = .ok root) ∧ config.scan.includes ≠ [] ∧
          Text.isBlankText config.scan.moduleName = false ∧
          ∃ name, config.scan.markers.find? (!Text.isIdentifier ·) = some name ∧
            reason = "'" ++ name ++ "' is not a valid identifier" := by
  -- the default name is an identifier, so only a configured one can be blamed
  have hDefault : Text.isIdentifier defaultMarker = true := by decide +kernel
  refine ⟨fun resolved h => ⟨Config.resolve_toConfig hSound h, ?_⟩, fun reason => ?_⟩
  · obtain ⟨hIdentifiers, hFound⟩ :=
      markerNames_eq_ok_iff.mp (Config.checks_of_resolve h).2.2.1
    rw [appendMissing_nil] at hFound
    rw [hFound]
    refine ⟨rfl, nodup_eraseDups _, fun name hMem =>
      hIdentifiers name (List.mem_eraseDups.mp hMem), ?_⟩
    have hStandard : standardExcludes.Nodup := by decide
    rw [congrArg Resolved.excludes (Config.eq_of_resolve h).2, appendMissing_eq,
      eraseDups_of_nodup (hStandard.filter _)]
  · rw [Config.resolve_eq_names_error_iff, markerNames_eq_error_iff, List.find?_cons, hDefault]
    simp only [Bool.not_true, ConfigError.invalidOption.injEq, true_and, List.isEmpty_eq_false_iff]

end Resolving

/-! ## A project behind a link -/

namespace Linked

/-- A project that a link leads to. -/
def project : FileSystem where
  entries := [([.text "l"], .link "r"), ([.text "r"], .directory)]

/-- A configuration of the project with repetitions and detours. -/
def config : Config where
  scan := {
    root := ⟨"/l"⟩
    markers := ["useKey", "qk", "useKey"]
    excludes := ["**/vite.config.*"]
    output := ⟨"gen/../out.d.ts"⟩
    ignoreFile := some ⟨"./.qkignore"⟩
    moduleName := "m" }

/-- What the configuration is resolved to. -/
def resolved : Resolved where
  root := ⟨"/r"⟩
  includes := config.scan.includes
  excludes := ["**/vite.config.*", "**/node_modules/**"]
  markers := ["qk", "useKey"]
  output := ⟨"/r/out.d.ts"⟩
  moduleName := "m"
  ignoreFile := some ⟨"/r/.qkignore"⟩
  respectIgnores := true
  verbose := false
  watch := {}

/-- The project is a sound file system, with a link in it. -/
theorem project_isSound : project.IsSound := by
  have hListed : ∀ item ∈ project.entries,
      project.at? item.1.dropLast = some .directory ∧
        ∀ name ∈ item.1, ∀ text, name = .text text → FileSystem.Storable text := by
    rintro item hItem
    rcases List.mem_cons.mp hItem with rfl | hItem
    · exact ⟨rfl, by simp; decide⟩
    · rw [List.mem_singleton.mp hItem]
      exact ⟨rfl, by simp; decide⟩
  refine ⟨fun place hSome => ?_,
    fun item hItem text hText => (hListed item hItem).2 _ hText text rfl⟩
  by_cases hTop : place = []
  · rw [hTop]
    rfl
  · obtain ⟨entry, hEntry⟩ := Option.isSome_iff_exists.mp hSome
    rw [FileSystem.at?, if_neg hTop] at hEntry
    exact (hListed _ (FileSystem.mem_of_lookup hEntry)).1

theorem canonicalRoot : config.scan.canonicalRoot project = .ok ⟨"/r"⟩ :=
  ScanConfig.canonicalRoot_eq_ok_iff.mpr ⟨["r"], by cbv, rfl, by decide +kernel, rfl⟩

theorem isDirectory_output : project.isDirectory ⟨"/r/out.d.ts"⟩ = false := by
  have hShort : ¬ "/r/out.d.ts".utf8ByteSize ≥ FileSystem.pathLimit := by decide
  have hNames : ¬ "r".utf8ByteSize > FileSystem.nameLimit ∧
      ¬ "out.d.ts".utf8ByteSize > FileSystem.nameLimit := by decide
  have hPieces : Text.piecesOf '/' "/r/out.d.ts" = ["", "r", "out.d.ts"] := by decide
  have hTop : project.at? [] = some .directory := rfl
  have hRoot : project.at? [.text "r"] = some .directory := rfl
  have hNone : project.at? [.text "r", .text "out.d.ts"] = none := rfl
  have hLocate : project.locate ⟨"/r/out.d.ts"⟩ = .error .notFound := by
    rw [FileSystem.locate, FileSystem.find, if_neg (by decide), if_neg (by decide), if_neg hShort,
      if_pos (by decide), hPieces]
    simp [FileSystem.descend, hNames, hTop, hRoot, hNone]
  rw [FileSystem.isDirectory, FileSystem.lookup, hLocate]
  rfl

theorem resolve_config : config.resolve project = .ok resolved := by
  have hMarkers : markerNames [] (defaultMarker :: config.scan.markers) = .ok resolved.markers := by
    rw [markerNames_eq_ok_iff]
    decide +kernel
  have hOutput : (absolutize ⟨"/r"⟩ config.scan.output).toPath = ⟨"/r/out.d.ts"⟩ := by
    decide +kernel
  have hIgnoreFile : (absolutize ⟨"/r"⟩ ⟨"./.qkignore"⟩).toPath = ⟨"/r/.qkignore"⟩ := by
    decide +kernel
  have hNoDirectory :
      project.isDirectory (absolutize ⟨"/r"⟩ config.scan.output).toPath = false := by
    rw [hOutput]
    exact isDirectory_output
  rw [Config.resolve_of canonicalRoot rfl (by decide) hMarkers hNoDirectory, hOutput]
  show Except.ok { resolved with
    ignoreFile := some (absolutize ⟨"/r"⟩ ⟨"./.qkignore"⟩).toPath } = _
  rw [hIgnoreFile]
  rfl

end Linked

/-- Behind a link the settings stay as they are when they are resolved again, and a wrong name is
blamed. -/
theorem Config.resolve_projection_of_linked :
    Linked.resolved.toConfig.resolve Linked.project = .ok Linked.resolved ∧
      ({ Linked.config with scan := { Linked.config.scan with
        markers := ["useKey", "use-key"] } }).resolve Linked.project =
          .error (.invalidOption "function_names" "'use-key' is not a valid identifier") := by
  have hNames : (["useKey", "use-key"].find? (!Text.isIdentifier ·)) = some "use-key" := by
    decide +kernel
  refine ⟨((Config.resolve_projection Linked.project_isSound).1 _ Linked.resolve_config).1,
    ((Config.resolve_projection Linked.project_isSound).2 _).mpr ?_⟩
  exact ⟨⟨_, Linked.canonicalRoot⟩, by simp [Linked.config], by decide, _, hNames, rfl⟩

end KeyRegistry

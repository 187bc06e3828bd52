import KeyRegistry.Proofs.Scan.Pruning

/-!
# Files that are heard but not read

The filter of events is meant to forward an event only for a file that the next scan reads. It
forwards more, and the cases are made out here exactly. The walk does not enter a directory that is
ignored, and it asks all `.ignore` files before any `.gitignore`; the filter lets the nearest rule
decide, so a rule that allows the file, or something near it, keeps a rule about a directory farther
up from being heard. The filter does not read `.git/info/exclude`, does not know the rules that the
user keeps for all projects, and asks nobody above the root. And a hollow exclude keeps the walk out
of all directories, though it excludes nothing.

In all other cases the walk comes to a file that the filter lets pass: a directory of dependencies
is excluded, a directory of version control is hidden, and what lies in a directory that an exclude
covers is excluded too.

Main definitions:

* `Walk.Denies` — the walk goes by a rule that ignores, and the filter does not

Main statements:

* `Walk.denies_of_verdict` — why a file that is ignored for the walk passes the filter
* `Scanner.unread_iff` — for which files events are forwarded in vain
-/

namespace KeyRegistry

open KeyRegistry.Path Ignore

variable {fs : FileSystem} {m : Matcher} {names root below excludes : List String}
  {top item : Nat}

/-! ## Directories of dependencies -/

namespace Glob

theorem afterBytes_append (next : List UInt8 → Bool) (bytes s : List UInt8) :
    afterBytes next bytes (bytes ++ s) = next s := by
  induction bytes with
  | nil => rfl
  | cons b bytes ih => rw [List.cons_append, afterBytes, beq_self_eq_true, Bool.true_and, ih]

/-- A text is accepted by its characters. -/
theorem acceptsAll_literals (next : List UInt8 → Bool) (text : List Char) (s : List UInt8) :
    acceptsAll (text.map .literal) next (text.flatMap String.utf8EncodeChar ++ s) = next s := by
  induction text with
  | nil => rw [List.map_nil, acceptsAll, List.flatMap_nil, List.nil_append]
  | cons c text ih =>
    have hBytes : charBytes c = String.utf8EncodeChar c := by
      rw [charBytes, Text.toList_toUTF8, Text.bytes_eq]
      simp
    rw [List.map_cons, acceptsAll, Token.accepts, List.flatMap_cons, List.append_assoc, hBytes,
      afterBytes_append, ih]

theorem afterSlash_of_next {next : List UInt8 → Bool} {s : List UInt8} (h : next s = true)
    (front : List UInt8) : afterSlash next (front ++ slash :: s) = true := by
  induction front with
  | nil => rw [List.nil_append, afterSlash, h, beq_self_eq_true]; rfl
  | cons b front ih => rw [List.cons_append, afterSlash, ih, Bool.or_true]

/-- The glob of a name matches every path that ends in the name. -/
theorem matchesPath_ofName {name : String} (hDot : (ofName name []).asksForDot = false)
    (above : List String) :
    (ofName name []).matchesPath (Text.joinAll '/' (above ++ [name])) = true := by
  have hTokens : (ofName name []).tokens = .anyAbove :: name.toList.map .literal := by
    rw [ofName, List.append_nil]
  have hName : acceptsAll (name.toList.map .literal) List.isEmpty name.toUTF8.toList = true := by
    have hEnd := acceptsAll_literals List.isEmpty name.toList []
    rwa [List.append_nil, ← Text.bytes_eq, ← Text.toList_toUTF8] at hEnd
  -- the name is the whole path, or it stands behind a slash
  have hAccepts : acceptsAll (ofName name []).tokens List.isEmpty
      (Text.joinAll '/' (above ++ [name])).toUTF8.toList = true := by
    rw [hTokens, acceptsAll, Token.accepts, Bool.or_eq_true]
    have hAlone : Text.joinAll '/' [name] = name := by simp [Text.joinAll, Text.join]
    by_cases hAbove : above = []
    · rw [hAbove, List.nil_append, hAlone]
      exact Or.inl hName
    · have hBytes : (Text.joinAll '/' above ++ "/" ++ name).toUTF8.toList =
          (Text.joinAll '/' above).toUTF8.toList ++ slash :: name.toUTF8.toList := by
        simp only [Text.toList_toUTF8, Text.bytes_eq, String.toList_append, List.flatMap_append]
        simp [slash, String.utf8EncodeChar]
      rw [Route.joinAll_append hAbove (by simp), hAlone, hBytes]
      exact Or.inr (afterSlash_of_next hName _)
  unfold matchesPath
  split
  · rfl
  · dsimp only
    rw [hAccepts, hDot]
    rfl

end Glob

/-- Directories of dependencies are left out, with what lies in them. -/
theorem Matcher.PrunesByGlobs.isExcludedDirectory_dependencies {way : List String}
    (h : m.PrunesByGlobs excludes root)
    (hStandard : ∀ exclude ∈ standardExcludes, exclude ∈ excludes)
    (hWay : ∀ name ∈ way, IsName name) (hLast : way.getLast? = some "node_modules") :
    m.isExcludedDirectory (Route.toPath ⟨true, root ++ way⟩) = true := by
  obtain ⟨above, rfl⟩ := List.getLast?_eq_some_iff.mp hLast
  have hRead : Glob.read false "**/node_modules" = .ok (.ofName "node_modules" []) := by cbv
  have hCovers : Matcher.directoryGlob? "**/node_modules/**" = some "**/node_modules" := by cbv
  exact (h.isExcludedDirectory_iff hWay (by simp)).mpr ⟨"**/node_modules/**",
    hStandard _ (by decide), _, _, hCovers, hRead,
    Glob.matchesPath_ofName (by decide) above⟩

/-! ## Rules that ignore -/

/-- A verdict of the rule files is the opinion of some of them. -/
theorem Walk.exists_opinion_of_fileVerdict? (hNames : ∀ name ∈ names, IsName name)
    (hItem : item ≤ names.length) {verdict : Verdict}
    (h : Walk.fileVerdict? fs (names.take item) (item < names.length) = some verdict) :
    ∃ file ∈ ruleFiles, ∃ above, above < item ∧
      Walk.opinion? fs file names above item = some verdict ∧
        (file = [".gitignore"] →
          ∀ other, other < item → Walk.opinion? fs [".ignore"] names other item = none) := by
  rw [Walk.fileVerdict?_eq hNames hItem] at h
  obtain ⟨stronger, file, weaker, hFiles, hFile, hStronger⟩ := List.findSome?_eq_some_iff.mp h
  obtain ⟨above, hAbove, hSays, -⟩ := (findSome?_reverse_range _).mp hFile
  refine ⟨file, by rw [hFiles]; simp, above, hAbove, hSays, ?_⟩
  intro hGit
  -- the `.ignore` files come first, and they say nothing
  have hOwn : [".ignore"] ∈ stronger := by
    cases stronger with
    | nil =>
      have hFirst := (List.cons.inj hFiles).1
      rw [hGit] at hFirst
      exact absurd hFirst (by decide)
    | cons first others =>
      rw [(List.cons.inj hFiles).1]
      exact List.mem_cons_self
  exact (findSome?_reverse_range_eq_none _).mp (hStronger _ hOwn)

/-- An entry on the way to a file is ignored for the walk by a rule that the filter does not go by.
The rule is one of the user, and no rule file of a directory says anything; or the rule stands above
the root or in a `.git/info/exclude`; or the file is settled for the filter by a rule that allows,
one of a nearer directory or one about a nearer entry. -/
def Walk.Denies (fs : FileSystem) (names : List String) (top : Nat) : Prop :=
  ∃ item, top < item ∧ item ≤ names.length ∧
    Walk.verdict? fs (names.take item) (item < names.length) = some .ignored ∧
    (Walk.fileVerdict? fs (names.take item) (item < names.length) = none ∨
      ∃ file ∈ ruleFiles, ∃ above, above < item ∧
        Walk.opinion? fs file names above item = some .ignored ∧
        (above < top ∨ file = [".git", "info", "exclude"] ∨
          ∃ depth other, Matcher.Decides fs names top depth other .allowed ∧
            (above < depth ∨ above = depth ∧ item < other)))

/-- If an entry is ignored for the walk, and no rule that ignores settles the file for the filter,
then the filter does not go by the rule that the walk goes by. -/
theorem Walk.denies_of_verdict (hNames : ∀ name ∈ names, IsName name) (hTop : top < item)
    (hItem : item ≤ names.length)
    (hVerdict : Walk.verdict? fs (names.take item) (item < names.length) = some .ignored)
    (hHeard : ∀ depth other, ¬ Matcher.Decides fs names top depth other .ignored) :
    Walk.Denies fs names top := by
  refine ⟨item, hTop, hItem, hVerdict, ?_⟩
  -- where no rule file says anything, the verdict is the user's own
  cases hOwn : Walk.fileVerdict? fs (names.take item) (item < names.length) with
  | none => exact Or.inl rfl
  | some verdict =>
  rw [Walk.verdict?_of_file hOwn] at hVerdict
  obtain rfl : verdict = .ignored := Option.some.inj hVerdict
  obtain ⟨file, hFile, above, hAbove, hSays, hWeaker⟩ :=
    Walk.exists_opinion_of_fileVerdict? hNames hItem hOwn
  refine Or.inr ⟨file, hFile, above, hAbove, hSays, ?_⟩
  by_cases hOutside : above < top
  · exact Or.inl hOutside
  by_cases hExclude : file = [".git", "info", "exclude"]
  · exact Or.inr (Or.inl hExclude)
  refine Or.inr (Or.inr ?_)
  -- the rule stands in a file that the filter reads, so the filter knows the opinion
  have hOpinion : Matcher.opinion? fs names above item = some .ignored := by
    rw [Matcher.opinion?_eq_some_iff]
    simp only [ruleFiles, List.mem_cons, List.not_mem_nil, or_false, hExclude] at hFile
    rcases hFile with rfl | rfl
    · exact Or.inl hSays
    · exact Or.inr ⟨hWeaker rfl above hAbove, hSays⟩
  obtain ⟨depth, other, settled, hDecides, hNearer⟩ :=
    Matcher.exists_decides (Nat.le_of_not_lt hOutside) (by omega) hAbove.le hItem hOpinion
  cases settled with
  | ignored => exact absurd hDecides (hHeard depth other)
  | allowed =>
    refine ⟨depth, other, hDecides, ?_⟩
    rcases hNearer with hBelow | ⟨hSame, hEntry⟩
    · exact Or.inl hBelow
    · refine Or.inr ⟨hSame, Nat.lt_of_le_of_ne hEntry ?_⟩
      -- about the entry itself the directory says something else
      rintro rfl
      have hAllowed := hDecides.opinion
      rw [← hSame, hOpinion] at hAllowed
      cases hAllowed

/-- What a rule ignores on the way to a file keeps the walk from it. -/
theorem Walk.reaches_of_denies (hRespect : m.respectIgnores = true)
    (h : Walk.Denies fs (root ++ below) root.length) : Walk.reaches m fs root below = false := by
  obtain ⟨item, hTop, hItem, hVerdict, -⟩ := h
  rw [← Bool.not_eq_true]
  intro hReaches
  have hKept := Walk.isIgnored_of_reaches hReaches hRespect hTop hItem
  rw [Walk.isIgnored, hVerdict] at hKept
  cases hKept

/-! ## The way to a file that passes the filter -/

/-- What is ignored for the walk, and not hidden, is ignored by a rule. -/
theorem Walk.verdict?_of_isIgnored {isDirectory : Bool}
    (hIgnored : Walk.isIgnored fs names isDirectory = true)
    (hSeen : ∀ name, names.getLast? = some name → name.toList.head? ≠ some '.') :
    Walk.verdict? fs names isDirectory = some .ignored := by
  rw [Walk.isIgnored] at hIgnored
  -- without a verdict only a hidden name is ignored, and this one is not
  cases hVerdict : Walk.verdict? fs names isDirectory with
  | some verdict =>
    rw [hVerdict] at hIgnored
    rw [beq_iff_eq.mp hIgnored]
  | none =>
    rw [hVerdict] at hIgnored
    cases hLast : names.getLast? with
    | none =>
      rw [hLast] at hIgnored
      cases hIgnored
    | some name =>
      rw [hLast] at hIgnored
      refine absurd ?_ (hSeen name hLast)
      simp only [Option.map_some, Option.getD_some, isHidden, Bool.and_eq_true,
        beq_iff_eq] at hIgnored
      exact hIgnored.1

/-- If nothing is denied on the way to a file that is not hidden, then nothing on the way is ignored
for the walk: a rule that ignored it would be one that is denied. -/
theorem Walk.isIgnored_of_not_denies {front back : List String}
    (hNames : ∀ name ∈ root ++ (front ++ back), IsName name) (hFront : front ≠ [])
    (hSeen : ∀ name ∈ front, name.toList.head? ≠ some '.')
    (hHeard : ∀ depth other,
      ¬ Matcher.Decides fs (root ++ (front ++ back)) root.length depth other .ignored)
    (hKept : ¬ Walk.Denies fs (root ++ (front ++ back)) root.length) :
    Walk.isIgnored fs (root ++ front) (back ≠ []) = false := by
  rw [← Bool.not_eq_true]
  intro hIgnored
  have hFrontLength := List.length_pos_iff.mpr hFront
  -- the entry is the one at the length of its names, and a directory unless it is the last one
  have hTake : root ++ front = (root ++ (front ++ back)).take (root.length + front.length) := by
    rw [List.take_length_add_append, List.take_left]
  have hInside : decide (back ≠ []) =
      decide (root.length + front.length < (root ++ (front ++ back)).length) := by
    rw [decide_eq_decide, List.length_append, List.length_append, ← List.length_pos_iff]
    omega
  have hVerdict := Walk.verdict?_of_isIgnored hIgnored fun name hLast => by
    rw [List.getLast?_append_of_ne_nil _ hFront] at hLast
    exact hSeen name (List.mem_of_getLast? hLast)
  rw [hTake, hInside] at hVerdict
  refine hKept (Walk.denies_of_verdict hNames (by omega) ?_ hVerdict hHeard)
  rw [List.length_append, List.length_append]
  omega

/-- The walk enters a directory that is neither ignored nor hidden, if no exclude covers it: the
directories of dependencies are covered, and those of version control are hidden. -/
theorem Matcher.PrunesByGlobs.enters {way : List String} (h : m.PrunesByGlobs excludes root)
    (hStandard : ∀ exclude ∈ standardExcludes, exclude ∈ excludes) (hMore : way ≠ [])
    (hWay : ∀ name ∈ way, IsName name) (hSeen : ∀ name ∈ way, name.toList.head? ≠ some '.')
    (hIgnored : Walk.isIgnored fs (root ++ way) true = false)
    (hCovered : m.isExcludedDirectory (Route.toPath ⟨true, root ++ way⟩) = false) :
    Walk.enters m fs (root ++ way) = true := by
  have hLast : ∀ name ∈ Walk.neverEntered, (root ++ way).getLast? ≠ some name := by
    intro name hNever hLast
    rw [List.getLast?_append_of_ne_nil _ hMore] at hLast
    simp only [Walk.neverEntered, List.mem_cons, List.not_mem_nil, or_false] at hNever
    rcases hNever with rfl | rfl
    · rw [h.isExcludedDirectory_dependencies hStandard hWay hLast] at hCovered
      cases hCovered
    · exact hSeen ".git" (List.mem_of_getLast? hLast) (by decide)
  rw [Walk.enters, hIgnored, hCovered, Bool.and_false, Bool.not_false, Bool.true_and,
    Bool.and_true, Bool.not_eq_true', List.any_eq_false]
  intro name hNever
  rw [beq_iff_eq]
  exact hLast name hNever

/-- The walk comes to a file that passes the filter, if nothing is denied on the way and no
directory is left out by a hollow exclude. -/
theorem Walk.reaches_of_passes (h : m.PrunesByGlobs excludes root)
    (hStandard : ∀ exclude ∈ standardExcludes, exclude ∈ excludes)
    (hFull : 1 < below.length → ∀ exclude ∈ excludes, ¬ Glob.IsHollow exclude)
    (hNames : ∀ name ∈ root ++ below, IsName name) (hMore : below ≠ [])
    (hChosen : m.isCandidate (Route.toPath ⟨true, root ++ below⟩) = true)
    (hSeen : ∀ name ∈ below, name.toList.head? ≠ some '.')
    (hHeard : ∀ depth other, ¬ Matcher.Decides fs (root ++ below) root.length depth other .ignored)
    (hKept : ¬ Walk.Denies fs (root ++ below) root.length) :
    Walk.reaches m fs root below = true := by
  refine Walk.reaches_eq_true_iff.mpr ⟨?_, fun _ => ?_⟩
  · rintro front back rfl hFront hBack
    have hBelow := (List.forall_mem_append.mp hNames).2
    have hSeenFront : ∀ name ∈ front, name.toList.head? ≠ some '.' := fun name hMem =>
      hSeen name (List.mem_append_left _ hMem)
    have hIgnored := Walk.isIgnored_of_not_denies hNames hFront hSeenFront hHeard hKept
    rw [decide_eq_true hBack] at hIgnored
    refine h.enters hStandard hFront (List.forall_mem_append.mp hBelow).1 hSeenFront hIgnored ?_
    -- a directory that is left out would have the file excluded
    rw [← Bool.not_eq_true]
    intro hLeft
    have hDeep : 1 < (front ++ back).length := by
      have hFrontLength := List.length_pos_iff.mpr hFront
      have hBackLength := List.length_pos_iff.mpr hBack
      rw [List.length_append]
      omega
    have hNotChosen := h.excluded_below (hFull hDeep) hBelow hFront hBack hLeft
    rw [hChosen] at hNotChosen
    cases hNotChosen
  · -- the file itself is the last entry, with nothing behind it
    rw [← List.append_nil below] at hNames hHeard hKept
    have hIgnored := Walk.isIgnored_of_not_denies hNames hMore hSeen hHeard hKept
    rwa [decide_eq_false (by simp)] at hIgnored

/-! ## A file in an ignored directory that a rule allows -/

namespace Buried

/-- A project with a directory that is ignored, and a rule in the directory that allows the file in
it. -/
def project : FileSystem where
  entries := [
    ([.text "r"], .directory),
    ([.text "r", .text ".gitignore"], .file "dist/".toUTF8),
    ([.text "r", .text "dist"], .directory),
    ([.text "r", .text "dist", .text ".gitignore"], .file "!a.ts".toUTF8),
    ([.text "r", .text "dist", .text "a.ts"], .file "qk('a')".toUTF8)]

theorem project_isTree : project.IsTree :=
  FileSystem.isTree_sound (by decide)

/-- The names on the way to the file. -/
def way : List String := ["r", "dist", "a.ts"]

theorem load_outer : Rules.load project (Route.toPath ⟨true, ["r", ".gitignore"]⟩) =
    [⟨.ofName "dist" [], .ignored, true⟩] := by
  rw [Rules.load_of_file project_isTree (by decide) (by decide) rfl]
  cbv

theorem load_inner : Rules.load project (Route.toPath ⟨true, ["r", "dist", ".gitignore"]⟩) =
    [⟨.ofName "a.ts" [], .allowed, false⟩] := by
  rw [Rules.load_of_file project_isTree (by decide) (by decide) rfl]
  cbv

/-- There are no `.ignore` files. -/
theorem opinion?_own (depth item : Nat) :
    Walk.opinion? project [".ignore"] way depth item = none := by
  have hNames : ∀ name ∈ way.take depth ++ [".ignore"], IsName name :=
    List.forall_mem_append.mpr ⟨fun name hMem =>
      (by decide : ∀ name ∈ way, IsName name) name (List.mem_of_mem_take hMem), by decide⟩
  have hLoad : Rules.load project (Route.toPath ⟨true, way.take depth ++ [".ignore"]⟩) = [] := by
    refine Rules.load_of_none project_isTree hNames fun content hFile => ?_
    have hTop : Place.ofNames (way.take depth ++ [".ignore"]) ≠ [] := by simp [Place.ofNames]
    rw [FileSystem.at?, if_neg hTop] at hFile
    have hMem := List.mem_map_of_mem (f := Prod.fst) (FileSystem.mem_of_lookup hFile)
    -- no place in the table ends in the name
    have hLast :
        (Place.ofNames (way.take depth ++ [".ignore"])).getLast? = some (.text ".ignore") := by
      simp [Place.ofNames]
    have hNone :
        ∀ place ∈ project.entries.map Prod.fst, place.getLast? ≠ some (.text ".ignore") := by
      decide
    exact hNone _ hMem hLast
  rw [Walk.opinion?, hLoad]
  rfl

/-- The directory is ignored. -/
theorem verdict?_directory :
    Walk.verdict? project (way.take 2) (2 < way.length) = some .ignored := by
  refine Walk.verdict?_of_nearest (by decide) (by decide)
    (Or.inr ⟨rfl, fun other _ => opinion?_own other 2⟩) (by decide : 1 < 2) ?_ ?_
  · rw [Walk.opinion?, show way.take 1 ++ [".gitignore"] = ["r", ".gitignore"] from rfl, load_outer]
    decide +kernel
  · intro other hAbove hBelow
    omega

/-- The file is allowed by the directory. -/
theorem opinion?_file : Matcher.opinion? project way 2 3 = some .allowed := by
  refine Matcher.opinion?_eq_some_iff.mpr (Or.inr ⟨opinion?_own 2 3, ?_⟩)
  rw [Walk.opinion?, show way.take 2 ++ [".gitignore"] = ["r", "dist", ".gitignore"] from rfl,
    load_inner]
  decide +kernel

/-- So no rule that ignores settles the file for the filter. -/
theorem not_decides (depth item : Nat) : ¬ Matcher.Decides project way 1 depth item .ignored := by
  rintro ⟨⟨-, hDepth⟩, ⟨hItem, hEnd⟩, hSays, hNearer, hBelow⟩
  have hLength : way.length = 3 := rfl
  -- rules further out are overruled by the nearer ones, and those do not ignore the file
  by_cases hOuter : depth < 2
  · have hNone := hBelow 2 3 hOuter (by decide) (by decide) (by decide)
    rw [opinion?_file] at hNone
    cases hNone
  · obtain rfl : depth = 2 := by omega
    by_cases hDirectory : item = 2
    · have hNone := hNearer 3 (by omega) (by decide)
      rw [opinion?_file] at hNone
      cases hNone
    · obtain rfl : item = 3 := by omega
      rw [opinion?_file] at hSays
      cases hSays

/-- The filter lets the file pass. -/
theorem concerns_file :
    Hidden.scanner.concerns project (Route.toPath ⟨true, way⟩) = true := by
  have hChosen : Hidden.scanner.matcher.isCandidate (Route.toPath ⟨true, way⟩) = true := by
    decide +kernel
  have hRoot : Hidden.scanner.matcher.root = Route.toPath ⟨true, ["r"]⟩ := rfl
  have hNames : ∀ name ∈ ["r"] ++ ["dist", "a.ts"], IsName name := by decide
  rw [Scanner.concerns, Bool.or_eq_true]
  refine Or.inr ?_
  rw [← Bool.not_eq_false]
  intro hRefused
  obtain ⟨-, hHidden | ⟨depth, item, hDecides⟩⟩ :=
    (Matcher.isScannable_eq_false_iff hRoot hNames (by simp) hChosen).mp hRefused
  · revert hHidden
    decide
  · exact not_decides depth item hDecides

end Buried

/-! ## The exact condition -/

/-- **Where events are forwarded in vain.** Let the ignore files count, with no ignore file
configured. A file other than the artifact that the filter lets pass is not read by a scan exactly
if it lies in a directory and an exclude is hollow, or if an entry on the way is ignored for the
walk by a rule that the filter does not go by. -/
theorem Scanner.unread_iff {fs₀ fs₁ : FileSystem} {config : Config} {resolved : Resolved}
    {scanner : Scanner} {content : ByteArray} (hStart : fs₀.HasNames) (hFiles : fs.HasNames)
    (hResolved : config.resolve fs₀ = .ok resolved)
    (hScanner : Scanner.new fs₁ resolved = .ok scanner) (hRespect : resolved.respectIgnores = true)
    (hIgnoreFile : resolved.ignoreFile = none) (hBelow : below ≠ [])
    (hFile : fs.at? (Place.ofNames (resolved.root.names ++ below)) = some (.file content))
    (hOther : scanner.matcher.isOutput (Route.toPath ⟨true, resolved.root.names ++ below⟩) = false)
    (hHeard : scanner.concerns fs (Route.toPath ⟨true, resolved.root.names ++ below⟩) = true) :
    Route.toPath ⟨true, resolved.root.names ++ below⟩ ∉ scanner.candidates fs ↔
      (1 < below.length ∧ ∃ exclude ∈ resolved.excludes, Glob.IsHollow exclude) ∨
        Walk.Denies fs (resolved.root.names ++ below) resolved.root.names.length := by
  have hPrunes := Scanner.prunesByGlobs hStart hResolved hScanner hIgnoreFile
  obtain ⟨-, -, -, hSame⟩ := Scanner.new_frame hScanner
  have hRespected : scanner.matcher.respectIgnores = true := hSame.trans hRespect
  have hListed := Walk.mem_filesBelow_of_file hBelow hFile
  have hNames := Walk.names_of_mem_filesBelow hFiles hListed
  generalize resolved.root.names = root at *
  -- the filter lets the file pass, so the globs choose it and nothing settles it as ignored
  rw [Scanner.concerns, hOther, Bool.false_or] at hHeard
  obtain ⟨hChosen, hSeen, hSettled⟩ :=
    Matcher.passes_of_isScannable hPrunes.sameRoot hNames hBelow hRespected hHeard
  have hFound : Route.toPath ⟨true, root ++ below⟩ ∈ scanner.candidates fs ↔
      Walk.reaches scanner.matcher fs root below = true :=
    (Matcher.toPath_mem_candidates hFiles hPrunes.sameRoot hNames).trans
      ((and_iff_right hListed).trans (and_iff_left hChosen))
  rw [hFound, Bool.not_eq_true]
  constructor
  · intro hMissed
    by_contra hNeither
    rw [not_or] at hNeither
    obtain ⟨hFull, hKept⟩ := hNeither
    have hReaches := Walk.reaches_of_passes hPrunes (Config.resolve_excludes hResolved)
      (fun hDeep exclude hMem hHollow => hFull ⟨hDeep, exclude, hMem, hHollow⟩) hNames hBelow
      hChosen hSeen hSettled hKept
    rw [hMissed] at hReaches
    cases hReaches
  · rintro (⟨hDeep, exclude, hExclude, hHollow⟩ | hDenied)
    · exact Walk.reaches_of_isHollow hPrunes hExclude hHollow
        (fun name hMem => hNames name (List.mem_append_right _ hMem)) hDeep
    · exact Walk.reaches_of_denies hRespected hDenied

/-- The filter lets a file pass that lies in an ignored directory, since a rule in the directory
allows it; and no scan reads the file. -/
theorem Scanner.unread_iff_of_buried :
    Hidden.scanner.concerns Buried.project (Route.toPath ⟨true, Buried.way⟩) = true ∧
      Route.toPath ⟨true, Buried.way⟩ ∉ Hidden.scanner.candidates Buried.project := by
  have hRoot := Hidden.root_names
  have hWay : Hidden.resolved.root.names ++ ["dist", "a.ts"] = Buried.way := by
    rw [hRoot]
    rfl
  have hHeard := Buried.concerns_file
  refine ⟨hHeard, ?_⟩
  rw [← hWay] at hHeard ⊢
  have hFile : Buried.project.at? (Place.ofNames (Hidden.resolved.root.names ++ ["dist", "a.ts"])) =
      some (.file "qk('a')".toUTF8) := by
    rw [hWay]
    rfl
  have hOther : Hidden.scanner.matcher.isOutput
      (Route.toPath ⟨true, Hidden.resolved.root.names ++ ["dist", "a.ts"]⟩) = false := by
    decide +kernel
  -- the rules next to the file readmit it, but not the directory that they stand in
  refine (Scanner.unread_iff Hidden.project_isTree.names Buried.project_isTree.names
    Hidden.resolve_config Hidden.new_scanner rfl rfl (by simp) hFile hOther hHeard).mpr (Or.inr ?_)
  rw [hWay, hRoot]
  exact Walk.denies_of_verdict (by decide) (by decide) (by decide) Buried.verdict?_directory
    Buried.not_decides

end KeyRegistry

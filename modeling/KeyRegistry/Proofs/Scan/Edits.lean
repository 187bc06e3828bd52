import KeyRegistry.Proofs.Pass.Progress

/-!
# Edits by others

Others create, change and delete files of a project. An edit that concerns the project is an edit of
the artifact, of the root itself, or of a file below the root that the filter takes events for. Only
edits of the last kind change what a scan finds, and no edit changes what the filter takes.

Main definitions:

* `Scanner.Edits` — an edit of one path that concerns the project
* `Scanner.Hears` — events for a path below the root are taken

Main statements:

* `Scanner.Edits.hears_iff` — an edit does not change what is heard
* `Scanner.Edits.sees` — an edit that is not heard does not change what a scan finds
-/

namespace KeyRegistry

open KeyRegistry.Path FileSystem

namespace Scanner

variable {s : Scanner} {fs before after : FileSystem} {names : List String} {path : Path}

/-- Somebody else creates, changes or deletes what is at one path that concerns the project, before
or afterwards. Directories may be made for it, and the disk may become another one. -/
structure Edits (s : Scanner) (before after : FileSystem) (names : List String) : Prop where
  proper   : ∀ name ∈ names, IsName name
  tree     : after.IsTree
  only     : OnlyAt (Place.ofNames names) before after
  concerns : s.concerns before (Route.toPath ⟨true, names⟩) = true ∨
    s.concerns after (Route.toPath ⟨true, names⟩) = true

/-- The path lies below the root, and the filter takes events for it. -/
structure Hears (s : Scanner) (fs : FileSystem) (path : Path) : Prop where
  below     : ∃ below, below ≠ [] ∧ (∀ name ∈ below, IsName name) ∧
    path = Route.toPath ⟨true, s.config.root.names ++ below⟩
  scannable : s.matcher.isScannable fs path = true

/-! ## What an edit is about -/

/-- What concerns the project is the artifact, the root itself, or heard. -/
theorem cases_of_concerns (hScanner : s.IsCanonical) (hNames : ∀ name ∈ names, IsName name)
    (h : s.concerns fs (Route.toPath ⟨true, names⟩) = true) :
    names = s.config.output.names ∨ names = s.config.root.names ∨
      s.Hears fs (Route.toPath ⟨true, names⟩) := by
  rw [concerns, Bool.or_eq_true, isOutput_iff hScanner hNames] at h
  rcases h with hOutput | hScannable
  · exact Or.inl hOutput
  have hCandidate := Matcher.isCandidate_of_isScannable hScannable
  -- a scannable path lies below the root, and may be the root itself
  obtain ⟨-, relative, hRelative⟩ := Matcher.seen_of_isCandidate hCandidate
  rw [Matcher.relative?, if_pos Route.isAbsolute_toPath_rooted, hScanner.sameRoot,
    ← hScanner.root.toPath_names] at hRelative
  obtain ⟨below, rfl⟩ := Route.prefix_of_relativeTo? hScanner.root.names hNames hRelative
  by_cases hMore : below = []
  · exact Or.inr (Or.inl (by rw [hMore, List.append_nil]))
  · refine Or.inr (Or.inr ⟨⟨below, hMore, fun name hMem => ?_, rfl⟩, hScannable⟩)
    exact hNames name (List.mem_append_right _ hMem)

/-- A file of ignore rules below the root is not heard, if the rules count. -/
theorem Hears.ne_ruleFile (hScanner : s.IsCanonical)
    (hHears : s.Hears fs (Route.toPath ⟨true, names⟩)) (hNames : ∀ name ∈ names, IsName name)
    (hRespect : s.config.respectIgnores = true) (more : List String) {file : List String}
    (hFile : file ∈ [[".ignore"], [".gitignore"]]) :
    names ≠ s.config.root.names ++ more ++ file := by
  obtain ⟨⟨below, hMore, hBelow, hPath⟩, hScannable⟩ := hHears
  have hAll : ∀ name ∈ s.config.root.names ++ below, IsName name :=
    List.forall_mem_append.mpr ⟨hScanner.root.names, hBelow⟩
  have hEq := Route.toPath_inj hNames hAll hPath
  subst hEq
  intro hRule
  rw [List.append_assoc, List.append_cancel_left_eq] at hRule
  subst hRule
  -- the name of the rule file starts with a dot, so the filter would not have taken it
  have hHidden : ∃ name ∈ more ++ file, name.toList.head? = some '.' := by
    have hDots : ∀ file ∈ [[".ignore"], [".gitignore"]], ∃ name ∈ file,
        name.toList.head? = some '.' := by decide
    obtain ⟨name, hName, hDot⟩ := hDots file hFile
    exact ⟨name, List.mem_append_right _ hName, hDot⟩
  have hCandidate := Matcher.isCandidate_of_isScannable hScannable
  have hDeaf : s.matcher.isScannable fs
      (Route.toPath ⟨true, s.config.root.names ++ (more ++ file)⟩) = false :=
    (Matcher.isScannable_eq_false_iff hScanner.matcher_root hAll hMore hCandidate).mpr
      ⟨hScanner.sameRespect.trans hRespect, Or.inl hHidden⟩
  rw [hScannable] at hDeaf
  cases hDeaf

/-! ## What stays the same -/

/-- Only a file of ignore rules below the root matters to what is heard. -/
theorem hears_congr (hBefore : before.IsTree) (hAfter : after.IsTree) (hScanner : s.IsCanonical)
    (hSame : SameFilesBut (Place.ofNames names) before after)
    (hOther : s.config.respectIgnores = true → ∀ more, ∀ file ∈ [[".ignore"], [".gitignore"]],
      names ≠ s.config.root.names ++ more ++ file) :
    s.Hears after path ↔ s.Hears before path := by
  have hScannable : ∀ below, below ≠ [] → (∀ name ∈ below, IsName name) →
      s.matcher.isScannable after (Route.toPath ⟨true, s.config.root.names ++ below⟩) =
        s.matcher.isScannable before (Route.toPath ⟨true, s.config.root.names ++ below⟩) := by
    intro below hMore hBelow
    have hRootNames := hScanner.root.names
    have hNames := List.forall_mem_append.mpr ⟨hRootNames, hBelow⟩
    refine Matcher.isScannable_congr hScanner.matcher_root hNames hMore ?_
    intro hRespect more hMoreNames file hFile
    -- the rules that the filter asks for are in files of the directories below the root
    have hRuleNames := Walk.isName_of_mem_ruleFiles (Walk.mem_ruleFiles hFile)
    have hAll := List.forall_mem_append.mpr
      ⟨List.forall_mem_append.mpr ⟨hRootNames, hMoreNames⟩, hRuleNames⟩
    refine Rules.load_congr hBefore hAfter hAll (hSame.files _ ?_)
    intro hEq
    rw [hScanner.sameRespect] at hRespect
    exact hOther hRespect more file hFile (Place.ofNames_inj.mp hEq).symm
  constructor
  · rintro ⟨⟨below, hMore, hBelow, rfl⟩, hTaken⟩
    exact ⟨⟨below, hMore, hBelow, rfl⟩, (hScannable below hMore hBelow) ▸ hTaken⟩
  · rintro ⟨⟨below, hMore, hBelow, rfl⟩, hTaken⟩
    exact ⟨⟨below, hMore, hBelow, rfl⟩, (hScannable below hMore hBelow).symm ▸ hTaken⟩

/-- What becomes of the artifact does not matter to what is heard. -/
theorem hears_congr_output (hBefore : before.IsTree) (hAfter : after.IsTree)
    (hScanner : s.IsCanonical) (hRules : s.KeepsRules before)
    (hSame : SameFilesBut (Place.ofNames s.config.output.names) before after) :
    s.Hears after path ↔ s.Hears before path := by
  refine hears_congr hBefore hAfter hScanner hSame ?_
  intro hRespect more file hFile
  exact (hRules hRespect).directories (s.config.root.names ++ more) file
    (Walk.mem_ruleFiles hFile)

namespace Edits

theorem cases (h : s.Edits before after names) (hScanner : s.IsCanonical) :
    names = s.config.output.names ∨ names = s.config.root.names ∨
      ∃ fs, s.Hears fs (Route.toPath ⟨true, names⟩) := by
  rcases h.concerns with hConcerns | hConcerns
  all_goals
    rcases cases_of_concerns hScanner h.proper hConcerns with hOutput | hRoot | hHears
    · exact Or.inl hOutput
    · exact Or.inr (Or.inl hRoot)
    · exact Or.inr (Or.inr ⟨_, hHears⟩)

/-- An edit does not change what is heard. -/
theorem hears_iff (h : s.Edits before after names) (hBefore : before.IsTree)
    (hScanner : s.IsCanonical) (hRules : s.KeepsRules before) :
    s.Hears after path ↔ s.Hears before path := by
  have hSame := h.only.sameFilesBut
  -- an edit is about the artifact, the root, or a path that is heard, and none of these is a rule
  -- file
  rcases h.cases hScanner with rfl | rfl | ⟨fs, hHears⟩
  · exact hears_congr_output hBefore h.tree hScanner hRules hSame
  · refine hears_congr hBefore h.tree hScanner hSame ?_
    intro _ more file hFile hEq
    -- a rule file has a name of its own, below the root
    rw [List.append_assoc, List.self_eq_append_right, List.append_eq_nil_iff] at hEq
    rw [hEq.2] at hFile
    revert hFile
    decide
  · exact hears_congr hBefore h.tree hScanner hSame fun hRespect more file hFile =>
      hHears.ne_ruleFile hScanner h.proper hRespect more hFile

/-- An edit that is not heard does not change what a scan finds. -/
theorem sees (h : s.Edits before after names) (hBefore : before.IsTree)
    (hScanner : s.IsCanonical) (hRules : s.KeepsRules before) :
    s.SeesSame before after ∨ s.Hears after (Route.toPath ⟨true, names⟩) := by
  have hSame := h.only.sameFilesBut
  have hHeard : s.Hears after (Route.toPath ⟨true, names⟩) ↔
      s.Hears before (Route.toPath ⟨true, names⟩) := h.hears_iff hBefore hScanner hRules
  -- whether the edit concerned the project before or afterwards, the same three cases arise
  have hCases : ∀ {fs}, s.concerns fs (Route.toPath ⟨true, names⟩) = true →
      (s.Hears fs (Route.toPath ⟨true, names⟩) → s.Hears after (Route.toPath ⟨true, names⟩)) →
      s.SeesSame before after ∨ s.Hears after (Route.toPath ⟨true, names⟩) := by
    intro fs hConcerns hThen
    rcases cases_of_concerns hScanner h.proper hConcerns with rfl | rfl | hHears
    · exact Or.inl (.of_output hBefore h.tree hScanner hRules hSame)
    · exact Or.inl (.of_root hBefore h.tree hScanner hRules hSame)
    · exact Or.inr (hThen hHears)
  rcases h.concerns with hConcerns | hConcerns
  · exact hCases hConcerns hHeard.mpr
  · exact hCases hConcerns id

/-- An edit of another path does not change the artifact. -/
theorem fingerprint? (h : s.Edits before after names) (hBefore : before.IsTree)
    (hScanner : s.IsCanonical) (hOther : names ≠ s.config.output.names) :
    after.fingerprint? s.config.output = before.fingerprint? s.config.output := by
  have hNe : Place.ofNames s.config.output.names ≠ Place.ofNames names := fun hEq =>
    hOther (Place.ofNames_inj.mp hEq).symm
  have hSame : SameBytes (Route.toPath ⟨true, s.config.output.names⟩) before after :=
    toOption_read_congr hBefore h.tree hScanner.output.names fun content => h.only.file_iff hNe
  rw [hScanner.output.toPath_names] at hSame
  exact hSame.fingerprint?

end Edits

end Scanner

end KeyRegistry

import KeyRegistry.Proofs.Scan.Artifact
import KeyRegistry.Proofs.Scan.Filter

/-!
# A second pass changes nothing

A pass writes nothing but the artifact, and a scan does not see the artifact. So a pass that follows
another one finds what that one found, calls for the same document, and meets a guard that remembers
it. This holds whatever the guard remembered before the first pass, and wherever the artifact lies,
as long as it is none of the files of rules that a scan goes by.

Main statements:

* `Scanner.pass_frame` — a pass touches the artifact alone
* `Scanner.pass_again` — what a second pass does
* `Scanner.idempotent` — both for the scanners of a resolved configuration
-/

namespace KeyRegistry

open FileSystem

variable {before after : FileSystem} {s : Scanner} {last : Option Fingerprint}
  {handed : Guard} {report : PassReport}

namespace Scanner

/-- A pass touches the artifact alone, and makes directories. -/
theorem pass_frame (hTree : before.IsTree) (hOnce : before.ListsOnce) (hScanner : s.IsCanonical)
    (h : s.pass { s.guard with last } before = (after, handed, report)) :
    after.IsTree ∧ after.ListsOnce ∧
      SameFilesBut (Place.ofNames s.config.output.names) before after := by
  have hOutput : s.guard.output = Route.toPath ⟨true, s.config.output.names⟩ := by
    rw [hScanner.output.toPath_names]
    exact hScanner.guard_output
  rcases Scan.conclude_files h with rfl | hWritten
  · exact ⟨hTree, hOnce, .refl _ _⟩
  · -- whether it succeeds or fails, writing a document touches its file alone
    have hDocument : after = (before.writeDocument (Route.toPath ⟨true, s.config.output.names⟩)
        ((s.scan before).rendering s.config.moduleName).document).1 := by
      rw [← hOutput]
      exact hWritten
    obtain ⟨hAfter, hOnly⟩ := hTree.writeDocument hScanner.output.names
      ((s.scan before).rendering s.config.moduleName).document
    rw [hDocument]
    exact ⟨hAfter, hOnce.writeDocument hTree.inside _ _, hOnly.sameFilesBut⟩

/-- A pass that follows another one that did not fail touches nothing and reports the same, but that
the artifact is unchanged. -/
theorem pass_again (hTree : before.IsTree) (hOnce : before.ListsOnce) (hScanner : s.IsCanonical)
    (hRules : s.KeepsRules before)
    (h : s.pass { s.guard with last } before = (after, handed, report))
    (hDone : report.outcome.isFailure = false) :
    s.pass handed after = (after, handed, { report with outcome := .unchanged }) := by
  obtain ⟨hAfter, hListed, hSame⟩ := pass_frame hTree hOnce hScanner h
  obtain ⟨hPatterns, hRead, hErrors⟩ :=
    scan_congr hTree hAfter hOnce hListed hScanner hRules hSame
  have hRendering : (s.scan after).rendering s.config.moduleName =
      (s.scan before).rendering s.config.moduleName := by
    rw [Scan.rendering, Scan.rendering, hPatterns]
  -- the guard that the first pass handed on remembers the document that the second one calls for
  have hLast : handed.last = some ((s.scan after).rendering s.config.moduleName).fingerprint := by
    rw [hRendering, ← Scan.conclude_fingerprint h]
    exact Scan.conclude_last h hDone
  rw [Scan.conclude_report h, pass, Scan.conclude_of_last hLast, hRendering, hRead, hErrors]

/-- **Passes are idempotent.** Let two states of the files be the same but for the artifact, which
is neither the configured ignore file nor, where rules are respected, a file of rules that the walk
reads or one that the rules of the user come from. Then the configuration has the same scanner in
both, and every scanner of it has the same candidates, patterns and document. A pass that follows
one that did not fail leaves the files and the guard as they are, and reports the same fingerprint
and counts, whatever the guard remembered. -/
theorem idempotent {fs₀ : FileSystem} {config : Config} {resolved : Resolved}
    (hStart : fs₀.HasNames) (hResolved : config.resolve fs₀ = .ok resolved)
    (hBefore : before.IsTree) (hOnceBefore : before.ListsOnce) (hAfter : after.IsTree)
    (hOnceAfter : after.ListsOnce)
    (hSame : SameFilesBut (Place.ofNames resolved.output.names) before after)
    (hIgnoreFile : resolved.ignoreFile ≠ some resolved.output)
    (hRules : resolved.respectIgnores = true →
      Walk.KeepsRules before resolved.output.names) :
    Scanner.new after resolved = Scanner.new before resolved ∧
      ∀ (fs₁ : FileSystem) (s : Scanner), Scanner.new fs₁ resolved = .ok s →
        s.candidates after = s.candidates before ∧
        (s.scan after).patterns = (s.scan before).patterns ∧
        (s.scan after).rendering resolved.moduleName =
          (s.scan before).rendering resolved.moduleName ∧
        ∀ (last : Option Fingerprint) (done : FileSystem) (handed : Guard) (report : PassReport),
          s.pass { s.guard with last } before = (done, handed, report) →
          report.outcome.isFailure = false →
            s.pass handed done = (done, handed, { report with outcome := .unchanged }) := by
  refine ⟨new_congr hBefore hAfter hStart hResolved hSame hIgnoreFile, ?_⟩
  intro fs₁ s hScanner
  -- a scanner keeps to its configuration, whichever files it was made for
  obtain ⟨hCanonical, rfl⟩ := IsCanonical.of_new hStart hResolved hScanner
  obtain ⟨hPatterns, -, -⟩ :=
    scan_congr hBefore hAfter hOnceBefore hOnceAfter hCanonical hRules hSame
  refine ⟨candidates_congr hBefore hAfter hOnceBefore hOnceAfter hCanonical hRules hSame,
    hPatterns, ?_, ?_⟩
  · rw [Scan.rendering, Scan.rendering, hPatterns]
  · intro last done handed report hPass hDone
    exact pass_again hBefore hOnceBefore hCanonical hRules hPass hDone

end Scanner

namespace Overwritten

/-- The names on the way to the artifact. -/
def output : List String := ["r", "out.d.ts"]

/-- A project whose artifact is chosen by the globs and holds a call. -/
def project : FileSystem := Hidden.project.set (Place.ofNames output) (.file "qk('b')".toUTF8)

/-- The artifact can be written where it is not there yet. -/
theorem writable : Hidden.project.Writable output := by
  have hFree : Hidden.project.at? (Place.ofNames output) = none := rfl
  exact ⟨⟨by decide, by decide, by decide, by simp [output], rfl, by simp [hFree]⟩,
    fun _ => rfl⟩

theorem project_isTree : project.IsTree :=
  writable.toOpenable.set Hidden.project_isTree _

/-- The project lists no place twice. -/
theorem hidden_listsOnce : Hidden.project.ListsOnce := by
  decide

/-- The artifact can be written where a file is already. -/
theorem project_writable : project.Writable output := by
  have hFile : project.at? (Place.ofNames output) = some (.file "qk('b')".toUTF8) :=
    at?_set_self (by decide)
  exact { writable with directory := rfl, free := by simp [hFile] }

/-- The scanner is that of a resolved configuration. -/
theorem isCanonical : Hidden.scanner.IsCanonical :=
  (Scanner.IsCanonical.of_new Hidden.project_isTree.names Hidden.resolve_config
    Hidden.new_scanner).1

/-- The guard knows the artifact by its route. -/
theorem guard_output : Hidden.scanner.guard.output = Route.toPath ⟨true, output⟩ :=
  isCanonical.guard_output

/-- There is no artifact at first. -/
theorem fingerprint?_hidden : Hidden.project.fingerprint? Hidden.scanner.guard.output = none := by
  rw [FileSystem.fingerprint?, guard_output]
  cases hRead : Hidden.project.read (Route.toPath ⟨true, output⟩) with
  | error cause => rfl
  | ok content =>
    have hFile :=
      ((FileSystem.read_eq_ok_iff Hidden.project_isTree writable.proper).mp hRead).2
    have hNone : Hidden.project.at? (Place.ofNames output) = none := rfl
    rw [hNone] at hFile
    cases hFile

theorem output_names : Hidden.resolved.output.names = output := by
  have hOutput : Hidden.resolved.output = Route.toPath ⟨true, output⟩ := rfl
  rw [hOutput, Route.names_toPath writable.proper]

/-- The artifact is no file of rules, and a user without settings has none. -/
theorem keepsRules {fs : FileSystem} (hUser : fs.user = {}) :
    Walk.KeepsRules fs Hidden.resolved.output.names := by
  refine ⟨?_, Walk.sparesUser_of_none hUser _⟩
  intro directory file hFile hEq
  have hSuffix : file <:+ output := ⟨directory, by rw [← hEq, output_names]⟩
  have hNone : ∀ file ∈ Walk.ruleFiles, ¬ file <:+ output := by decide
  exact hNone file hFile hSuffix

end Overwritten

namespace Scanner

/-- The first pass overwrites the artifact, which no scan has read, and the second one leaves it
alone. -/
theorem idempotent_of_overwritten :
    Hidden.scanner.candidates Overwritten.project = Hidden.scanner.candidates Hidden.project ∧
      ∃ done handed report, report.outcome = .written ∧
        Hidden.scanner.pass Hidden.scanner.guard Overwritten.project = (done, handed, report) ∧
        Hidden.scanner.pass handed done =
          (done, handed, { report with outcome := .unchanged }) := by
  -- the two projects differ in the artifact
  have hSame : SameFilesBut (Place.ofNames Hidden.resolved.output.names) Overwritten.project
      Hidden.project := by
    rw [Overwritten.output_names]
    exact (OnlyAt.sameFilesBut OnlyAt.set).symm
  obtain ⟨-, hScanners⟩ := idempotent Hidden.project_isTree.names Hidden.resolve_config
    Overwritten.project_isTree (Overwritten.hidden_listsOnce.set _ _) Hidden.project_isTree
    Overwritten.hidden_listsOnce hSame (by decide) fun _ => Overwritten.keepsRules rfl
  obtain ⟨hCandidates, -, -, hTwice⟩ := hScanners _ _ Hidden.new_scanner
  obtain ⟨report, hDone, hPass⟩ := Scan.conclude_of_writable Overwritten.project_isTree
    Overwritten.project_writable Overwritten.guard_output rfl
    (Hidden.scanner.scan Overwritten.project) Hidden.scanner.config.moduleName
  -- the artifact was there before, but the guard does not remember it, so the first pass writes
  refine ⟨hCandidates.symm, _, _, report, hDone, hPass, ?_⟩
  exact hTwice none _ _ report hPass (by rw [hDone]; rfl)

/-- Without a condition on the artifact that rules out each file of ignore rules, a second pass may
change everything: here the first one writes the document to `.git/info/exclude`, where one of its
lines makes the second one ignore the file that the document is about. -/
theorem not_idempotent_of_excluded :
    ¬ ∀ (fs₀ before : FileSystem) (config : Config) (resolved : Resolved) (s : Scanner),
      fs₀.HasNames → config.resolve fs₀ = .ok resolved → Scanner.new before resolved = .ok s →
      before.IsTree → before.ListsOnce →
      resolved.output.names.getLast? ≠ some ".gitignore" →
      resolved.output.names.getLast? ≠ some ".ignore" →
      resolved.ignoreFile ≠ some resolved.output →
      ∀ (last : Option Fingerprint) (done : FileSystem) (handed : Guard) (report : PassReport),
        s.pass { s.guard with last } before = (done, handed, report) →
        report.outcome.isFailure = false →
          s.pass handed done = (done, handed, { report with outcome := .unchanged }) := by
  intro hAlways
  have hTree := Excluded.project_isTree
  obtain ⟨report, hDone, hPass⟩ := Scan.conclude_of_writable hTree Excluded.writable
    Excluded.guard_output rfl (Excluded.scanner.scan Excluded.project) "m"
  have hDocument := Excluded.rendering_document Excluded.scan_project
  rw [hDocument] at hPass
  have hAgain := hAlways Excluded.project Excluded.project Excluded.config Excluded.resolved
    Excluded.scanner hTree.names Excluded.resolve_config Excluded.new_scanner hTree
    (by decide) (by rw [Excluded.output_names]; decide) (by rw [Excluded.output_names]; decide)
    (by decide) none _ _ report hPass (by rw [hDone]; rfl)
  -- the first pass has counted a pattern, and the second one has none to count
  have hFirst : report.patternCount =
      (Excluded.scanner.scan Excluded.project).patterns.expand.size :=
    congrArg PassReport.patternCount (Scan.conclude_report hPass)
  have hSecond : report.patternCount =
      (Excluded.scanner.scan Excluded.written).patterns.expand.size :=
    congrArg PassReport.patternCount (Scan.conclude_report hAgain)
  rw [hFirst, Excluded.scan_project, Excluded.scan_written] at hSecond
  revert hSecond
  decide

end Scanner

end KeyRegistry

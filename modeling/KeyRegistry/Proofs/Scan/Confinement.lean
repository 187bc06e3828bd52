import KeyRegistry.Proofs.Path.Excursion
import KeyRegistry.Proofs.Scan.Filter

/-!
# Candidates and the root

A path is a candidate by what the globs see of it: the path as it is written, or what is written
behind the root. The artifact is told by the place that a path leads to, and is never a candidate.
The globs do not look at places. A star takes a step up for a name like any other, so a path that
climbs out of the root can be a candidate, and so can the root itself.

What the globs see leads from the root to where the path leads. So a candidate lies below the root
exactly if it climbs back to the root by the names that it climbed out of, and goes on.

Main statements:

* `Matcher.absolutize_of_relative?` — what the globs see leads to where the path leads
* `Scanner.confined_iff` — which candidates lie below the root
-/

namespace KeyRegistry

open KeyRegistry.Path

namespace Matcher

variable {m : Matcher} {p seen : Path}

/-- What does not count as the artifact is at another place. -/
theorem ne_output_of_isOutput (h : m.isOutput p = false) :
    (absolutize m.root p).toPath ≠ m.output := by
  intro hPlace
  rw [isOutput, hPlace, Path.same, decide_eq_false_iff_not] at h
  exact h rfl

/-- What the globs see of a path leads from the root to where the path leads. -/
theorem absolutize_of_relative? (hRoot : m.root.isAbsolute = true)
    (h : m.relative? p = some seen) :
    absolutize m.root p = seen.excursion.route m.root.route := by
  rw [relative?] at h
  -- a relative path is taken from the root as it stands; an absolute one has lost the steps of the
  -- root, and following them from the top comes to the root again
  cases hPath : p.isAbsolute with
  | false =>
    rw [hPath, if_neg (by simp)] at h
    rw [← Option.some.inj h]
    exact absolutize_excursion hPath
  | true =>
    rw [hPath, if_pos rfl] at h
    obtain ⟨-, hSteps⟩ := steps_relativeTo? hRoot hPath h
    have hRootRoute : m.root.steps.foldl Route.follow ⟨true, []⟩ = m.root.route := by
      rw [route, follow_components, hRoot]
      rfl
    calc absolutize m.root p
        = p.steps.foldl Route.follow ⟨true, []⟩ := by
          rw [absolutize_eq, follow_components, hPath]
          rfl
      _ = seen.steps.foldl Route.follow m.root.route := by
          rw [hSteps, List.foldl_append, hRootRoute]
      _ = seen.excursion.route m.root.route := foldl_follow_steps seen _

end Matcher

/-- **Which candidates lie below the root.** A candidate is never at the place of the artifact. It
lies strictly below the root if and only if what the globs see of it climbs back to the root by the
names that it climbed out of, and goes on. If it never climbs out, then it lies below the root or is
the root. -/
theorem Scanner.confined_iff {fs₀ fs₁ fs : FileSystem} {config : Config} {resolved : Resolved}
    {scanner : Scanner} {p : Path} (hResolved : config.resolve fs₀ = .ok resolved)
    (hScanner : Scanner.new fs₁ resolved = .ok scanner)
    (hChosen : scanner.matcher.isCandidate p = true ∨ scanner.matcher.isScannable fs p = true) :
    resolved.absolutize p ≠ resolved.output ∧ ∃ seen, scanner.matcher.relative? p = some seen ∧
      ((Path.absolutize resolved.root p).IsBelow resolved.root.route ↔
        seen.excursion.Returns resolved.root.route) ∧
      (seen.excursion.climbed = 0 → (Path.absolutize resolved.root p).IsBelow resolved.root.route ∨
        Path.absolutize resolved.root p = resolved.root.route) := by
  obtain ⟨-, hSameRoot, hSameOutput, -⟩ := Scanner.new_frame hScanner
  have hRoot : resolved.root.isAbsolute = true :=
    ScanConfig.canonicalRoot_isAbsolute (Config.resolve_paths hResolved).1
  have hCandidate := hChosen.elim id Matcher.isCandidate_of_isScannable
  obtain ⟨hOther, seen, hSeen⟩ := Matcher.seen_of_isCandidate hCandidate
  have hPlace := Matcher.ne_output_of_isOutput hOther
  have hLeads := Matcher.absolutize_of_relative? (by rw [hSameRoot]; exact hRoot) hSeen
  rw [hSameRoot] at hPlace hLeads
  rw [hSameOutput] at hPlace
  refine ⟨hPlace, seen, hSeen, ?_⟩
  rw [hLeads]
  exact ⟨Excursion.isBelow_route_iff, Excursion.route_of_inside⟩

/-- A path that climbs out of the root into another directory is a candidate. -/
theorem Scanner.confined_iff_of_climbing :
    Hidden.scanner.matcher.isCandidate ⟨"../other/a.ts"⟩ = true ∧
      Hidden.resolved.absolutize ⟨"../other/a.ts"⟩ ≠ Hidden.resolved.output ∧
      ¬ (Path.absolutize Hidden.resolved.root ⟨"../other/a.ts"⟩).IsBelow
        Hidden.resolved.root.route := by
  have hCandidate : Hidden.scanner.matcher.isCandidate ⟨"../other/a.ts"⟩ = true := by
    decide +kernel
  have hChosen : Hidden.scanner.matcher.isCandidate ⟨"../other/a.ts"⟩ = true ∨
      Hidden.scanner.matcher.isScannable Hidden.project ⟨"../other/a.ts"⟩ = true :=
    Or.inl hCandidate
  obtain ⟨hPlace, seen, hSeen, hBelow, -⟩ :=
    Scanner.confined_iff Hidden.resolve_config Hidden.new_scanner hChosen
  refine ⟨hCandidate, hPlace, fun hInside => ?_⟩
  have hPath : (⟨"../other/a.ts"⟩ : Path) = seen := Option.some.inj hSeen
  have hExcursion : seen.excursion = ⟨1, ["other", "a.ts"]⟩ := by
    rw [← hPath]
    decide +kernel
  -- the first name behind the climb would have to be that of the root
  obtain ⟨more, -, hNames⟩ := hBelow.mp hInside
  have hRoot : Hidden.resolved.root.route.names = ["r"] := by decide +kernel
  rw [hExcursion, hRoot] at hNames
  have hFirst : "other" = "r" := (List.cons.inj hNames).1
  exact absurd hFirst (by decide)

end KeyRegistry

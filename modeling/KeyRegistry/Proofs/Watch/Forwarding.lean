import KeyRegistry.Proofs.Watch.Announcement
import KeyRegistry.Watch.Observer

/-!
# Forwarding loses nothing

An observer passes on to a session only what concerns the project. The session judges events once
more, with a guard of its own. Here it is shown that the two judge alike: an event that does not
concern the project is nothing to the session, whatever the session is doing, so it makes no
difference whether such events are forwarded.

What both of them need is to agree about the artifact. The matcher compares paths with the output of
the configuration, the guard with that output seen from the root once more; since resolving has
already led to a route from the top, seeing it from anywhere else changes nothing.

Main statements:

* `Scanner.isOutput_guard` — the matcher and the guard know the same artifact
* `Session.forwarding_loses_nothing` — a session does with what is forwarded, by itself or by an
  observer, what it does with everything that was seen
-/

namespace KeyRegistry

open KeyRegistry.Path

variable {fs fs₀ fs₁ : FileSystem} {config : Config} {resolved : Resolved} {scanner : Scanner}

/-! ## The artifact of a scanner -/

theorem Config.resolve_root_isAbsolute (h : config.resolve fs = .ok resolved) :
    resolved.root.isAbsolute = true :=
  ScanConfig.canonicalRoot_isAbsolute (Config.resolve_paths h).1

namespace Scanner

/-- The matcher and the guard know the same artifact, by whatever spelling of its path. -/
theorem isOutput_guard (hResolved : config.resolve fs₀ = .ok resolved)
    (hScanner : Scanner.new fs₁ resolved = .ok scanner) (path : Path) :
    scanner.guard.isOutput path = scanner.matcher.isOutput path := by
  obtain ⟨hConfig, hRoot, hOutput, -⟩ := Scanner.new_frame hScanner
  obtain ⟨-, hAbsolute, -⟩ := Config.resolve_paths hResolved
  -- the output is a route from the top already, so the guard has it as it stands
  have hCanonical : resolved.output.IsCanonical := by
    rw [hAbsolute]
    exact absolutize_isCanonical (Config.resolve_root_isAbsolute hResolved) _
  have hSame : (absolutize resolved.root resolved.output).toPath = resolved.output := by
    rw [← hCanonical.toPath_names, Route.absolutize_toPath hCanonical.names]
  rw [Guard.isOutput, Matcher.isOutput, Scanner.guard, Guard.new, hConfig, hSame, hRoot, hOutput]

end Scanner

/-- An observer that was started is one for the scanner that it was started with. -/
theorem Observer.new_scanner {directory : Path} {o : Observer}
    (h : Observer.new scanner fs directory = .ok o) : o.scanner = scanner := by
  unfold Observer.new at h
  split at h
  · split at h
    · split at h <;> simp only [Except.ok.injEq, reduceCtorEq] at h
      rw [← h]
    · exact nomatch h
  · exact nomatch h

/-- The canonical path of a directory can be observed. -/
theorem Observer.new_of_directory {names : List String} (hTree : fs.IsTree)
    (hNames : ∀ name ∈ names, IsName name) (hFits : FileSystem.Fits names)
    (hDirectory : fs.at? (Place.ofNames names) = some .directory) :
    Observer.new scanner fs (Route.toPath ⟨true, names⟩) =
      .ok ⟨scanner, Route.toPath ⟨true, names⟩⟩ := by
  have hLocate : fs.locate (Route.toPath ⟨true, names⟩) = .ok (Place.ofNames names) :=
    (FileSystem.find_eq_ok_iff hTree hNames).mpr ⟨hFits, rfl, Or.inl (by rw [hDirectory]; rfl)⟩
  have hLookup : fs.lookup (Route.toPath ⟨true, names⟩) = .ok .directory :=
    (FileSystem.lookup_eq_ok_iff hTree hNames).mpr ⟨hFits, hDirectory⟩
  have hContains : fs.contains (Route.toPath ⟨true, names⟩) = true := by
    rw [FileSystem.contains, hLookup]
    rfl
  rw [Observer.new, if_pos hContains, hLocate]
  simp only [Place.path?_ofNames]

namespace Session

variable {s t : Session} {path : Path} {events : List FileEvent}

/-! ## Judging what is left -/

/-- What would be judged to nothing may as well be left out. -/
theorem judgeAll_filter {α : Type} {f : Session → α → Session × Bool} {P : Session → Prop}
    {keep : α → Bool} (hKeep : ∀ s x, P s → P (f s x).1)
    (hIdle : ∀ s x, P s → keep x = false → f s x = (s, false)) (xs : List α) (hStart : P s) :
    judgeAll f (xs.filter keep) s = judgeAll f xs s := by
  induction xs generalizing s with
  | nil => rfl
  | cons x xs ih =>
    cases hCase : keep x with
    | true =>
      rw [List.filter_cons_of_pos hCase, judgeAll, judgeAll, ih (hKeep s x hStart)]
    | false =>
      rw [List.filter_cons_of_neg (by simp [hCase]), ih hStart, judgeAll, hIdle s x hStart hCase,
        Bool.false_or]

/-- A session at rest is one of the project. -/
theorem sameArtifact_atRest (scanner : Scanner) :
    SameArtifact (Session.begin scanner) { scanner, guard := scanner.guard } :=
  ⟨rfl, rfl, rfl⟩

/-- An event that does not concern the project is nothing to a session. -/
theorem judgeEvent_of_unconcerned (hResolved : config.resolve fs₀ = .ok resolved)
    (hScanner : Scanner.new fs₁ resolved = .ok scanner)
    (hSession : SameArtifact (Session.begin scanner) s)
    (hNone : scanner.concerns fs path = false) : s.judgeEvent fs path = (s, false) := by
  obtain ⟨hNoOutput, hNoScan⟩ := Bool.or_eq_false_iff.mp hNone
  have hGuard : s.guard.isOutput path = false := by
    rw [hSession.isOutput]
    exact (Scanner.isOutput_guard hResolved hScanner path).trans hNoOutput
  have hProject : s.scanner = scanner := hSession.scanner
  rw [judgeEvent, hGuard, hProject, hNoScan]
  rfl

/-- Judging leaves out what does not concern the project. -/
theorem judge_concerning (hResolved : config.resolve fs₀ = .ok resolved)
    (hScanner : Scanner.new fs₁ resolved = .ok scanner)
    (hSession : SameArtifact (Session.begin scanner) s) (fs : FileSystem)
    (events : List FileEvent) :
    s.judge fs (scanner.concerning fs events) = s.judge fs events := by
  rw [judge_eq, judge_eq]
  -- events are judged one after the other, and none of them changes which artifact is guarded
  refine judgeAll_filter (P := SameArtifact (Session.begin scanner)) ?_ ?_ events hSession
  · intro t event hSame
    exact hSame.trans (judgeEvent_judges event.path).sameArtifact
  · intro t event hSame hNone
    exact judgeEvent_of_unconcerned hResolved hScanner hSame hNone

/-! ## What a session does with it -/

/-- A session does with what is forwarded of some events what it does with all of them. -/
theorem handle_concerning (hResolved : config.resolve fs₀ = .ok resolved)
    (hScanner : Scanner.new fs₁ resolved = .ok scanner)
    (hSession : SameArtifact (Session.begin scanner) s) (fs : FileSystem)
    (events : List FileEvent) :
    (Signal.ofEvents? (scanner.concerning fs events)).elim s (s.handle fs) =
      s.handle fs (.batch events) := by
  have hJudge := judge_concerning hResolved hScanner hSession fs events
  cases hKept : scanner.concerning fs events with
  | nil =>
    -- a batch of which nothing is left is judged like an empty one, which changes nothing
    rw [hKept] at hJudge
    simp only [Signal.ofEvents?, Option.elim, handle, ← hJudge]
    rfl
  | cons event kept =>
    rw [hKept] at hJudge
    simp only [Signal.ofEvents?, Option.elim, handle, hJudge]

/-- **Forwarding loses nothing.** Whatever a session of a resolved configuration is doing and
whatever its guard remembers, the events of a batch that concern the project lead to the same
verdict, guard, parked paths and directive as the whole batch, and to the same session after it,
also if none are left and nothing is forwarded. The same holds of what an observer that was started
for the project sends after paths were touched, against everything that it saw of them. The
matcher, by which events are chosen, and the guard of the session take the same paths for the
artifact. -/
theorem forwarding_loses_nothing (hResolved : config.resolve fs₀ = .ok resolved)
    (hScanner : Scanner.new fs₁ resolved = .ok scanner)
    (hSession : SameArtifact (Session.begin scanner) s) (fs : FileSystem) :
    (∀ path, scanner.matcher.isOutput path = s.guard.isOutput path) ∧
      (∀ events : List FileEvent,
        let kept := scanner.concerning fs events
        (Signal.ofEvents? kept).elim s (s.handle fs) = s.handle fs (.batch events) ∧
        s.judge fs kept = s.judge fs events ∧ s.directive? fs kept = s.directive? fs events) ∧
      ∀ (before : FileSystem) (directory : Path) (o : Observer) (paths : List Path),
        Observer.new scanner before directory = .ok o →
          (o.signal? fs paths).elim s (s.handle fs) = s.handle fs (.batch (o.sees fs paths)) := by
  refine ⟨fun path => ?_, fun events => ⟨?_, ?_, ?_⟩, fun before directory o paths hObserver => ?_⟩
  · rw [hSession.isOutput]
    exact (Scanner.isOutput_guard hResolved hScanner path).symm
  · exact handle_concerning hResolved hScanner hSession fs events
  · exact judge_concerning hResolved hScanner hSession fs events
  · simp only [directive?, judge_concerning hResolved hScanner hSession fs events]
  · -- the observer was started for this scanner, so it tells what concerns this project
    rw [Observer.signal?, Observer.events, Observer.new_scanner hObserver]
    exact handle_concerning hResolved hScanner hSession fs _

/-- Paths that were touched: a file that no scan reads, the artifact by another spelling of its
path, and a new file that is not there. -/
def touchedPaths : List Path :=
  [⟨"/r/README.md"⟩, ⟨"/r/x/../out.d.ts"⟩, ⟨"/r/b.ts"⟩]

/-- Of the touched paths, the artifact and the new file concern the project. -/
theorem concerning_touchedPaths :
    Hidden.plainScanner.concerning Hidden.project
        (touchedPaths.map (Observer.event Hidden.project)) =
      (touchedPaths.drop 1).map (Observer.event Hidden.project) := by
  have hOther : Hidden.plainScanner.concerns Hidden.project ⟨"/r/README.md"⟩ = false := by
    decide +kernel
  have hArtifact : Hidden.plainScanner.concerns Hidden.project ⟨"/r/x/../out.d.ts"⟩ = true := by
    decide +kernel
  have hFile : Hidden.plainScanner.concerns Hidden.project ⟨"/r/b.ts"⟩ = true := by decide +kernel
  simp only [Scanner.concerning, touchedPaths, List.map_cons, List.map_nil, List.drop_succ_cons,
    List.drop_zero, Observer.event, List.filter_cons, List.filter_nil, hOther, hArtifact, hFile,
    Bool.false_eq_true, if_true, if_false]

/-- An observer of the project sends two of three events, and a session at rest does with them
what it does with all three. -/
theorem forwarding_loses_nothing_of_mixed :
    Observer.new Hidden.plainScanner Hidden.project ⟨"/r"⟩ =
        .ok ⟨Hidden.plainScanner, ⟨"/r"⟩⟩ ∧
      Observer.signal? ⟨Hidden.plainScanner, ⟨"/r"⟩⟩ Hidden.project touchedPaths =
        some (.batch ((touchedPaths.drop 1).map (Observer.event Hidden.project))) ∧
      Session.handle { scanner := Hidden.plainScanner, guard := Hidden.plainScanner.guard }
          Hidden.project (.batch ((touchedPaths.drop 1).map (Observer.event Hidden.project))) =
        Session.handle { scanner := Hidden.plainScanner, guard := Hidden.plainScanner.guard }
          Hidden.project (.batch (touchedPaths.map (Observer.event Hidden.project))) := by
  have hNew : Observer.new Hidden.plainScanner Hidden.project ⟨"/r"⟩ =
      .ok ⟨Hidden.plainScanner, ⟨"/r"⟩⟩ := by
    show Observer.new _ _ (Route.toPath ⟨true, ["r"]⟩) = .ok ⟨_, Route.toPath ⟨true, ["r"]⟩⟩
    exact Observer.new_of_directory Hidden.project_isTree (by decide) (by decide) rfl
  -- the observer sees all three paths, and sends on those that concern the project
  have hSees : Observer.sees ⟨Hidden.plainScanner, ⟨"/r"⟩⟩ Hidden.project touchedPaths =
      touchedPaths.map (Observer.event Hidden.project) := rfl
  have hSignal : Observer.signal? ⟨Hidden.plainScanner, ⟨"/r"⟩⟩ Hidden.project touchedPaths =
      some (.batch ((touchedPaths.drop 1).map (Observer.event Hidden.project))) := by
    rw [Observer.signal?, Observer.events, hSees, concerning_touchedPaths]
    rfl
  refine ⟨hNew, hSignal, ?_⟩
  obtain ⟨-, -, hObserver⟩ := forwarding_loses_nothing (Hidden.resolve_configWith [] false)
    Hidden.new_plainScanner (sameArtifact_atRest Hidden.plainScanner) Hidden.project
  have hHandle := hObserver Hidden.project ⟨"/r"⟩ _ touchedPaths hNew
  rwa [hSignal, hSees, Option.elim_some] at hHandle

end Session

end KeyRegistry

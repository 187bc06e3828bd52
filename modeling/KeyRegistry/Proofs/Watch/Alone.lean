import KeyRegistry.Proofs.Watch.Course

/-!
# Sessions left alone

A pass that nobody disturbs can always be led to its end: it reads and takes apart its files in
order and commits what a scan finds. The session then rests.

Main definitions:

* `RunningPass.run?` — some moves of a pass, one after the other

Main statements:

* `RunningPass.exists_run?_finish` — `RunningPass.finish` is a sequence of moves
* `World.exists_run?_rest` — a pass left alone commits what a scan finds
-/

namespace KeyRegistry

open FileSystem

namespace RunningPass

variable {s : Scanner} {fs after : FileSystem} {guard : Guard} {progress : Progress}
  {pass moved : RunningPass} {moves : List PassMove}

/-- Makes some moves, one after the other. -/
def run? (pass : RunningPass) (s : Scanner) (fs : FileSystem) :
    List PassMove → Option (FileSystem × RunningPass)
  | [] => some (fs, pass)
  | move :: moves => (pass.step? s fs move).bind fun (fs, pass) => pass.run? s fs moves

/-- Reading all that is to be read, move by move. -/
theorem run?_reads : run? ⟨guard, .scanning progress⟩ s fs (progress.unread.map .read ++ moves) =
    run? ⟨guard, .scanning (progress.readAll fs)⟩ s fs moves := by
  generalize hUnread : progress.unread = paths
  -- induction on the files that are still to be read; each of them may be read next
  induction paths generalizing progress with
  | nil => rw [Progress.readAll, hUnread, List.foldl_nil, List.map_nil, List.nil_append]
  | cons path paths ih =>
    obtain ⟨hRest, hEq⟩ := Progress.readAll_cons fs hUnread
    have hStep : step? ⟨guard, .scanning progress⟩ s fs (.read path) =
        some (fs, ⟨guard, .scanning (progress.read fs path)⟩) := by
      simp [step?, hUnread]
    rw [List.map_cons, List.cons_append, run?, hStep, Option.bind_some, hEq]
    exact ih hRest

/-- Taking apart all that was read, move by move. -/
theorem run?_parses (hRead : progress.unread = []) :
    run? ⟨guard, .scanning progress⟩ s fs (progress.unparsed.map .parse ++ moves) =
      run? ⟨guard, .scanning (progress.parseAll s.config.markers)⟩ s fs moves := by
  generalize hUnparsed : progress.unparsed = sources
  -- the same for the contents that are still to be taken apart
  induction sources generalizing progress with
  | nil => rw [Progress.parseAll, hUnparsed, List.foldl_nil, List.map_nil, List.nil_append]
  | cons source sources ih =>
    obtain ⟨hRest, hEq⟩ := Progress.parseAll_cons s.config.markers hUnparsed
    have hStep : step? ⟨guard, .scanning progress⟩ s fs (.parse source) =
        some (fs, ⟨guard, .scanning (progress.parse s.config.markers source)⟩) := by
      simp [step?, hRead, hUnparsed]
    rw [List.map_cons, List.cons_append, run?, hStep, Option.bind_some, hEq]
    exact ih hRead hRest

/-- A pass left alone reads and takes apart its files in order, and commits. -/
theorem exists_run?_finish (pass : RunningPass) (s : Scanner) (fs : FileSystem) :
    ∃ moves, pass.run? s fs moves = some (pass.finish s fs) := by
  -- what is left of a pass that has chosen its files
  have hScanning : ∀ (guard : Guard) (progress : Progress), ∃ moves,
      run? ⟨guard, .scanning progress⟩ s fs moves =
        some (finish.conclude ⟨guard, .scanning progress⟩ s fs progress) := by
    intro guard progress
    have hRead := progress.unread_readAll fs
    obtain ⟨hStillRead, hParsed⟩ := Progress.unparsed_parseAll s.config.markers hRead
    refine
      ⟨progress.unread.map .read ++ ((progress.readAll fs).unparsed.map .parse ++ [.commit]), ?_⟩
    rw [run?_reads, run?_parses hRead]
    simp [run?, step?, hStillRead, hParsed, finish.conclude, commit]
  obtain ⟨guard, stage⟩ := pass
  cases stage with
  | starting =>
    obtain ⟨moves, hRun⟩ := hScanning guard { unread := s.candidates fs }
    exact ⟨.walk :: moves, hRun⟩
  | scanning progress => exact hScanning guard progress
  | ended report => exact ⟨[], rfl⟩

/-- A pass left alone commits what a scan finds. -/
theorem finish_starting (hTree : fs.IsTree) (guard : Guard) : ∃ scan : Scan,
    scan.patterns = (s.scan fs).patterns ∧
      ∀ {after handed report},
        scan.conclude s.config.moduleName guard fs = (after, handed, report) →
        ({ guard } : RunningPass).finish s fs = (after, ⟨handed, .ended report⟩) := by
  have hHeads : Progress.HeadsFor { unread := s.candidates fs } s fs := .walk hTree
  obtain ⟨hRead, hParsed⟩ := Progress.unparsed_parseAll s.config.markers
    (Progress.unread_readAll { unread := s.candidates fs } fs)
  refine ⟨(({ unread := s.candidates fs : Progress }.readAll fs).parseAll s.config.markers).toScan,
    hHeads.readAll.parseAll.patterns hRead hParsed, ?_⟩
  intro after handed report hConclude
  simp only [finish, finish.conclude, commit, hConclude]

end RunningPass

namespace World

variable {w v : World} {actions : List Action} {guard : Guard} {pass moved : RunningPass}
  {after : FileSystem} {moves : List PassMove}

/-- The moves of a pass are actions of the world. -/
theorem run?_moves (hRunning : w.session.running = some pass)
    (hRun : pass.run? w.session.scanner w.files moves = some (after, moved)) :
    w.run? (moves.map .move) =
      some { w with files := after, session := { w.session with running := some moved } } := by
  induction moves generalizing w pass with
  | nil =>
    cases hRun
    rw [List.map_nil, run?_nil, ← hRunning]
  | cons move moves ih =>
    rw [RunningPass.run?, Option.bind_eq_some_iff] at hRun
    obtain ⟨⟨next, other⟩, hMove, hRest⟩ := hRun
    exact run?_cons_iff.mpr ⟨_, .move move pass other next hRunning hMove, ih rfl hRest⟩

/-- A pass is led to its end by its moves, and then the end is noticed. -/
theorem move_or_complete {action : Action} (hMem : action ∈ moves.map .move ++ [.complete]) :
    (∃ move, action = .move move) ∨ action = .complete := by
  rcases List.mem_append.mp hMem with hMove | hLast
  · obtain ⟨move, -, rfl⟩ := List.mem_map.mp hMove
    exact Or.inl ⟨move, rfl⟩
  · exact Or.inr (List.mem_singleton.mp hLast)

/-- Nobody changes a file while a pass is led to its end. -/
theorem no_change_of_moves
    (h : ∀ action ∈ actions, (∃ move, action = .move move) ∨ action = .complete) :
    ∀ action ∈ actions, ∀ files, action ≠ .change files := by
  rintro action hMem files rfl
  rcases h _ hMem with ⟨move, hMove⟩ | hLast
  · cases hMove
  · cases hLast

/-- A pass that nobody disturbs commits what a scan finds, and the session rests. -/
theorem exists_run?_rest (hTree : w.files.IsTree) (hRunning : w.session.running = some { guard })
    (hScheduler : w.session.scheduler = .scanning) (hParked : w.session.parked = [])
    (hNews : w.hasNews = false) : ∃ (actions : List Action) (scan : Scan),
      (∀ action ∈ actions, (∃ move, action = .move move) ∨ action = .complete) ∧
      scan.patterns = (w.session.scanner.scan w.files).patterns ∧
      ∀ {after handed report},
        scan.conclude w.session.scanner.config.moduleName guard w.files = (after, handed, report) →
          w.run? actions = some (World.deliver { w with
            files := after
            session := { w.session with
              running := none
              guard := handed
              scheduler := .idle
              summary := w.session.summary.count report.outcome } } report) ∧
          w.passReports actions = [report] := by
  obtain ⟨moves, hFinish⟩ := RunningPass.exists_run?_finish { guard } w.session.scanner w.files
  obtain ⟨scan, hPatterns, hEnd⟩ := RunningPass.finish_starting (s := w.session.scanner) hTree guard
  refine ⟨moves.map .move ++ [.complete], scan, fun action => move_or_complete, hPatterns, ?_⟩
  intro after handed report hConclude
  rw [hEnd hConclude] at hFinish
  have hMoves := run?_moves hRunning hFinish
  have hStep : Step { w with
      files := after
      session := { w.session with running := some ⟨handed, .ended report⟩ } } .complete _ :=
    .complete ⟨handed, .ended report⟩ report rfl rfl hNews
  refine ⟨run?_append_iff.mpr ⟨_, hMoves, run?_cons_iff.mpr ⟨_, hStep, ?_⟩⟩, ?_⟩
  · -- nothing was parked and nothing is owed, so no cooldown begins
    simp [Session.complete, Session.recheck, Session.judgeParked, Session.settle, hParked,
      hScheduler, Scheduler.onComplete]
  · rw [passReports_append hMoves, passReports_eq_nil (by simp), passReports_cons hStep]
    rfl

/-- A pass that nobody disturbs writes the artifact, if its guard remembers nothing and the artifact
can be written. -/
theorem exists_run?_written {names : List String} (hTree : w.files.IsTree)
    (hRunning : w.session.running = some { guard }) (hScheduler : w.session.scheduler = .scanning)
    (hParked : w.session.parked = []) (hNews : w.hasNews = false)
    (hWritable : w.files.Writable names) (hOutput : guard.output = Route.toPath ⟨true, names⟩)
    (hLast : guard.last = none) : ∃ (actions : List Action) (scan : Scan) (report : PassReport),
      (∀ action ∈ actions, ∀ files, action ≠ .change files) ∧
      scan.patterns = (w.session.scanner.scan w.files).patterns ∧ report.outcome = .written ∧
      w.passReports actions = [report] ∧
      w.run? actions = some (World.deliver { w with
        files := w.files.set (Place.ofNames names)
          (.file (scan.rendering w.session.scanner.config.moduleName).document.toUTF8)
        session := { w.session with
          running := none
          guard := guard.record (scan.rendering w.session.scanner.config.moduleName).fingerprint
          scheduler := .idle
          summary := w.session.summary.count report.outcome } } report) := by
  obtain ⟨actions, scan, hMoves, hPatterns, hEnd⟩ :=
    exists_run?_rest hTree hRunning hScheduler hParked hNews
  obtain ⟨report, hDone, hConclude⟩ := Scan.conclude_of_writable hTree hWritable hOutput hLast scan
    w.session.scanner.config.moduleName
  obtain ⟨hRun, hReports⟩ := hEnd hConclude
  exact ⟨actions, scan, report, no_change_of_moves hMoves, hPatterns, hDone, hReports, hRun⟩

end World

end KeyRegistry

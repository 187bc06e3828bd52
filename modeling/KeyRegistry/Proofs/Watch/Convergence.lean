import KeyRegistry.Proofs.Watch.Announcement

/-!
# Sessions converge

Others edit the files of a project while a session watches it, and every edit is told. Whatever else
happens in whatever order, once the queue is empty and the session is at rest, the artifact holds
the document that the files call for as they are now, unless the last pass failed.

The invariant says of each of the things that keep a session on its course that it holds already, or
that an event is still to be taken that will bring it about.

Two things are assumed besides, and the session need not converge without them. The artifact is no
file that rules come from, so no scan depends on it. And a write that the disk breaks off is told:
the guard still remembers the document that was there before, so a later pass that calls for this
document would leave the artifact alone.

Main definitions:

* `World.OnCourse` — the session is on its course, or an event will bring it there

Main statements:

* `World.step_onCourse` — every action keeps the session on its course
* `World.converges` — at rest, the artifact is up to date
* `World.not_converges_of_excluded`, `World.not_converges_of_brokenOff` — what is assumed is needed
-/

namespace KeyRegistry

namespace World

open FileSystem

variable {scanner : Scanner} {files : FileSystem} {w v : World} {action : Action}
  {actions : List Action} {signal : Signal} {path : Path} {last : Option PassReport}

/-! ## On course -/

/-- The session is on its course, or an event is still to be taken that will bring it there. -/
structure OnCourse (w : World) (actions : List Action) (last : Option PassReport) : Prop where
  scan     : (∃ path, w.Awaits actions path ∧ w.session.scanner.Hears w.files path) ∨
    w.session.HeadsFor w.files last
  artifact : (∃ path, w.Awaits actions path ∧ w.session.guard.isOutput path = true) ∨
    w.session.Trusts w.files
  records  : w.session.Records last

/-- A session is on its course at its start: its first pass runs. -/
theorem OnCourse.begin : (World.begin scanner files).OnCourse actions last where
  scan := Or.inr (Or.inr trivial)
  artifact := by
    refine Or.inr ⟨(fun hIdle => by cases hIdle), ?_⟩
    rintro pass ⟨⟩
    -- a guard that remembers nothing
    refine Or.inr fun f hLast => ?_
    cases hLast
  records := by
    refine ⟨(fun hIdle => by cases hIdle), ?_⟩
    rintro pass ⟨⟩ report hReport
    cases hReport

/-- What leaves the files and the session alone keeps a session on its course, if no event gets
lost. -/
theorem OnCourse.frame (h : w.OnCourse (action :: actions) last) (hFiles : v.files = w.files)
    (hSession : v.session = w.session)
    (hLater : ∀ {path}, w.Awaits (action :: actions) path → v.Awaits actions path) :
    v.OnCourse actions last where
  scan := by
    rw [hFiles, hSession]
    refine h.scan.imp_left ?_
    rintro ⟨path, hAwaits, hHears⟩
    exact ⟨path, hLater hAwaits, hHears⟩
  artifact := by
    rw [hFiles, hSession]
    refine h.artifact.imp_left ?_
    rintro ⟨path, hAwaits, hOutput⟩
    exact ⟨path, hLater hAwaits, hOutput⟩
  records := by
    rw [hSession]
    exact h.records

/-- Neither the scan nor the guard looks at the disk. -/
theorem OnCourse.changeDisk {disk : Disk}
    (h : w.OnCourse (.change { w.files with disk } :: actions) last) (hServes : w.Serves scanner)
    (hScanner : scanner.IsCanonical) (hRules : scanner.KeepsRules w.files) :
    { w with files := { w.files with disk } }.OnCourse actions last := by
  have hTree : IsTree { w.files with disk } := hServes.tree.withDisk disk
  -- no entry changes with the disk, so that the files are the same even at the artifact
  have hSame : SameFilesBut (Place.ofNames scanner.config.output.names) w.files
      { w.files with disk } := ⟨fun _ _ _ => Iff.rfl, rfl, rfl⟩
  have hLater : ∀ {path}, w.Awaits (.change { w.files with disk } :: actions) path →
      { w with files := { w.files with disk } }.Awaits actions path := fun hAwaits =>
    hAwaits.still rfl nofun
  refine ⟨?_, ?_, h.records⟩
  · rcases h.scan with ⟨path, hAwaits, hHears⟩ | hHeads
    · refine Or.inl ⟨path, hLater hAwaits, ?_⟩
      dsimp only
      rw [hServes.project] at hHears ⊢
      exact (Scanner.hears_congr_output hServes.tree hTree hScanner hRules hSame).mpr hHears
    · refine Or.inr (hHeads.congr ?_)
      rw [hServes.project]
      exact .of_output hServes.tree hTree hScanner hRules hSame
  · rcases h.artifact with ⟨path, hAwaits, hOutput⟩ | hTrusts
    · exact Or.inl ⟨path, hLater hAwaits, hOutput⟩
    · refine Or.inr (hTrusts.congr hServes.agrees (SameBytes.fingerprint? ?_))
      rw [hServes.output, ← hScanner.output.toPath_names]
      exact toOption_read_congr hServes.tree hTree hScanner.output.names fun _ => Iff.rfl

/-- An edit brings a session off its course only if an event is to come that brings it back. -/
theorem OnCourse.change {names : List String} (h : w.OnCourse (.change files :: actions) last)
    (hServes : w.Serves scanner) (hScanner : scanner.IsCanonical)
    (hRules : scanner.KeepsRules w.files)
    (hEdits : scanner.Edits w.files files names)
    (hNew : { w with files }.Awaits actions (Route.toPath ⟨true, names⟩)) :
    { w with files }.OnCourse actions last := by
  have hLater : ∀ {path}, w.Awaits (.change files :: actions) path →
      { w with files }.Awaits actions path := fun hAwaits => hAwaits.still rfl nofun
  obtain ⟨hScan, hArtifact, hRecords⟩ := h
  rw [hServes.project] at hScan
  refine ⟨?_, ?_, hRecords⟩
  · dsimp only
    rw [hServes.project]
    rcases hScan with ⟨path, hAwaits, hHears⟩ | hHeads
    · exact Or.inl ⟨path, hLater hAwaits,
        (hEdits.hears_iff hServes.tree hScanner hRules).mpr hHears⟩
    · -- the edit is out of sight of a scan, or its own event is heard
      rcases hEdits.sees hServes.tree hScanner hRules with hSame | hHears
      · refine Or.inr (hHeads.congr ?_)
        rw [hServes.project]
        exact hSame
      · exact Or.inl ⟨_, hNew, hHears⟩
  · -- an edit of the artifact itself is announced, and any other leaves it as it was
    by_cases hOutput : names = scanner.config.output.names
    · refine Or.inl ⟨_, hNew, ?_⟩
      rw [hServes.isOutput hScanner, Scanner.isOutput_iff hScanner hEdits.proper]
      exact hOutput
    · rcases hArtifact with ⟨path, hAwaits, hIsOutput⟩ | hTrusts
      · exact Or.inl ⟨path, hLater hAwaits, hIsOutput⟩
      · refine Or.inr (hTrusts.congr hServes.agrees ?_)
        rw [hServes.output]
        exact hEdits.fingerprint? hServes.tree hScanner hOutput

/-- Taking a signal keeps a session on its course: an event that was awaited is heard, and one that
was not calls for nothing. -/
theorem OnCourse.take {queue : List Signal} (h : w.OnCourse (.notice :: actions) last)
    (hServes : w.Serves scanner) (hScanner : scanner.IsCanonical)
    (hAccepting : w.session.accepting = true) (hQueue : w.queue = signal :: queue) :
    { w with session := w.session.handle w.files signal, queue }.OnCourse actions last := by
  have hArtifact : Session.SameArtifact w.session (w.session.handle w.files signal) :=
    Session.handle_sameArtifact signal
  have hNext : ∀ {path}, w.Awaits (.notice :: actions) path →
      (∃ events, signal = .batch events ∧ ∃ event ∈ events, event.path = path) ∨
        { w with session := w.session.handle w.files signal, queue }.Awaits actions path :=
    fun hAwaits => hAwaits.take hQueue rfl
  refine ⟨?_, ?_, h.records.handle hServes.agrees hAccepting signal⟩
  · dsimp only
    rw [hArtifact.scanner]
    rcases h.scan with ⟨path, hAwaits, hHears⟩ | hHeads
    · -- the event is among those that are taken now, or it is still to come
      rcases hNext hAwaits with ⟨events, hBatch, event, hMem, rfl⟩ | hLater
      · rw [hServes.project] at hHears
        refine Or.inr (Session.handle_headsFor hServes.agrees hAccepting (Or.inl ?_))
        refine ⟨events, hBatch, event, hMem, hServes.isOutput_of_hears hScanner hHears, ?_⟩
        rw [hServes.project]
        exact hHears.scannable
      · exact Or.inl ⟨path, hLater, hHears⟩
    · exact Or.inr (Session.handle_headsFor hServes.agrees hAccepting (Or.inr hHeads))
  · rcases h.artifact with ⟨path, hAwaits, hOutput⟩ | hTrusts
    · rcases hNext hAwaits with ⟨events, hBatch, event, hMem, rfl⟩ | hLater
      · exact Or.inr (Session.handle_trusts hServes.agrees hAccepting
          (Or.inl ⟨events, hBatch, event, hMem, hOutput⟩))
      · exact Or.inl ⟨path, hLater, hArtifact.isOutput.trans hOutput⟩
    · exact Or.inr (Session.handle_trusts hServes.agrees hAccepting (Or.inr hTrusts))

/-- A move of a pass keeps a session on its course, if an event is to come for a write that breaks
off. -/
theorem OnCourse.move {pass moved : RunningPass} {move : PassMove}
    (h : w.OnCourse (.move move :: actions) last) (hServes : w.Serves scanner)
    (hScanner : scanner.IsCanonical) (hRules : scanner.KeepsRules w.files)
    (hRunning : w.session.running = some pass)
    (hMove : pass.step? w.session.scanner w.files move = some (files, moved))
    (hTold : moved.Tears w.files files → ∃ events, .send (.batch events) ∈ actions ∧
      ∃ event ∈ events, w.session.guard.isOutput event.path = true) :
    { w with files, session := { w.session with running := some moved } }.OnCourse actions
      last := by
  have hMoves := RunningPass.Moves.of_step? hMove
  obtain ⟨hAfter, hOnly⟩ := hServes.move hScanner hRunning hMove
  have hSame : scanner.SeesSame w.files files :=
    .of_output hServes.tree hAfter hScanner hRules hOnly.sameFilesBut
  have hLater : ∀ {path}, w.Awaits (.move move :: actions) path →
      { w with files, session := { w.session with running := some moved } }.Awaits actions path :=
    fun hAwaits => hAwaits.still rfl nofun
  refine ⟨?_, ?_, ⟨(fun hIdle => by cases hIdle), ?_⟩⟩
  · -- a move touches the artifact alone, which neither the scan nor the filter looks at
    rcases h.scan with ⟨path, hAwaits, hHears⟩ | hHeads
    · refine Or.inl ⟨path, hLater hAwaits, ?_⟩
      dsimp only
      rw [hServes.project] at hHears ⊢
      exact (Scanner.hears_congr_output hServes.tree hAfter hScanner hRules
        hOnly.sameFilesBut).mpr hHears
    · refine Or.inr (hHeads.moves hRunning hMoves hServes.tree ?_)
      rw [hServes.project]
      exact hSame
  · rcases h.artifact with ⟨path, hAwaits, hOutput⟩ | hTrusts
    · exact Or.inl ⟨path, hLater hAwaits, hOutput⟩
    · -- what the guard remembers is on disk unless a write breaks off, and that is told
      by_cases hTears : moved.Tears w.files files
      · obtain ⟨events, hSent, event, hMem, hOutput⟩ := hTold hTears
        exact Or.inl ⟨_, ⟨events, Or.inr hSent, event, hMem, rfl⟩, hOutput⟩
      · refine Or.inr ⟨(fun hIdle => by cases hIdle), ?_⟩
        rintro _ ⟨⟩
        exact (hTrusts.pass pass hRunning).imp_right fun hGuard =>
          hMoves.trusts hServes.tree hTears hGuard
  · rintro _ ⟨⟩
    exact hMoves.records

/-- The end of a pass keeps a session on its course: what was parked is judged, and what is owed
follows. -/
theorem OnCourse.complete {pass : RunningPass} {report : PassReport}
    (h : w.OnCourse (.complete :: actions) last) (hServes : w.Serves scanner)
    (hAccepting : w.session.accepting = true) (hRunning : w.session.running = some pass)
    (hReport : pass.report? = some report) :
    ({ w with session := w.session.complete w.files pass.guard report }.deliver report).OnCourse
      actions (some report) := by
  have hArtifact : Session.SameArtifact w.session (w.session.complete w.files pass.guard report) :=
    Session.complete_sameArtifact hServes.agrees hRunning report
  -- a report leaves the queue alone: what was awaited still is
  have hLater : ∀ {path}, w.Awaits (.complete :: actions) path →
      ({ w with session := w.session.complete w.files pass.guard report }.deliver report).Awaits
        actions path := fun hAwaits => hAwaits.still (deliver_queue report) nofun
  refine ⟨?_, ?_, ?_⟩ <;> rw [deliver_session]
  · rw [hArtifact.scanner, deliver_files]
    rcases h.scan with ⟨path, hAwaits, hHears⟩ | hHeads
    · exact Or.inl ⟨path, hLater hAwaits, hHears⟩
    · exact Or.inr
        (Session.complete_headsFor hServes.agrees hAccepting hRunning hReport hHeads)
  · rw [deliver_files]
    rcases h.artifact with ⟨path, hAwaits, hOutput⟩ | hTrusts
    · exact Or.inl ⟨path, hLater hAwaits, hArtifact.isOutput.trans hOutput⟩
    · exact Or.inr (Session.complete_trusts hServes.agrees hAccepting hRunning hTrusts)
  · exact Session.complete_records hServes.agrees hAccepting hRunning hReport h.records

/-- The pass that was owed heads for what the files call for. -/
theorem OnCourse.resume (h : w.OnCourse (.resume :: actions) last) (hServes : w.Serves scanner)
    (hCooling : w.session.cooling = true) :
    { w with session := w.session.resume }.OnCourse actions last := by
  have hLater : ∀ {path}, w.Awaits (.resume :: actions) path →
      { w with session := w.session.resume }.Awaits actions path := fun hAwaits =>
    hAwaits.still rfl nofun
  refine ⟨Or.inr Session.resume_headsFor, ?_, Session.resume_records⟩
  rcases h.artifact with ⟨path, hAwaits, hOutput⟩ | hTrusts
  · exact Or.inl ⟨path, hLater hAwaits, hOutput⟩
  · exact Or.inr (hTrusts.resume hServes.agrees hCooling)

/-! ## Every state that a session comes to -/

/-- Every action keeps the session on its course. -/
theorem step_onCourse (hStep : Step w action v) (hServes : w.Serves scanner)
    (hScanner : scanner.IsCanonical) (hRules : scanner.KeepsRules w.files)
    (hAnnounced : w.Announced (action :: actions)) (hTears : w.TellsTears (action :: actions))
    (hAccepting : v.session.accepting = true) (h : w.OnCourse (action :: actions) last) :
    v.OnCourse actions ((w.reportOf action).or last) := by
  have hBefore := accepting_of_step hStep hAccepting
  -- only a change of the files or a write that is broken off puts a session off course, and then
  -- an event for it is still to come; every other step keeps what is awaited or settles it
  cases hStep with
  | change files =>
    rcases hAnnounced.1 files rfl with ⟨disk, rfl⟩ | ⟨names, hEdits, events, hSent, hEvent⟩
    · exact h.changeDisk hServes hScanner hRules
    · rw [hServes.project] at hEdits
      exact h.change hServes hScanner hRules hEdits ⟨events, Or.inr hSent, hEvent⟩
  | send signal =>
    refine h.frame rfl rfl fun hAwaits => hAwaits.later ?_ ?_
    · exact fun other hQueued => List.mem_append_left _ hQueued
    · rintro _ ⟨⟩
      exact List.mem_append_right _ List.mem_cons_self
  | close | requestStop | leave =>
    exact h.frame rfl rfl fun hAwaits => hAwaits.still rfl nofun
  | stop | drain => cases hAccepting
  | take signal queue _ _ hQueue => exact h.take hServes hScanner hBefore hQueue
  | move move pass moved files hRunning hMove =>
    refine h.move hServes hScanner hRules hRunning hMove fun hTorn => ?_
    have hMoved := (Step.move move pass moved files hRunning hMove).step?
    have hTold := hTears [] move actions w _ moved rfl rfl hMoved rfl hTorn
    exact hTold
  | complete pass report hRunning hReport =>
    rw [reportOf_complete hRunning hReport]
    exact h.complete hServes hBefore hRunning hReport
  | resume hCooling => exact h.resume hServes hCooling

/-- Every run leaves the session on its course. -/
theorem run_onCourse (hRun : w.run? actions = some v) (hServes : w.Serves scanner)
    (hScanner : scanner.IsCanonical)
    (hRules : scanner.config.respectIgnores = true → w.KeepsRules actions scanner.config.output)
    (hAnnounced : w.Announced actions) (hTears : w.TellsTears actions)
    (hAccepting : v.session.accepting = true) (h : w.OnCourse actions last) :
    v.Serves scanner ∧ v.OnCourse [] ((w.passReports actions).getLast?.or last) := by
  induction actions generalizing w last with
  | nil =>
    cases hRun
    exact ⟨hServes, h⟩
  | cons action actions ih =>
    obtain ⟨u, hStep, hRest⟩ := run?_cons_iff.mp hRun
    have hLater : u.session.accepting = true := accepting_of_run hRest hAccepting
    have hNow : scanner.KeepsRules w.files := fun hRespect => (hRules hRespect).here
    obtain ⟨hServed, hCourse⟩ := ih hRest
      (step_serves hStep hServes hScanner (hAnnounced.isTree hServes.tree))
      (fun hRespect => (hRules hRespect).tail hStep) (hAnnounced.2 u hStep.step?)
      (hTears.tail hStep)
      (step_onCourse hStep hServes hScanner hNow hAnnounced hTears hLater h)
    -- the last report of the whole course is the last of the rest, or else the one of its first
    -- action
    refine ⟨hServed, ?_⟩
    have hReports : (w.passReports (action :: actions)).getLast? =
        (u.passReports actions).getLast?.or (w.reportOf action) := by
      rw [passReports_cons hStep, List.getLast?_append]
      cases w.reportOf action <;> rfl
    rw [hReports, Option.or_assoc]
    exact hCourse

/-- **Convergence.** In every state that a session comes to in which it is at rest and every edit
has been announced and noticed, the artifact has the fingerprint of the document that the files call
for as they are now, unless the last pass failed. -/
theorem converges {fs₀ fs₁ : FileSystem} {config : Config} {resolved : Resolved}
    (hStart : fs₀.HasNames) (hResolved : config.resolve fs₀ = .ok resolved)
    (hScanner : Scanner.new fs₁ resolved = .ok scanner) (hTree : files.IsTree)
    (hRules : resolved.respectIgnores = true →
      (World.begin scanner files).KeepsRules actions resolved.output)
    (hAnnounced : (World.begin scanner files).Announced actions)
    (hTears : (World.begin scanner files).TellsTears actions)
    (hRun : (World.begin scanner files).run? actions = some w)
    (hAccepting : w.session.accepting = true) (hQueue : w.queue = [])
    (hNoPass : w.session.running = none) (hNoCooldown : w.session.cooling = false)
    (hDone : ∀ report, ((World.begin scanner files).passReports actions).getLast? = some report →
      report.outcome.isFailure = false) :
    w.files.fingerprint? resolved.output =
      some ((scanner.scan w.files).rendering resolved.moduleName).fingerprint := by
  obtain ⟨hCanonical, rfl⟩ := Scanner.IsCanonical.of_new hStart hResolved hScanner
  have hServes : (World.begin scanner files).Serves scanner := by
    exact ⟨begin_agrees, hTree, rfl, rfl, hCanonical.guard_output⟩
  have hBegin : (World.begin scanner files).OnCourse actions none := .begin
  obtain ⟨hServed, hScan, hArtifact, hRecords⟩ :=
    run_onCourse hRun hServes hCanonical hRules hAnnounced hTears hAccepting hBegin
  -- nothing is still to come
  have hNothing : ∀ path, ¬ w.Awaits [] path := by
    rintro path ⟨events, hQueued | hSent, -⟩
    · rw [hQueue] at hQueued
      cases hQueued
    · cases hSent
  have hHeads := hScan.resolve_left fun ⟨path, hAwaits, _⟩ => hNothing path hAwaits
  have hTrusts := hArtifact.resolve_left fun ⟨path, hAwaits, _⟩ => hNothing path hAwaits
  have hHeads :=
    hHeads.resolve_left (hServed.agrees.not_owed hAccepting hNoPass hNoCooldown)
  rw [hNoPass] at hHeads
  obtain ⟨report, hLast, hTarget⟩ := hHeads.resolve_left (by simp [hNoCooldown])
  obtain ⟨other, hOther, hRecord⟩ := hRecords.idle hNoPass hNoCooldown
  rw [hLast] at hOther
  cases hOther
  rw [Option.or_none] at hLast
  -- the guard remembers the document of the last pass, and what it remembers is on disk
  have hDisk := hTrusts.idle hNoPass _ (hRecord (hDone report hLast))
  rw [hServed.output, hTarget, hServed.project] at hDisk
  exact hDisk

namespace Removal

open Overwritten (output)

/-- The event that tells of the removal. -/
def event : FileEvent := ⟨.removed, Route.toPath ⟨true, output⟩⟩

/-- The event is one for the artifact. -/
theorem isOutput_event : Hidden.scanner.guard.isOutput event.path = true := by
  rw [Guard.isOutput, event, Route.absolutize_toPath Overwritten.writable.proper,
    Overwritten.guard_output]
  exact (Route.same_toPath Overwritten.writable.proper Overwritten.writable.proper).mpr rfl

variable {document : String} {f : Fingerprint} {report : PassReport}

/-- The session at rest after a pass that wrote a document. -/
def rested (document : String) (f : Fingerprint) (report : PassReport) : World where
  files := Hidden.project.set (Place.ofNames output) (.file document.toUTF8)
  session := {
    scanner := Hidden.scanner
    guard := Hidden.scanner.guard.record f
    summary := Summary.count {} report.outcome }
  reports := [report]

/-- The session when it has heard that the artifact was removed. -/
def woken (report : PassReport) : World where
  files := Hidden.project
  session := { Session.begin Hidden.scanner with summary := Summary.count {} report.outcome }
  reports := [report]

/-- At rest, the removal of the artifact calls for a pass. -/
theorem handle_event : (rested document f report).session.handle Hidden.project (.batch [event]) =
    (woken report).session := by
  let s : Session := (rested document f report).session
  -- there is no artifact in these files, so the event is no echo of the last write
  have hEcho : s.guard.checkEcho Hidden.project event.path = false := by
    have hSame : Hidden.project.fingerprint? s.guard.output = none :=
      Overwritten.fingerprint?_hidden
    rw [Guard.checkEcho, Guard.isEcho, hSame, Option.isSome_none, Bool.and_false, Bool.false_and,
      Bool.and_false]
  have hHere : s.guard.isOutput event.path = true := isOutput_event
  have hJudge : s.judgeEvent Hidden.project event.path =
      ({ s with guard := s.guard.invalidate }, true) := by
    rw [Session.judgeEvent, if_pos hHere, if_neg (by simp [s, rested]), Session.judgeArtifact,
      hEcho,
      if_neg (by simp)]
  rw [Session.handle_batch_eq, Session.judge_eq, Session.judgeAll]
  dsimp only
  rw [hJudge]
  rfl

/-- The artifact is removed, and the session starts over. -/
theorem run?_rested : (rested document f report).run?
    [.change Hidden.project, .send (.batch [event]), .notice] = some (woken report) := by
  refine run?_cons_iff.mpr ⟨_, .change Hidden.project, run?_cons_iff.mpr ⟨_, .send _ rfl,
    run?_cons_iff.mpr ⟨_, .take _ [] rfl rfl rfl, ?_⟩⟩⟩
  rw [run?_nil]
  dsimp only
  rw [handle_event]
  rfl

/-- The removal is an edit of the artifact. -/
theorem edits : Hidden.scanner.Edits (rested document f report).files Hidden.project output := by
  refine ⟨Overwritten.writable.proper, Hidden.project_isTree,
    ⟨fun other hNe => Or.inl (FileSystem.at?_set_ne hNe).symm, rfl, rfl⟩, Or.inl ?_⟩
  rw [Scanner.concerns, Bool.or_eq_true]
  exact Or.inl isOutput_event

/-- The disk of the project has room. -/
theorem whole : Hidden.project.disk.Whole := nofun

end Removal

/-- The artifact is removed after the first pass, and made again. -/
theorem converges_of_removal : ∃ actions w,
    (World.begin Hidden.scanner Hidden.project).run? actions = some w ∧
      .change Hidden.project ∈ actions ∧
      w.files.fingerprint? Hidden.resolved.output =
        some ((Hidden.scanner.scan w.files).rendering Hidden.resolved.moduleName).fingerprint := by
  have hTree := Hidden.project_isTree
  -- the first pass writes the document, its removal is announced, and another pass writes it again
  obtain ⟨first, scan, report, hFirst, -, hDone, hReports, hRun⟩ :=
    exists_run?_written (w := World.begin Hidden.scanner Hidden.project) hTree rfl rfl rfl rfl
      Overwritten.writable Overwritten.guard_output rfl
  obtain ⟨document, f, hRested⟩ : ∃ document f,
      (World.begin Hidden.scanner Hidden.project).run? first =
        some (Removal.rested document f report) := ⟨_, _, hRun⟩
  obtain ⟨second, _, other, hSecond, -, hOther, hLast, hAgain⟩ :=
    exists_run?_written (w := Removal.woken report) hTree rfl rfl rfl rfl
      Overwritten.writable Overwritten.guard_output rfl
  have hRemoved : (Removal.rested document f report).run? _ = _ := Removal.run?_rested
  have hWhole := run?_append_iff.mpr ⟨_, hRested, run?_append_iff.mpr ⟨_, hRemoved, hAgain⟩⟩
  refine ⟨_, _, hWhole, List.mem_append_right _ List.mem_cons_self, ?_⟩
  have hLater : ∀ action ∈ .send (.batch [Removal.event]) :: .notice :: second, ∀ files,
      action ≠ .change files := by
    intro action hMem files
    rcases List.mem_cons.mp hMem with rfl | hMem
    · simp
    rcases List.mem_cons.mp hMem with rfl | hMem
    · simp
    · exact hSecond action hMem files
  have hAnnounced : (World.begin Hidden.scanner Hidden.project).Announced
      (first ++ ([.change Hidden.project, .send (.batch [Removal.event]), .notice] ++ second)) := by
    refine .after hFirst hRested ⟨?_, fun _ _ => announced_of_noChange hLater⟩
    rintro files ⟨⟩
    exact Or.inr ⟨_, Removal.edits, [Removal.event], List.mem_cons_self, _, List.mem_cons_self, rfl⟩
  have hServes : (World.begin Hidden.scanner Hidden.project).Serves Hidden.scanner :=
    ⟨begin_agrees, hTree, rfl, rfl, Overwritten.isCanonical.guard_output⟩
  -- the disk has room all the time, so no write breaks off
  have hDisk : ∀ files, .change files ∈
      first ++ ([.change Hidden.project, .send (.batch [Removal.event]), .notice] ++ second) →
      files.disk.Whole := by
    intro files hMem
    rcases List.mem_append.mp hMem with hMem | hMem
    · exact absurd rfl (hFirst _ hMem files)
    rcases List.mem_cons.mp hMem with hChange | hMem
    · cases hChange
      exact Removal.whole
    · exact absurd rfl (hLater _ hMem files)
  have hRules : Walk.KeepsRules Hidden.project Hidden.resolved.output.names :=
    Overwritten.keepsRules rfl
  refine converges hTree.names Hidden.resolve_config Hidden.new_scanner hTree
    (fun _ => keepsRules_of_none hServes Overwritten.isCanonical hAnnounced rfl
      hRules.directories) hAnnounced
    (tellsTears_of_whole hServes Overwritten.isCanonical hAnnounced Removal.whole hDisk) hWhole
    rfl rfl rfl rfl ?_
  intro last hEnd
  rw [passReports_append hRested, passReports_append hRemoved, hReports, hLast,
    passReports_eq_nil (by simp)] at hEnd
  have hSame : some other = some last := hEnd
  rw [← Option.some.inj hSame, hOther]
  rfl

end World

/-- Without a condition on the artifact that rules out each file of ignore rules, a session need not
converge: here the first pass writes the document to `.git/info/exclude`, where one of its lines
makes the next scan ignore the file that the document is about. -/
theorem World.not_converges_of_excluded :
    ¬ ∀ (fs₀ fs₁ files : FileSystem) (config : Config) (resolved : Resolved) (scanner : Scanner)
      (actions : List Action) (w : World), fs₀.HasNames → config.resolve fs₀ = .ok resolved →
      Scanner.new fs₁ resolved = .ok scanner → files.IsTree →
      resolved.output.names.getLast? ≠ some ".gitignore" →
      resolved.output.names.getLast? ≠ some ".ignore" →
      (World.begin scanner files).Announced actions →
      (World.begin scanner files).run? actions = some w → w.session.accepting = true →
      w.queue = [] → w.session.running = none → w.session.cooling = false →
      (∀ report, ((World.begin scanner files).passReports actions).getLast? = some report →
        report.outcome.isFailure = false) →
      w.files.fingerprint? resolved.output =
        some ((scanner.scan w.files).rendering resolved.moduleName).fingerprint := by
  intro hAlways
  have hTree := Excluded.project_isTree
  obtain ⟨actions, scan, report, hNoChange, hPatterns, hDone, hReports, hRun⟩ :=
    World.exists_run?_written (w := World.begin Excluded.scanner Excluded.project) hTree rfl rfl rfl
      rfl Excluded.writable Excluded.guard_output rfl
  have hDocument : (scan.rendering
      (World.begin Excluded.scanner Excluded.project).session.scanner.config.moduleName).document =
        Excluded.document :=
    Excluded.rendering_document (hPatterns.trans Excluded.scan_project)
  rw [hDocument] at hRun
  -- the pass has written the document, and nothing is under way any more
  have hOutput : Excluded.resolved.output = Route.toPath ⟨true, Excluded.output⟩ := rfl
  have hEnd := hAlways Excluded.project Excluded.project Excluded.project Excluded.config
    Excluded.resolved Excluded.scanner actions _ hTree.names Excluded.resolve_config
    Excluded.new_scanner hTree (by rw [Excluded.output_names]; decide)
    (by rw [Excluded.output_names]; decide)
    (World.announced_of_noChange hNoChange) hRun rfl rfl rfl rfl ?_
  · -- but the file that the document is about is ignored now, so a scan finds nothing
    have hDisk : Excluded.written.fingerprint? Excluded.resolved.output =
        some ((Excluded.scanner.scan Excluded.written).rendering "m").fingerprint := hEnd
    rw [hOutput, Excluded.fingerprint?_written, Scan.rendering, Excluded.scan_written] at hDisk
    have hSame := Option.some.inj hDisk
    revert hSame
    decide +kernel
  · intro last hLast
    rw [hReports] at hLast
    have hSame : some report = some last := hLast
    rw [← Option.some.inj hSame, hDone]
    rfl

namespace Torn

open FileSystem
open Overwritten (output)

/-- The names on the way to a file that comes and goes. -/
def source : List String := ["r", "y.ts"]

/-- The document of a project without calls. -/
def document : String := (Rendering.of PatternSet.empty.expand "m").document

/-- The project with that document. -/
def written : FileSystem := Locked.bare.set (Place.ofNames output) (.file document.toUTF8)

/-- A file with a call is there, and the disk is full. -/
def crowded : FileSystem :=
  { written.set (Place.ofNames source) (.file "qk('y')".toUTF8) with
    disk := {
      writing := fun _ _ => .brokenOff 0 (.other "No space left on device (os error 28)") } }

/-- The file is gone again and there is room, but the artifact was emptied. -/
def cleared : FileSystem := Locked.bare.set (Place.ofNames output) (.file .empty)

/-- The scanner is that of a resolved configuration. -/
theorem isCanonical : Hidden.plainScanner.IsCanonical :=
  (Scanner.IsCanonical.of_new Hidden.project_isTree.names (Hidden.resolve_configWith [] false)
    Hidden.new_plainScanner).1

/-- The guard knows the artifact by its route. -/
theorem guard_output : Hidden.plainScanner.guard.output = Route.toPath ⟨true, output⟩ :=
  Overwritten.guard_output

theorem written_isTree : written.IsTree :=
  Locked.bare_openable.set Locked.bare_isTree _

theorem cleared_isTree : cleared.IsTree :=
  Locked.bare_openable.set Locked.bare_isTree _

/-- The file can be created where it comes and goes. -/
theorem source_openable : written.Openable source := by
  have hFree : written.at? (Place.ofNames source) = none := rfl
  exact ⟨by decide, by decide, by decide, by simp [source], rfl, by simp [hFree]⟩

theorem crowded_isTree : crowded.IsTree :=
  (source_openable.set written_isTree _).withDisk _

/-- A project in which there is nothing but an artifact calls for the document without calls. -/
theorem scan_alone {fs : FileSystem} (hTree : fs.IsTree)
    (hAlone : ∀ place ≠ Place.ofNames output, fs.at? place = Locked.bare.at? place) :
    (Hidden.plainScanner.scan fs).patterns = PatternSet.empty := by
  refine Scanner.scan_eq_empty hTree isCanonical fun below content _ hFile => ?_
  rw [show Hidden.plainScanner.config.output.names = output from Overwritten.output_names]
  by_contra hOther
  rw [hAlone _ fun hEq => hOther (Place.ofNames_inj.mp hEq)] at hFile
  exact Locked.bare_no_file hFile

/-- The file is read when it is there. -/
theorem mem_candidates {p : Path} :
    p ∈ Hidden.plainScanner.candidates crowded ↔ p = Route.toPath ⟨true, source⟩ := by
  have hFiles : Walk.filesBelow crowded ["r"] = [["y.ts"], ["out.d.ts"]] := rfl
  have hRoot : Hidden.plainScanner.matcher.root.names = ["r"] := Hidden.root_names
  rw [Scanner.candidates, Matcher.mem_candidates, hRoot, hFiles]
  constructor
  · rintro ⟨below, hBelow, rfl, -, hCandidate⟩
    rcases List.mem_cons.mp hBelow with rfl | hBelow
    · rfl
    · -- the artifact is no candidate
      obtain rfl := List.mem_singleton.mp hBelow
      exact absurd Overwritten.output_names.symm
        (Scanner.ne_output_of_isCandidate isCanonical Overwritten.writable.proper hCandidate)
  · rintro rfl
    exact ⟨["y.ts"], List.mem_cons_self, rfl, by decide +kernel, by decide +kernel⟩

/-- The patterns of the project when the file is there. -/
def patterns : PatternSet := PatternSet.ofList [⟨"y"⟩]

/-- While the file is there, its key is found. -/
theorem scan_crowded : (Hidden.plainScanner.scan crowded).patterns = patterns := by
  have hRead : crowded.read (Route.toPath ⟨true, source⟩) = .ok "qk('y')".toUTF8 :=
    (read_eq_ok_iff crowded_isTree (by decide)).mpr ⟨by decide, at?_set_self (by decide)⟩
  have hSource : Source.read crowded (Route.toPath ⟨true, source⟩) =
      .ok ⟨Route.toPath ⟨true, source⟩, "qk('y')"⟩ := by
    rw [Source.read, hRead]
    dsimp only
    rw [Text.decodeLossy_toUTF8]
  -- the call in the file is parsed here
  have hFound : Source.patterns ⟨Route.toPath ⟨true, source⟩, "qk('y')"⟩
      Hidden.plainScanner.config.markers = [⟨"y"⟩] := by decide +kernel
  refine PatternSet.ext_mem fun pattern => ?_
  rw [Scanner.mem_scan, patterns, PatternSet.ofList, PatternSet.mem_insertAll, Scanner.Finds]
  simp only [mem_candidates, exists_eq_left, hSource, Except.ok.injEq, exists_eq_left', hFound,
    List.mem_singleton, PatternSet.not_mem_empty, or_false]

/-! ### The session -/

/-- The guard once the document was written. -/
def guard : Guard := Hidden.plainScanner.guard.record (Fingerprint.ofText document)

/-- The session at rest. -/
def idle (files : FileSystem) (summary : Summary) (reports : List PassReport) : World where
  files
  session := { scanner := Hidden.plainScanner, guard, summary }
  reports

/-- The session while a pass runs. -/
def busy (files : FileSystem) (summary : Summary) (reports : List PassReport) : World where
  files
  session := {
    scanner := Hidden.plainScanner
    guard
    summary
    scheduler := .scanning
    running := some { guard } }
  reports

variable {files next : FileSystem} {summary : Summary} {reports : List PassReport}

/-- What is heard of the file. -/
def news (kind : ChangeKind) : List Action :=
  [.send (.batch [⟨kind, Route.toPath ⟨true, source⟩⟩]), .notice]

/-- The news is an event for the file that is queued and taken. -/
theorem mem_news {kind : ChangeKind} : ∃ events, .send (.batch events) ∈ news kind ∧
    ∃ event ∈ events, event.path = Route.toPath ⟨true, source⟩ :=
  ⟨_, List.mem_cons_self, _, List.mem_cons_self, rfl⟩

/-- An event for the file calls for a pass. -/
theorem run?_told (kind : ChangeKind) :
    (idle files summary reports).run? (.change next :: news kind) =
      some (busy next summary reports) := by
  have hOther : guard.isOutput (Route.toPath ⟨true, source⟩) = false := by decide +kernel
  have hCandidate :
      Hidden.plainScanner.matcher.isCandidate (Route.toPath ⟨true, source⟩) = true := by
    decide +kernel
  have hScannable :
      Hidden.plainScanner.matcher.isScannable next (Route.toPath ⟨true, source⟩) = true := by
    rw [Matcher.isScannable, hCandidate]
    rfl
  -- the file is a candidate and not the artifact, so its event calls for a pass
  have hJudged : (idle files summary reports).session.judgeEvent next
      (Route.toPath ⟨true, source⟩) = ((idle files summary reports).session, true) := by
    rw [Session.judgeEvent, idle]
    dsimp only
    rw [hOther, hScannable, if_neg (by simp)]
  refine World.run?_cons_iff.mpr ⟨_, .change next, World.run?_cons_iff.mpr ⟨_, .send _ rfl,
    World.run?_cons_iff.mpr ⟨_, .take _ [] rfl rfl rfl, ?_⟩⟩⟩
  rw [World.run?_nil, Session.handle_batch_eq, Session.judge_eq, Session.judgeAll]
  dsimp only
  rw [hJudged]
  rfl

/-- A change of the file concerns the project. -/
theorem concerns (fs : FileSystem) :
    Hidden.plainScanner.concerns fs (Route.toPath ⟨true, source⟩) = true := by
  have hCandidate :
      Hidden.plainScanner.matcher.isCandidate (Route.toPath ⟨true, source⟩) = true := by
    decide +kernel
  rw [Scanner.concerns, Matcher.isScannable, hCandidate]
  exact Bool.or_true _

/-- That the file comes is an edit, and so it is when the disk fills up with it. -/
theorem edits_crowded : Hidden.plainScanner.Edits written crowded source :=
  ⟨source_openable.proper, crowded_isTree,
    ⟨fun _ hNe => Or.inl (at?_set_ne hNe), rfl, rfl⟩, Or.inl (concerns _)⟩

/-- The project when the write has broken off. -/
def torn : FileSystem := crowded.set (Place.ofNames output) (.file .empty)

/-- That the file goes is an edit, and so it is when there is room again. -/
theorem edits_cleared : Hidden.plainScanner.Edits torn cleared source := by
  refine ⟨source_openable.proper, cleared_isTree, ⟨fun other hNe => Or.inl ?_, rfl, rfl⟩,
    Or.inl (concerns _)⟩
  by_cases hOutput : other = Place.ofNames output
  · rw [hOutput, torn, cleared, at?_set_self (by decide), at?_set_self (by decide)]
  · have hSource : crowded.at? other = written.at? other := at?_set_ne hNe
    rw [torn, cleared, at?_set_ne hOutput, at?_set_ne hOutput, hSource, written,
      at?_set_ne hOutput]

/-! ### The passes -/

/-- The first pass writes the document. -/
theorem exists_first : ∃ actions summary report,
    (∀ action ∈ actions, ∀ files, action ≠ .change files) ∧
      (World.begin Hidden.plainScanner Locked.bare).run? actions =
        some (idle written summary [report]) := by
  have hWritable : Locked.bare.Writable output := ⟨Locked.bare_openable, fun _ => rfl⟩
  obtain ⟨actions, scan, report, hNoChange, hPatterns, -, -, hRun⟩ :=
    World.exists_run?_written (w := World.begin Hidden.plainScanner Locked.bare) Locked.bare_isTree
      rfl rfl rfl rfl hWritable guard_output rfl
  have hAlone : scan.patterns = PatternSet.empty :=
    hPatterns.trans (scan_alone Locked.bare_isTree fun _ _ => rfl)
  refine ⟨actions, Summary.count {} report.outcome, report, hNoChange, hRun.trans ?_⟩
  rw [Scan.rendering, hAlone]
  rfl

/-- The second pass fails to write the next one, and empties the artifact. -/
theorem exists_second (summary : Summary) (reports : List PassReport) :
    ∃ actions other report, (∀ action ∈ actions, ∀ files, action ≠ .change files) ∧
      (busy crowded summary reports).run? actions =
        some (idle torn other (reports ++ [report])) := by
  obtain ⟨actions, scan, hMoves, hPatterns, hEnd⟩ :=
    World.exists_run?_rest (w := busy crowded summary reports) crowded_isTree rfl rfl rfl rfl
  have hScan : scan.patterns = patterns := hPatterns.trans scan_crowded
  -- the guard remembers another document, so the pass has to write
  have hNew : guard.last ≠ some (scan.rendering "m").fingerprint := by
    rw [Scan.rendering, hScan]
    decide +kernel
  have hOpenable : crowded.Openable output :=
    { Locked.bare_openable with
      directory := rfl
      free := by
        have hFile : crowded.at? (Place.ofNames output) = some (.file document.toUTF8) := rfl
        simp [hFile] }
  have hOutput : guard.output = Route.toPath ⟨true, output⟩ := guard_output
  -- the file is emptied before the room turns out to be missing, which leaves nothing in it
  have hTorn : ∀ content, crowded.writeAt (Place.ofNames output) content =
      (torn, .error (.other "No space left on device (os error 28)")) := by
    intro content
    have hNone : content.extract 0 0 = .empty := by simp
    rw [writeAt_of_brokenOff crowded rfl, hNone]
    rfl
  obtain ⟨report, -, hConclude⟩ :=
    Scan.conclude_of_openable crowded_isTree hOpenable hOutput hNew (hTorn _)
  exact ⟨actions, summary.count report.outcome, report, World.no_change_of_moves hMoves,
    (hEnd hConclude).1⟩

/-- The third pass finds that its document is the one that the guard remembers. -/
theorem exists_third (summary : Summary) (reports : List PassReport) :
    ∃ actions other report, (∀ action ∈ actions, ∀ files, action ≠ .change files) ∧
      report.outcome = .unchanged ∧ (busy cleared summary reports).passReports actions = [report] ∧
      (busy cleared summary reports).run? actions =
        some (idle cleared other (reports ++ [report])) := by
  obtain ⟨actions, scan, hMoves, hPatterns, hEnd⟩ :=
    World.exists_run?_rest (w := busy cleared summary reports) cleared_isTree rfl rfl rfl rfl
  have hAlone : scan.patterns = PatternSet.empty :=
    hPatterns.trans (scan_alone cleared_isTree fun _ hNe => at?_set_ne hNe)
  have hLast : guard.last = some (scan.rendering "m").fingerprint := by
    rw [Scan.rendering, hAlone]
    rfl
  obtain ⟨hRun, hReports⟩ := hEnd (Scan.conclude_of_last hLast cleared)
  exact ⟨actions, summary.count .unchanged, _, World.no_change_of_moves hMoves, rfl, hReports, hRun⟩

end Torn

/-- Nor need a session converge if a write may break off and nobody tells: here a file is added
while the disk is full, and the pass that writes the next document fails and leaves the artifact
empty. When the file is gone again, the document is the one that the guard remembers, so the next
pass leaves the artifact alone. -/
theorem World.not_converges_of_brokenOff :
    ¬ ∀ (fs₀ fs₁ files : FileSystem) (config : Config) (resolved : Resolved) (scanner : Scanner)
      (actions : List Action) (w : World), fs₀.HasNames → config.resolve fs₀ = .ok resolved →
      Scanner.new fs₁ resolved = .ok scanner → files.IsTree →
      (resolved.respectIgnores = true →
        (World.begin scanner files).KeepsRules actions resolved.output) →
      (World.begin scanner files).Announced actions →
      (World.begin scanner files).run? actions = some w → w.session.accepting = true →
      w.queue = [] → w.session.running = none → w.session.cooling = false →
      (∀ report, ((World.begin scanner files).passReports actions).getLast? = some report →
        report.outcome.isFailure = false) →
      w.files.fingerprint? resolved.output =
        some ((scanner.scan w.files).rendering resolved.moduleName).fingerprint := by
  intro hAlways
  obtain ⟨first, summary₁, report₁, hFirst, hRun₁⟩ := Torn.exists_first
  obtain ⟨second, summary₂, report₂, hSecond, hRun₂⟩ := Torn.exists_second summary₁ [report₁]
  obtain ⟨third, summary₃, report₃, hThird, hUnchanged, hReports, hRun₃⟩ :=
    Torn.exists_third summary₂ ([report₁] ++ [report₂])
  have hAdded : (Torn.idle Torn.written summary₁ [report₁]).run?
      (.change Torn.crowded :: Torn.news .added) =
        some (Torn.busy Torn.crowded summary₁ [report₁]) :=
    Torn.run?_told .added
  have hRemoved : (Torn.idle Torn.torn summary₂ ([report₁] ++ [report₂])).run?
      (.change Torn.cleared :: Torn.news .removed) =
        some (Torn.busy Torn.cleared summary₂ ([report₁] ++ [report₂])) :=
    Torn.run?_told .removed
  have hWhole := run?_append_iff.mpr ⟨_, hRun₁, run?_append_iff.mpr ⟨_, hAdded,
    run?_append_iff.mpr ⟨_, hRun₂, run?_append_iff.mpr ⟨_, hRemoved, hRun₃⟩⟩⟩⟩
  have hAnnounced : (World.begin Hidden.plainScanner Locked.bare).Announced
      (first ++ (.change Torn.crowded :: Torn.news .added ++
        (second ++ (.change Torn.cleared :: Torn.news .removed ++ third)))) := by
    have hToldOnce : ∀ {kind : ChangeKind}, ∀ action ∈ Torn.news kind, ∀ files,
        action ≠ .change files := by simp [Torn.news]
    refine .after hFirst hRun₁ (.told Torn.edits_crowded Torn.mem_news hToldOnce
      (Torn.run?_told .added) (.after hSecond hRun₂ (.told Torn.edits_cleared Torn.mem_news
        hToldOnce (Torn.run?_told .removed) ?_)))
    exact announced_of_noChange hThird
  have hEnd := hAlways Hidden.project Hidden.project Locked.bare _ _ Hidden.plainScanner _ _
    Hidden.project_isTree.names (Hidden.resolve_configWith [] false) Hidden.new_plainScanner
    Locked.bare_isTree nofun hAnnounced hWhole rfl rfl rfl rfl ?_
  · -- the artifact is empty, and the document is not
    have hTop : Torn.cleared.read (Route.toPath ⟨true, Overwritten.output⟩) = .ok .empty :=
      Locked.bare_openable.read_set Locked.bare_isTree _
    have hDisk : Torn.cleared.fingerprint? (Route.toPath ⟨true, Overwritten.output⟩) =
        some ((Hidden.plainScanner.scan Torn.cleared).rendering "m").fingerprint := hEnd
    rw [FileSystem.fingerprint?, hTop, Scan.rendering,
      Torn.scan_alone Torn.cleared_isTree fun _ hNe => FileSystem.at?_set_ne hNe] at hDisk
    have hSame := Option.some.inj hDisk
    revert hSame
    decide +kernel
  · intro last hLast
    rw [passReports_append hRun₁, passReports_append hAdded, passReports_append hRun₂,
      passReports_append hRemoved, hReports] at hLast
    simp only [← List.append_assoc, List.getLast?_append, List.getLast?_singleton,
      Option.some_or, Option.some.injEq] at hLast
    rw [← hLast, hUnchanged]
    rfl

end KeyRegistry

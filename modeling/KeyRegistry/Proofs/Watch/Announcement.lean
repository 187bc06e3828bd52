import KeyRegistry.Proofs.Pass.Generation
import KeyRegistry.Proofs.Scan.Edits
import KeyRegistry.Proofs.Watch.Alone

/-!
# What a session is told

Others edit the files of a project while a session watches it. Whoever edits a file sees to it that
an event for it is queued afterwards. What the session does itself it need not be told, with one
exception: when the disk breaks off a write, the pass fails and the old bytes of the artifact are
gone, but the guard still remembers the document that was there. So a write that breaks off has to
be told like an edit; an observer that sees the artifact does that.

Main definitions:

* `World.Serves` — the session looks after the artifact of a project
* `World.Announced` — every edit is followed by an event for it
* `World.TellsTears` — every write that breaks off is followed by an event for the artifact
* `World.KeepsRules` — the artifact never is a file that rules come from

Main statements:

* `World.run_serves` — what holds in every state on the way
* `World.keepsRules_of_none`, `World.tellsTears_of_whole` — where less is to be assumed
-/

namespace KeyRegistry

/-! ## Which artifact a session serves -/

namespace Session

variable {s t u : Session} {fs : FileSystem}

/-- Both sessions look after the same artifact of the same project. -/
structure SameArtifact (s t : Session) : Prop where
  scanner : t.scanner = s.scanner
  root    : t.guard.root = s.guard.root
  output  : t.guard.output = s.guard.output

theorem SameArtifact.trans (h : SameArtifact s t) (k : SameArtifact t u) : SameArtifact s u :=
  ⟨k.scanner.trans h.scanner, k.root.trans h.root, k.output.trans h.output⟩

/-- Two sessions for the same artifact know it by the same paths. -/
theorem SameArtifact.isOutput {path : Path} (h : SameArtifact s t) :
    t.guard.isOutput path = s.guard.isOutput path := by
  rw [Guard.isOutput, Guard.isOutput, h.root, h.output]

/-- Judging does not change which artifact a session looks after. -/
theorem Judges.sameArtifact (h : Judges s t) : SameArtifact s t := by
  refine ⟨h.scanner, ?_, ?_⟩
  all_goals
    rcases h.guard with hSame | ⟨-, hForgot⟩
    · rw [hSame]
    · rw [hForgot]
      rfl

/-- A demand does not change which artifact a session looks after. -/
theorem demand_sameArtifact : SameArtifact s s.demand := by
  unfold demand
  cases s.scheduler <;> exact ⟨rfl, rfl, rfl⟩

/-- Taking a signal does not change which artifact a session looks after. -/
theorem handle_sameArtifact (signal : Signal) : SameArtifact s (s.handle fs signal) := by
  cases signal with
  | trouble message => exact ⟨rfl, rfl, rfl⟩
  | batch events =>
    have hJudged : Judges s (s.judge fs events).1 := judge_judges events
    rw [handle_batch_eq]
    split
    · exact hJudged.sameArtifact.trans demand_sameArtifact
    · exact hJudged.sameArtifact

/-- The guard that a pass hands back is for the same artifact. -/
theorem complete_sameArtifact {pass : RunningPass} (h : s.Agrees) (hRunning : s.running = some pass)
    (report : PassReport) : SameArtifact s (s.complete fs pass.guard report) := by
  obtain ⟨hRoot, hOutput⟩ := (h.ownGuard pass hRunning).output
  have hEnded : SameArtifact s (s.ended pass.guard report) := ⟨rfl, hRoot, hOutput⟩
  obtain ⟨t, scheduler, cooling, hJudged, hEq⟩ := s.exists_complete_eq fs pass.guard report
  rw [hEq]
  exact (hEnded.trans hJudged.sameArtifact).trans ⟨rfl, rfl, rfl⟩

end Session

namespace World

open FileSystem

variable {scanner : Scanner} {files : FileSystem} {w v : World} {action : Action}
  {actions : List Action} {signal : Signal} {path : Path} {last : Option PassReport}

/-- The session looks after the artifact of a project, in a tree of files. -/
structure Serves (w : World) (scanner : Scanner) : Prop where
  agrees  : w.session.Agrees
  tree    : w.files.IsTree
  project : w.session.scanner = scanner
  root    : w.session.guard.root = scanner.config.root
  output  : w.session.guard.output = scanner.config.output

/-- The guard of the session and the matcher of the project know the same artifact. -/
theorem Serves.isOutput (h : w.Serves scanner) (hScanner : scanner.IsCanonical) :
    w.session.guard.isOutput path = scanner.matcher.isOutput path := by
  rw [Guard.isOutput, Matcher.isOutput, h.root, h.output, hScanner.sameRoot, hScanner.sameOutput]

/-- A path that is heard is not the artifact. -/
theorem Serves.isOutput_of_hears (h : w.Serves scanner) (hScanner : scanner.IsCanonical)
    (hHears : scanner.Hears w.files path) : w.session.guard.isOutput path = false := by
  have hScannable := hHears.scannable
  rw [Matcher.isScannable, Matcher.isCandidate, Bool.and_eq_true, Bool.and_eq_true,
    Bool.not_eq_true'] at hScannable
  rw [h.isOutput hScanner, hScannable.1.1]

/-- A session stays in service as long as its artifact stays the same. -/
theorem Serves.session (h : w.Serves scanner) (hAgrees : v.session.Agrees) (hTree : v.files.IsTree)
    (hSame : Session.SameArtifact w.session v.session) : v.Serves scanner where
  agrees := hAgrees
  tree := hTree
  project := hSame.scanner.trans h.project
  root := hSame.root.trans h.root
  output := hSame.output.trans h.output

/-- The pass that runs is for the artifact of the project. -/
theorem Serves.output_of_running {pass : RunningPass} (h : w.Serves scanner)
    (hScanner : scanner.IsCanonical) (hRunning : w.session.running = some pass) :
    pass.guard.output = Route.toPath ⟨true, scanner.config.output.names⟩ := by
  rw [(h.agrees.ownGuard pass hRunning).output.2, h.output, hScanner.output.toPath_names]

/-- A move of a pass touches the artifact alone. -/
theorem Serves.move {pass moved : RunningPass} {move : PassMove} {after : FileSystem}
    (h : w.Serves scanner) (hScanner : scanner.IsCanonical)
    (hRunning : w.session.running = some pass)
    (hMove : pass.step? w.session.scanner w.files move = some (after, moved)) :
    after.IsTree ∧ OnlyAt (Place.ofNames scanner.config.output.names) w.files after :=
  (RunningPass.Moves.of_step? hMove).isTree h.tree hScanner.output.names
    (h.output_of_running hScanner hRunning)

/-- Every step keeps a session in service, if others leave trees. -/
theorem step_serves (hStep : Step w action v) (h : w.Serves scanner)
    (hScanner : scanner.IsCanonical) (hTree : ∀ files, action = .change files → files.IsTree) :
    v.Serves scanner := by
  have hAgrees := step_agrees hStep h.agrees
  -- the tree is touched by changes and by moves of a pass, the scanner and the guard by signals and
  -- by the end of a pass
  cases hStep with
  | change files => exact h.session hAgrees (hTree files rfl) ⟨rfl, rfl, rfl⟩
  | send | close | requestStop | leave | stop | drain | resume =>
    exact h.session hAgrees h.tree ⟨rfl, rfl, rfl⟩
  | take signal => exact h.session hAgrees h.tree (Session.handle_sameArtifact signal)
  | move move pass moved files hRunning hMove =>
    exact h.session hAgrees (h.move hScanner hRunning hMove).1 ⟨rfl, rfl, rfl⟩
  | complete pass report hRunning =>
    refine h.session hAgrees ?_ ?_
    · rw [deliver_files]
      exact h.tree
    · rw [deliver_session]
      exact Session.complete_sameArtifact h.agrees hRunning report

/-! ## Events to come -/

/-- An event for this path is still to be taken: it waits in the queue, or it is queued later. -/
def Awaits (w : World) (actions : List Action) (path : Path) : Prop :=
  ∃ events, (Signal.batch events ∈ w.queue ∨ Action.send (.batch events) ∈ actions) ∧
    ∃ event ∈ events, event.path = path

/-- Every edit is of one path that concerns the project, and an event for this path is queued
afterwards. That the disk fills up or is cleared need not be told. -/
def Announced (w : World) : List Action → Prop
  | [] => True
  | action :: actions =>
    (∀ files, action = .change files → (∃ disk, files = { w.files with disk }) ∨
      ∃ names, w.session.scanner.Edits w.files files names ∧
        ∃ events, .send (.batch events) ∈ actions ∧
          ∃ event ∈ events, event.path = Route.toPath ⟨true, names⟩) ∧
      ∀ v, w.step? action = some v → v.Announced actions

/-- After each move by which a pass fails and leaves other bytes in the artifact, an event for the
artifact is queued. -/
def TellsTears (w : World) (actions : List Action) : Prop :=
  ∀ earlier move later u v pass, actions = earlier ++ .move move :: later →
    w.run? earlier = some u → u.step? (.move move) = some v → v.session.running = some pass →
    pass.Tears u.files v.files → ∃ events, .send (.batch events) ∈ later ∧
      ∃ event ∈ events, v.session.guard.isOutput event.path = true

/-- In no state on the way is the artifact a file of ignore rules, or one that the rules of the user
come from. -/
def KeepsRules (w : World) (actions : List Action) (output : Path) : Prop :=
  ∀ earlier later u, actions = earlier ++ later → w.run? earlier = some u →
    Walk.KeepsRules u.files output.names

/-- Torn writes are told of from each state on the way. -/
theorem TellsTears.tail (h : w.TellsTears (action :: actions)) (hStep : Step w action v) :
    v.TellsTears actions := by
  rintro earlier move later u t pass rfl hRun
  exact h (action :: earlier) move later u t pass rfl (run?_cons_iff.mpr ⟨v, hStep, hRun⟩)

/-- The rules are kept in the first state. -/
theorem KeepsRules.here {output : Path} (h : w.KeepsRules actions output) :
    Walk.KeepsRules w.files output.names :=
  h [] actions w rfl rfl

/-- The rules are kept from each state on the way. -/
theorem KeepsRules.tail {output : Path} (h : w.KeepsRules (action :: actions) output)
    (hStep : Step w action v) : v.KeepsRules actions output := by
  rintro earlier later u rfl hRun
  exact h (action :: earlier) later u rfl (run?_cons_iff.mpr ⟨v, hStep, hRun⟩)

/-- Where nobody changes files there is nothing to announce. -/
theorem announced_of_noChange (hNone : ∀ action ∈ actions, ∀ files, action ≠ .change files) :
    w.Announced actions := by
  induction actions generalizing w with
  | nil => trivial
  | cons action actions ih =>
    refine ⟨fun files hChange => absurd hChange (hNone action List.mem_cons_self files), ?_⟩
    exact fun v _ => ih fun other hMem => hNone other (List.mem_cons_of_mem _ hMem)

/-- Actions that change no files may come before a course in which everything is announced. -/
theorem Announced.after {later : List Action}
    (hNone : ∀ action ∈ actions, ∀ files, action ≠ .change files) (hRun : w.run? actions = some v)
    (h : v.Announced later) : w.Announced (actions ++ later) := by
  induction actions generalizing w with
  | nil =>
    cases hRun
    exact h
  | cons action actions ih =>
    refine ⟨fun files hChange => absurd hChange (hNone action List.mem_cons_self files), ?_⟩
    intro u hStep
    obtain ⟨other, hOther, hRest⟩ := run?_cons_iff.mp hRun
    rw [hOther.step?] at hStep
    cases hStep
    exact ih (fun other hMem => hNone other (List.mem_cons_of_mem _ hMem)) hRest

/-- A change that is told before the next one is announced. -/
theorem Announced.told {names : List String} {later : List Action}
    (hEdits : w.session.scanner.Edits w.files files names)
    (hTold : ∃ events, .send (.batch events) ∈ actions ∧
      ∃ event ∈ events, event.path = Route.toPath ⟨true, names⟩)
    (hNone : ∀ action ∈ actions, ∀ files, action ≠ .change files)
    (hRun : w.run? (.change files :: actions) = some v) (h : v.Announced later) :
    w.Announced (.change files :: actions ++ later) := by
  obtain ⟨events, hSent, hEvent⟩ := hTold
  refine ⟨?_, fun u hStep => ?_⟩
  · rintro _ ⟨⟩
    exact Or.inr ⟨names, hEdits, events, List.mem_append_left _ hSent, hEvent⟩
  · obtain ⟨other, hOther, hRest⟩ := run?_cons_iff.mp hRun
    rw [hOther.step?] at hStep
    cases hStep
    exact .after hNone hRest h

/-- An event that is not taken now is still to be taken. -/
theorem Awaits.later (h : w.Awaits (action :: actions) path)
    (hQueue : ∀ signal ∈ w.queue, signal ∈ v.queue)
    (hSend : ∀ signal, action = .send signal → signal ∈ v.queue) : v.Awaits actions path := by
  obtain ⟨events, hWhere, hEvent⟩ := h
  refine ⟨events, ?_, hEvent⟩
  rcases hWhere with hQueued | hSent
  · exact Or.inl (hQueue _ hQueued)
  · rcases List.mem_cons.mp hSent with hNow | hLater
    · exact Or.inl (hSend _ hNow.symm)
    · exact Or.inr hLater

/-- What neither queues nor takes a signal leaves the events to come as they are. -/
theorem Awaits.still (h : w.Awaits (action :: actions) path) (hQueue : v.queue = w.queue)
    (hSend : ∀ signal, action ≠ .send signal) : v.Awaits actions path :=
  h.later (fun signal hQueued => by rw [hQueue]; exact hQueued) fun signal hSent =>
    absurd hSent (hSend signal)

/-- An event that waits is in the signal that is taken, or is still to be taken. -/
theorem Awaits.take {queue : List Signal} (h : w.Awaits (.notice :: actions) path)
    (hQueue : w.queue = signal :: queue) (hRest : v.queue = queue) :
    (∃ events, signal = .batch events ∧ ∃ event ∈ events, event.path = path) ∨
      v.Awaits actions path := by
  obtain ⟨events, hWhere, hEvent⟩ := h
  rcases hWhere with hQueued | hSent
  · rw [hQueue] at hQueued
    rcases List.mem_cons.mp hQueued with hNow | hLater
    · exact Or.inl ⟨events, hNow.symm, hEvent⟩
    · exact Or.inr ⟨events, Or.inl (by rw [hRest]; exact hLater), hEvent⟩
  · rcases List.mem_cons.mp hSent with hNow | hLater
    · cases hNow
    · exact Or.inr ⟨events, Or.inr hLater, hEvent⟩

/-! ## States on the way -/

/-- Edits that are announced leave trees. -/
theorem Announced.isTree (h : w.Announced (action :: actions)) (hTree : w.files.IsTree) :
    ∀ files, action = .change files → files.IsTree := by
  intro files hChange
  rcases h.1 files hChange with ⟨disk, rfl⟩ | ⟨names, hEdits, -⟩
  · exact hTree.withDisk disk
  · exact hEdits.tree

/-- Nobody moves the directories of the user. -/
theorem step_user (hStep : Step w action v) (hServes : w.Serves scanner)
    (hScanner : scanner.IsCanonical) (hAnnounced : w.Announced (action :: actions)) :
    v.files.user = w.files.user := by
  cases hStep with
  | change files =>
    rcases hAnnounced.1 files rfl with ⟨disk, rfl⟩ | ⟨names, hEdits, -⟩
    · rfl
    · exact hEdits.only.user
  | send | close | requestStop | leave | stop | drain | take | resume => rfl
  | move move pass moved files hRunning hMove => exact (hServes.move hScanner hRunning hMove).2.user
  | complete pass report => rw [deliver_files]

/-- On the way the session looks after its artifact and the user keeps the same directories. -/
theorem run_serves {earlier : List Action} (hRun : w.run? earlier = some v)
    (hServes : w.Serves scanner) (hScanner : scanner.IsCanonical)
    (hAnnounced : w.Announced (earlier ++ actions)) :
    v.Serves scanner ∧ v.Announced actions ∧ v.files.user = w.files.user := by
  induction earlier generalizing w with
  | nil =>
    cases hRun
    exact ⟨hServes, hAnnounced, rfl⟩
  | cons action earlier ih =>
    obtain ⟨u, hStep, hRest⟩ := run?_cons_iff.mp hRun
    have hServed := step_serves hStep hServes hScanner (hAnnounced.isTree hServes.tree)
    obtain ⟨hThere, hLater, hUser⟩ := ih hRest hServed (hAnnounced.2 u hStep.step?)
    exact ⟨hThere, hLater, hUser.trans (step_user hStep hServes hScanner hAnnounced)⟩

/-- Where the user has no settings, the name of the artifact decides whether it is a file of
rules. -/
theorem keepsRules_of_none {output : Path} (hServes : w.Serves scanner)
    (hScanner : scanner.IsCanonical) (hAnnounced : w.Announced actions) (hUser : w.files.user = {})
    (hNames : ∀ directory, ∀ file ∈ Walk.ruleFiles, output.names ≠ directory ++ file) :
    w.KeepsRules actions output := by
  rintro earlier later u rfl hRun
  obtain ⟨-, -, hSame⟩ := run_serves hRun hServes hScanner hAnnounced
  exact ⟨hNames, Walk.sparesUser_of_none (hSame.trans hUser) _⟩

/-- The disk stays whole as long as nobody changes that. -/
theorem disk_of_run {earlier : List Action} (hRun : w.run? earlier = some v)
    (hDisk : w.files.disk.Whole) (hKept : ∀ files, .change files ∈ earlier → files.disk.Whole) :
    v.files.disk.Whole := by
  induction earlier generalizing w with
  | nil =>
    cases hRun
    exact hDisk
  | cons action earlier ih =>
    obtain ⟨u, hStep, hRest⟩ := run?_cons_iff.mp hRun
    refine ih hRest ?_ fun files hMem => hKept files (List.mem_cons_of_mem _ hMem)
    -- only a change of the files can bring another disk
    cases hStep with
    | change files => exact hKept files List.mem_cons_self
    | send | close | requestStop | leave | stop | drain | take | resume => exact hDisk
    | move move pass moved files hRunning hMove =>
      rw [(RunningPass.Moves.of_step? hMove).disk]
      exact hDisk
    | complete pass report =>
      rw [deliver_files]
      exact hDisk

/-- Where the disk breaks off no write, there is none to be told. -/
theorem tellsTears_of_whole (hServes : w.Serves scanner) (hScanner : scanner.IsCanonical)
    (hAnnounced : w.Announced actions) (hDisk : w.files.disk.Whole)
    (hKept : ∀ files, .change files ∈ actions → files.disk.Whole) : w.TellsTears actions := by
  rintro earlier move later u v pass rfl hRun hStep hRunning hTears
  obtain ⟨hThere, -, -⟩ := run_serves hRun hServes hScanner hAnnounced
  have hWhole := disk_of_run hRun hDisk fun files hMem => hKept files (List.mem_append_left _ hMem)
  cases Step.of_step? hStep with
  | move move before moved files hBefore hMove =>
    cases hRunning
    exact absurd hTears <| (RunningPass.Moves.of_step? hMove).not_tears hThere.tree
      hScanner.output.names (hThere.output_of_running hScanner hBefore) hWhole

end World

end KeyRegistry

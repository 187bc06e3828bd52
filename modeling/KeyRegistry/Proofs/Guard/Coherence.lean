import KeyRegistry.Proofs.Pass.Commit

/-!
# The guard and the disk

A guard keeps a fact about a file that it does not hold: the fingerprint of what it wrote last. The
fact is worth something only if it stays true, whatever is done with the guard and wherever a write
fails. A write can fail at many places, between the first directory that is made and the last byte
of the file; all that is assumed here is that a write that fails leaves the bytes of the artifact as
they were, and that nobody else writes the artifact.

Main definitions:

* `FileSystem.Attempts` — what an attempt to write a document may come to
* `Guard.Step`, `Guard.Run` — what is done with a guard, and with the files meanwhile
* `Guard.Coheres` — the guard remembers what is on disk

Main statements:

* `Guard.Step.coheres`, `Guard.Run.coheres` — whatever is done, the guard remembers what is on disk
* `Guard.run_coherent` — what that means for reads, commits, retries and echoes
-/

namespace KeyRegistry

open FileSystem

variable {fs fs₀ after : FileSystem} {root output : Path}

/-! ## Attempts to write -/

/-- What an attempt to write a document may come to: the document is written, or the attempt fails,
with some directories made or none, and the file has the bytes that it had. -/
inductive FileSystem.Attempts (fs : FileSystem) (p : Path) (document : String) :
    FileSystem × Except WriteError Unit → Prop
  | written (after : FileSystem) (hWrite : fs.writeDocument p document = (after, .ok ())) :
      Attempts fs p document (after, .ok ())
  | failed (after : FileSystem) (e : WriteError) (hFiles : after.Hierarchical)
      (hSame : SameBytes p fs after) : Attempts fs p document (after, .error e)

/-- In a tree, a write that the system or the disk refuses is one of these attempts. One that breaks
off is none, since it does not leave the bytes as they were. -/
theorem FileSystem.attempts_writeDocument {names : List String} {document : String}
    (hTree : fs.IsTree) (hNames : ∀ name ∈ names, Path.IsName name)
    (hWhole : ∀ after, ¬ BreaksOff fs after names document.toUTF8) :
    fs.Attempts (Route.toPath ⟨true, names⟩) document
      (fs.writeDocument (Route.toPath ⟨true, names⟩) document) := by
  have hAfter := (hTree.writeDocument hNames document).1.inside
  obtain ⟨⟨after, result⟩, hWrite⟩ :
      ∃ attempt, fs.writeDocument (Route.toPath ⟨true, names⟩) document = attempt := ⟨_, rfl⟩
  rw [hWrite] at hAfter ⊢
  cases result with
  | ok => exact .written after hWrite
  | error e =>
    exact .failed after e hAfter ((sameBytes_of_error hTree hNames hWrite).resolve_right
      (hWhole after))

namespace Guard

variable {g handed : Guard} {f : Fingerprint} {patterns : PatternSet} {moduleName : String}
  {result : Except WriteError Outcome}

/-! ## Runs -/

/-- What is done with a guard, and what comes of it. -/
inductive Operation where
  | commit (patterns : PatternSet) (moduleName : String) (result : Except WriteError Outcome)
  | invalidate
  | seed
  | checkEcho (path : Path) (echo : Bool)
  /-- Something happens to other files. -/
  | elsewhere

/-- One operation, with the files and the guard before and after. -/
inductive Step : FileSystem → Guard → Operation → FileSystem → Guard → Prop
  | commit {fs after : FileSystem} {g handed : Guard} (patterns : PatternSet) (moduleName : String)
      (attempt : FileSystem × Except WriteError Unit) (result : Except WriteError Outcome)
      (hAttempt : fs.Attempts g.output (Rendering.of patterns moduleName).document attempt)
      (hCommit : g.commitBy fs (Rendering.of patterns moduleName) attempt =
        (after, handed, result)) :
      Step fs g (.commit patterns moduleName result) after handed
  | invalidate (fs : FileSystem) (g : Guard) : Step fs g .invalidate fs g.invalidate
  | seed (fs : FileSystem) (g : Guard) : Step fs g .seed fs (g.seed fs)
  | checkEcho (fs : FileSystem) (g : Guard) (path : Path) :
      Step fs g (.checkEcho path (g.checkEcho fs path)) fs g
  | elsewhere {fs after : FileSystem} (g : Guard) (hFiles : after.Hierarchical)
      (hSame : SameBytes g.output fs after) : Step fs g .elsewhere after g

/-- Operations one after the other. -/
inductive Run : FileSystem → Guard → List Operation → FileSystem → Guard → Prop
  | done (fs : FileSystem) (g : Guard) : Run fs g [] fs g
  | step {fs middle after : FileSystem} {g passed handed : Guard} {operation : Operation}
      {operations : List Operation} (hStep : Step fs g operation middle passed)
      (hRest : Run middle passed operations after handed) :
      Run fs g (operation :: operations) after handed

variable {operation : Operation} {operations : List Operation}

/-- In a tree, each commit is one of these steps, also when the write is refused, as long as it does
not break off. -/
theorem step_commit {names : List String} (hTree : fs.IsTree)
    (hNames : ∀ name ∈ names, Path.IsName name) (hOutput : g.output = Route.toPath ⟨true, names⟩)
    (hWhole : ∀ after,
      ¬ BreaksOff fs after names (Rendering.of patterns moduleName).document.toUTF8)
    (h : g.commit fs (Rendering.of patterns moduleName) = (after, handed, result)) :
    Step fs g (.commit patterns moduleName result) after handed := by
  refine .commit patterns moduleName _ result ?_ h
  rw [hOutput]
  exact attempts_writeDocument hTree hNames hWhole

/-! ## The guard remembers what is on disk -/

/-- A guard of an artifact remembers what is on disk. -/
structure Coheres (root output : Path) (fs : FileSystem) (g : Guard) : Prop where
  sameRoot   : g.root = root
  sameOutput : g.output = (Path.absolutize root output).toPath
  files      : fs.Hierarchical
  trusts     : g.Trusts fs

/-- A guard that remembers nothing coheres with any files. -/
theorem Coheres.new (hFiles : fs.Hierarchical) (root output : Path) :
    Coheres root output fs (Guard.new root output) where
  sameRoot := rfl
  sameOutput := rfl
  files := hFiles
  trusts _ hLast := by cases hLast

/-- After a document is written, the guard remembers it and it is on disk. -/
theorem trusts_record (hFiles : fs.Hierarchical)
    (hWrite : fs.writeDocument g.output (Rendering.of patterns moduleName).document =
      (after, .ok ())) :
    (g.record (Rendering.of patterns moduleName).fingerprint).Trusts after := by
  rintro f ⟨⟩
  exact fingerprint?_writeDocument hFiles hWrite

/-- No operation makes the guard remember what is not on disk. -/
theorem Step.coheres (h : Step fs g operation after handed) (hCoheres : Coheres root output fs g) :
    Coheres root output after handed := by
  obtain ⟨hRoot, hOutput, hFiles, hTrusts⟩ := hCoheres
  -- only a commit changes both the artifact and what the guard remembers; a write that went through
  -- is recorded, and one that failed has left the bytes
  cases h with
  | commit patterns moduleName attempt result hAttempt hCommit =>
    rcases commitBy_cases hCommit with
      ⟨-, -, rfl, rfl⟩ | ⟨-, ⟨rfl, -, rfl⟩ | ⟨e, rfl, -, rfl⟩⟩
    · exact ⟨hRoot, hOutput, hFiles, hTrusts⟩
    · cases hAttempt with
      | written _ hWrite =>
        have hAfter := hFiles.writeDocument g.output (Rendering.of patterns moduleName).document
        rw [hWrite] at hAfter
        exact ⟨hRoot, hOutput, hAfter, trusts_record hFiles hWrite⟩
    · cases hAttempt with
      | failed _ _ hAfter hSame => exact ⟨hRoot, hOutput, hAfter, hTrusts.of_sameBytes hSame⟩
  | invalidate => exact ⟨hRoot, hOutput, hFiles, fun f hLast => by cases hLast⟩
  | seed => exact ⟨hRoot, hOutput, hFiles, trusts_seed g fs⟩
  | checkEcho => exact ⟨hRoot, hOutput, hFiles, hTrusts⟩
  | elsewhere _ hAfter hSame => exact ⟨hRoot, hOutput, hAfter, hTrusts.of_sameBytes hSame⟩

/-- Operations one after the other keep a guard coherent, by induction on them. -/
theorem Run.coheres (h : Run fs g operations after handed) (hCoheres : Coheres root output fs g) :
    Coheres root output after handed := by
  induction h with
  | done => exact hCoheres
  | step hStep _ ih => exact ih (hStep.coheres hCoheres)

/-! ## Commits -/

/-- After a commit that does not fail the artifact has the fingerprint of the document. -/
theorem Step.fingerprint?_of_commit {outcome : Outcome}
    (h : Step fs g (.commit patterns moduleName (.ok outcome)) after handed)
    (hCoheres : Coheres root output fs g) :
    after.fingerprint? g.output = some (Rendering.of patterns moduleName).fingerprint := by
  cases h with
  | commit _ _ attempt _ hAttempt hCommit =>
    rcases commitBy_cases hCommit with
      ⟨hLast, -, rfl, -⟩ | ⟨-, ⟨rfl, -, -⟩ | ⟨e, -, hFailed, -⟩⟩
    · exact hCoheres.trusts _ hLast
    · cases hAttempt with
      | written _ hWrite => exact fingerprint?_writeDocument hCoheres.files hWrite
    · cases hFailed

/-- A commit that fails leaves the guard as it was, and the guard does not remember the document. -/
theorem Step.of_failed_commit {e : WriteError}
    (h : Step fs g (.commit patterns moduleName (.error e)) after handed) :
    handed = g ∧ g.last ≠ some (Rendering.of patterns moduleName).fingerprint := by
  cases h with
  | commit _ _ attempt _ hAttempt hCommit =>
    rcases commitBy_cases hCommit with
      ⟨-, hSkipped, -⟩ | ⟨hNew, ⟨-, hWritten, -⟩ | ⟨e, -, -, hSame⟩⟩
    · cases hSkipped
    · cases hWritten
    · exact ⟨hSame, hNew⟩

/-- A commit is skipped only if the guard remembers the document. -/
theorem Step.last_of_skipped
    (h : Step fs g (.commit patterns moduleName (.ok .skipped)) after handed) :
    g.last = some (Rendering.of patterns moduleName).fingerprint := by
  cases h with
  | commit _ _ attempt _ hAttempt hCommit =>
    rcases commitBy_cases hCommit with ⟨hLast, -⟩ | ⟨-, ⟨-, hWritten, -⟩ | ⟨e, -, hFailed, -⟩⟩
    · exact hLast
    · cases hWritten
    · cases hFailed

/-! ## Retries -/

/-- An operation that does not make the guard remember a fingerprint: the guard is not seeded, and
no document with the fingerprint is committed without a failure. -/
def Operation.Forgoes (f : Fingerprint) : Operation → Prop
  | .commit patterns moduleName (.ok _) => (Rendering.of patterns moduleName).fingerprint ≠ f
  | .seed => False
  | _ => True

/-- An operation that forgoes a fingerprint does not bring it back. -/
theorem Step.last_ne (h : Step fs g operation after handed) (hForgoes : operation.Forgoes f)
    (hLast : g.last ≠ some f) : handed.last ≠ some f := by
  cases h with
  | commit patterns moduleName attempt result hAttempt hCommit =>
    rcases commitBy_cases hCommit with
      ⟨-, -, -, rfl⟩ | ⟨-, ⟨-, rfl, rfl⟩ | ⟨e, -, -, rfl⟩⟩
    · exact hLast
    · exact fun hSame => hForgoes (Option.some.inj hSame)
    · exact hLast
  | invalidate => simp [Guard.invalidate]
  | seed => exact hForgoes.elim
  | checkEcho => exact hLast
  | elsewhere => exact hLast

/-- Operations that forgo a fingerprint do not bring it back. -/
theorem Run.last_ne (h : Run fs g operations after handed)
    (hForgoes : ∀ operation ∈ operations, operation.Forgoes f) (hLast : g.last ≠ some f) :
    handed.last ≠ some f := by
  induction h with
  | done => exact hLast
  | step hStep _ ih =>
    obtain ⟨hFirst, hRest⟩ := List.forall_mem_cons.mp hForgoes
    exact ih hRest (hStep.last_ne hFirst hLast)

/-! ## Echoes -/

/-- The path that a guard is made for names the artifact, however it is written. -/
theorem Coheres.isOutput (h : Coheres root output fs g) : g.isOutput output = true := by
  rw [Guard.isOutput, h.sameRoot, h.sameOutput, Path.same, decide_eq_true_iff]

/-- So does the path that the guard keeps, if it is absolute. -/
theorem Coheres.isOutput_output (h : Coheres root output fs g)
    (hAbsolute : g.output.isAbsolute = true) : g.isOutput g.output = true := by
  rw [Guard.isOutput, Path.same, decide_eq_true_iff]
  rw [h.sameOutput] at hAbsolute ⊢
  have hNames : ∀ name ∈ (Path.absolutize root output).names, Path.IsName name :=
    Path.route_names _
  generalize Path.absolutize root output = route at *
  obtain ⟨rooted, names⟩ := route
  cases rooted with
  | true => rw [Route.absolutize_toPath hNames]
  | false =>
    rw [Route.isAbsolute_toPath_open hNames] at hAbsolute
    cases hAbsolute

/-! ## The guard and the disk agree -/

/-- **The guard and the disk agree.** Take a new guard and any files, and let it commit documents,
be invalidated, be seeded and judge changes, in any order and any number of times, while writes fail
where they may and nobody else writes the artifact. Then at each moment:

* if the guard remembers a fingerprint, the artifact can be read and has it;
* a change of a path echoes a write exactly if the path names the artifact and the guard remembers
  anything. The path that the guard was made for names the artifact, and so does the absolute path
  that the guard keeps;
* after a commit that does not fail the artifact has the fingerprint of the document;
* a commit that fails leaves the guard as it was, and the next commit of the document is no skip,
  unless in between the guard was seeded or learnt of the same fingerprint from another commit. -/
theorem run_coherent (hFiles : fs₀.Hierarchical)
    (hRun : Run fs₀ (Guard.new root output) operations fs g) :
    (∀ f, g.last = some f →
      ∃ content, fs.read g.output = .ok content ∧ Fingerprint.ofBytes content = f) ∧
    ((∀ path, g.checkEcho fs path = (g.isOutput path && g.last.isSome)) ∧
      g.checkEcho fs output = g.last.isSome ∧
      (g.output.isAbsolute = true → g.checkEcho fs g.output = g.last.isSome)) ∧
    ∀ patterns moduleName result after handed,
      Step fs g (.commit patterns moduleName result) after handed →
        (∀ outcome, result = .ok outcome → handed.output = g.output ∧
          after.fingerprint? g.output = some (Rendering.of patterns moduleName).fingerprint) ∧
        ∀ e, result = .error e → handed = g ∧
          ∀ between later guard again last guardLast, Run after handed between later guard →
            (∀ operation ∈ between,
              operation.Forgoes (Rendering.of patterns moduleName).fingerprint) →
            Step later guard (.commit patterns moduleName again) last guardLast →
              again ≠ .ok .skipped := by
  have hCoheres := hRun.coheres (.new hFiles root output)
  have hEcho := hCoheres.trusts.checkEcho
  refine ⟨fun f hLast => ?_, ⟨hEcho, ?_, fun hAbsolute => ?_⟩, ?_⟩
  · obtain ⟨content, hRead, hFingerprint⟩ := Option.map_eq_some_iff.mp (hCoheres.trusts f hLast)
    exact ⟨content, toOption_eq_some_iff.mp hRead, hFingerprint⟩
  · rw [hEcho, hCoheres.isOutput, Bool.true_and]
  · rw [hEcho, hCoheres.isOutput_output hAbsolute, Bool.true_and]
  -- a commit without a failure, and one that fails
  intro patterns moduleName result after handed hStep
  constructor
  · rintro outcome rfl
    have hAfter := hStep.coheres hCoheres
    exact ⟨hAfter.sameOutput.trans hCoheres.sameOutput.symm, hStep.fingerprint?_of_commit hCoheres⟩
  · rintro e rfl
    obtain ⟨hSame, hNew⟩ := hStep.of_failed_commit
    refine ⟨hSame, ?_⟩
    rintro between later guard again last guardLast hBetween hForgoes hAgain rfl
    -- nothing in between made the guard remember the document, and a skip would need that
    have hLast := hBetween.last_ne hForgoes (by rwa [hSame])
    exact hLast hAgain.last_of_skipped

end Guard

/-! ## A disk that was full -/

namespace Faulty

/-- A project without an artifact. -/
def project : FileSystem where
  entries := [([.text "r"], .directory)]

/-- The names on the way to the artifact. -/
def way : List String := ["r", "out.d.ts"]

/-- The guard of the artifact. -/
def guard : Guard := .new (Route.toPath ⟨true, ["r"]⟩) ⟨"out.d.ts"⟩

/-- Why the first write fails. -/
def full : WriteError := .write guard.output (.other "No space left on device (os error 28)")

theorem project_isTree : project.IsTree :=
  isTree_sound (by decide)

/-- The artifact can be written once there is room. -/
theorem writable : project.Writable way := by
  have hFree : project.at? (Place.ofNames way) = none := rfl
  exact ⟨⟨by decide, by decide, by decide, by simp [way], rfl, by simp [hFree]⟩,
    fun _ => rfl⟩

theorem guard_output : guard.output = Route.toPath ⟨true, way⟩ :=
  congrArg Route.toPath (Route.absolutize_name (by decide) (by decide))

/-- The project with the artifact in it. -/
def written : FileSystem :=
  project.set (Place.ofNames way) (.file (Rendering.of .empty "m").document.toUTF8)

/-- The guard after the artifact was written. -/
def informed : Guard := guard.record (Rendering.of .empty "m").fingerprint

/-- A commit fails on the full disk. -/
theorem step_failed :
    Guard.Step project guard (.commit .empty "m" (.error full)) project guard :=
  .commit .empty "m" (project, .error full) _ (.failed project full project_isTree.inside rfl) rfl

/-- A commit is written once there is room. -/
theorem step_written :
    Guard.Step project guard (.commit .empty "m" (.ok .written)) written informed := by
  refine Guard.step_commit project_isTree writable.proper guard_output ?_ ?_
  · rintro after ⟨count, cause, hFate, -⟩
    cases hFate
  rw [Guard.commit_eq_commitBy, guard_output, writeDocument_of_writable project_isTree writable]
  rfl

end Faulty

namespace Guard

/-- A write fails because the disk is full, and the next commit writes the document: no commit could
have been skipped, the artifact has the fingerprint that the guard remembers, and a change of it is
an echo. -/
theorem run_coherent_of_full :
    (∀ again last guardLast,
      Step Faulty.project Faulty.guard (.commit .empty "m" again) last guardLast →
        again ≠ .ok .skipped) ∧
    (∃ content, Faulty.written.read Faulty.guard.output = .ok content ∧
      Fingerprint.ofBytes content = (Rendering.of .empty "m").fingerprint) ∧
    Faulty.informed.checkEcho Faulty.written ⟨"out.d.ts"⟩ = true := by
  have hFiles := Faulty.project_isTree.inside
  have hStart : Run Faulty.project (Guard.new (Route.toPath ⟨true, ["r"]⟩) ⟨"out.d.ts"⟩) []
      Faulty.project Faulty.guard :=
    .done _ _
  have hRun : Run Faulty.project (Guard.new (Route.toPath ⟨true, ["r"]⟩) ⟨"out.d.ts"⟩)
      [.commit .empty "m" (.error Faulty.full), .commit .empty "m" (.ok .written)] Faulty.written
      Faulty.informed := .step Faulty.step_failed (.step Faulty.step_written (.done _ _))
  obtain ⟨-, -, hCommits⟩ := run_coherent hFiles hStart
  obtain ⟨hDisk, ⟨-, hEcho, -⟩, -⟩ := run_coherent hFiles hRun
  refine ⟨fun again last guardLast hStep => ?_, hDisk _ rfl, hEcho.trans rfl⟩
  obtain ⟨-, hRetry⟩ := (hCommits _ _ _ _ _ Faulty.step_failed).2 _ rfl
  exact hRetry [] _ _ again last guardLast (.done _ _) (by simp) hStep

end Guard

end KeyRegistry

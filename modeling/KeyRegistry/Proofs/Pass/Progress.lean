import KeyRegistry.Proofs.Pass.Commit
import KeyRegistry.Proofs.Scan.Candidates

/-!
# What a pass is heading for

A pass reads its files one by one while others change them. What it will have found in the end is
settled by what it has found, by the files that it has read, and by what the files to be read hold
now. As long as that is what a scan of the files would find, the pass heads for the document that
the files call for.

Main definitions:

* `Scanner.target` — the fingerprint of the document that files call for
* `RunningPass.HeadsFor` — a pass will end with that document, if nothing changes any more

Main statements:

* `RunningPass.HeadsFor.moves` — a pass keeps its course
* `RunningPass.Moves.trusts`, `RunningPass.Moves.records` — the guard that it hands back
-/

namespace KeyRegistry

open FileSystem

variable {s : Scanner} {fs before after : FileSystem} {names : List String} {path : Path}
  {source : Source} {pattern : Pattern} {progress : Progress} {pass moved : RunningPass}
  {move : PassMove}

/-! ## Targets -/

namespace Scanner

/-- The fingerprint of the document that files call for. -/
def target (s : Scanner) (fs : FileSystem) : Fingerprint :=
  ((s.scan fs).rendering s.config.moduleName).fingerprint

/-- A scan finds the same in both states of the files, and so does a scan that has yet to read
some of them. -/
structure SeesSame (s : Scanner) (before after : FileSystem) : Prop where
  finds : ∀ pattern, s.Finds after pattern ↔ s.Finds before pattern
  read  : ∀ path, s.matcher.Chooses path → ∀ source,
            Source.read after path = .ok source ↔ Source.read before path = .ok source

theorem SeesSame.refl (s : Scanner) (fs : FileSystem) : s.SeesSame fs fs :=
  ⟨fun _ => Iff.rfl, fun _ _ _ => Iff.rfl⟩

/-- A scan does not see its own artifact, unless rules come from it. -/
theorem SeesSame.of_output (hBefore : before.IsTree) (hAfter : after.IsTree)
    (hScanner : s.IsCanonical) (hRules : s.KeepsRules before)
    (hSame : SameFilesBut (Place.ofNames s.config.output.names) before after) :
    s.SeesSame before after where
  finds := finds_congr hBefore hAfter hScanner hSame hRules
  read _ hChosen _ := read_of_chooses hBefore hAfter hScanner hSame (Or.inl rfl) hChosen

/-- Nor does a scan see what becomes of the place of its root as a file. -/
theorem SeesSame.of_root (hBefore : before.IsTree) (hAfter : after.IsTree)
    (hScanner : s.IsCanonical) (hRules : s.KeepsRules before)
    (hSame : SameFilesBut (Place.ofNames s.config.root.names) before after) :
    s.SeesSame before after where
  finds := finds_congr_root hBefore hAfter hScanner hSame hRules
  read _ hChosen _ := read_of_chooses hBefore hAfter hScanner hSame (Or.inr rfl) hChosen

/-- The document depends on the patterns that were found. -/
theorem target_of_patterns {scan : Scan} (h : scan.patterns = (s.scan fs).patterns) :
    (scan.rendering s.config.moduleName).fingerprint = s.target fs := by
  rw [target, Scan.rendering, Scan.rendering, h]

/-- Files that a scan sees alike call for the same document. -/
theorem SeesSame.target (h : s.SeesSame before after) : s.target after = s.target before := by
  refine target_of_patterns (PatternSet.ext_mem fun pattern => ?_)
  rw [mem_scan, mem_scan, h.finds]

end Scanner

/-! ## Courses -/

/-- Taking a value out of a list loses nothing but that value. -/
theorem exists_mem_erase {α : Type} [DecidableEq α] {P : α → Prop} {value : α} {values : List α}
    (h : value ∈ values) :
    (∃ other ∈ values, P other) ↔ P value ∨ ∃ other ∈ values.erase value, P other := by
  simp only [(List.perm_cons_erase h).mem_iff, List.mem_cons, exists_eq_or_imp]

namespace Progress

/-- What will have been found once everything is read and taken apart: what was found, what is in
the files that were read, and what the files to be read hold now. -/
def WillFind (progress : Progress) (s : Scanner) (fs : FileSystem) (pattern : Pattern) : Prop :=
  pattern ∈ progress.patterns ∨
    (∃ source ∈ progress.unparsed, pattern ∈ source.patterns s.config.markers) ∨
    ∃ path ∈ progress.unread, ∃ source, Source.read fs path = .ok source ∧
      pattern ∈ source.patterns s.config.markers

/-- What will have been found is what a scan of these files finds. -/
structure HeadsFor (progress : Progress) (s : Scanner) (fs : FileSystem) : Prop where
  chosen : ∀ path ∈ progress.unread, s.matcher.Chooses path
  finds  : ∀ pattern, progress.WillFind s fs pattern ↔ s.Finds fs pattern

/-- A read does not change what will be found. -/
theorem willFind_read (hUnread : path ∈ progress.unread) :
    (progress.read fs path).WillFind s fs pattern ↔ progress.WillFind s fs pattern := by
  unfold WillFind Progress.read
  rw [exists_mem_erase hUnread]
  -- what is in the file moves from the unread part to the part to be taken apart; a file that
  -- cannot be read adds nothing to either
  cases hRead : Source.read fs path with
  | ok source =>
    simp only [List.mem_cons, exists_eq_or_imp, Except.ok.injEq, exists_eq_left', or_assoc]
    exact or_congr_right or_left_comm
  | error e => simp only [reduceCtorEq, false_and, exists_false, false_or]

/-- Taking a source apart does not change what will be found. -/
theorem willFind_parse (hUnparsed : source ∈ progress.unparsed) :
    (progress.parse s.config.markers source).WillFind s fs pattern ↔
      progress.WillFind s fs pattern := by
  unfold WillFind Progress.parse
  rw [exists_mem_erase hUnparsed]
  simp only [PatternSet.mem_insertAll, or_assoc]
  rw [or_left_comm]

/-- A read takes its path from those that are to be read. -/
theorem unread_read : (progress.read fs path).unread = progress.unread.erase path := by
  unfold Progress.read
  split <;> rfl

/-- A pass starts with the files that a scan would read. -/
theorem HeadsFor.walk (hTree : fs.IsTree) : HeadsFor { unread := s.candidates fs } s fs where
  chosen _ hMem := Scanner.chooses_of_mem_candidates hTree hMem
  finds pattern := by simp [WillFind, Scanner.Finds]

theorem HeadsFor.read (h : progress.HeadsFor s fs) (hUnread : path ∈ progress.unread) :
    (progress.read fs path).HeadsFor s fs where
  chosen other hMem := by
    refine h.chosen other ?_
    rw [unread_read] at hMem
    exact List.mem_of_mem_erase hMem
  finds pattern := (willFind_read hUnread).trans (h.finds pattern)

theorem HeadsFor.parse (h : progress.HeadsFor s fs) (hUnparsed : source ∈ progress.unparsed) :
    (progress.parse s.config.markers source).HeadsFor s fs where
  chosen := h.chosen
  finds pattern := (willFind_parse hUnparsed).trans (h.finds pattern)

/-- A pass with nothing left to do has found what a scan finds. -/
theorem HeadsFor.patterns (h : progress.HeadsFor s fs) (hRead : progress.unread = [])
    (hParsed : progress.unparsed = []) : progress.patterns = (s.scan fs).patterns := by
  refine PatternSet.ext_mem fun pattern => ?_
  rw [Scanner.mem_scan, ← h.finds, WillFind, hRead, hParsed]
  simp

/-- Reading all files is reading the first one and then the others. -/
theorem readAll_cons (fs : FileSystem) {paths : List Path}
    (hUnread : progress.unread = path :: paths) :
    (progress.read fs path).unread = paths ∧
      progress.readAll fs = (progress.read fs path).readAll fs := by
  have hRest : (progress.read fs path).unread = paths := by
    rw [unread_read, hUnread, List.erase_cons_head]
  refine ⟨hRest, ?_⟩
  rw [readAll, readAll, hRest, hUnread, List.foldl_cons]

/-- Sources are taken apart one after the other. -/
theorem parseAll_cons (markers : List String) {sources : List Source}
    (hUnparsed : progress.unparsed = source :: sources) :
    (progress.parse markers source).unparsed = sources ∧
      progress.parseAll markers = (progress.parse markers source).parseAll markers := by
  have hRest : (progress.parse markers source).unparsed = sources := by
    rw [Progress.parse, hUnparsed, List.erase_cons_head]
  refine ⟨hRest, ?_⟩
  rw [parseAll, parseAll, hRest, hUnparsed, List.foldl_cons]

/-- After all reads nothing is left to be read. -/
theorem unread_readAll (progress : Progress) (fs : FileSystem) :
    (progress.readAll fs).unread = [] := by
  -- the induction is on the list, and the progress changes with it
  generalize hUnread : progress.unread = paths
  induction paths generalizing progress with
  | nil => rw [Progress.readAll, hUnread, List.foldl_nil, hUnread]
  | cons path paths ih =>
    obtain ⟨hRest, hEq⟩ := readAll_cons fs hUnread
    rw [hEq]
    exact ih _ hRest

/-- After all sources were taken apart nothing is left to do. -/
theorem unparsed_parseAll (markers : List String) (hRead : progress.unread = []) :
    (progress.parseAll markers).unread = [] ∧ (progress.parseAll markers).unparsed = [] := by
  generalize hUnparsed : progress.unparsed = sources
  induction sources generalizing progress with
  | nil =>
    rw [Progress.parseAll, hUnparsed, List.foldl_nil]
    exact ⟨hRead, hUnparsed⟩
  | cons source sources ih =>
    obtain ⟨hRest, hEq⟩ := parseAll_cons markers hUnparsed
    rw [hEq]
    exact ih hRead hRest

/-- All reads keep a pass heading for its document. -/
theorem HeadsFor.readAll (h : progress.HeadsFor s fs) : (progress.readAll fs).HeadsFor s fs := by
  generalize hUnread : progress.unread = paths
  induction paths generalizing progress with
  | nil =>
    rw [Progress.readAll, hUnread, List.foldl_nil]
    exact h
  | cons path paths ih =>
    obtain ⟨hRest, hEq⟩ := readAll_cons fs hUnread
    rw [hEq]
    exact ih (h.read (by rw [hUnread]; exact List.mem_cons_self)) hRest

/-- Taking all sources apart keeps a pass heading for its document. -/
theorem HeadsFor.parseAll (h : progress.HeadsFor s fs) :
    (progress.parseAll s.config.markers).HeadsFor s fs := by
  generalize hUnparsed : progress.unparsed = sources
  induction sources generalizing progress with
  | nil =>
    rw [Progress.parseAll, hUnparsed, List.foldl_nil]
    exact h
  | cons source sources ih =>
    obtain ⟨hRest, hEq⟩ := parseAll_cons s.config.markers hUnparsed
    rw [hEq]
    exact ih (h.parse (by rw [hUnparsed]; exact List.mem_cons_self)) hRest

theorem HeadsFor.congr (h : progress.HeadsFor s before) (hSame : s.SeesSame before after) :
    progress.HeadsFor s after where
  chosen := h.chosen
  finds pattern := by
    rw [hSame.finds, ← h.finds, WillFind, WillFind]
    -- only the files that have yet to be read are looked at again
    refine or_congr_right (or_congr_right ?_)
    constructor
    · rintro ⟨path, hMem, source, hRead, hPattern⟩
      exact ⟨path, hMem, source, (hSame.read path (h.chosen path hMem) source).mp hRead, hPattern⟩
    · rintro ⟨path, hMem, source, hRead, hPattern⟩
      exact ⟨path, hMem, source, (hSame.read path (h.chosen path hMem) source).mpr hRead, hPattern⟩

end Progress

namespace RunningPass

/-- A pass will end with the document that these files call for, if nothing changes any more. -/
def HeadsFor (pass : RunningPass) (s : Scanner) (fs : FileSystem) : Prop :=
  match pass.stage with
  | .starting => True
  | .scanning progress => progress.HeadsFor s fs
  | .ended report => report.fingerprint = s.target fs

/-- The guard of a pass that has ended remembers the document, unless the pass failed. -/
def Records (pass : RunningPass) : Prop :=
  ∀ report, pass.report? = some report → report.outcome.isFailure = false →
    pass.guard.last = some report.fingerprint

theorem HeadsFor.congr (h : pass.HeadsFor s before) (hSame : s.SeesSame before after) :
    pass.HeadsFor s after := by
  unfold HeadsFor at h ⊢
  split
  · trivial
  · next progress hStage =>
    rw [hStage] at h
    exact h.congr hSame
  · next report hStage =>
    rw [hStage] at h
    exact h.trans hSame.target.symm

/-! ## Moves -/

/-- A move touches the artifact alone, and makes directories. -/
theorem Moves.isTree (h : Moves s fs pass move after moved) (hTree : fs.IsTree)
    (hNames : ∀ name ∈ names, Path.IsName name)
    (hOutput : pass.guard.output = Route.toPath ⟨true, names⟩) :
    after.IsTree ∧ OnlyAt (Place.ofNames names) fs after := by
  cases h with
  | walk | read | parse => exact ⟨hTree, .refl _ fs⟩
  | commit progress after handed report _ _ _ hConclude =>
    rcases Scan.conclude_files hConclude with rfl | rfl
    · exact ⟨hTree, .refl _ _⟩
    · rw [hOutput]
      exact hTree.writeDocument hNames _

/-- Every move keeps a pass on its course. -/
theorem HeadsFor.moves (h : pass.HeadsFor s fs) (hMoves : Moves s fs pass move after moved)
    (hTree : fs.IsTree) (hSame : s.SeesSame fs after) : moved.HeadsFor s after := by
  -- walks and reads go by the files as they are; a commit changes only what no scan sees
  cases hMoves with
  | walk => exact Progress.HeadsFor.walk hTree
  | read path progress hStage hUnread =>
    rw [HeadsFor, hStage] at h
    exact Progress.HeadsFor.read h hUnread
  | parse source progress hStage _ hUnparsed =>
    rw [HeadsFor, hStage] at h
    exact Progress.HeadsFor.parse h hUnparsed
  | commit progress after handed report hStage hRead hParsed hConclude =>
    rw [HeadsFor, hStage] at h
    show report.fingerprint = s.target after
    rw [hSame.target, Scan.conclude_fingerprint hConclude]
    exact Scanner.target_of_patterns (Progress.HeadsFor.patterns h hRead hParsed)

/-- A pass has failed and left other bytes in the artifact than were there: its write broke off. -/
def Tears (moved : RunningPass) (fs after : FileSystem) : Prop :=
  ∃ report, moved.report? = some report ∧ report.outcome.isFailure = true ∧
    ¬ SameBytes moved.guard.output fs after

/-- A guard that can be trusted is handed back as one, unless a write breaks off. -/
theorem Moves.trusts (h : Moves s fs pass move after moved) (hTree : fs.IsTree)
    (hWhole : ¬ moved.Tears fs after) (hTrusts : pass.guard.Trusts fs) :
    moved.guard.Trusts after := by
  cases h with
  | walk | read | parse => exact hTrusts
  | commit progress after handed report _ _ _ hConclude =>
    have hFingerprint := Scan.conclude_fingerprint hConclude
    -- nothing has changed, or the new fingerprint is on disk, or the old one still is
    rcases Scan.conclude_cases hConclude with ⟨-, -, rfl, rfl⟩ | ⟨-, rfl, hWrite⟩ |
      ⟨e, hFailed, rfl, -⟩
    · exact hTrusts
    · intro f hLast
      cases hLast
      exact (fingerprint?_writeDocument hTree.inside hWrite).trans (by rw [hFingerprint]; rfl)
    · refine hTrusts.of_sameBytes ?_
      by_contra hOther
      exact hWhole ⟨report, rfl, by rw [hFailed]; rfl, hOther⟩

/-- Where the disk breaks off no write, no pass leaves other bytes in the artifact when it fails. -/
theorem Moves.not_tears (h : Moves s fs pass move after moved) (hTree : fs.IsTree)
    (hNames : ∀ name ∈ names, Path.IsName name)
    (hOutput : pass.guard.output = Route.toPath ⟨true, names⟩)
    (hWhole : fs.disk.Whole) : ¬ moved.Tears fs after := by
  rintro ⟨report, hReport, hFailed, hOther⟩
  cases h with
  | walk | read | parse => cases hReport
  | commit progress after handed other _ _ _ hConclude =>
    cases hReport
    rcases Scan.conclude_cases hConclude with ⟨hUnchanged, -⟩ | ⟨hWritten, -⟩ | ⟨e, -, rfl, hWrite⟩
    · rw [hUnchanged] at hFailed
      cases hFailed
    · rw [hWritten] at hFailed
      cases hFailed
    · rw [hOutput] at hWrite hOther
      -- a write that failed has left the bytes or was broken off, which a whole disk does not do
      rcases sameBytes_of_error hTree hNames hWrite with hSame | ⟨count, cause, hFate, -⟩
      · exact hOther hSame
      · exact hWhole _ _ _ _ hFate

/-- A pass that ends by a move without failing remembers its document. -/
theorem Moves.records (h : Moves s fs pass move after moved) : moved.Records := by
  intro report hReport hDone
  cases h with
  | walk | read | parse => cases hReport
  | commit progress after handed other _ _ _ hConclude =>
    cases hReport
    exact Scan.conclude_last hConclude hDone

end RunningPass

end KeyRegistry

import KeyRegistry.Proofs.Pass.Progress
import KeyRegistry.Proofs.Scan.Artifact

/-!
# The order of reading does not matter

A pass reads its files in any order and takes them apart in any order, and between two moves others
may do with the files what they want, so any of the reads may fail. What the pass ends with is
settled by what its reads came to, not by their order: it reports the document that the files which
it could read call for, and the outcome follows from what its guard remembers and from whether the
document could be written. If nobody changes the files, it ends as a pass that makes all its moves
at one instant.

The invariant is about a pass that is scanning: the files that it has read and those that it has yet
to read are the candidates, and what it has found is what is in the files that it could read.

Main definitions:

* `RunningPass.History` — the moves of a pass, each with the files of its instant
* `RunningPass.Reference` — the result that a pass is to have

Main statements:

* `Progress.Gathers.read`, `Progress.Gathers.parse` — what one move keeps
* `RunningPass.History.keeps` — what any history keeps
* `RunningPass.reference_in_any_order` — every history leads to the result that it is to have
-/

namespace KeyRegistry

open FileSystem

variable {s : Scanner} {guard handed : Guard} {moves : List (FileSystem × PassMove)}
  {fs walked after : FileSystem} {pass moved : RunningPass} {move : PassMove} {path : Path}
  {source : Source} {progress : Progress} {report : PassReport}

/-- The document that some files call for. -/
def Scanner.rendering (s : Scanner) (sources : List Source) : Rendering :=
  Rendering.of (s.patternsOf sources).expand s.config.moduleName

/-- The patterns of some sources are those of any of them. -/
theorem Scanner.mem_patternsOf {sources : List Source} {pattern : Pattern} :
    pattern ∈ s.patternsOf sources ↔
      ∃ source ∈ sources, pattern ∈ source.patterns s.config.markers := by
  rw [patternsOf, PatternSet.ofList, PatternSet.mem_insertAll]
  simp

namespace RunningPass

/-! ## Histories -/

/-- The moves that a pass has made from its start, each with the files of the instant at which it
was made, and the files right after the last of them. Between two moves the files may become any
others. -/
inductive History (s : Scanner) (guard : Guard) :
    List (FileSystem × PassMove) → FileSystem → RunningPass → Prop
  | start (fs : FileSystem) : History s guard [] fs { guard }
  | move {moves : List (FileSystem × PassMove)} {between fs after : FileSystem}
      {pass moved : RunningPass} {move : PassMove} (hHistory : History s guard moves between pass)
      (hMove : pass.step? s fs move = some (after, moved)) :
      History s guard (moves ++ [(fs, move)]) after moved

/-- The files that were to be read, in the order of the reads. -/
def readPaths (moves : List (FileSystem × PassMove)) : List Path :=
  moves.filterMap fun
    | (_, .read path) => some path
    | _ => none

/-- The files that could be read, in the order of the reads. -/
def sources (moves : List (FileSystem × PassMove)) : List Source :=
  moves.filterMap fun
    | (fs, .read path) => (Source.read fs path).toOption
    | _ => none

/-- A read adds its path to those that were to be read. -/
theorem readPaths_read (moves : List (FileSystem × PassMove)) (fs : FileSystem) (path : Path) :
    readPaths (moves ++ [(fs, .read path)]) = readPaths moves ++ [path] := by
  simp [readPaths]

/-- Taking a source apart is no read. -/
theorem readPaths_parse (moves : List (FileSystem × PassMove)) (fs : FileSystem)
    (source : Source) : readPaths (moves ++ [(fs, .parse source)]) = readPaths moves := by
  simp [readPaths]

/-- The end of a pass is no read. -/
theorem readPaths_commit (moves : List (FileSystem × PassMove)) (fs : FileSystem) :
    readPaths (moves ++ [(fs, .commit)]) = readPaths moves := by
  simp [readPaths]

/-- A read adds a source if it succeeds. -/
theorem sources_read (moves : List (FileSystem × PassMove)) (fs : FileSystem) (path : Path) :
    sources (moves ++ [(fs, .read path)]) =
      sources moves ++ (Source.read fs path).toOption.toList := by
  rw [sources, List.filterMap_append]
  cases hRead : Source.read fs path <;> simp [sources, hRead, Except.toOption]

/-- Taking a source apart adds none. -/
theorem sources_parse (moves : List (FileSystem × PassMove)) (fs : FileSystem)
    (source : Source) : sources (moves ++ [(fs, .parse source)]) = sources moves := by
  simp [sources]

/-- The end of a pass adds no source. -/
theorem sources_commit (moves : List (FileSystem × PassMove)) (fs : FileSystem) :
    sources (moves ++ [(fs, .commit)]) = sources moves := by
  simp [sources]

/-- The outcome that a pass is to have with a document. `fs` are the files at its end and `after`
those that it leaves. -/
structure Settles (guard : Guard) (document : String) (fs after : FileSystem) (handed : Guard)
    (report : PassReport) : Prop where
  unchanged_iff : report.outcome = .unchanged ↔ guard.last = some report.fingerprint
  written_iff : report.outcome = .written ↔
    guard.last ≠ some report.fingerprint ∧ (fs.writeDocument guard.output document).2 = .ok ()
  failed_iff : report.outcome.isFailure = true ↔
    guard.last ≠ some report.fingerprint ∧
      ∃ e, (fs.writeDocument guard.output document).2 = .error e
  unchanged : report.outcome = .unchanged → after = fs ∧ handed = guard
  written : report.outcome = .written →
    after.read guard.output = .ok document.toUTF8 ∧ handed = guard.record report.fingerprint
  failed : report.outcome.isFailure = true → handed = guard

/-- The end of a pass has the outcome that its guard and the write of the document call for. -/
theorem Settles.of_conclude {scan : Scan} {moduleName : String} (hTree : fs.Hierarchical)
    (h : scan.conclude moduleName guard fs = (after, handed, report)) :
    Settles guard (scan.rendering moduleName).document fs after handed report := by
  have hUnchanged := Scan.conclude_unchanged_iff h
  have hDiffers : report.outcome ≠ .unchanged → guard.last ≠ some report.fingerprint :=
    fun hOther hLast => hOther (hUnchanged.mpr hLast)
  -- the cases are the three outcomes; in each of them two of the equivalences are about other
  -- outcomes
  rcases Scan.conclude_cases h with ⟨hDone, hLast, rfl, rfl⟩ | ⟨hDone, rfl, hWrite⟩ |
    ⟨e, hDone, rfl, hWrite⟩
  · refine ⟨hUnchanged, by simp [hDone, hLast], by simp [hDone, hLast, PassOutcome.isFailure],
      ?_, ?_, ?_⟩
    · exact fun _ => ⟨rfl, rfl⟩
    · simp [hDone]
    · exact fun _ => rfl
  · have hOther := hDiffers (by simp [hDone])
    refine ⟨hUnchanged, by simp [hDone, hOther, hWrite],
      by simp [hDone, hWrite, PassOutcome.isFailure], ?_, ?_, ?_⟩
    · simp [hDone]
    · exact fun _ => ⟨read_writeDocument hTree hWrite, rfl⟩
    · simp [hDone, PassOutcome.isFailure]
  · have hOther := hDiffers (by simp [hDone])
    refine ⟨hUnchanged, by simp [hDone, hWrite],
      by simp [hDone, hOther, hWrite, PassOutcome.isFailure], ?_, ?_, ?_⟩
    · simp [hDone]
    · simp [hDone]
    · exact fun _ => rfl

/-- The result that a pass is to have by the files that it could read: it reports the document that
these call for, and ends as its guard and the write of the document have it. -/
structure Reference (s : Scanner) (guard : Guard) (sources : List Source) (fs after : FileSystem)
    (handed : Guard) (report : PassReport) : Prop where
  fingerprint : report.fingerprint = (s.rendering sources).fingerprint
  patternCount : report.patternCount = (s.patternsOf sources).expand.size
  filesRead : report.filesRead = sources.length
  settles : Settles guard (s.rendering sources).document fs after handed report

/-- A pass has the result that it is to have if it has found what is in the files that it could
read. -/
theorem Reference.of_conclude {scan : Scan} {sources : List Source} (hTree : fs.Hierarchical)
    (hPatterns : scan.patterns = s.patternsOf sources) (hRead : scan.filesRead = sources.length)
    (h : scan.conclude s.config.moduleName guard fs = (after, handed, report)) :
    Reference s guard sources fs after handed report := by
  have hRendering : scan.rendering s.config.moduleName = s.rendering sources := by
    rw [Scan.rendering, Scanner.rendering, hPatterns]
  have hReport := Scan.conclude_report h
  have hSettles := Settles.of_conclude hTree h
  rw [hRendering] at hReport hSettles
  refine ⟨by rw [hReport], ?_, by rw [hReport, hRead], hSettles⟩
  rw [hReport]
  rfl

end RunningPass

/-! ## What a scanning pass has gathered -/

open RunningPass

namespace Progress

/-- What a scanning pass has gathered by its moves, of which the first one walked over these files.
The last field counts each file to be read twice, since it may have to be taken apart as well. -/
structure Gathers (progress : Progress) (s : Scanner) (walked : FileSystem)
    (moves : List (FileSystem × PassMove)) : Prop where
  paths : (readPaths moves ++ progress.unread).Perm (s.candidates walked)
  patterns : ∀ pattern, (pattern ∈ progress.patterns ∨
      ∃ source ∈ progress.unparsed, pattern ∈ source.patterns s.config.markers) ↔
    pattern ∈ s.patternsOf (sources moves)
  filesRead : progress.filesRead = (sources moves).length
  errors : progress.filesRead + progress.errors.length = (readPaths moves).length
  length : moves.length + 2 * progress.unread.length + progress.unparsed.length ≤
    2 * (s.candidates walked).length + 1

/-- After the walk nothing but the candidates is gathered. -/
theorem Gathers.walk (s : Scanner) (walked : FileSystem) :
    Gathers { unread := s.candidates walked } s walked [(walked, .walk)] where
  paths := .refl _
  patterns pattern := by simp [sources, Scanner.mem_patternsOf]
  filesRead := rfl
  errors := rfl
  length := by simp [Nat.add_comm]

/-- A file that is read moves from the files that are to be read to those that were. -/
theorem Gathers.paths_read (h : progress.Gathers s walked moves)
    (hUnread : path ∈ progress.unread) (fs : FileSystem) :
    (readPaths (moves ++ [(fs, .read path)]) ++ progress.unread.erase path).Perm
      (s.candidates walked) := by
  refine List.Perm.trans ?_ h.paths
  rw [readPaths_read, List.append_assoc]
  exact (List.perm_cons_erase hUnread).symm.append_left _

/-- A file that could be read is one more to be taken apart. -/
theorem Gathers.read_ok (h : progress.Gathers s walked moves) (hUnread : path ∈ progress.unread)
    (hRead : Source.read fs path = .ok source) :
    (progress.read fs path).Gathers s walked (moves ++ [(fs, .read path)]) := by
  have hSources : sources (moves ++ [(fs, .read path)]) = sources moves ++ [source] := by
    rw [sources_read, hRead]
    rfl
  have hLess := List.length_erase_add_one hUnread
  have hErrors := h.errors
  have hLength := h.length
  rw [Progress.read, hRead]
  refine ⟨h.paths_read hUnread fs, ?_, ?_, ?_, ?_⟩
  · -- what is in the file counts as found before it is taken apart
    intro pattern
    have hFound := h.patterns pattern
    rw [Scanner.mem_patternsOf] at hFound ⊢
    rw [hSources]
    simp only [List.mem_cons, List.mem_append, List.not_mem_nil, or_false,
      or_and_right, exists_or, exists_eq_left, ← hFound]
    rw [or_left_comm, or_comm]
  · rw [hSources, List.length_append, h.filesRead]
    rfl
  · rw [readPaths_read, List.length_append, List.length_singleton]
    dsimp only
    omega
  · rw [List.length_append, List.length_singleton]
    dsimp only [List.length_cons]
    omega

/-- A file that could not be read is one more error. -/
theorem Gathers.read_error {e : ScanError} (h : progress.Gathers s walked moves)
    (hUnread : path ∈ progress.unread) (hRead : Source.read fs path = .error e) :
    (progress.read fs path).Gathers s walked (moves ++ [(fs, .read path)]) := by
  -- a file that cannot be read is no source, but it is counted
  have hSources : sources (moves ++ [(fs, .read path)]) = sources moves := by
    rw [sources_read, hRead]
    exact List.append_nil _
  have hLess := List.length_erase_add_one hUnread
  have hErrors := h.errors
  have hLength := h.length
  rw [Progress.read, hRead]
  refine ⟨h.paths_read hUnread fs, ?_, ?_, ?_, ?_⟩
  · rw [hSources]
    exact h.patterns
  · rw [hSources]
    exact h.filesRead
  · rw [readPaths_read, List.length_append, List.length_singleton]
    dsimp only [List.length_cons]
    omega
  · rw [List.length_append, List.length_singleton]
    dsimp only
    omega

/-- A read takes one candidate from what is to be read. -/
theorem Gathers.read (h : progress.Gathers s walked moves) (hUnread : path ∈ progress.unread)
    (fs : FileSystem) :
    (progress.read fs path).Gathers s walked (moves ++ [(fs, .read path)]) := by
  cases hRead : Source.read fs path with
  | ok source => exact h.read_ok hUnread hRead
  | error e => exact h.read_error hUnread hRead

/-- Taking a source apart adds its patterns. -/
theorem Gathers.parse (h : progress.Gathers s walked moves)
    (hUnparsed : source ∈ progress.unparsed) (fs : FileSystem) :
    (progress.parse s.config.markers source).Gathers s walked (moves ++ [(fs, .parse source)]) := by
  have hLess := List.length_erase_add_one hUnparsed
  have hLength := h.length
  unfold Progress.parse
  refine ⟨?_, ?_, ?_, ?_, ?_⟩
  · rw [readPaths_parse]
    exact h.paths
  · -- taking a file apart moves its patterns to those that are counted already
    intro pattern
    rw [sources_parse, ← h.patterns, exists_mem_erase hUnparsed]
    simp only [PatternSet.mem_insertAll, or_assoc]
    exact or_left_comm
  · rw [sources_parse]
    exact h.filesRead
  · rw [readPaths_parse]
    exact h.errors
  · rw [List.length_append, List.length_singleton]
    dsimp only
    omega

/-- When nothing is left to do, each candidate was read once, and the patterns are those in the
files that could be read. -/
theorem Gathers.finished (h : progress.Gathers s walked moves) (hRead : progress.unread = [])
    (hParsed : progress.unparsed = []) : (readPaths moves).Perm (s.candidates walked) ∧
      progress.patterns = s.patternsOf (sources moves) := by
  constructor
  · have hPaths := h.paths
    rwa [hRead, List.append_nil] at hPaths
  · refine PatternSet.ext_mem fun pattern => ?_
    rw [← h.patterns, hParsed]
    simp

end Progress

namespace RunningPass

/-! ## Whole histories -/

/-- What a pass has done by its history. -/
def Keeps (pass : RunningPass) (s : Scanner) (guard : Guard)
    (moves : List (FileSystem × PassMove)) (after : FileSystem) : Prop :=
  match pass.stage with
  | .starting => pass.guard = guard ∧ moves = []
  | .scanning progress => pass.guard = guard ∧
      ∃ walked between, moves = (walked, .walk) :: between ∧ progress.Gathers s walked moves
  | .ended report => ∃ walked between fs, ∃ progress : Progress,
      moves = (walked, .walk) :: (between ++ [(fs, .commit)]) ∧
      progress.Gathers s walked ((walked, .walk) :: between) ∧ progress.unread = [] ∧
      progress.unparsed = [] ∧
      progress.toScan.conclude s.config.moduleName guard fs = (after, pass.guard, report)

/-- Every move keeps it. -/
theorem Keeps.step {between : FileSystem} (h : pass.Keeps s guard moves between)
    (hMoves : Moves s fs pass move after moved) :
    moved.Keeps s guard (moves ++ [(fs, move)]) after := by
  -- one case for each kind of move; the stage before the move says what has been gathered so far
  cases hMoves with
  | walk hStage =>
    rw [Keeps, hStage] at h
    obtain ⟨hGuard, rfl⟩ := h
    exact ⟨hGuard, fs, [], rfl, .walk s fs⟩
  | read path progress hStage hUnread =>
    rw [Keeps, hStage] at h
    obtain ⟨hGuard, walked, rest, rfl, hGathers⟩ := h
    exact ⟨hGuard, walked, rest ++ [(fs, .read path)], rfl, hGathers.read hUnread fs⟩
  | parse source progress hStage _ hUnparsed =>
    rw [Keeps, hStage] at h
    obtain ⟨hGuard, walked, rest, rfl, hGathers⟩ := h
    exact ⟨hGuard, walked, rest ++ [(fs, .parse source)], rfl, hGathers.parse hUnparsed fs⟩
  | commit progress after handed report hStage hRead hParsed hConclude =>
    rw [Keeps, hStage] at h
    obtain ⟨rfl, walked, rest, rfl, hGathers⟩ := h
    exact ⟨walked, rest, fs, progress, rfl, hGathers, hRead, hParsed, hConclude⟩

/-- By induction on its history, a pass has done what its moves say. -/
theorem History.keeps (h : History s guard moves after pass) :
    pass.Keeps s guard moves after := by
  induction h with
  | start fs => exact ⟨rfl, rfl⟩
  | move _ hMove ih => exact ih.step (Moves.of_step? hMove)

/-- A pass that has not ended has a move to make, whatever has become of the files. -/
theorem exists_step? (h : pass.report? = none) (s : Scanner) (fs : FileSystem) :
    ∃ move, (pass.step? s fs move).isSome = true := by
  -- a scanning pass first reads what is unread, then takes apart what is read, and commits when
  -- both are done
  obtain ⟨guard, stage⟩ := pass
  cases stage with
  | starting => exact ⟨.walk, rfl⟩
  | ended report => cases h
  | scanning progress =>
    cases hUnread : progress.unread with
    | cons path paths => exact ⟨.read path, by simp [step?, hUnread]⟩
    | nil =>
      cases hUnparsed : progress.unparsed with
      | cons source sources => exact ⟨.parse source, by simp [step?, hUnread, hUnparsed]⟩
      | nil => exact ⟨.commit, by simp [step?, hUnread, hUnparsed]⟩

/-- If nobody changes the files, the files that could be read are those that can be read now. -/
theorem sources_of_still (hStill : ∀ item ∈ moves, item.1 = fs) :
    sources moves = (readPaths moves).filterMap fun path => (Source.read fs path).toOption := by
  rw [sources, readPaths, List.filterMap_filterMap]
  refine List.filterMap_congr fun item hMem => ?_
  obtain ⟨files, move⟩ := item
  have hFiles : files = fs := hStill _ hMem
  cases move <;> simp [hFiles]

/-- The result of a pass depends on what its scan has found, and on how many files it has read. -/
theorem conclude_congr {scan other : Scan} (hPatterns : scan.patterns = other.patterns)
    (hRead : scan.filesRead = other.filesRead)
    (hErrors : scan.errors.length = other.errors.length) (moduleName : String) (guard : Guard)
    (fs : FileSystem) : scan.conclude moduleName guard fs = other.conclude moduleName guard fs := by
  have hRendering : scan.rendering moduleName = other.rendering moduleName := by
    rw [Scan.rendering, Scan.rendering, hPatterns]
  rw [Scan.conclude, Scan.conclude, hRendering, hRead, hErrors]

/-- If nobody changes the files, a pass ends as if all its moves were made at one instant. -/
theorem conclude_of_still (hGathers : progress.Gathers s fs moves) (hRead : progress.unread = [])
    (hParsed : progress.unparsed = []) (hStill : ∀ item ∈ moves, item.1 = fs) :
    progress.toScan.conclude s.config.moduleName guard fs = s.pass guard fs := by
  obtain ⟨hPaths, hPatterns⟩ := hGathers.finished hRead hParsed
  -- both passes have read the same files, in orders of their own
  have hSources : (sources moves).Perm (Source.readAll fs (s.candidates fs)).1 := by
    rw [sources_of_still hStill, Source.readAll, List.filterMap_map]
    exact hPaths.filterMap _
  have hFilesRead : progress.filesRead = (s.scan fs).filesRead :=
    hGathers.filesRead.trans hSources.length_eq
  -- an order is lost where patterns are gathered into a set and files are counted
  refine conclude_congr ?_ hFilesRead ?_ _ _ _
  · refine PatternSet.ext_mem fun pattern => ?_
    show pattern ∈ progress.patterns ↔
      pattern ∈ s.patternsOf (Source.readAll fs (s.candidates fs)).1
    simp only [hPatterns, Scanner.mem_patternsOf, hSources.mem_iff]
  · -- the files that could not be read are the others
    have hTotal : progress.filesRead + progress.errors.length =
        (s.scan fs).filesRead + (s.scan fs).errors.length := by
      rw [hGathers.errors, hPaths.length_eq]
      exact (Source.length_readAll fs (s.candidates fs)).symm
    rw [hFilesRead] at hTotal
    exact Nat.add_left_cancel hTotal

/-- A pass makes at most two moves for each candidate, besides its first and its last one. -/
theorem Keeps.length_le (h : pass.Keeps s guard moves after)
    (hFirst : moves.head?.map Prod.fst = some walked) :
    moves.length ≤ 2 * (s.candidates walked).length + 2 := by
  obtain ⟨handed, stage⟩ := pass
  cases stage with
  -- a pass at its start has no first move
  | starting =>
    obtain ⟨-, rfl⟩ := h
    cases hFirst
  | scanning progress =>
    obtain ⟨-, first, between, rfl, hGathers⟩ := h
    have hSame : first = walked := Option.some.inj hFirst
    have hLength := hGathers.length
    rw [hSame] at hLength ⊢
    omega
  | ended report =>
    obtain ⟨first, between, fs, progress, rfl, hGathers, -⟩ := h
    have hSame : first = walked := Option.some.inj hFirst
    have hLength := hGathers.length
    rw [hSame] at hLength
    simp only [List.length_cons, List.length_append, List.length_nil] at hLength ⊢
    omega

/-- A pass that has ended has walked, read each candidate once and rendered what it could read. -/
theorem Keeps.reference (h : pass.Keeps s guard moves after)
    (hTree : ∀ item ∈ moves, item.1.Hierarchical) (hReport : pass.report? = some report) :
    ∃ walked between fs, moves = (walked, .walk) :: (between ++ [(fs, .commit)]) ∧
      (readPaths moves).Perm (s.candidates walked) ∧
      report.filesRead + report.fileErrors = (s.candidates walked).length ∧
      Reference s guard (sources moves) fs after pass.guard report ∧
      ((∀ item ∈ moves, item.1 = fs) → s.pass guard fs = (after, pass.guard, report)) := by
  obtain ⟨handed, stage⟩ := pass
  cases stage with
  | starting | scanning => cases hReport
  | ended other =>
    cases hReport
    -- an ended pass has stopped scanning with nothing left to do
    obtain ⟨walked, between, fs, progress, rfl, hGathers, hRead, hParsed, hConclude⟩ := h
    obtain ⟨hPaths, hPatterns⟩ := hGathers.finished hRead hParsed
    refine ⟨walked, between, fs, rfl, ?_, ?_, ?_, ?_⟩
    · rw [← List.cons_append, readPaths_commit]
      exact hPaths
    · rw [← hPaths.length_eq, ← hGathers.errors, Scan.conclude_report hConclude]
      rfl
    · rw [← List.cons_append, sources_commit]
      exact .of_conclude (hTree (fs, .commit) (by simp)) hPatterns hGathers.filesRead hConclude
    · intro hStill
      have hWalked : walked = fs := hStill _ List.mem_cons_self
      rw [hWalked] at hGathers hStill
      rw [← hConclude]
      refine (conclude_of_still hGathers hRead hParsed fun item hMem => hStill item ?_).symm
      rw [← List.cons_append]
      exact List.mem_append_left _ hMem

/-- **The order of reading does not matter.** A pass can be led to its end from wherever it is, and
it makes no more moves than two for each candidate and two more. When it has ended, it has walked
over the project first, read each candidate once, and committed last; and it has the result that it
is to have by the files that it could read. If nobody has changed the files meanwhile, it is the
result of a pass that is made at one instant. -/
theorem reference_in_any_order (hHistory : History s guard moves after pass)
    (hTree : ∀ item ∈ moves, item.1.Hierarchical) :
    (pass.report? = none → ∀ fs, ∃ move, (pass.step? s fs move).isSome = true) ∧
    (∀ walked, moves.head?.map Prod.fst = some walked →
      moves.length ≤ 2 * (s.candidates walked).length + 2) ∧
    ∀ report, pass.report? = some report → ∃ walked between fs,
      moves = (walked, .walk) :: (between ++ [(fs, .commit)]) ∧
      (readPaths moves).Perm (s.candidates walked) ∧
      report.filesRead + report.fileErrors = (s.candidates walked).length ∧
      Reference s guard (sources moves) fs after pass.guard report ∧
      ((∀ item ∈ moves, item.1 = fs) → s.pass guard fs = (after, pass.guard, report)) := by
  have hKeeps := hHistory.keeps
  exact ⟨fun hGoing fs => exists_step? hGoing s fs, fun _ => hKeeps.length_le,
    fun _ => hKeeps.reference hTree⟩

end RunningPass

namespace Vanished

/-- The only file of the project. -/
def file : Path := Route.toPath ⟨true, ["r", Excluded.name]⟩

/-- A pass over the project that comes too late to read the file. -/
def course : List (FileSystem × PassMove) :=
  [(Excluded.project, .walk), ({}, .read file), (Excluded.project, .commit)]

/-- What the pass has yet to do after the walk. -/
def begun : Progress := { unread := [file] }

theorem empty_isTree : FileSystem.IsTree {} :=
  FileSystem.isTree_sound (by decide)

/-- Where there are no files, none can be read. -/
theorem exists_read_eq_error : ∃ e, Source.read {} file = .error e := by
  have hNames : ∀ name ∈ ["r", Excluded.name], Path.IsName name := by decide
  -- there is nothing to be read in the empty table
  cases hRead : FileSystem.read {} file with
  | error cause => exact ⟨_, by rw [Source.read, hRead]⟩
  | ok content =>
    have hFile := ((FileSystem.read_eq_ok_iff empty_isTree hNames).mp hRead).2
    cases hFile

/-- The pass that comes too late reads no source. -/
theorem sources_course : sources course = [] := by
  obtain ⟨e, hRead⟩ := exists_read_eq_error
  simp [sources, course, hRead, Except.toOption]

/-- The pass that comes too late ends and writes the document without keys. -/
theorem exists_history : ∃ after handed report, report.outcome = .written ∧
    History Excluded.scanner Excluded.scanner.guard course after ⟨handed, .ended report⟩ := by
  obtain ⟨e, hRead⟩ := exists_read_eq_error
  let late : Progress := begun.read {} file
  have hUnread : late.unread = [] := by
    rw [Progress.unread_read]
    exact List.erase_cons_head file []
  have hUnparsed : late.unparsed = [] := by
    show (begun.read {} file).unparsed = []
    rw [Progress.read, hRead]
    rfl
  -- the files are back when the pass commits
  obtain ⟨report, hDone, hConclude⟩ := Scan.conclude_of_writable Excluded.project_isTree
    Excluded.writable Excluded.guard_output rfl late.toScan Excluded.scanner.config.moduleName
  have hWalk : step? { guard := Excluded.scanner.guard } Excluded.scanner Excluded.project .walk =
      some (Excluded.project, ⟨Excluded.scanner.guard, .scanning begun⟩) := by
    rw [step?, Excluded.candidates_project]
    rfl
  have hNext : step? ⟨Excluded.scanner.guard, .scanning begun⟩ Excluded.scanner {} (.read file) =
      some ({}, ⟨Excluded.scanner.guard, .scanning late⟩) := by
    simp [step?, begun, late]
  have hLast : ∃ after handed, step? ⟨Excluded.scanner.guard, .scanning late⟩ Excluded.scanner
      Excluded.project .commit = some (after, ⟨handed, .ended report⟩) := by
    simp only [step?, hUnread, hUnparsed, and_self, if_true, RunningPass.commit, hConclude]
    exact ⟨_, _, rfl⟩
  obtain ⟨after, handed, hLast⟩ := hLast
  exact ⟨after, handed, report, hDone, .move (.move (.move (.start {}) hWalk) hNext) hLast⟩

end Vanished

/-- The file is counted, and what was in it is not in the document. -/
theorem RunningPass.reference_in_any_order_of_vanished : ∃ after handed report,
    History Excluded.scanner Excluded.scanner.guard Vanished.course after ⟨handed, .ended report⟩ ∧
      report.outcome = .written ∧ report.filesRead = 0 ∧ report.fileErrors = 1 ∧
      report.fingerprint = (Excluded.scanner.rendering []).fingerprint := by
  obtain ⟨after, handed, report, hDone, hHistory⟩ := Vanished.exists_history
  have hTree : ∀ item ∈ Vanished.course, item.1.Hierarchical := by
    have hProject := Excluded.project_isTree.inside
    have hEmpty := Vanished.empty_isTree.inside
    simp [Vanished.course, hProject, hEmpty]
  obtain ⟨-, -, hEnds⟩ := RunningPass.reference_in_any_order hHistory hTree
  obtain ⟨walked, between, fs, hMoves, -, hCount, hReference, -⟩ := hEnds report rfl
  have hWalked : walked = Excluded.project := by
    rw [Vanished.course] at hMoves
    exact (Prod.mk.inj (List.cons.inj hMoves).1).1.symm
  rw [Vanished.sources_course] at hReference
  have hRead : report.filesRead = 0 := hReference.filesRead
  rw [hWalked, Excluded.candidates_project, hRead, List.length_singleton, Nat.zero_add] at hCount
  exact ⟨after, handed, report, hHistory, hDone, hRead, hCount, hReference.fingerprint⟩

end KeyRegistry

import KeyRegistry.Pass.Running
import KeyRegistry.Proofs.FileSystem.Tree

/-!
# What a commit leaves behind

A commit ends in one of three ways. It finds that the document was written last and touches
nothing; it writes the document and remembers its fingerprint; or it fails and remembers what it
did before. After a write the artifact can be read back, with the fingerprint that is remembered.

Main definitions:

* `Guard.commitBy` — a commit, given what comes of writing the document
* `Guard.Trusts` — what the guard remembers is what is on disk
* `RunningPass.Moves` — everything that a move of a pass can do

Main statements:

* `Guard.commitBy_cases`, `Scan.conclude_cases` — the three ways in which a commit and a pass end
* `Guard.Trusts.conclude` — a pass that does not fail leaves the document on disk
-/

namespace KeyRegistry

open FileSystem

variable {fs after : FileSystem} {p : Path} {document : String}

/-! ## Writing a document -/

/-- Creating the directory of a file keeps everything in a directory. -/
theorem FileSystem.Hierarchical.createParent (hTree : fs.Hierarchical) (p : Path) :
    (fs.createParent p).1.Hierarchical := by
  unfold FileSystem.createParent
  split
  · exact hTree
  · next parent _ =>
    split
    · exact hTree
    · have hMade : (fs.createDirectories parent).1.Hierarchical := hTree.createDirectories parent
      split <;> next hCase => rw [hCase] at hMade; exact hMade

/-- Making the directories above a path changes nothing but the table. -/
theorem FileSystem.createParent_eq (fs : FileSystem) (p : Path) :
    (fs.createParent p).1 = { fs with entries := (fs.createParent p).1.entries } := by
  unfold FileSystem.createParent
  split
  · rfl
  · next parent _ =>
    split
    · rfl
    · have hMade := createDirectories_eq fs parent
      split <;> next hCase => rw [hCase] at hMade; exact hMade

/-- Writing a document makes the directories above it and then writes the file. -/
theorem FileSystem.writeDocument_cases (fs : FileSystem) (p : Path) (document : String) :
    (∃ e, fs.writeDocument p document = ((fs.createParent p).1, .error e)) ∨
      (∃ after, (fs.createParent p).1.write p document.toUTF8 = (after, .ok ()) ∧
        fs.writeDocument p document = (after, .ok ())) ∨
      ∃ after cause, (fs.createParent p).1.write p document.toUTF8 = (after, .error cause) ∧
        fs.writeDocument p document = (after, .error (.write p cause)) := by
  unfold writeDocument
  split
  · next made e hMade =>
    rw [hMade]
    exact Or.inl ⟨e, rfl⟩
  · next made hMade =>
    rw [hMade]
    rcases hWrite : made.write p document.toUTF8 with ⟨after, - | -⟩
    · exact Or.inr (Or.inr ⟨after, _, rfl, rfl⟩)
    · exact Or.inr (Or.inl ⟨after, rfl, rfl⟩)

/-- The files are those with the directories above the path, or those that the write leaves. -/
theorem FileSystem.writeDocument_files (fs : FileSystem) (p : Path) (document : String) :
    (fs.writeDocument p document).1 = (fs.createParent p).1 ∨
      (fs.writeDocument p document).1 = ((fs.createParent p).1.write p document.toUTF8).1 := by
  rcases writeDocument_cases fs p document with
    ⟨e, hFail⟩ | ⟨after, hWrite, hDone⟩ | ⟨after, cause, hWrite, hBroken⟩
  · exact Or.inl (by rw [hFail])
  · exact Or.inr (by rw [hDone, hWrite])
  · exact Or.inr (by rw [hBroken, hWrite])

/-- Writing a document keeps everything in a directory, whatever becomes of the write. -/
theorem FileSystem.Hierarchical.writeDocument (hTree : fs.Hierarchical) (p : Path)
    (document : String) : (fs.writeDocument p document).1.Hierarchical := by
  have hParent := hTree.createParent p
  rcases writeDocument_files fs p document with hMade | hWritten
  · rw [hMade]
    exact hParent
  · rw [hWritten]
    exact hParent.write p document.toUTF8

/-- Writing a document does not change the disk itself. -/
theorem FileSystem.disk_writeDocument (fs : FileSystem) (p : Path) (document : String) :
    (fs.writeDocument p document).1.disk = fs.disk := by
  have hParent : (fs.createParent p).1.disk = fs.disk := by rw [createParent_eq]
  rcases writeDocument_files fs p document with hMade | hWritten
  · rw [hMade, hParent]
  · rw [hWritten]
    rcases write_files (fs.createParent p).1 p document.toUTF8 with hSame | ⟨_, _, -, -, hSet⟩
    · rw [hSame, hParent]
    · rw [hSet]
      exact hParent

/-- A document that was written is read back. -/
theorem FileSystem.read_writeDocument (hTree : fs.Hierarchical)
    (h : fs.writeDocument p document = (after, .ok ())) : after.read p = .ok document.toUTF8 := by
  rcases writeDocument_cases fs p document with
    ⟨e, hFail⟩ | ⟨done, hWrite, hDone⟩ | ⟨done, cause, -, hBroken⟩
  · rw [hFail] at h
    cases h
  · rw [hDone] at h
    cases h
    exact read_of_write (hTree.createParent p) hWrite
  · rw [hBroken] at h
    cases h

/-- A document that was written has its fingerprint on disk. -/
theorem FileSystem.fingerprint?_writeDocument (hTree : fs.Hierarchical)
    (h : fs.writeDocument p document = (after, .ok ())) :
    after.fingerprint? p = some (Fingerprint.ofText document) := by
  rw [fingerprint?, read_writeDocument hTree h]
  rfl

/-- Creating the directory of a file keeps a tree one and changes no file. -/
theorem FileSystem.IsTree.createParent {names : List String} (hTree : fs.IsTree)
    (hNames : ∀ name ∈ names, Path.IsName name) :
    (fs.createParent (Route.toPath ⟨true, names⟩)).1.IsTree ∧
      ∀ place, OnlyAt place fs (fs.createParent (Route.toPath ⟨true, names⟩)).1 := by
  -- the top directory has no parent, and nothing is made for it
  by_cases hTop : names = []
  · rw [hTop, FileSystem.createParent, Route.parent?_toPath_nil]
    exact ⟨hTree, fun place => .refl place fs⟩
  · have hAbove : ∀ name ∈ names.dropLast, Path.IsName name := fun name hMem =>
      hNames name (List.dropLast_subset _ hMem)
    have hSome : (Route.toPath ⟨true, names.dropLast⟩).text.isEmpty = false := by
      simp [Route.toPath]
    have hMade := hTree.createDirectories hAbove
    rw [FileSystem.createParent, Route.parent?_toPath hNames hTop]
    dsimp only
    rw [hSome, if_neg (by simp)]
    split <;> next hCase => rw [hCase] at hMade; exact hMade

/-- Writing a document touches its file alone, and makes directories. -/
theorem FileSystem.IsTree.writeDocument {names : List String} (hTree : fs.IsTree)
    (hNames : ∀ name ∈ names, Path.IsName name) (document : String) :
    (fs.writeDocument (Route.toPath ⟨true, names⟩) document).1.IsTree ∧
      OnlyAt (Place.ofNames names) fs
        (fs.writeDocument (Route.toPath ⟨true, names⟩) document).1 := by
  obtain ⟨hParent, hMade⟩ := hTree.createParent hNames
  rcases writeDocument_files fs (Route.toPath ⟨true, names⟩) document with hFiles | hFiles
  · rw [hFiles]
    exact ⟨hParent, hMade _⟩
  · rw [hFiles]
    obtain ⟨hAfter, hOnly⟩ := hParent.write hNames document.toUTF8
    exact ⟨hAfter, (hMade _).trans hOnly⟩

/-- The same bytes are read from a path before and after, if any are. -/
def FileSystem.SameBytes (p : Path) (before after : FileSystem) : Prop :=
  (after.read p).toOption = (before.read p).toOption

/-- The same bytes have the same fingerprint. -/
theorem FileSystem.SameBytes.fingerprint? (h : SameBytes p fs after) :
    after.fingerprint? p = fs.fingerprint? p := by
  rw [FileSystem.fingerprint?, FileSystem.fingerprint?, h]

/-- The disk breaks off the write of some bytes for a file, and the first of them are all that the
file holds afterwards. -/
def FileSystem.BreaksOff (before after : FileSystem) (names : List String) (content : ByteArray) :
    Prop :=
  ∃ count cause, before.disk.writing (Place.ofNames names) content = .brokenOff count cause ∧
    after.read (Route.toPath ⟨true, names⟩) = .ok (content.extract 0 count)

/-- Every write goes in whole, or is refused before the file is touched. -/
def Disk.Whole (disk : Disk) : Prop :=
  ∀ place content count cause, disk.writing place content ≠ .brokenOff count cause

/-- A document that could not be written leaves the bytes of the file as they were, unless the disk
broke the write off. -/
theorem FileSystem.sameBytes_of_error {names : List String} {e : WriteError}
    (hTree : fs.IsTree) (hNames : ∀ name ∈ names, Path.IsName name)
    (h : fs.writeDocument (Route.toPath ⟨true, names⟩) document = (after, .error e)) :
    SameBytes (Route.toPath ⟨true, names⟩) fs after ∨
      BreaksOff fs after names document.toUTF8 := by
  obtain ⟨hParent, hMade⟩ := hTree.createParent hNames
  -- as long as nothing has changed but directories, the file is untouched
  have hSame : SameBytes (Route.toPath ⟨true, names⟩) fs
      (fs.createParent (Route.toPath ⟨true, names⟩)).1 :=
    toOption_read_congr hTree hParent hNames fun content =>
      (hMade (Place.ofNames names ++ [.text "new"])).file_iff (by simp)
  rcases writeDocument_cases fs (Route.toPath ⟨true, names⟩) document with
    ⟨e', hFail⟩ | ⟨done, -, hDone⟩ | ⟨done, cause, hWrite, hBroken⟩
  · rw [hFail] at h
    cases h
    exact Or.inl hSame
  · rw [hDone] at h
    cases h
  · rw [hBroken] at h
    cases h
    rcases write_cases (fs.createParent (Route.toPath ⟨true, names⟩)).1
        (Route.toPath ⟨true, names⟩) document.toUTF8 with
      ⟨other, hRefused⟩ | ⟨place, hFind, hFree, hDone | ⟨count, other, hFate, hTorn⟩⟩
    · rw [hRefused] at hWrite
      cases hWrite
      exact Or.inl hSame
    · rw [hDone] at hWrite
      cases hWrite
    · rw [hTorn] at hWrite
      cases hWrite
      -- the file was emptied before the write broke off
      obtain ⟨-, rfl, -⟩ := (find_eq_ok_iff hParent hNames).mp hFind
      refine Or.inr ⟨count, cause, ?_, read_set_file hParent.inside hFind hFree _⟩
      rw [← hFate, createParent_eq]

/-- A file can be opened here: the system takes the path, there is a directory for the file and no
directory in its place. -/
structure FileSystem.Openable (fs : FileSystem) (names : List String) : Prop where
  proper    : ∀ name ∈ names, Path.IsName name
  fits      : Fits names
  above     : Fits names.dropLast
  notTop    : names ≠ []
  directory : fs.at? (Place.ofNames names.dropLast) = some .directory
  free      : fs.at? (Place.ofNames names) ≠ some .directory

/-- A file can be written here: it can be opened, and the disk has room. -/
structure FileSystem.Writable (fs : FileSystem) (names : List String) : Prop extends
    fs.Openable names where
  room : ∀ content, fs.disk.writing (Place.ofNames names) content = .done

/-- A file that can be opened may be put there. -/
theorem FileSystem.Openable.set {names : List String} (h : fs.Openable names) (hTree : fs.IsTree)
    (content : ByteArray) : (fs.set (Place.ofNames names) (.file content)).IsTree :=
  hTree.set (ne_top_of_at? h.free) (by rw [Place.ofNames, ← List.map_dropLast]; exact h.directory)
    (Or.inr h.free) (by simp) (isName_ofNames h.proper)

/-- What is set where a file can be opened is read there. -/
theorem FileSystem.Openable.read_set {names : List String} (h : fs.Openable names)
    (hTree : fs.IsTree) (content : ByteArray) :
    (fs.set (Place.ofNames names) (.file content)).read (Route.toPath ⟨true, names⟩) =
      .ok content :=
  (read_eq_ok_iff (h.set hTree content) h.proper).mpr
    ⟨h.fits, at?_set_self (ne_top_of_at? h.free)⟩

/-- Where a file can be opened, writing a document comes to what the disk makes of it. -/
theorem FileSystem.writeDocument_of_openable {names : List String} (hTree : fs.IsTree)
    (h : fs.Openable names) (document : String) :
    fs.writeDocument (Route.toPath ⟨true, names⟩) document =
      match fs.writeAt (Place.ofNames names) document.toUTF8 with
      | (after, .ok ()) => (after, .ok ())
      | (after, .error cause) => (after, .error (.write (Route.toPath ⟨true, names⟩) cause)) := by
  -- the directory is there, so none has to be made
  have hAboveNames : ∀ name ∈ names.dropLast, Path.IsName name := fun name hMem =>
    h.proper name (List.dropLast_subset _ hMem)
  have hSome : (Route.toPath ⟨true, names.dropLast⟩).text.isEmpty = false := by simp [Route.toPath]
  have hParent : fs.createParent (Route.toPath ⟨true, names⟩) = (fs, .ok ()) := by
    rw [createParent, Route.parent?_toPath h.proper h.notTop]
    dsimp only
    rw [hSome, createDirectories_of_directory hTree hAboveNames h.above h.directory]
    rfl
  have hWrite : fs.write (Route.toPath ⟨true, names⟩) document.toUTF8 =
      fs.writeAt (Place.ofNames names) document.toUTF8 :=
    write_of_free hTree h.proper h.fits h.notTop h.directory h.free
  rw [FileSystem.writeDocument, hParent]
  rcases hEnd : fs.writeAt (Place.ofNames names) document.toUTF8 with ⟨after, cause | _⟩ <;>
    simp only [hWrite, hEnd]

/-- A document is written where a write goes through. -/
theorem FileSystem.writeDocument_of_writable {names : List String} (hTree : fs.IsTree)
    (h : fs.Writable names) (document : String) :
    fs.writeDocument (Route.toPath ⟨true, names⟩) document =
      (fs.set (Place.ofNames names) (.file document.toUTF8), .ok ()) := by
  rw [writeDocument_of_openable hTree h.toOpenable, writeAt, h.room]

/-! ## Commits -/

variable {g handed : Guard} {r : Rendering} {result : Except WriteError Guard.Outcome}
  {attempt : FileSystem × Except WriteError Unit}

/-- A commit for which writing the document comes to something given. -/
def Guard.commitBy (g : Guard) (fs : FileSystem) (r : Rendering)
    (attempt : FileSystem × Except WriteError Unit) :
    FileSystem × Guard × Except WriteError Guard.Outcome :=
  if g.shouldWrite r.fingerprint then
    match attempt with
    | (fs, .ok ()) => (fs, g.record r.fingerprint, .ok .written)
    | (fs, .error e) => (fs, g, .error e)
  else (fs, g, .ok .skipped)

/-- A commit goes by what writing the document comes to. -/
theorem Guard.commit_eq_commitBy (g : Guard) (fs : FileSystem) (r : Rendering) :
    g.commit fs r = g.commitBy fs r (fs.writeDocument g.output r.document) :=
  rfl

/-- A commit finds that the document was written last, or goes by the attempt. -/
theorem Guard.commitBy_cases (h : g.commitBy fs r attempt = (after, handed, result)) :
    (g.last = some r.fingerprint ∧ result = .ok .skipped ∧ after = fs ∧ handed = g) ∨
    g.last ≠ some r.fingerprint ∧
      (attempt = (after, .ok ()) ∧ result = .ok .written ∧ handed = g.record r.fingerprint ∨
        ∃ e, attempt = (after, .error e) ∧ result = .error e ∧ handed = g) := by
  by_cases hLast : g.last = some r.fingerprint
  · simp only [Guard.commitBy, Guard.shouldWrite, hLast, bne_self_eq_false, Bool.false_eq_true,
      if_false, Prod.mk.injEq] at h
    obtain ⟨rfl, rfl, rfl⟩ := h
    exact Or.inl ⟨hLast, rfl, rfl, rfl⟩
  · have hShould : g.shouldWrite r.fingerprint = true := by simpa [Guard.shouldWrite] using hLast
    unfold Guard.commitBy at h
    rw [if_pos hShould] at h
    refine Or.inr ⟨hLast, ?_⟩
    split at h <;> cases h
    · exact Or.inl ⟨rfl, rfl, rfl⟩
    · exact Or.inr ⟨_, rfl, rfl, rfl⟩

/-! ## What the guard remembers -/

/-- What the guard remembers is what is on disk. A guard that remembers nothing trusts nothing. -/
def Guard.Trusts (g : Guard) (fs : FileSystem) : Prop :=
  ∀ f, g.last = some f → fs.fingerprint? g.output = some f

/-- A guard that takes what is on disk for the last write can be trusted. -/
theorem Guard.trusts_seed (g : Guard) (fs : FileSystem) : (g.seed fs).Trusts fs :=
  fun _ hLast => hLast

/-- Bytes that stay as they are keep what the guard remembers true. -/
theorem Guard.Trusts.of_sameBytes (h : g.Trusts fs) (hSame : SameBytes g.output fs after) :
    g.Trusts after := by
  intro f hLast
  rw [hSame.fingerprint?]
  exact h f hLast

/-- A guard that can be trusted takes each event for the artifact as an echo, once it remembers a
write. -/
theorem Guard.Trusts.checkEcho (h : g.Trusts fs) (path : Path) :
    g.checkEcho fs path = (g.isOutput path && g.last.isSome) := by
  cases hLast : g.last with
  | none => simp [Guard.checkEcho, hLast]
  | some f =>
    have hDisk := h f hLast
    simp [Guard.checkEcho, Guard.isEcho, hLast, hDisk]

/-! ## The three ways in which a pass ends -/

variable {scan : Scan} {moduleName : String} {report : PassReport}

/-- The fingerprint of a rendering is that of its document. -/
theorem Scan.fingerprint_rendering (scan : Scan) (moduleName : String) :
    (scan.rendering moduleName).fingerprint =
      Fingerprint.ofText (scan.rendering moduleName).document := by
  rw [Scan.rendering, Rendering.of]

/-- All but the outcome of a pass is settled by its scan. -/
theorem Scan.conclude_report (h : scan.conclude moduleName g fs = (after, handed, report)) :
    report = ⟨report.outcome, (scan.rendering moduleName).count, scan.filesRead, scan.errors.length,
      (scan.rendering moduleName).fingerprint⟩ := by
  simp only [Scan.conclude, Prod.mk.injEq] at h
  rw [← h.2.2]

/-- A pass reports the fingerprint of what it rendered, also if it fails. -/
theorem Scan.conclude_fingerprint (h : scan.conclude moduleName g fs = (after, handed, report)) :
    report.fingerprint = (scan.rendering moduleName).fingerprint := by
  rw [conclude_report h]

/-- A pass finds that the document was written last, writes it, or fails to. -/
theorem Scan.conclude_cases (h : scan.conclude moduleName g fs = (after, handed, report)) :
    (report.outcome = .unchanged ∧ g.last = some report.fingerprint ∧ handed = g ∧ after = fs) ∨
    (report.outcome = .written ∧ handed = g.record report.fingerprint ∧
      fs.writeDocument g.output (scan.rendering moduleName).document = (after, .ok ())) ∨
    ∃ e, report.outcome = .failed e.message ∧ handed = g ∧
      fs.writeDocument g.output (scan.rendering moduleName).document = (after, .error e) := by
  obtain ⟨⟨done, passed, result⟩, hCommit⟩ :
      ∃ committed, g.commit fs (scan.rendering moduleName) = committed := ⟨_, rfl⟩
  simp only [Scan.conclude, hCommit] at h
  cases h
  rw [Guard.commit_eq_commitBy] at hCommit
  rcases Guard.commitBy_cases hCommit with
    ⟨hLast, rfl, rfl, rfl⟩ | ⟨-, ⟨hWrite, rfl, rfl⟩ | ⟨e, hWrite, rfl, rfl⟩⟩
  · exact Or.inl ⟨rfl, hLast, rfl, rfl⟩
  · exact Or.inr (Or.inl ⟨rfl, rfl, hWrite⟩)
  · exact Or.inr (Or.inr ⟨e, rfl, rfl, hWrite⟩)

/-- A document that was written last is not written again. -/
theorem Scan.conclude_of_last (hLast : g.last = some (scan.rendering moduleName).fingerprint)
    (fs : FileSystem) : scan.conclude moduleName g fs =
      (fs, g, ⟨.unchanged, (scan.rendering moduleName).count, scan.filesRead, scan.errors.length,
        (scan.rendering moduleName).fingerprint⟩) := by
  have hSkip : g.shouldWrite (scan.rendering moduleName).fingerprint = false := by
    simp [Guard.shouldWrite, hLast]
  have hCommit : g.commit fs (scan.rendering moduleName) = (fs, g, .ok .skipped) := by
    rw [Guard.commit, hSkip, if_neg (by simp)]
  rw [Scan.conclude, hCommit]
  rfl

/-- A pass finds its document written last exactly if the guard remembers it. -/
theorem Scan.conclude_unchanged_iff
    (h : scan.conclude moduleName g fs = (after, handed, report)) :
    report.outcome = .unchanged ↔ g.last = some report.fingerprint := by
  constructor
  · intro hUnchanged
    rcases Scan.conclude_cases h with ⟨-, hLast, -⟩ | ⟨hWritten, -⟩ | ⟨e, hFailed, -⟩
    · exact hLast
    · rw [hUnchanged] at hWritten
      cases hWritten
    · rw [hUnchanged] at hFailed
      cases hFailed
  · intro hLast
    rw [Scan.conclude_fingerprint h] at hLast
    rw [Scan.conclude_of_last hLast] at h
    cases h
    rfl

/-- The guard that a pass hands back is for the same artifact. -/
theorem Scan.conclude_output (h : scan.conclude moduleName g fs = (after, handed, report)) :
    handed.root = g.root ∧ handed.output = g.output := by
  rcases Scan.conclude_cases h with ⟨-, -, rfl, -⟩ | ⟨-, rfl, -⟩ | ⟨e, -, rfl, -⟩
  all_goals exact ⟨rfl, rfl⟩

/-- The guard that is handed back by a pass that does not fail remembers the document. -/
theorem Scan.conclude_last (h : scan.conclude moduleName g fs = (after, handed, report))
    (hDone : report.outcome.isFailure = false) : handed.last = some report.fingerprint := by
  rcases Scan.conclude_cases h with ⟨-, hLast, rfl, -⟩ | ⟨-, rfl, -⟩ | ⟨e, hFailed, -⟩
  · exact hLast
  · rfl
  · rw [hFailed] at hDone
    cases hDone

/-- The files are left as they were, or as they are when a document was to be written. -/
theorem Scan.conclude_files (h : scan.conclude moduleName g fs = (after, handed, report)) :
    after = fs ∨ after = (fs.writeDocument g.output (scan.rendering moduleName).document).1 := by
  rcases Scan.conclude_cases h with ⟨-, -, -, rfl⟩ | ⟨-, -, hWrite⟩ | ⟨e, -, -, hWrite⟩
  · exact Or.inl rfl
  · exact Or.inr (by rw [hWrite])
  · exact Or.inr (by rw [hWrite])

/-- The end of a pass keeps everything in a directory. -/
theorem Scan.conclude_hierarchical (hTree : fs.Hierarchical)
    (h : scan.conclude moduleName g fs = (after, handed, report)) : after.Hierarchical := by
  rcases Scan.conclude_files h with rfl | rfl
  · exact hTree
  · exact hTree.writeDocument _ _

/-- A pass that does not fail hands back a guard that remembers the document, and the document is
on disk, provided that the guard it was given could be trusted. -/
theorem Guard.Trusts.conclude (hTrusts : g.Trusts fs) (hTree : fs.Hierarchical)
    (h : scan.conclude moduleName g fs = (after, handed, report))
    (hDone : report.outcome.isFailure = false) :
    handed.last = some report.fingerprint ∧
      after.fingerprint? g.output = some report.fingerprint := by
  refine ⟨Scan.conclude_last h hDone, ?_⟩
  have hFingerprint := Scan.conclude_fingerprint h
  rcases Scan.conclude_cases h with ⟨-, hLast, rfl, rfl⟩ | ⟨-, rfl, hWrite⟩ | ⟨e, hFailed, -, -⟩
  · exact hTrusts _ hLast
  · rw [fingerprint?_writeDocument hTree hWrite, hFingerprint]
    rfl
  · rw [hFailed] at hDone
    cases hDone

/-- A guard that remembers nothing has the document written. -/
theorem Scan.conclude_of_writable {names : List String} (hTree : fs.IsTree)
    (hWritable : fs.Writable names) (hOutput : g.output = Route.toPath ⟨true, names⟩)
    (hLast : g.last = none) (scan : Scan) (moduleName : String) :
    ∃ report, report.outcome = .written ∧ scan.conclude moduleName g fs =
      (fs.set (Place.ofNames names) (.file (scan.rendering moduleName).document.toUTF8),
        g.record (scan.rendering moduleName).fingerprint, report) := by
  have hWrite := writeDocument_of_writable hTree hWritable (scan.rendering moduleName).document
  rw [← hOutput] at hWrite
  obtain ⟨⟨after, handed, report⟩, hConclude⟩ : ∃ ended, scan.conclude moduleName g fs = ended :=
    ⟨_, rfl⟩
  have hFingerprint := Scan.conclude_fingerprint hConclude
  -- nothing was written last, and the document can be written, so one outcome is left
  rcases Scan.conclude_cases hConclude with ⟨-, hSome, -, -⟩ | ⟨hDone, rfl, hDisk⟩ |
    ⟨e, -, -, hFailed⟩
  · rw [hLast] at hSome
    cases hSome
  · rw [hWrite] at hDisk
    cases hDisk
    exact ⟨report, hDone, by rw [hConclude, hFingerprint]⟩
  · rw [hWrite] at hFailed
    cases hFailed

/-- A pass that cannot write its document fails, and remembers what it did before. -/
theorem Scan.conclude_of_openable {names : List String} {cause : FileError} (hTree : fs.IsTree)
    (hOpenable : fs.Openable names) (hOutput : g.output = Route.toPath ⟨true, names⟩)
    (hLast : g.last ≠ some (scan.rendering moduleName).fingerprint)
    (hFail : fs.writeAt (Place.ofNames names) (scan.rendering moduleName).document.toUTF8 =
      (after, .error cause)) :
    ∃ report, report.outcome.isFailure = true ∧
      scan.conclude moduleName g fs = (after, g, report) := by
  have hWrite := writeDocument_of_openable hTree hOpenable (scan.rendering moduleName).document
  rw [← hOutput, hFail] at hWrite
  obtain ⟨⟨done, handed, report⟩, hConclude⟩ : ∃ ended, scan.conclude moduleName g fs = ended :=
    ⟨_, rfl⟩
  rcases Scan.conclude_cases hConclude with ⟨-, hSame, -, -⟩ | ⟨-, -, hDisk⟩ |
    ⟨e, hFailed, rfl, hDisk⟩
  · rw [Scan.conclude_fingerprint hConclude] at hSame
    exact absurd hSame hLast
  · rw [hWrite] at hDisk
    cases hDisk
  · rw [hWrite] at hDisk
    cases hDisk
    exact ⟨report, by rw [hFailed]; rfl, hConclude⟩

/-! ## Moves -/

namespace RunningPass

variable {s : Scanner} {pass moved : RunningPass} {move : PassMove}

theorem report?_eq_some {report : PassReport} :
    pass.report? = some report ↔ pass.stage = .ended report := by
  unfold report?
  cases pass.stage <;> simp

/-- Everything that a move of a pass can do. -/
inductive Moves (s : Scanner) (fs : FileSystem) (pass : RunningPass) :
    PassMove → FileSystem → RunningPass → Prop
  | walk (hStage : pass.stage = .starting) :
      Moves s fs pass .walk fs { pass with stage := .scanning { unread := s.candidates fs } }
  | read (path : Path) (progress : Progress) (hStage : pass.stage = .scanning progress)
      (hUnread : path ∈ progress.unread) :
      Moves s fs pass (.read path) fs { pass with stage := .scanning (progress.read fs path) }
  | parse (source : Source) (progress : Progress) (hStage : pass.stage = .scanning progress)
      (hRead : progress.unread = []) (hUnparsed : source ∈ progress.unparsed) :
      Moves s fs pass (.parse source) fs
        { pass with stage := .scanning (progress.parse s.config.markers source) }
  | commit (progress : Progress) (after : FileSystem) (handed : Guard) (report : PassReport)
      (hStage : pass.stage = .scanning progress) (hRead : progress.unread = [])
      (hParsed : progress.unparsed = [])
      (hConclude : progress.toScan.conclude s.config.moduleName pass.guard fs =
        (after, handed, report)) :
      Moves s fs pass .commit after ⟨handed, .ended report⟩

/-- A move does one of these things. -/
theorem Moves.of_step? (h : pass.step? s fs move = some (after, moved)) :
    Moves s fs pass move after moved := by
  -- a move that the stage does not allow gives nothing
  cases move with
  | walk =>
    simp only [step?] at h
    split at h
    · next hStage => cases h; exact .walk hStage
    · cases h
  | read path =>
    simp only [step?] at h
    split at h
    · next progress hStage =>
      split at h
      · next hUnread => cases h; exact .read path progress hStage hUnread
      · cases h
    · cases h
  | parse source =>
    simp only [step?] at h
    split at h
    · next progress hStage =>
      split at h
      · next hReady => cases h; exact .parse source progress hStage hReady.1 hReady.2
      · cases h
    · cases h
  | commit =>
    simp only [step?] at h
    split at h
    · next progress hStage =>
      split at h
      · next hReady => cases h; exact .commit progress _ _ _ hStage hReady.1 hReady.2 rfl
      · cases h
    · cases h

/-- A pass keeps to the artifact that it was started for. -/
theorem Moves.output (h : Moves s fs pass move after moved) :
    moved.guard.root = pass.guard.root ∧ moved.guard.output = pass.guard.output := by
  cases h with
  | walk | read | parse => exact ⟨rfl, rfl⟩
  | commit progress after handed report _ _ _ hConclude => exact Scan.conclude_output hConclude

/-- A move does not change the disk itself. -/
theorem Moves.disk (h : Moves s fs pass move after moved) : after.disk = fs.disk := by
  cases h with
  | walk | read | parse => rfl
  | commit progress after handed report _ _ _ hConclude =>
    rcases Scan.conclude_files hConclude with rfl | rfl
    · rfl
    · exact disk_writeDocument fs _ _

/-- Every move of a pass keeps everything in a directory. -/
theorem Moves.hierarchical (h : Moves s fs pass move after moved) (hTree : fs.Hierarchical) :
    after.Hierarchical := by
  cases h with
  | walk | read | parse => exact hTree
  | commit progress after handed report _ _ _ hConclude =>
    exact Scan.conclude_hierarchical hTree hConclude

end RunningPass

end KeyRegistry

import KeyRegistry.FileSystem

/-!
# Following a path

A look-up goes along the pieces of a path and ends at a place, or fails. Here the look-ups that
end somewhere are described by a relation with one case for each kind of piece, so that what a
look-up finds can be proved along its way. The main use is that a file can be read back where it
was written.

A file system is *hierarchical* if whatever it holds lies in a directory. All operations keep
that.

Main definitions:

* `FileSystem.Descends` — a look-up that ends at a place
* `FileSystem.Hierarchical` — whatever is there lies in a directory

Main statements:

* `FileSystem.descend_eq_ok_iff` — the relation describes the look-up
* `FileSystem.read_of_write` — what was written is read back
* `FileSystem.Hierarchical.createDirectories`, `FileSystem.Hierarchical.write`
-/

namespace KeyRegistry.FileSystem

variable {fs : FileSystem} {creating following : Bool} {links : Nat} {at_ place : Place}
  {pieces : List String}

/-- A piece that names an entry: it is no detour and not too long. -/
structure NamesEntry (piece : String) : Prop where
  notIdle : ¬ (piece = "" ∨ piece = ".")
  notUp   : piece ≠ ".."
  short   : ¬ piece.utf8ByteSize > nameLimit

instance : DecidablePred NamesEntry := fun piece =>
  decidable_of_iff
    (¬ (piece = "" ∨ piece = ".") ∧ piece ≠ ".." ∧ ¬ piece.utf8ByteSize > nameLimit)
    ⟨fun ⟨hIdle, hUp, hShort⟩ => ⟨hIdle, hUp, hShort⟩, fun h => ⟨h.notIdle, h.notUp, h.short⟩⟩

/-- A look-up that ends at a place. -/
inductive Descends (fs : FileSystem) (creating following : Bool) :
    Nat → Place → List String → Place → Prop
  | done {links : Nat} {at_ : Place} : Descends fs creating following links at_ [] at_
  | idle {links : Nat} {at_ place : Place} {piece : String} {rest : List String}
      (hDirectory : fs.at? at_ = some .directory) (hIdle : piece = "" ∨ piece = ".")
      (hRest : Descends fs creating following links at_ rest place) :
      Descends fs creating following links at_ (piece :: rest) place
  | up {links : Nat} {at_ place : Place} {rest : List String}
      (hDirectory : fs.at? at_ = some .directory)
      (hRest : Descends fs creating following links at_.dropLast rest place) :
      Descends fs creating following links at_ (".." :: rest) place
  /-- The last piece names nothing yet. -/
  | make {links : Nat} {at_ : Place} {piece : String} (hDirectory : fs.at? at_ = some .directory)
      (hName : NamesEntry piece) (hNone : fs.at? (at_ ++ [.text piece]) = none)
      (hCreating : creating = true) :
      Descends fs creating following links at_ [piece] (at_ ++ [.text piece])
  /-- The last piece names a link that is not followed. -/
  | keep {links : Nat} {at_ : Place} {piece target : String}
      (hDirectory : fs.at? at_ = some .directory) (hName : NamesEntry piece)
      (hLink : fs.at? (at_ ++ [.text piece]) = some (.link target))
      (hFollowing : following = false) :
      Descends fs creating following links at_ [piece] (at_ ++ [.text piece])
  | follow {links : Nat} {at_ place : Place} {piece target : String} {rest : List String}
      (hDirectory : fs.at? at_ = some .directory) (hName : NamesEntry piece)
      (hLink : fs.at? (at_ ++ [.text piece]) = some (.link target))
      (hFollowing : ¬ (rest.isEmpty && !following) = true) (hTarget : ¬ target.isEmpty = true)
      (hRest : Descends fs creating following links
        (if target.toList.head? = some '/' then [] else at_)
        (Text.piecesOf '/' target ++ rest) place) :
      Descends fs creating following (links + 1) at_ (piece :: rest) place
  | enter {links : Nat} {at_ place : Place} {piece : String} {rest : List String} {entry : Entry}
      (hDirectory : fs.at? at_ = some .directory) (hName : NamesEntry piece)
      (hEntry : fs.at? (at_ ++ [.text piece]) = some entry)
      (hNoLink : ∀ target, entry ≠ .link target)
      (hRest : Descends fs creating following links (at_ ++ [.text piece]) rest place) :
      Descends fs creating following links at_ (piece :: rest) place

/-- What a look-up does, the rules of descending allow. -/
theorem Descends.of_descend (h : fs.descend creating following links at_ pieces = .ok place) :
    Descends fs creating following links at_ pieces place := by
  -- the cases of `descend` in which it fails are contradictory, and each of the others is a
  -- constructor of the relation
  fun_induction descend fs creating following links at_ pieces with
  | case1 => cases h; exact .done
  | case2 links at_ piece rest hDirectory hIdle ih => exact .idle hDirectory hIdle (ih h)
  | case3 links at_ rest hDirectory hIdle ih => exact .up hDirectory (ih h)
  | case4 => cases h
  | case5 links at_ piece rest hDirectory hIdle hUp hShort place' hNone hNew =>
    rw [← Except.ok.inj h]
    simp only [Bool.and_eq_true, List.isEmpty_iff] at hNew
    obtain ⟨hCreating, rfl⟩ := hNew
    exact .make hDirectory ⟨hIdle, hUp, hShort⟩ hNone hCreating
  | case6 => cases h
  | case7 links at_ piece rest hDirectory hIdle hUp hShort place' target hLink hKept =>
    rw [← Except.ok.inj h]
    simp only [Bool.and_eq_true, List.isEmpty_iff, Bool.not_eq_true'] at hKept
    obtain ⟨rfl, hFollowing⟩ := hKept
    exact .keep hDirectory ⟨hIdle, hUp, hShort⟩ hLink hFollowing
  | case8 => cases h
  | case9 => cases h
  | case10 at_ piece rest hDirectory hIdle hUp hShort place' target hLink hFollowing links start
      hTarget ih =>
    exact .follow hDirectory ⟨hIdle, hUp, hShort⟩ hLink hFollowing hTarget (ih h)
  | case11 links at_ piece rest hDirectory hIdle hUp hShort place' entry hNoLink hEntry ih =>
    refine .enter hDirectory ⟨hIdle, hUp, hShort⟩ hEntry ?_ (ih h)
    intro target hLink
    exact hNoLink target hLink
  | case12 => cases h

/-- What the rules of descending allow, a look-up does. -/
theorem Descends.descend (h : Descends fs creating following links at_ pieces place) :
    fs.descend creating following links at_ pieces = .ok place := by
  -- one rule for each branch of the look-up, so that what a rule assumes is what its branch asks
  induction h with
  | done => rw [FileSystem.descend]
  | idle hDirectory hIdle _ ih => rw [FileSystem.descend, hDirectory]; simp [hIdle, ih]
  | up hDirectory _ ih => rw [FileSystem.descend, hDirectory]; simp [ih]
  | make hDirectory hName hNone hCreating =>
    rw [FileSystem.descend, hDirectory]
    simp [hName.notIdle, hName.notUp, hName.short, hNone, hCreating]
  | keep hDirectory hName hLink hFollowing =>
    rw [FileSystem.descend, hDirectory]
    simp [hName.notIdle, hName.notUp, hName.short, hLink, hFollowing]
  | follow hDirectory hName hLink hFollowing hTarget _ ih =>
    rw [FileSystem.descend, hDirectory]
    simp only [hName.notIdle, hName.notUp, hName.short, hLink, hFollowing, hTarget, if_false]
    exact ih
  | @enter links at_ place piece rest entry hDirectory hName hEntry hNoLink _ ih =>
    rw [FileSystem.descend, hDirectory]
    simp only [hName.notIdle, hName.notUp, hName.short, if_false]
    cases entry with
    | link target => exact absurd rfl (hNoLink target)
    | directory | file => simpa [hEntry] using ih

/-- The rules of descending say exactly where a look-up leads. -/
theorem descend_eq_ok_iff : fs.descend creating following links at_ pieces = .ok place ↔
    Descends fs creating following links at_ pieces place :=
  ⟨Descends.of_descend, Descends.descend⟩

/-! ## Whatever is there lies in a directory -/

/-- Whatever a place holds, its parent is a directory. -/
def Hierarchical (fs : FileSystem) : Prop :=
  ∀ place, (fs.at? place).isSome = true → fs.at? place.dropLast = some .directory

/-- A place that holds nothing, under a directory. -/
structure IsVacant (fs : FileSystem) (place : Place) : Prop where
  notTop    : place ≠ []
  vacant    : fs.at? place = none
  directory : fs.at? place.dropLast = some .directory

/-- Setting an entry in a directory keeps everything in a directory, if directories stay what they
are. -/
theorem Hierarchical.set {entry : Entry} (h : fs.Hierarchical) (hTop : place ≠ [])
    (hDirectory : fs.at? place.dropLast = some .directory)
    (hKind : entry = .directory ∨ fs.at? place ≠ some .directory) :
    (fs.set place entry).Hierarchical := by
  -- the parent of a place is another place, so it is still a directory
  have hNe : place.dropLast ≠ place := by
    intro hEq
    have := congrArg List.length hEq
    have := List.length_pos_iff.mpr hTop
    rw [List.length_dropLast] at *
    omega
  intro other hOther
  by_cases hSelf : other = place
  · rw [hSelf, at?_set_ne hNe]
    exact hDirectory
  · rw [at?_set_ne hSelf] at hOther
    have hAbove := h other hOther
    -- what lay in the place needs it to be a directory
    by_cases hParent : other.dropLast = place
    · rw [hParent, at?_set_self hTop]
      rw [hParent] at hAbove
      rcases hKind with hEntry | hOld
      · rw [hEntry]
      · exact absurd hAbove hOld
    · rw [at?_set_ne hParent]
      exact hAbove

/-- Places with different entries are different. -/
theorem ne_of_at? {entry : Entry} (h : fs.at? at_ = some entry)
    (hOther : fs.at? place ≠ some entry) :
    at_ ≠ place := by
  rintro rfl
  exact hOther h

/-- A place that is no directory is not the top. -/
theorem ne_top_of_at? (h : fs.at? place ≠ some .directory) : place ≠ [] := by
  rintro rfl
  exact h rfl

/-- Something has to be looked up in a directory. -/
theorem Descends.start (h : Descends fs creating following links at_ pieces place)
    (hPieces : pieces ≠ []) : fs.at? at_ = some .directory := by
  cases h with
  | done => exact absurd rfl hPieces
  | idle hDirectory | up hDirectory | make hDirectory | keep hDirectory | follow hDirectory
  | enter hDirectory => exact hDirectory

/-- What a place found by a look-up holds: something, which is no link if links are followed, or
else nothing under a directory. -/
theorem Descends.holds (h : Descends fs creating following links at_ pieces place)
    (hTree : fs.Hierarchical)
    (hStart : ∃ entry, fs.at? at_ = some entry ∧ ∀ target, entry ≠ .link target) :
    (∃ entry, fs.at? place = some entry ∧ (following = true → ∀ target, entry ≠ .link target)) ∨
      creating = true ∧ fs.IsVacant place := by
  -- the start is kept from being a link: that is what the end may be if nothing is left to go
  induction h with
  | done =>
    obtain ⟨entry, hEntry, hNoLink⟩ := hStart
    exact Or.inl ⟨entry, hEntry, fun _ => hNoLink⟩
  | idle _ _ _ ih => exact ih hStart
  | up hDirectory _ ih =>
    exact ih ⟨.directory, hTree _ (by rw [hDirectory]; rfl), by simp⟩
  | make hDirectory _ hNone hCreating =>
    exact Or.inr ⟨hCreating, by simp, hNone, by simpa using hDirectory⟩
  | keep _ _ hLink hFollowing =>
    exact Or.inl ⟨_, hLink, by simp [hFollowing]⟩
  -- a link leads on from the top or from the directory it lies in
  | follow hDirectory _ _ _ _ _ ih =>
    refine ih ⟨.directory, ?_, by simp⟩
    split
    · rfl
    · exact hDirectory
  | enter _ _ hEntry hNoLink _ ih => exact ih ⟨_, hEntry, hNoLink⟩

/-- After a file was put where a look-up ended, the look-up ends there again, and the file need not
be made. -/
theorem Descends.set_file {content : ByteArray}
    (h : Descends fs true true links at_ pieces place) (hTree : fs.Hierarchical)
    (hStart : ∃ entry, fs.at? at_ = some entry ∧ ∀ target, entry ≠ .link target)
    (hTop : place ≠ []) (hFree : fs.at? place ≠ some .directory)
    (hNoLink : ∀ target, fs.at? place ≠ some (.link target)) :
    Descends (fs.set place (.file content)) false true links at_ pieces place := by
  -- the place is no directory and no link, so nothing that the look-up passed on its way has
  -- changed
  induction h with
  | done => exact .done
  | idle hDirectory hIdle _ ih =>
    have hNe := ne_of_at? hDirectory hFree
    exact .idle (by rwa [at?_set_ne hNe]) hIdle (ih hStart hTop hFree hNoLink)
  | up hDirectory _ ih =>
    have hNe := ne_of_at? hDirectory hFree
    refine .up (by rwa [at?_set_ne hNe]) (ih ?_ hTop hFree hNoLink)
    exact ⟨.directory, hTree _ (by rw [hDirectory]; rfl), by simp⟩
  -- the file that had to be made is now there to be entered
  | make hDirectory hName hNone hCreating =>
    have hNe := ne_of_at? hDirectory hFree
    exact .enter (by rwa [at?_set_ne hNe]) hName (at?_set_self hTop) (by simp) .done
  | keep _ _ _ hFollowing => cases hFollowing
  | follow hDirectory hName hLink hFollowing hTarget _ ih =>
    have hNe := ne_of_at? hDirectory hFree
    have hOther := ne_of_at? hLink (hNoLink _)
    refine .follow (by rwa [at?_set_ne hNe]) hName (by rwa [at?_set_ne hOther]) hFollowing
      hTarget (ih ?_ hTop hFree hNoLink)
    refine ⟨.directory, ?_, by simp⟩
    split
    · rfl
    · exact hDirectory
  | @enter links at_ place piece rest entry hDirectory hName hEntry hLink _ ih =>
    have hNe := ne_of_at? hDirectory hFree
    have hRest := ih ⟨entry, hEntry, hLink⟩ hTop hFree hNoLink
    -- the entry at the end is the file, if it was there before
    by_cases hSelf : at_ ++ [.text piece] = place
    · have hEntry : (fs.set place (.file content)).at? (at_ ++ [.text piece]) =
          some (.file content) := by
        rw [hSelf, at?_set_self hTop]
      exact .enter (by rwa [at?_set_ne hNe]) hName hEntry (by simp) hRest
    · exact .enter (by rwa [at?_set_ne hNe]) hName (by rwa [at?_set_ne hSelf]) hLink hRest

/-! ## Reading what was written -/

variable {after : FileSystem} {p : Path} {content : ByteArray}

/-- The place where a look-up starts. -/
def startOf (fs : FileSystem) (p : Path) : Place :=
  if p.isAbsolute then [] else fs.current

theorem piecesOf_ne_nil (text : String) : Text.piecesOf '/' text ≠ [] := by
  simp [Text.piecesOf, Text.pieces_ne_nil]

/-- A path that is found is descended along its pieces from where it starts. -/
theorem descends_of_find (h : fs.find creating following p = .ok place) :
    Descends fs creating following linkLimit (fs.startOf p) (Text.piecesOf '/' p.text) place := by
  unfold find at h
  split at h
  · cases h
  · split at h
    · cases h
    · split at h
      · cases h
      · exact Descends.of_descend h

/-- Whether a path can be looked up at all depends on its text alone. -/
theorem find_of_descends {creating' following' : Bool} {place' : Place}
    (h : fs.find creating following p = .ok place)
    (hDescends : Descends after creating' following' linkLimit (after.startOf p)
      (Text.piecesOf '/' p.text) place') :
    after.find creating' following' p = .ok place' := by
  -- the text of the path is checked before any file is looked at
  unfold find at h ⊢
  split at h
  · cases h
  · next hZero =>
    rw [if_neg hZero]
    split at h
    · cases h
    · next hEmpty =>
      rw [if_neg hEmpty]
      split at h
      · cases h
      · next hLong =>
        rw [if_neg hLong]
        exact hDescends.descend

/-- A canonical path has to be short as well. -/
theorem canonicalize_eq_ok_iff :
    fs.canonicalize p = .ok place ↔ fs.locate p = .ok place ∧ Place.pathSize place < pathLimit := by
  unfold canonicalize
  cases fs.locate p with
  | error cause => simp [bind, Except.bind]
  | ok found =>
    simp only [bind, Except.bind, Except.ok.injEq]
    constructor
    · intro h
      split at h
      · cases h
      · next hShort =>
        cases h
        exact ⟨rfl, Nat.lt_of_not_le hShort⟩
    · rintro ⟨rfl, hShort⟩
      rw [if_neg (Nat.not_le.mpr hShort)]

/-- What is a directory is a directory where the path leads to. -/
theorem isDirectory_eq_true_iff : fs.isDirectory p = true ↔
    ∃ place, fs.locate p = .ok place ∧ fs.at? place = some .directory := by
  unfold isDirectory lookup
  cases fs.locate p with
  | error cause => simp [bind, Except.bind]
  | ok found =>
    simp only [bind, Except.bind, Except.ok.injEq, exists_eq_left']
    cases hEntry : fs.at? found with
    | none => simp
    | some entry => cases entry <;> simp

/-- What is read is what the file holds that the path leads to. -/
theorem read_eq_ok_iff_find : fs.read p = .ok content ↔
    ∃ place, fs.find false true p = .ok place ∧ fs.at? place = some (.file content) := by
  unfold read lookup locate
  cases fs.find false true p with
  | error cause => simp [bind, Except.bind]
  | ok found =>
    simp only [bind, Except.bind, Except.ok.injEq, exists_eq_left']
    cases hEntry : fs.at? found with
    | none => simp
    | some entry => cases entry <;> simp

/-- Where a look-up may end. -/
theorem find_holds (h : fs.find creating following p = .ok place) (hTree : fs.Hierarchical) :
    (∃ entry, fs.at? place = some entry ∧ (following = true → ∀ target, entry ≠ .link target)) ∨
      creating = true ∧ fs.IsVacant place := by
  have hDescends := descends_of_find h
  refine hDescends.holds hTree ⟨.directory, hDescends.start (piecesOf_ne_nil _), by simp⟩

/-- A write fails and changes nothing, or it comes to a place where no directory is. There the disk
takes all bytes, or it breaks the write off and takes the first of them. -/
theorem write_cases (fs : FileSystem) (p : Path) (content : ByteArray) :
    (∃ cause, fs.write p content = (fs, .error cause)) ∨
      ∃ place, fs.find true true p = .ok place ∧ fs.at? place ≠ some .directory ∧
        (fs.write p content = (fs.set place (.file content), .ok ()) ∨
          ∃ count cause, fs.disk.writing place content = .brokenOff count cause ∧
            fs.write p content =
              (fs.set place (.file (content.extract 0 count)), .error cause)) := by
  unfold write
  cases hFind : fs.find true true p with
  | error cause => exact Or.inl ⟨cause, rfl⟩
  | ok place =>
    dsimp only
    split
    · exact Or.inl ⟨_, rfl⟩
    · next hFree =>
      -- what is there may be overwritten, so the disk decides
      unfold writeAt
      cases hFate : fs.disk.writing place content with
      | done => exact Or.inr ⟨place, rfl, hFree, Or.inl rfl⟩
      | refused cause => exact Or.inl ⟨cause, rfl⟩
      | brokenOff count cause => exact Or.inr ⟨place, rfl, hFree, Or.inr ⟨count, cause, hFate, rfl⟩⟩

/-- Writing leaves everything as it was, or puts a file at the place that the path leads to, where
no directory is. -/
theorem write_files (fs : FileSystem) (p : Path) (content : ByteArray) :
    (fs.write p content).1 = fs ∨
      ∃ place bytes, fs.find true true p = .ok place ∧ fs.at? place ≠ some .directory ∧
        (fs.write p content).1 = fs.set place (.file bytes) := by
  rcases write_cases fs p content with
    ⟨cause, hFail⟩ | ⟨place, hFind, hFree, hDone | ⟨count, cause, -, hBroken⟩⟩
  · exact Or.inl (by rw [hFail])
  · exact Or.inr ⟨place, content, hFind, hFree, by rw [hDone]⟩
  · exact Or.inr ⟨place, _, hFind, hFree, by rw [hBroken]⟩

/-- A write that does not fail puts the bytes at the place that the path leads to. -/
theorem write_eq_ok (h : fs.write p content = (after, .ok ())) : ∃ place,
    fs.find true true p = .ok place ∧ fs.at? place ≠ some .directory ∧
      after = fs.set place (.file content) := by
  rcases write_cases fs p content with
    ⟨cause, hFail⟩ | ⟨place, hFind, hFree, hDone | ⟨count, cause, -, hBroken⟩⟩
  · rw [hFail] at h
    cases h
  · rw [hDone] at h
    cases h
    exact ⟨place, hFind, hFree, rfl⟩
  · rw [hBroken] at h
    cases h

/-- The parent of a place where a file can be written is a directory. -/
theorem directory_of_find (hFind : fs.find true following p = .ok place) (hTree : fs.Hierarchical) :
    fs.at? place.dropLast = some .directory := by
  rcases find_holds hFind hTree with ⟨entry, hEntry, -⟩ | ⟨-, hVacant⟩
  · exact hTree place (by rw [hEntry]; rfl)
  · exact hVacant.directory

/-- Where a path led to a file that could be written, the new bytes are read. -/
theorem read_set_file (hTree : fs.Hierarchical) (hFind : fs.find true true p = .ok place)
    (hFree : fs.at? place ≠ some .directory) (content : ByteArray) :
    (fs.set place (.file content)).read p = .ok content := by
  have hTop : place ≠ [] := ne_top_of_at? hFree
  have hNoLink : ∀ target, fs.at? place ≠ some (.link target) := by
    -- links are followed when a file is written, so no look-up ends at one
    intro target hLink
    rcases find_holds hFind hTree with ⟨entry, hEntry, hKind⟩ | ⟨-, hVacant⟩
    · rw [hLink] at hEntry
      exact hKind rfl target (Option.some.inj hEntry).symm
    · rw [hVacant.vacant] at hLink
      cases hLink
  have hDescends := descends_of_find hFind
  have hAgain : (fs.set place (.file content)).find false true p = .ok place := by
    refine find_of_descends hFind (hDescends.set_file hTree ?_ hTop hFree hNoLink)
    exact ⟨.directory, hDescends.start (piecesOf_ne_nil _), by simp⟩
  simp [read, lookup, locate, hAgain, at?_set_self hTop, bind, Except.bind]

/-- What was written is read back. -/
theorem read_of_write (hTree : fs.Hierarchical) (h : fs.write p content = (after, .ok ())) :
    after.read p = .ok content := by
  obtain ⟨place, hFind, hFree, rfl⟩ := write_eq_ok h
  exact read_set_file hTree hFind hFree content

/-- Whatever becomes of a write, everything still lies in a directory. -/
theorem Hierarchical.write (hTree : fs.Hierarchical) (p : Path) (content : ByteArray) :
    (fs.write p content).1.Hierarchical := by
  rcases write_files fs p content with hSame | ⟨place, bytes, hFind, hFree, hSet⟩
  · rw [hSame]
    exact hTree
  · rw [hSet]
    exact hTree.set (ne_top_of_at? hFree) (directory_of_find hFind hTree) (Or.inr hFree)

/-! ## Making directories -/

/-- A directory is made where nothing is yet. -/
theorem createDirectory_eq_ok (hTree : fs.Hierarchical) (h : fs.createDirectory p = .ok after) :
    ∃ place, fs.find true false p = .ok place ∧ fs.IsVacant place ∧
      after = fs.set place .directory := by
  unfold createDirectory at h
  cases hFind : fs.find true false p with
  | error cause => simp [hFind, bind, Except.bind] at h
  | ok place =>
    simp only [hFind, bind, Except.bind] at h
    split at h
    · cases h
    · next hNone =>
      split at h
      · cases h
      · refine ⟨place, rfl, ?_, ?_⟩
        -- nothing is there, so it is the vacant place that a look-up for creating may end at
        · rcases find_holds hFind hTree with ⟨entry, hEntry, -⟩ | ⟨-, hVacant⟩
          · rw [hNone] at hEntry
            cases hEntry
          · exact hVacant
        · cases h
          rfl

/-- Creating a directory keeps everything in a directory. -/
theorem Hierarchical.createDirectory (hTree : fs.Hierarchical)
    (h : fs.createDirectory p = .ok after) : after.Hierarchical := by
  obtain ⟨place, -, hVacant, rfl⟩ := createDirectory_eq_ok hTree h
  exact hTree.set hVacant.notTop hVacant.directory (Or.inl rfl)

/-- What each made directory keeps is kept when directories are made along a list. -/
theorem createAlong_induction {P : FileSystem → Prop} {paths : List Path}
    (hStep : ∀ {before after : FileSystem} {p : Path}, p ∈ paths → P before →
      before.createDirectory p = .ok after → P after)
    (hStart : P fs) : P (fs.createAlong paths).1 := by
  -- the list is gone through from the nearest path up, and back down to make what is missing
  fun_induction createAlong fs paths with
  | case1 => exact hStart
  | case2 => exact hStart
  | case3 p above _ after hMade => exact hStep List.mem_cons_self hStart hMade
  | case4 p above _ _ between e hAbove ih =>
    rw [hAbove] at ih
    exact ih fun hMem => hStep (List.mem_cons_of_mem _ hMem)
  | case5 p above _ _ between hAbove after hMade ih =>
    rw [hAbove] at ih
    exact hStep List.mem_cons_self (ih fun hMem => hStep (List.mem_cons_of_mem _ hMem)) hMade
  | case6 p above _ _ between hAbove e _ ih =>
    rw [hAbove] at ih
    exact ih fun hMem => hStep (List.mem_cons_of_mem _ hMem)
  | case7 => exact hStart

theorem Hierarchical.createDirectories (hTree : fs.Hierarchical) (p : Path) :
    (fs.createDirectories p).1.Hierarchical :=
  createAlong_induction (P := Hierarchical) (fun _ h hMade => h.createDirectory hMade) hTree

/-- Making directories changes nothing but the table. -/
theorem createDirectories_eq (fs : FileSystem) (p : Path) :
    (fs.createDirectories p).1 = { fs with entries := (fs.createDirectories p).1.entries } := by
  refine createAlong_induction (P := fun made => made = { fs with entries := made.entries }) ?_ rfl
  intro before after p _ hBefore hMade
  unfold createDirectory at hMade
  cases hFind : before.find true false p with
  | error cause => simp [hFind, bind, Except.bind] at hMade
  | ok place =>
    simp only [hFind, bind, Except.bind] at hMade
    split at hMade
    · cases hMade
    · split at hMade
      · cases hMade
      · cases hMade
        rw [set, hBefore]

end KeyRegistry.FileSystem

import KeyRegistry.Proofs.FileSystem.Descent
import KeyRegistry.Proofs.Path.Route

/-!
# Trees of files

A file system without links, in which everything lies in a directory, is a tree. In a tree the
written form of a route leads where its names lead, so what a look-up finds can be read off the
table.

Main definitions:

* `FileSystem.HasNames` — whatever has a text for its name has a proper one
* `FileSystem.IsTree` — everything lies in a directory, and nothing is a link
* `FileSystem.OnlyAt` — two file systems differ at one place, and in directories that were made
* `FileSystem.SameFilesBut` — two file systems hold the same files but at one place

Main statements:

* `FileSystem.find_eq_ok_iff`, `FileSystem.read_eq_ok_iff` — look-ups in a tree
* `FileSystem.IsTree.write`, `FileSystem.IsTree.createDirectories` — what stays a tree
-/

namespace KeyRegistry

open KeyRegistry.Path

/-- The place that a route from the top leads to. -/
def Place.ofNames (names : List String) : Place :=
  names.map .text

theorem Place.names?_cons_text {place : Place} {text : String} :
    names? (.text text :: place) = (names? place).map (text :: ·) := by
  rw [names?, List.mapM_cons, Option.map_eq_bind]
  rfl

theorem Place.names?_cons_bytes {place : Place} {bytes : List UInt8} :
    names? (.bytes bytes :: place) = none := by
  rw [names?, List.mapM_cons]
  rfl

/-- A place has names exactly if it is a place of text. -/
theorem Place.names?_eq_some {place : Place} {names : List String} :
    Place.names? place = some names ↔ place = Place.ofNames names := by
  -- a name that is no text has no counterpart among the names
  induction place generalizing names with
  | nil => cases names <;> simp [names?, ofNames]
  | cons name place ih =>
    cases name with
    | bytes bytes =>
      rw [names?_cons_bytes]
      cases names <;> simp [ofNames]
    | text text =>
      rw [names?_cons_text]
      cases names with
      | nil => simp [ofNames]
      | cons other names =>
        simp only [Option.map_eq_some_iff, ih, List.cons.injEq]
        constructor
        · rintro ⟨_, rfl, rfl, rfl⟩
          rfl
        · intro hEq
          simp only [ofNames, List.map_cons, List.cons.injEq, FileName.text.injEq] at hEq
          exact ⟨names, hEq.2, hEq.1, rfl⟩

/-- The path of a place whose names are text leads straight to it. -/
theorem Place.path?_ofNames {names : List String} :
    Place.path? (Place.ofNames names) = some (Route.toPath ⟨true, names⟩) := by
  rw [Place.path?, Place.names?_eq_some.mpr rfl]
  rfl

/-- Names one after another are places one below another. -/
theorem Place.ofNames_append {first second : List String} :
    Place.ofNames (first ++ second) = Place.ofNames first ++ Place.ofNames second :=
  List.map_append

/-- Different names lead to different places. -/
theorem Place.ofNames_inj {first second : List String} :
    Place.ofNames first = Place.ofNames second ↔ first = second :=
  List.map_inj_right fun _ _ hEq => FileName.text.inj hEq

/-- The path of a place is as long as its names and the slashes in front of them. -/
theorem Place.utf8ByteSize_toPath {names : List String} (hSome : names ≠ []) :
    (Route.toPath ⟨true, names⟩).text.utf8ByteSize = Place.pathSize (Place.ofNames names) := by
  have hSlash : "/".utf8ByteSize = 1 := rfl
  induction names with
  | nil => exact absurd rfl hSome
  | cons name names ih =>
    rw [ofNames, List.map_cons, pathSize, FileName.size, Nat.add_comm name.utf8ByteSize]
    -- the last name ends the path, and any other is followed by the path of the rest
    by_cases hLast : names = []
    · have hText : (Route.toPath ⟨true, [name]⟩).text = "/" ++ name := by
        simp [Route.toPath, Text.joinAll, Text.join]
      rw [hLast, hText, String.utf8ByteSize_append, hSlash]
      rfl
    · have hText : (Route.toPath ⟨true, name :: names⟩).text =
          "/" ++ name ++ (Route.toPath ⟨true, names⟩).text := by
        rw [Route.toPath, Route.toPath, Text.joinAll_cons hLast]
        simp [String.append_assoc]
      rw [hText, String.utf8ByteSize_append, String.utf8ByteSize_append, ih hLast, hSlash, ofNames]

/-- A path of names can be looked up in full if it is short enough for its place. -/
theorem Place.toPath_short_iff {names : List String} :
    (Route.toPath ⟨true, names⟩).text.utf8ByteSize < FileSystem.pathLimit ↔
      Place.pathSize (Place.ofNames names) < FileSystem.pathLimit := by
  by_cases hSome : names = []
  · rw [hSome]
    decide
  · rw [utf8ByteSize_toPath hSome]

namespace FileSystem

variable {fs before middle after : FileSystem} {creating following : Bool} {links : Nat}
  {at_ place other : Place} {pieces names : List String} {p : Path} {content : ByteArray}

/-! ## Names -/

/-- Whatever has a text for its name has a proper one. -/
structure HasNames (fs : FileSystem) : Prop where
  entries : ∀ item ∈ fs.entries, ∀ text, FileName.text text ∈ item.1 → IsName text
  current : ∀ text, FileName.text text ∈ fs.current → IsName text

/-- A look-up along pieces without slashes passes proper names only. -/
theorem Descends.hasNames (h : Descends fs creating following links at_ pieces place)
    (hStart : ∀ text, FileName.text text ∈ at_ → IsName text)
    (hPieces : ∀ piece ∈ pieces, '/' ∉ piece.toList) :
    ∀ text, FileName.text text ∈ place → IsName text := by
  -- the pieces that do not name an entry are the idle ones and the steps up
  have hEnter : ∀ {at_ : Place} {piece : String}, NamesEntry piece → '/' ∉ piece.toList →
      (∀ text, FileName.text text ∈ at_ → IsName text) →
      ∀ text, FileName.text text ∈ at_ ++ [.text piece] → IsName text := by
    intro at_ piece hName hSlash hAbove text hMem
    rcases List.mem_append.mp hMem with hMem | hMem
    · exact hAbove text hMem
    · rw [FileName.text.inj (List.mem_singleton.mp hMem)]
      exact ⟨hName.notIdle, hName.notUp, hSlash⟩
  induction h with
  | done => exact hStart
  | idle _ _ _ ih => exact ih hStart fun piece hMem => hPieces piece (List.mem_cons_of_mem _ hMem)
  | up _ _ ih =>
    refine ih (fun text hMem => hStart text (List.dropLast_subset _ hMem)) ?_
    exact fun piece hMem => hPieces piece (List.mem_cons_of_mem _ hMem)
  | make _ hName => exact hEnter hName (hPieces _ List.mem_cons_self) hStart
  | keep _ hName => exact hEnter hName (hPieces _ List.mem_cons_self) hStart
  -- the pieces of a link have no slash in them either
  | follow _ _ _ _ _ _ ih =>
    refine ih ?_ ?_
    · split
      · intro text hMem
        cases hMem
      · exact hStart
    · intro piece hMem
      rcases List.mem_append.mp hMem with hMem | hMem
      · exact not_mem_of_mem_piecesOf hMem
      · exact hPieces piece (List.mem_cons_of_mem _ hMem)
  | enter _ hName _ _ _ ih =>
    refine ih (hEnter hName (hPieces _ List.mem_cons_self) hStart) ?_
    exact fun piece hMem => hPieces piece (List.mem_cons_of_mem _ hMem)

/-- A look-up ends at a place with proper names. -/
theorem HasNames.locate (hNames : fs.HasNames) (h : fs.locate p = .ok place) :
    ∀ text, FileName.text text ∈ place → IsName text := by
  refine (descends_of_find h).hasNames ?_ fun piece hMem => not_mem_of_mem_piecesOf hMem
  unfold startOf
  split
  · intro text hMem
    cases hMem
  · exact hNames.current

/-! ## Trees -/

/-- Everything lies in a directory, nothing is a link, texts are proper names, and a place holds
whatever the table lists for it. -/
structure IsTree (fs : FileSystem) : Prop where
  listed  : ∀ item ∈ fs.entries, fs.at? item.1 = some item.2
  inside  : fs.Hierarchical
  noLinks : ∀ place target, fs.at? place ≠ some (.link target)
  names   : fs.HasNames

/-- A tree does not depend on what the disk can take. -/
theorem IsTree.withDisk (hTree : fs.IsTree) (disk : Disk) : { fs with disk }.IsTree :=
  ⟨hTree.listed, hTree.inside, hTree.noLinks, ⟨hTree.names.entries, hTree.names.current⟩⟩

/-- What lies above something is a directory. -/
theorem Hierarchical.above (hTree : fs.Hierarchical) {more : Place}
    (h : (fs.at? (place ++ more)).isSome = true) (hMore : more ≠ []) :
    fs.at? place = some .directory := by
  -- from the place downwards: the next name is there, or the induction hypothesis says what it is
  induction more generalizing place with
  | nil => exact absurd rfl hMore
  | cons name more ih =>
    have hNext : (fs.at? (place ++ [name])).isSome = true := by
      by_cases hLast : more = []
      · rw [hLast] at h
        exact h
      · have hAssoc : place ++ name :: more = (place ++ [name]) ++ more := by simp
        rw [hAssoc] at h
        rw [ih h hLast]
        rfl
    have hAbove := hTree _ hNext
    rwa [List.dropLast_concat] at hAbove

/-- A look-up can end here: something is here, or can be made here. -/
def CanEnd (fs : FileSystem) (creating : Bool) (place : Place) : Prop :=
  (fs.at? place).isSome = true ∨ creating = true ∧ fs.IsVacant place

/-- What lies above a place where a look-up can end is a directory. -/
theorem CanEnd.above {more : Place} (hTree : fs.Hierarchical)
    (h : fs.CanEnd creating (place ++ more)) (hMore : more ≠ []) :
    fs.at? place = some .directory := by
  rcases h with hSome | ⟨-, hVacant⟩
  · exact hTree.above hSome hMore
  · have hDirectory := hVacant.directory
    rw [List.dropLast_append_of_ne_nil hMore] at hDirectory
    by_cases hLast : more.dropLast = []
    · rwa [hLast, List.append_nil] at hDirectory
    · exact hTree.above (by rw [hDirectory]; rfl) hLast

/-- A look-up along names, to what is no link. -/
theorem Descends.along (hInside : fs.Hierarchical) (hNames : ∀ name ∈ names, NamesEntry name)
    (hNoLink : ∀ target, fs.at? (at_ ++ Place.ofNames names) ≠ some (.link target))
    (h : fs.CanEnd creating (at_ ++ Place.ofNames names)) :
    Descends fs creating following links at_ names (at_ ++ Place.ofNames names) := by
  -- the place that has been reached moves along with the names
  induction names generalizing at_ with
  | nil =>
    rw [Place.ofNames, List.map_nil, List.append_nil]
    exact .done
  | cons name names ih =>
    have hHead := hNames name List.mem_cons_self
    have hTail := fun other hMem => hNames other (List.mem_cons_of_mem _ hMem)
    have hDirectory : fs.at? at_ = some .directory := h.above hInside (by simp [Place.ofNames])
    have hAssoc : at_ ++ Place.ofNames (name :: names) =
        (at_ ++ [.text name]) ++ Place.ofNames names := by simp [Place.ofNames]
    rw [hAssoc] at h hNoLink ⊢
    -- what lies on the way is a directory
    have hOnWay : names ≠ [] → fs.at? (at_ ++ [.text name]) = some .directory := fun hMore =>
      h.above hInside (by simpa [Place.ofNames] using hMore)
    cases hEntry : fs.at? (at_ ++ [.text name]) with
    | some entry =>
      refine .enter hDirectory hHead hEntry ?_ (ih hTail hNoLink h)
      rintro target rfl
      by_cases hLast : names = []
      · rw [hLast, Place.ofNames, List.map_nil, List.append_nil] at hNoLink
        exact hNoLink target hEntry
      · rw [hOnWay hLast] at hEntry
        cases hEntry
    | none =>
      have hLast : names = [] := Decidable.byContradiction fun hMore => by
        rw [hOnWay hMore] at hEntry
        cases hEntry
      subst hLast
      rw [Place.ofNames, List.map_nil, List.append_nil] at h ⊢
      rcases h with hSome | ⟨hCreating, -⟩
      · rw [hEntry] at hSome
        cases hSome
      · exact .make hDirectory hHead hEntry hCreating

/-- Along names, without links, a look-up goes straight on. -/
theorem Descends.straight (h : Descends fs creating following links at_ pieces place)
    (hLinks : ∀ place target, fs.at? place ≠ some (.link target))
    (hPieces : ∀ piece ∈ pieces, IsName piece) :
    place = at_ ++ Place.ofNames pieces ∧ ∀ piece ∈ pieces, NamesEntry piece := by
  -- with names only and no links, all that a look-up can do is enter a directory or make one
  induction h with
  | done => exact ⟨by simp [Place.ofNames], fun piece hMem => by cases hMem⟩
  | idle _ hIdle => exact absurd hIdle (hPieces _ List.mem_cons_self).notIdle
  | up => exact absurd rfl (hPieces _ List.mem_cons_self).notUp
  | make _ hName =>
    refine ⟨rfl, fun piece hMem => ?_⟩
    rwa [List.mem_singleton.mp hMem]
  | keep _ _ hLink => exact absurd hLink (hLinks _ _)
  | follow _ _ hLink => exact absurd hLink (hLinks _ _)
  | enter _ hName _ _ _ ih =>
    obtain ⟨hPlace, hRest⟩ := ih fun piece hMem => hPieces piece (List.mem_cons_of_mem _ hMem)
    refine ⟨by rw [hPlace]; simp [Place.ofNames], fun piece hMem => ?_⟩
    rcases List.mem_cons.mp hMem with rfl | hMem
    · exact hName
    · exact hRest piece hMem

/-- The system takes a route: neither its names nor the whole of it are too long, and it holds no
zero byte. -/
structure Fits (names : List String) : Prop where
  noZero : ¬ (Route.toPath ⟨true, names⟩).text.toList.contains '\x00' = true
  short  : ¬ (Route.toPath ⟨true, names⟩).text.utf8ByteSize ≥ pathLimit
  entries : ∀ name ∈ names, NamesEntry name

instance : DecidablePred Fits := fun names =>
  decidable_of_iff (¬ (Route.toPath ⟨true, names⟩).text.toList.contains '\x00' = true ∧
      ¬ (Route.toPath ⟨true, names⟩).text.utf8ByteSize ≥ pathLimit ∧
        ∀ name ∈ names, NamesEntry name)
    ⟨fun ⟨hZero, hShort, hEntries⟩ => ⟨hZero, hShort, hEntries⟩,
      fun h => ⟨h.noZero, h.short, h.entries⟩⟩

/-- A look-up along a written route goes along its names: the empty piece in front is idle. -/
theorem descends_toPath_iff (hNames : ∀ name ∈ names, IsName name) :
    Descends fs creating following links [] (Text.piecesOf '/' (Route.toPath ⟨true, names⟩).text)
        place ↔ Descends fs creating following links [] names place := by
  rw [Route.piecesOf_toPath_rooted]
  have hTop : fs.at? [] = some .directory := rfl
  -- the slash in front leaves an empty piece, which is idle at the top
  have hIdle :
      ∀ {pieces : List String}, Descends fs creating following links [] ("" :: pieces) place ↔
      Descends fs creating following links [] pieces place := by
    intro pieces
    have hStep : fs.descend creating following links [] ("" :: pieces) =
        fs.descend creating following links [] pieces := by
      rw [descend, hTop]
      simp
    rw [← descend_eq_ok_iff, ← descend_eq_ok_iff, hStep]
  rw [hIdle]
  by_cases hSome : names = []
  · rw [hSome]
    exact hIdle
  · rw [Route.piecesOf_joinAll_names hNames hSome]

/-- Where a look-up in a tree leads. -/
theorem find_eq_ok_iff (hTree : fs.IsTree) (hNames : ∀ name ∈ names, IsName name) :
    fs.find creating following (Route.toPath ⟨true, names⟩) = .ok place ↔
      Fits names ∧ place = Place.ofNames names ∧ fs.CanEnd creating place := by
  constructor
  · intro h
    have hDescends := descends_of_find h
    rw [startOf, if_pos Route.isAbsolute_toPath_rooted, descends_toPath_iff hNames] at hDescends
    obtain ⟨hPlace, hEntries⟩ := hDescends.straight hTree.noLinks hNames
    have hEnd : fs.CanEnd creating place := by
      rcases find_holds h hTree.inside with ⟨entry, hEntry, -⟩ | hVacant
      · exact Or.inl (by rw [hEntry]; rfl)
      · exact Or.inr hVacant
    -- the checks of the whole path are the other half of what it takes to fit
    unfold find at h
    split at h
    · cases h
    · next hZero =>
      split at h
      · cases h
      · split at h
        · cases h
        · next hShort => exact ⟨⟨hZero, hShort, hEntries⟩, hPlace, hEnd⟩
  · rintro ⟨hFits, rfl, hEnd⟩
    have hSome : (Route.toPath ⟨true, names⟩).text.isEmpty = false := by simp [Route.toPath]
    have hDescends : Descends fs creating following linkLimit []
        (Text.piecesOf '/' (Route.toPath ⟨true, names⟩).text) (Place.ofNames names) :=
      (descends_toPath_iff hNames).mpr
        (Descends.along hTree.inside hFits.entries (hTree.noLinks _) hEnd)
    rw [find, if_neg hFits.noZero, if_neg (by simp [hSome]), if_neg hFits.short,
      if_pos Route.isAbsolute_toPath_rooted]
    exact hDescends.descend

/-- What is looked up in a tree. -/
theorem lookup_eq_ok_iff {entry : Entry} (hTree : fs.IsTree)
    (hNames : ∀ name ∈ names, IsName name) :
    fs.lookup (Route.toPath ⟨true, names⟩) = .ok entry ↔
      Fits names ∧ fs.at? (Place.ofNames names) = some entry := by
  unfold lookup locate
  cases hFind : fs.find false true (Route.toPath ⟨true, names⟩) with
  -- a look-up that finds no place finds no entry there either
  | error cause =>
    constructor
    · intro h
      cases h
    · rintro ⟨hFits, hEntry⟩
      have hFound : fs.find false true (Route.toPath ⟨true, names⟩) = .ok (Place.ofNames names) :=
        (find_eq_ok_iff hTree hNames).mpr ⟨hFits, rfl, Or.inl (by rw [hEntry]; rfl)⟩
      rw [hFind] at hFound
      cases hFound
  | ok place =>
    obtain ⟨hFits, rfl, -⟩ := (find_eq_ok_iff hTree hNames).mp hFind
    simp only [bind, Except.bind]
    cases fs.at? (Place.ofNames names) with
    | none => simp
    | some other => simp [hFits]

/-- What is read in a tree. -/
theorem read_eq_ok_iff (hTree : fs.IsTree) (hNames : ∀ name ∈ names, IsName name) :
    fs.read (Route.toPath ⟨true, names⟩) = .ok content ↔
      Fits names ∧ fs.at? (Place.ofNames names) = some (.file content) := by
  rw [← lookup_eq_ok_iff hTree hNames]
  unfold read
  cases hFound : fs.lookup (Route.toPath ⟨true, names⟩) with
  | error cause => simp [bind, Except.bind]
  | ok entry => cases entry <;> simp [bind, Except.bind]

/-- What counts as a directory in a tree. -/
theorem isDirectory_iff (hTree : fs.IsTree) (hNames : ∀ name ∈ names, IsName name) :
    fs.isDirectory (Route.toPath ⟨true, names⟩) = true ↔
      Fits names ∧ fs.at? (Place.ofNames names) = some .directory := by
  rw [← lookup_eq_ok_iff hTree hNames]
  unfold isDirectory
  split
  · next hFound => simp [hFound]
  · next hOther => simpa using hOther

/-- Where nothing stands there is no directory. -/
theorem isDirectory_of_none (hTree : fs.IsTree) (hNames : ∀ name ∈ names, IsName name)
    (hNothing : fs.at? (Place.ofNames names) = none) :
    fs.isDirectory (Route.toPath ⟨true, names⟩) = false := by
  rw [Bool.eq_false_iff, ne_eq, isDirectory_iff hTree hNames, hNothing]
  rintro ⟨-, hDirectory⟩
  cases hDirectory

/-! ## What stays a tree -/

/-- Setting an entry keeps a tree one: its parent has to be a directory, directories stay what they
are and no links come in. -/
theorem IsTree.set {entry : Entry} (hTree : fs.IsTree) (hTop : place ≠ [])
    (hDirectory : fs.at? place.dropLast = some .directory)
    (hKind : entry = .directory ∨ fs.at? place ≠ some .directory)
    (hNoLink : ∀ target, entry ≠ .link target)
    (hNames : ∀ text, FileName.text text ∈ place → IsName text) : (fs.set place entry).IsTree where
  listed := by
    intro item hMem
    rcases List.mem_cons.mp hMem with rfl | hMem
    · exact at?_set_self hTop
    · obtain ⟨hOld, hNe⟩ := List.mem_filter.mp hMem
      rw [at?_set_ne (by simpa using hNe)]
      exact hTree.listed item hOld
  inside := hTree.inside.set hTop hDirectory hKind
  noLinks := by
    intro other target hLink
    -- only the new entry could be a link
    by_cases hSelf : other = place
    · rw [hSelf, at?_set_self hTop] at hLink
      exact hNoLink target (Option.some.inj hLink)
    · rw [at?_set_ne hSelf] at hLink
      exact hTree.noLinks other target hLink
  names := by
    refine ⟨?_, hTree.names.current⟩
    intro item hMem
    rcases List.mem_cons.mp hMem with rfl | hMem
    · exact hNames
    · exact hTree.names.entries item (List.mem_filter.mp hMem).1

/-- The second file system differs from the first at one place, and in directories that were made
where nothing was. Where paths start and where the user keeps settings is the same; the disk may
have filled up or been cleared. -/
structure OnlyAt (place : Place) (before after : FileSystem) : Prop where
  elsewhere : ∀ other, other ≠ place →
    after.at? other = before.at? other ∨
      before.at? other = none ∧ after.at? other = some .directory
  current   : after.current = before.current
  user      : after.user = before.user

theorem OnlyAt.refl (place : Place) (fs : FileSystem) : OnlyAt place fs fs :=
  ⟨fun _ _ => Or.inl rfl, rfl, rfl⟩

/-- Two changes at a place are one. -/
theorem OnlyAt.trans (h : OnlyAt place before middle) (k : OnlyAt place middle after) :
    OnlyAt place before after := by
  refine ⟨fun other hNe => ?_, k.current.trans h.current, k.user.trans h.user⟩
  rcases h.elsewhere other hNe with hSame | ⟨hNone, hMade⟩
  · rw [← hSame]
    exact k.elsewhere other hNe
  · rcases k.elsewhere other hNe with hSame | ⟨hMissing, -⟩
    · exact Or.inr ⟨hNone, hSame.trans hMade⟩
    · -- the second step makes nothing where the first one made a directory
      rw [hMade] at hMissing
      cases hMissing

/-- Making directories neither makes nor changes files. -/
theorem OnlyAt.file_iff (h : OnlyAt place before after) (hNe : other ≠ place) :
    after.at? other = some (.file content) ↔ before.at? other = some (.file content) := by
  rcases h.elsewhere other hNe with hSame | ⟨hNone, hMade⟩
  · rw [hSame]
  · rw [hNone, hMade]
    simp

/-- Setting an entry changes its place alone. -/
theorem OnlyAt.set {entry : Entry} : OnlyAt place fs (fs.set place entry) :=
  ⟨fun _ hNe => Or.inl (at?_set_ne hNe), rfl, rfl⟩

/-- The names of a place of proper names are proper. -/
theorem isName_ofNames (hNames : ∀ name ∈ names, IsName name) :
    ∀ text, FileName.text text ∈ Place.ofNames names → IsName text := by
  intro text hMem
  obtain ⟨name, hName, hEq⟩ := List.mem_map.mp hMem
  rw [← FileName.text.inj hEq]
  exact hNames name hName

/-- Whatever becomes of a write, it touches its file alone. -/
theorem IsTree.write (hTree : fs.IsTree) (hNames : ∀ name ∈ names, IsName name)
    (content : ByteArray) : (fs.write (Route.toPath ⟨true, names⟩) content).1.IsTree ∧
      OnlyAt (Place.ofNames names) fs (fs.write (Route.toPath ⟨true, names⟩) content).1 := by
  rcases write_files fs (Route.toPath ⟨true, names⟩) content with
    hSame | ⟨place, bytes, hFind, hFree, hSet⟩
  · rw [hSame]
    exact ⟨hTree, .refl _ fs⟩
  · have hDirectory := directory_of_find hFind hTree.inside
    obtain ⟨-, rfl, -⟩ := (find_eq_ok_iff hTree hNames).mp hFind
    rw [hSet]
    exact ⟨hTree.set (ne_top_of_at? hFree) hDirectory (Or.inr hFree) (by simp)
      (isName_ofNames hNames), .set⟩

/-- Creating a directory keeps a tree one and changes no file. -/
theorem IsTree.createDirectory (hTree : fs.IsTree) (hNames : ∀ name ∈ names, IsName name)
    (h : fs.createDirectory (Route.toPath ⟨true, names⟩) = .ok after) :
    after.IsTree ∧ ∀ place, OnlyAt place fs after := by
  obtain ⟨made, hFind, hVacant, rfl⟩ := createDirectory_eq_ok hTree.inside h
  obtain ⟨-, rfl, -⟩ := (find_eq_ok_iff hTree hNames).mp hFind
  refine ⟨hTree.set hVacant.notTop hVacant.directory (Or.inl rfl) (by simp)
    (isName_ofNames hNames), fun place => ⟨fun other _ => ?_, rfl, rfl⟩⟩
  -- the directory itself was made where nothing was
  by_cases hSelf : other = Place.ofNames names
  · rw [hSelf, at?_set_self hVacant.notTop]
    exact Or.inr ⟨hVacant.vacant, rfl⟩
  · exact Or.inl (at?_set_ne hSelf)

/-- Creating directories along a route keeps a tree one and changes no file. -/
theorem IsTree.createDirectories (hTree : fs.IsTree) (hNames : ∀ name ∈ names, IsName name) :
    (fs.createDirectories (Route.toPath ⟨true, names⟩)).1.IsTree ∧
      ∀ place, OnlyAt place fs (fs.createDirectories (Route.toPath ⟨true, names⟩)).1 := by
  refine createAlong_induction (P := fun made => made.IsTree ∧ ∀ place, OnlyAt place fs made) ?_
    ⟨hTree, fun place => .refl place fs⟩
  rintro before after p hMem ⟨hBefore, hOnly⟩ hMade
  -- the directories that are made lie on the way, so their names are proper as well
  rw [Route.lineage_toPath hNames] at hMem
  obtain ⟨depth, -, rfl⟩ := List.mem_map.mp hMem
  obtain ⟨hAfter, hNew⟩ :=
    hBefore.createDirectory (fun name hMem => hNames name (List.mem_of_mem_take hMem)) hMade
  exact ⟨hAfter, fun place => (hOnly place).trans (hNew place)⟩

/-! ## Files but for one place -/

/-- Two file systems hold the same files, but for one place; paths start from the same place, and
the user keeps settings in the same places. -/
structure SameFilesBut (place : Place) (before after : FileSystem) : Prop where
  files   : ∀ other, other ≠ place → ∀ content,
    after.at? other = some (.file content) ↔ before.at? other = some (.file content)
  current : after.current = before.current
  user    : after.user = before.user

/-- A change at one place leaves the files at all other places. -/
theorem OnlyAt.sameFilesBut (h : OnlyAt place before after) : SameFilesBut place before after :=
  ⟨fun _ hNe _ => h.file_iff hNe, h.current, h.user⟩

theorem SameFilesBut.refl (place : Place) (fs : FileSystem) : SameFilesBut place fs fs :=
  ⟨fun _ _ _ => Iff.rfl, rfl, rfl⟩

theorem SameFilesBut.symm (h : SameFilesBut place before after) : SameFilesBut place after before :=
  ⟨fun other hNe content => (h.files other hNe content).symm, h.current.symm, h.user.symm⟩

/-- A result is there exactly if nothing failed. -/
theorem toOption_eq_some_iff {ε α : Type} {result : Except ε α} {value : α} :
    result.toOption = some value ↔ result = .ok value := by
  cases result <;> simp [Except.toOption]

/-- What is read from a file depends on the file. -/
theorem read_congr (hBefore : before.IsTree) (hAfter : after.IsTree)
    (hNames : ∀ name ∈ names, IsName name)
    (hSame : ∀ content, after.at? (Place.ofNames names) = some (.file content) ↔
      before.at? (Place.ofNames names) = some (.file content)) (content : ByteArray) :
    after.read (Route.toPath ⟨true, names⟩) = .ok content ↔
      before.read (Route.toPath ⟨true, names⟩) = .ok content := by
  rw [read_eq_ok_iff hBefore hNames, read_eq_ok_iff hAfter hNames, hSame]

/-- Two trees with the same file at a place are read alike there. -/
theorem toOption_read_congr (hBefore : before.IsTree) (hAfter : after.IsTree)
    (hNames : ∀ name ∈ names, IsName name)
    (hSame : ∀ content, after.at? (Place.ofNames names) = some (.file content) ↔
      before.at? (Place.ofNames names) = some (.file content)) :
    (after.read (Route.toPath ⟨true, names⟩)).toOption =
      (before.read (Route.toPath ⟨true, names⟩)).toOption := by
  apply Option.ext
  intro content
  rw [toOption_eq_some_iff, toOption_eq_some_iff, read_congr hBefore hAfter hNames hSame]

/-! ## Paths without a step up -/

/-- The place that a path leads to if no step of it goes up and no link is on the way. -/
def plainPlace (fs : FileSystem) (p : Path) : Place :=
  fs.startOf p ++
    Place.ofNames ((Text.piecesOf '/' p.text).filter fun piece => piece ≠ "" ∧ piece ≠ ".")

/-- Where a look-up without a step up ends. -/
theorem Descends.plain (h : Descends fs false true links at_ pieces place) (hTree : fs.IsTree)
    (hUp : ".." ∉ pieces) : place = at_ ++
      Place.ofNames (pieces.filter fun piece => piece ≠ "" ∧ piece ≠ ".") := by
  have hRest : ∀ {piece : String} {rest : List String}, ".." ∉ piece :: rest → ".." ∉ rest :=
    fun hNot hMem => hNot (List.mem_cons_of_mem _ hMem)
  -- without links, steps up and creating, a look-up passes idle pieces by and enters the others
  induction h with
  | done => simp [Place.ofNames]
  | idle _ hIdle _ ih =>
    rw [ih (hRest hUp), List.filter_cons_of_neg]
    rcases hIdle with rfl | rfl <;> simp
  | up => exact absurd List.mem_cons_self hUp
  | make _ _ _ hCreating => cases hCreating
  | keep _ _ _ hFollowing => cases hFollowing
  | follow _ _ hLink => exact absurd hLink (hTree.noLinks _ _)
  | enter _ hName _ _ _ ih =>
    have hNotIdle := not_or.mp hName.notIdle
    rw [ih (hRest hUp), List.filter_cons_of_pos (by simpa using hNotIdle)]
    simp [Place.ofNames]

/-- A look-up without a step up that ends at a file ends there in every tree that has the file. -/
theorem Descends.plain_congr (h : Descends before false true links at_ pieces place)
    (hBefore : before.IsTree) (hAfter : after.IsTree) (hUp : ".." ∉ pieces)
    (hFile : before.at? place = some (.file content))
    (hSame : after.at? place = some (.file content)) :
    Descends after false true links at_ pieces place := by
  -- what the look-up passes lies above the file, so it is a directory in the other tree as well
  have hAbove : ∀ {at_ : Place} {pieces : List String},
      Descends before false true links at_ pieces place → ".." ∉ pieces →
      before.at? at_ = some .directory → after.at? at_ = some .directory := by
    intro at_ pieces hRest hStraight hDirectory
    have hPlace := hRest.plain hBefore hStraight
    have hThere := congrArg Option.isSome hSame
    rw [hPlace] at hThere
    refine hAfter.inside.above hThere fun hNone => ?_
    rw [hNone, List.append_nil] at hPlace
    rw [hPlace, hDirectory] at hFile
    cases hFile
  have hLater : ∀ {piece : String} {rest : List String}, ".." ∉ piece :: rest → ".." ∉ rest :=
    fun hNot hMem => hNot (List.mem_cons_of_mem _ hMem)
  induction h with
  | done => exact .done
  | idle hDirectory hIdle hRest ih =>
    exact .idle (hAbove hRest (hLater hUp) hDirectory) hIdle
      (ih (hLater hUp) hFile hSame hAbove)
  | up => exact absurd List.mem_cons_self hUp
  | make _ _ _ hCreating => cases hCreating
  | keep _ _ _ hFollowing => cases hFollowing
  | follow _ _ hLink => exact absurd hLink (hBefore.noLinks _ _)
  | @enter links at_ place piece rest entry hDirectory hName hEntry hNoLink hRest ih =>
    have hDescends : Descends before false true links at_ (piece :: rest) place :=
      .enter hDirectory hName hEntry hNoLink hRest
    have hNext := ih (hLater hUp) hFile hSame hAbove
    -- what the piece names is there in the other tree: it is the file or lies above it
    have hThere : (after.at? (at_ ++ [.text piece])).isSome = true := by
      by_cases hMore : rest = []
      · subst hMore
        cases hRest with
        | done => rw [hSame]; rfl
      · rw [hNext.start hMore]
        rfl
    obtain ⟨other, hOther⟩ := Option.isSome_iff_exists.mp hThere
    refine .enter (hAbove hDescends hUp hDirectory) hName hOther ?_ hNext
    rintro target rfl
    exact hAfter.noLinks _ _ hOther

/-- What is read through a path without a step up depends on the file that it leads to. -/
theorem toOption_read_plain {other : Place} (hBefore : before.IsTree) (hAfter : after.IsTree)
    (hSame : SameFilesBut other before after) (hUp : ".." ∉ Text.piecesOf '/' p.text)
    (hOther : before.plainPlace p ≠ other) :
    (after.read p).toOption = (before.read p).toOption := by
  -- one half of the statement, to be used both ways round
  have hOne : ∀ {before after : FileSystem} {content : ByteArray}, before.IsTree → after.IsTree →
      SameFilesBut other before after → before.plainPlace p ≠ other →
      before.read p = .ok content → after.read p = .ok content := by
    intro before after content hBefore hAfter hSame hOther hRead
    obtain ⟨place, hFind, hFile⟩ := read_eq_ok_iff_find.mp hRead
    have hDescends := descends_of_find hFind
    have hPlace : place = before.plainPlace p := hDescends.plain hBefore hUp
    have hKept := (hSame.files place (hPlace ▸ hOther) content).mpr hFile
    refine read_eq_ok_iff_find.mpr ⟨place, find_of_descends hFind ?_, hKept⟩
    have hStart : after.startOf p = before.startOf p := by
      rw [startOf, startOf, hSame.current]
    rw [hStart]
    exact hDescends.plain_congr hBefore hAfter hUp hFile hKept
  have hBack : after.plainPlace p ≠ other := by
    rwa [plainPlace, startOf, hSame.current]
  apply Option.ext
  intro content
  rw [toOption_eq_some_iff, toOption_eq_some_iff]
  exact ⟨hOne hAfter hBefore hSame.symm hBack, hOne hBefore hAfter hSame hOther⟩

/-! ## Writing where there is a directory -/

/-- Nothing is created along the route of a directory that is there. -/
theorem createDirectories_of_directory (hTree : fs.IsTree) (hNames : ∀ name ∈ names, IsName name)
    (hFits : Fits names) (hDirectory : fs.at? (Place.ofNames names) = some .directory) :
    fs.createDirectories (Route.toPath ⟨true, names⟩) = (fs, .ok ()) := by
  have hFind : fs.find true false (Route.toPath ⟨true, names⟩) = .ok (Place.ofNames names) :=
    (find_eq_ok_iff hTree hNames).mpr ⟨hFits, rfl, Or.inl (by rw [hDirectory]; rfl)⟩
  -- a directory that is there cannot be made, and that is no error if it is one
  have hExists : fs.createDirectory (Route.toPath ⟨true, names⟩) = .error .exists := by
    unfold FileSystem.createDirectory
    simp [hFind, hDirectory, bind, Except.bind]
  have hThere := (isDirectory_iff hTree hNames).mpr ⟨hFits, hDirectory⟩
  have hSome : (Route.toPath ⟨true, names⟩).text.isEmpty = false := by simp [Route.toPath]
  rw [FileSystem.createDirectories, Route.lineage_toPath hNames, List.range_succ,
    List.reverse_append, List.reverse_singleton, List.singleton_append, List.map_cons,
    List.take_length, createAlong, hSome, hExists, hThere]
  rfl

/-- A write that breaks off leaves what was written so far, and the failure is reported. -/
theorem writeAt_of_brokenOff {count : Nat} {cause : FileError} (fs : FileSystem)
    (hFate : fs.disk.writing place content = .brokenOff count cause) : fs.writeAt place content =
      (fs.set place (.file (content.extract 0 count)), .error cause) := by
  rw [writeAt, hFate]

/-- Where there is a directory for a file and none in its place, the disk decides. -/
theorem write_of_free (hTree : fs.IsTree) (hNames : ∀ name ∈ names, IsName name)
    (hFits : Fits names) (hTop : names ≠ [])
    (hDirectory : fs.at? (Place.ofNames names.dropLast) = some .directory)
    (hFree : fs.at? (Place.ofNames names) ≠ some .directory) :
    fs.write (Route.toPath ⟨true, names⟩) content = fs.writeAt (Place.ofNames names) content := by
  have hEnd : fs.CanEnd true (Place.ofNames names) := by
    cases hEntry : fs.at? (Place.ofNames names) with
    | some entry => exact Or.inl (by rw [hEntry]; rfl)
    | none =>
      refine Or.inr ⟨rfl, by simpa [Place.ofNames] using hTop, hEntry, ?_⟩
      rwa [Place.ofNames, ← List.map_dropLast]
  have hFind : fs.find true true (Route.toPath ⟨true, names⟩) = .ok (Place.ofNames names) :=
    (find_eq_ok_iff hTree hNames).mpr ⟨hFits, rfl, hEnd⟩
  simp only [FileSystem.write, hFind]

/-! ## Checking a tree -/

/-- Whether a name is proper, if it is a text. -/
def isProper : FileName → Bool
  | .text text => decide (IsName text)
  | .bytes _ => true

/-- Whether an entry is a link. -/
def isLink : Entry → Bool
  | .link _ => true
  | _ => false

/-- Whether a table of entries makes a tree. -/
def isTree (fs : FileSystem) : Bool :=
  fs.entries.all (fun item =>
    fs.at? item.1 == some item.2 && fs.at? item.1.dropLast == some .directory &&
      !isLink item.2 && item.1.all isProper) &&
    fs.current.all isProper

/-- What is looked up in a table is listed in it. -/
theorem mem_of_lookup {entries : List (Place × Entry)} {entry : Entry}
    (h : entries.lookup place = some entry) : (place, entry) ∈ entries := by
  induction entries with
  | nil => cases h
  | cons item entries ih =>
    obtain ⟨key, value⟩ := item
    rw [List.lookup_cons] at h
    cases hKey : place == key with
    | true =>
      rw [hKey] at h
      rw [beq_iff_eq.mp hKey, ← Option.some.inj h]
      exact List.mem_cons_self
    | false =>
      rw [hKey] at h
      exact List.mem_cons_of_mem _ (ih h)

/-- The check for trees accepts trees only. -/
theorem isTree_sound (h : fs.isTree = true) : fs.IsTree := by
  simp only [isTree, Bool.and_eq_true, List.all_eq_true, beq_iff_eq, Bool.not_eq_true'] at h
  obtain ⟨hEntries, hCurrent⟩ := h
  have hProper : ∀ name : FileName, isProper name = true →
      ∀ text, name = .text text → IsName text := by
    rintro _ hName text rfl
    exact of_decide_eq_true hName
  have hMem :
      ∀ place entry, place ≠ [] → fs.at? place = some entry → (place, entry) ∈ fs.entries := by
    intro place entry hTop hEntry
    rw [at?, if_neg hTop] at hEntry
    exact mem_of_lookup hEntry
  refine ⟨fun item hItem => (hEntries item hItem).1.1.1, ?_, ?_, ?_, ?_⟩
  · intro place hSome
    -- the top is not listed, and it is its own parent
    by_cases hTop : place = []
    · rw [hTop]
      rfl
    · obtain ⟨entry, hEntry⟩ := Option.isSome_iff_exists.mp hSome
      exact (hEntries _ (hMem place entry hTop hEntry)).1.1.2
  · intro place target hLink
    have hTop : place ≠ [] := ne_top_of_at? (by rw [hLink]; simp)
    have hNoLink := (hEntries _ (hMem place _ hTop hLink)).1.2
    cases hNoLink
  · intro item hItem text hText
    exact hProper _ ((hEntries item hItem).2 _ hText) text rfl
  · intro text hText
    exact hProper _ (hCurrent _ hText) text rfl

end FileSystem

end KeyRegistry

import KeyRegistry.Path
import KeyRegistry.Text.Utf8

/-!
# A file system as a value

A file system is a finite table from places to entries. A place is the list of names that leads
to it from the top directory; an entry is a directory, a file with its bytes, or a symbolic link.
Paths are looked up as the operating system does: component by component, following links, with
every component but the last naming a directory.

Reading leaves the value as it is; writing returns a new one. An operation that fails says why,
and may have made some of the directories it was asked for.

Nothing is assumed of the disk: a directory or a file may be refused, and a write may break off in
the middle, when the old bytes of the file are gone already. What becomes of each write is part of
the value. A file is a table entry, so what went into it can be read back; devices, which keep
nothing, are no files.

Main definitions:

* `FileSystem.locate`, `FileSystem.canonicalize` — the place that a path leads to
* `FileSystem.read`, `FileSystem.isFile`, `FileSystem.isDirectory`
* `WriteFate` — what becomes of the bytes for a file
* `FileSystem.createDirectories`, `FileSystem.write`, `FileSystem.remove`

Main statements:

* `at?_set_self`, `at?_set_ne` — an update changes one place
-/

namespace KeyRegistry

/-- The name of a directory entry: a text, or bytes that are no text. -/
inductive FileName where
  | text (name : String)
  | bytes (name : List UInt8)
  deriving DecidableEq, Repr

/-- A place: the names that lead to it from the top directory. -/
abbrev Place := List FileName

/-- The names on the way to a place, if all of them are texts. -/
def Place.names? (place : Place) : Option (List String) :=
  place.mapM fun
    | .text name => some name
    | .bytes _ => none

/-- The path of a place, if all names on the way are texts. -/
def Place.path? (place : Place) : Option Path :=
  (Place.names? place).map fun names => Route.toPath ⟨true, names⟩

/-- The path of a place for a message, with marks for what is no text. -/
def Place.shown (place : Place) : Path :=
  Route.toPath ⟨true, place.map fun
    | .text name => name
    | .bytes name => Text.decodeLossy ⟨name.toArray⟩⟩

/-- The length of a name, in bytes. -/
def FileName.size : FileName → Nat
  | .text name => name.utf8ByteSize
  | .bytes name => name.length

/-- The length of the path of a place, in bytes: each name has a slash in front. -/
def Place.pathSize : Place → Nat
  | [] => 0
  | name :: place => name.size + 1 + pathSize place

/-- Contents are compared byte by byte. -/
instance decidableEqContent : DecidableEq ByteArray :=
  fun a b => decidable_of_iff (a.data = b.data) ByteArray.ext_iff.symm

/-- What a place holds. -/
inductive Entry where
  | directory
  | file (content : ByteArray)
  | link (target : String)
  deriving DecidableEq

/-- Why an operation on files fails. -/
inductive FileError where
  | notFound
  | exists
  | notDirectory
  | isDirectory
  | tooLong
  | tooManyLinks
  | notText
  | zeroByte
  | nothingToCreate
  | other (message : String)
  deriving DecidableEq, Repr

/-- The system's words for a failure. -/
def FileError.message : FileError → String
  | .notFound => "No such file or directory (os error 2)"
  | .exists => "File exists (os error 17)"
  | .notDirectory => "Not a directory (os error 20)"
  | .isDirectory => "Is a directory (os error 21)"
  | .tooLong => "File name too long (os error 36)"
  | .tooManyLinks => "Too many levels of symbolic links (os error 40)"
  | .notText => "stream did not contain valid UTF-8"
  | .zeroByte => "file name contained an unexpected NUL byte"
  | .nothingToCreate => "failed to create whole tree"
  | .other message => message

/-- What becomes of the bytes for a file. The file is emptied before they go in, so a write that
breaks off leaves the first of them and nothing of what was there. -/
inductive WriteFate where
  /-- All of them go in. -/
  | done
  /-- The file is not opened, and stays as it was. -/
  | refused (cause : FileError)
  /-- The file is emptied, and only so many of the bytes go in. -/
  | brokenOff (count : Nat) (cause : FileError)
  deriving DecidableEq, Repr

/-- What the disk makes of changes. One with room and without locks lets all of them happen. -/
structure Disk where
  /-- What becomes of bytes for the file at a place. -/
  writing : Place → ByteArray → WriteFate := fun _ _ => .done
  /-- Why no directory is made at a place, if none is. -/
  making : Place → Option FileError := fun _ => none

/-- Where the user keeps settings, as the environment has it. -/
structure UserDirectories where
  home? : Option Path := none
  /-- The directory for configurations, if it is not the usual one. -/
  config? : Option Path := none
  deriving DecidableEq

/-- A finite table of entries, the directory that relative paths start from, where the user keeps
settings, and what the disk makes of changes. The top directory is always there and is not
listed. -/
structure FileSystem where
  entries : List (Place × Entry) := []
  current : Place := []
  user : UserDirectories := {}
  disk : Disk := {}

namespace FileSystem

/-! ## Places -/

/-- What a place holds, if anything. -/
def at? (fs : FileSystem) (place : Place) : Option Entry :=
  if place = [] then some .directory else fs.entries.lookup place

/-- Puts an entry at a place, in place of what was there. -/
def set (fs : FileSystem) (place : Place) (entry : Entry) : FileSystem :=
  { fs with entries := (place, entry) :: fs.entries.filter (·.1 ≠ place) }

/-- Takes a place away, with everything below it. -/
def erase (fs : FileSystem) (place : Place) : FileSystem :=
  { fs with entries := fs.entries.filter fun item => !place.isPrefixOf item.1 }

/-! ## Looking up paths -/

/-- The longest name of an entry, in bytes. -/
def nameLimit : Nat := 255

/-- The bound for the length of a path, in bytes. -/
def pathLimit : Nat := 4096

/-- How many links are followed in one look-up. -/
def linkLimit : Nat := 40

/-- Follows pieces of a path from a place. Each piece needs a directory to be looked up in. The
last piece may be missing if `creating`, and is not followed if it is a link unless
`following`. -/
def descend (fs : FileSystem) (creating following : Bool) (links : Nat) (at_ : Place) :
    List String → Except FileError Place
  | [] => .ok at_
  | piece :: rest =>
    match fs.at? at_ with
    | some .directory =>
      if piece = "" ∨ piece = "." then descend fs creating following links at_ rest
      -- above the top is the top
      else if piece = ".." then descend fs creating following links at_.dropLast rest
      else if piece.utf8ByteSize > nameLimit then .error .tooLong
      else
        let place := at_ ++ [.text piece]
        match fs.at? place with
        | none => if creating && rest.isEmpty then .ok place else .error .notFound
        | some (.link target) =>
          if rest.isEmpty && !following then .ok place
          else match links with
            | 0 => .error .tooManyLinks
            | links + 1 =>
              -- a relative target counts from where the link stands
              let start := if target.toList.head? = some '/' then [] else at_
              if target.isEmpty then .error .notFound
              else descend fs creating following links start (Text.piecesOf '/' target ++ rest)
        | some _ => descend fs creating following links place rest
    | _ => .error .notDirectory
termination_by pieces => (links, pieces.length)

/-- The place that a path leads to. -/
def find (fs : FileSystem) (creating following : Bool) (p : Path) : Except FileError Place :=
  -- the text is checked before anything is looked up
  if p.text.toList.contains '\x00' then .error .zeroByte
  else if p.text.isEmpty then .error .notFound
  else if p.text.utf8ByteSize ≥ pathLimit then .error .tooLong
  else
    descend fs creating following linkLimit (if p.isAbsolute then [] else fs.current)
      (Text.piecesOf '/' p.text)

/-- The place of what a path names, all links followed. -/
def locate (fs : FileSystem) (p : Path) : Except FileError Place :=
  fs.find false true p

/-- The place of what a path names, all links followed, unless the path that leads straight to it is
too long. -/
def canonicalize (fs : FileSystem) (p : Path) : Except FileError Place := do
  let place ← fs.locate p
  if Place.pathSize place ≥ pathLimit then .error .tooLong else .ok place

/-- What a path names, all links followed. -/
def lookup (fs : FileSystem) (p : Path) : Except FileError Entry := do
  match fs.at? (← fs.locate p) with
  | some entry => .ok entry
  | none => .error .notFound

/-- Whether a path names something. -/
def contains (fs : FileSystem) (p : Path) : Bool :=
  (fs.lookup p).toOption.isSome

/-- Whether a path names a file. -/
def isFile (fs : FileSystem) (p : Path) : Bool :=
  match fs.lookup p with
  | .ok (.file _) => true
  | _ => false

/-- Whether a path names a directory. -/
def isDirectory (fs : FileSystem) (p : Path) : Bool :=
  match fs.lookup p with
  | .ok .directory => true
  | _ => false

/-- The bytes of the file that a path names. -/
def read (fs : FileSystem) (p : Path) : Except FileError ByteArray := do
  match ← fs.lookup p with
  | .file content => .ok content
  | .directory => .error .isDirectory
  | .link _ => .error .notFound

/-- The text of the file that a path names; it has to be UTF-8. -/
def readText (fs : FileSystem) (p : Path) : Except FileError String := do
  match String.fromUTF8? (← fs.read p) with
  | some text => .ok text
  | none => .error .notText

/-! ## Changing files -/

/-- Makes one directory, whose parent has to be there. -/
def createDirectory (fs : FileSystem) (p : Path) : Except FileError FileSystem := do
  let place ← fs.find true false p
  match fs.at? place with
  | some _ => .error .exists
  | none =>
    match fs.disk.making place with
    | some cause => .error cause
    | none => .ok (fs.set place .directory)

/-- Makes the first directory of a list, making the next ones when they are needed for it. What
was made before a failure stays. -/
def createAlong (fs : FileSystem) : List Path → FileSystem × Except FileError Unit
  | [] => (fs, .error .nothingToCreate)
  | p :: above =>
    -- the way up has come to the current directory, which is there
    if p.text.isEmpty then (fs, .ok ())
    else match fs.createDirectory p with
      | .ok fs => (fs, .ok ())
      | .error .notFound =>
        match createAlong fs above with
        | (fs, .error e) => (fs, .error e)
        | (fs, .ok ()) =>
          match fs.createDirectory p with
          | .ok fs => (fs, .ok ())
          -- a directory that is there already is as good as a new one
          | .error e => (fs, if fs.isDirectory p then .ok () else .error e)
      | .error e => (fs, if fs.isDirectory p then .ok () else .error e)

/-- Makes a directory and all directories above it that are missing. -/
def createDirectories (fs : FileSystem) (p : Path) : FileSystem × Except FileError Unit :=
  fs.createAlong p.lineage

/-- Gives the file at a place new bytes, as far as the disk takes them. -/
def writeAt (fs : FileSystem) (place : Place) (content : ByteArray) :
    FileSystem × Except FileError Unit :=
  match fs.disk.writing place content with
  | .done => (fs.set place (.file content), .ok ())
  | .refused cause => (fs, .error cause)
  | .brokenOff count cause => (fs.set place (.file (content.extract 0 count)), .error cause)

/-- Gives a file new bytes; the file is made if its directory is there. -/
def write (fs : FileSystem) (p : Path) (content : ByteArray) : FileSystem × Except FileError Unit :=
  -- a link at the end is followed, so that its target is written
  match fs.find true true p with
  | .error cause => (fs, .error cause)
  | .ok place =>
    match fs.at? place with
    | some .directory => (fs, .error .isDirectory)
    | _ => fs.writeAt place content

/-- Makes a symbolic link where nothing is yet. -/
def link (fs : FileSystem) (p : Path) (target : String) : Except FileError FileSystem := do
  let place ← fs.find true false p
  match fs.at? place with
  | some _ => .error .exists
  | none => .ok (fs.set place (.link target))

/-- Puts an entry at a place, with directories on the way there where nothing is yet. -/
def install (fs : FileSystem) (start : Place) : List FileName → Entry → FileSystem
  | [], _ => fs
  | [name], entry => fs.set (start ++ [name]) entry
  | name :: names, entry =>
    let place := start ++ [name]
    let fs := if (fs.at? place).isSome then fs else fs.set place .directory
    fs.install place names entry

/-- Takes away what a path names, a directory with its content; a link itself is taken away. -/
def remove (fs : FileSystem) (p : Path) : FileSystem :=
  match fs.find false false p with
  | .ok place => if place = [] then fs else fs.erase place
  | .error _ => fs

/-! ## Laws of places -/

theorem at?_set_self {fs : FileSystem} {place : Place} {entry : Entry} (h : place ≠ []) :
    (fs.set place entry).at? place = some entry := by
  simp [at?, set, h]

theorem lookup_filter_ne {place other : Place} (entries : List (Place × Entry))
    (h : other ≠ place) :
    (entries.filter (·.1 ≠ place)).lookup other = entries.lookup other := by
  induction entries with
  | nil => rfl
  | cons item rest ih =>
    obtain ⟨key, entry⟩ := item
    by_cases hk : key = place
    · subst hk
      have : (other == key) = false := by simpa using h
      simpa [List.lookup_cons, this] using ih
    · by_cases ho : other = key
      · subst ho
        simp [hk]
      · have : (other == key) = false := by simpa using ho
        simpa [List.lookup_cons, hk, this] using ih

theorem at?_set_ne {fs : FileSystem} {place other : Place} {entry : Entry}
    (h : other ≠ place) : (fs.set place entry).at? other = fs.at? other := by
  by_cases ho : other = []
  · simp [at?, ho]
  · have : (other == place) = false := by simpa using h
    simpa [at?, set, ho, List.lookup_cons, this] using lookup_filter_ne fs.entries h

end FileSystem

end KeyRegistry

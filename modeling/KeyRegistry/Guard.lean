import KeyRegistry.Document
import KeyRegistry.FileSystem

/-!
# The guard of the artifact

Whoever writes the artifact sees its own writes as changes. The guard remembers the fingerprint
of the last write, so that a document that is on disk already is not written again and a change
that only echoes a write is recognised. The file system decides: an echo is an event for the
artifact while its content still has the remembered fingerprint.

Main definitions:

* `Guard.isOutput`, `Guard.isEcho`, `Guard.checkEcho` — judging events
* `Guard.commit` — writing a document unless it is the last one written
-/

namespace KeyRegistry

/-- What is known about one artifact: where it is and the fingerprint of the last write. -/
structure Guard where
  root : Path
  output : Path
  last : Option Fingerprint := none
  deriving DecidableEq

/-- Why a document could not be written. -/
inductive WriteError where
  | createDirectory (path : Path) (cause : FileError)
  | write (path : Path) (cause : FileError)
  deriving DecidableEq

namespace WriteError

/-- The words for an error. -/
def message : WriteError → String
  | .createDirectory path cause =>
    "failed to create output directory " ++ path.text ++ ": " ++ cause.message
  | .write path cause => "failed to write " ++ path.text ++ ": " ++ cause.message

/-- The path that an error is about. -/
def path : WriteError → Path
  | .createDirectory path _ | .write path _ => path

end WriteError

/-- The fingerprint of the file that a path names. -/
def FileSystem.fingerprint? (fs : FileSystem) (path : Path) : Option Fingerprint :=
  (fs.read path).toOption.map Fingerprint.ofBytes

/-- Makes the directories above a path that are missing. -/
def FileSystem.createParent (fs : FileSystem) (path : Path) :
    FileSystem × Except WriteError Unit :=
  match path.parent? with
  | none => (fs, .ok ())
  | some parent =>
    -- a lone name belongs into the current directory, which is there
    if parent.text.isEmpty then (fs, .ok ())
    else match fs.createDirectories parent with
      | (fs, .ok ()) => (fs, .ok ())
      | (fs, .error cause) => (fs, .error (.createDirectory parent cause))

/-- Writes a document and makes the directories above it that are missing. -/
def FileSystem.writeDocument (fs : FileSystem) (path : Path) (document : String) :
    FileSystem × Except WriteError Unit :=
  match fs.createParent path with
  | (fs, .error e) => (fs, .error e)
  | (fs, .ok ()) =>
    match fs.write path document.toUTF8 with
    | (fs, .ok ()) => (fs, .ok ())
    | (fs, .error cause) => (fs, .error (.write path cause))

namespace Guard

/-- A guard that remembers no write. A relative output is counted from the root. -/
def new (root output : Path) : Guard where
  root := root
  output := (Path.absolutize root output).toPath

/-- Whether a document with this fingerprint is to be written. -/
def shouldWrite (g : Guard) (f : Fingerprint) : Bool :=
  g.last != some f

/-- Remembers a write. -/
def record (g : Guard) (f : Fingerprint) : Guard :=
  { g with last := some f }

/-- Forgets the last write. -/
def invalidate (g : Guard) : Guard :=
  { g with last := none }

/-- Whether a path, seen from the root, is the artifact. -/
def isOutput (g : Guard) (path : Path) : Bool :=
  (Path.absolutize g.root path).toPath.same g.output

/-- Whether a change of a path echoes the last write, given the fingerprint that the artifact
has now. -/
def isEcho (g : Guard) (path : Path) (current : Option Fingerprint) : Bool :=
  -- an artifact that is gone echoes nothing, not even when nothing was written
  g.isOutput path && current.isSome && current == g.last

/-- Whether a change of a path echoes the last write. -/
def checkEcho (g : Guard) (fs : FileSystem) (path : Path) : Bool :=
  -- the artifact is looked at only if there is a write that it could echo
  g.isOutput path && g.last.isSome && g.isEcho path (fs.fingerprint? g.output)

/-- Takes what is on disk for the last write. -/
def seed (g : Guard) (fs : FileSystem) : Guard :=
  { g with last := fs.fingerprint? g.output }

/-- What a commit did. -/
inductive Outcome where
  | written
  | skipped
  deriving DecidableEq

/-- Writes a rendering unless it was written last. A failure leaves the guard as it was, so that
the next commit tries again. -/
def commit (g : Guard) (fs : FileSystem) (r : Rendering) :
    FileSystem × Guard × Except WriteError Outcome :=
  if g.shouldWrite r.fingerprint then
    match fs.writeDocument g.output r.document with
    | (fs, .ok ()) => (fs, g.record r.fingerprint, .ok .written)
    | (fs, .error e) => (fs, g, .error e)
  else (fs, g, .ok .skipped)

end Guard

end KeyRegistry

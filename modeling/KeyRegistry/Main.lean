import KeyRegistry.CommandLine.Execution

/-!
# The program

The outer layer: it reads the command line, the environment and the files, lets the library say
what to do, and writes the files that changed. A watch looks at the files again and again, since
nothing tells of their changes.
-/

namespace KeyRegistry.Main

/-! ## Reading the files -/

/-- The deepest nesting of directories that is read. -/
def depthLimit : Nat := 1024

/-- Adds what stands at one path: a file with its bytes, or a directory. What cannot be read is
left out. -/
def addItem (fs : FileSystem) (path : Path) : IO FileSystem := do
  try
    let place ← IO.FS.realPath path.text
    if ← place.isDir then
      return (fs.createDirectory path).toOption.getD fs
    else
      let bytes ← IO.FS.readBinFile path.text
      return (fs.write path bytes).1
  catch _ => return fs

/-- Adds what stands at a path and at the paths above it. -/
def addEntry (fs : FileSystem) (path : Path) : IO FileSystem := do
  let mut fs := fs
  for above in path.lineage.reverse do
    fs ← addItem fs above
  return fs

/-- Adds everything below a directory; links are not followed. -/
def addTree (fs : FileSystem) (directory : Path) : Nat → IO FileSystem
  | 0 => return fs
  | depth + 1 => do
    let mut fs := (fs.createDirectories directory).1
    try
      let place ← IO.FS.realPath directory.text
      for item in ← place.readDir do
        let path := directory.join ⟨item.fileName⟩
        match (← item.path.symlinkMetadata).type with
        | .dir => fs ← addTree fs path depth
        | .file => fs ← addItem fs path
        | _ => pure ()
    catch _ => pure ()
    return fs

/-- Adds the ignore files of the directories above a path. -/
def addIgnoreFiles (fs : FileSystem) (path : Path) : IO FileSystem := do
  let mut fs := fs
  for directory in path.lineage do
    for file in Walk.ruleFiles do
      fs ← addEntry fs (directory.join ⟨Text.joinAll '/' file⟩)
  return fs

/-- Where the user keeps settings. -/
def userDirectories : IO UserDirectories := do
  let home? := (← IO.getEnv "HOME").map Path.mk
  let config? := (← IO.getEnv "XDG_CONFIG_HOME").map Path.mk
  return { home?, config? }

/-- Adds the files that the rules of the user come from. What the settings name is known when they
are there. -/
def addUserFiles (fs : FileSystem) (current : Path) : IO FileSystem := do
  let mut fs := fs
  for path in Walk.settingsFiles fs.user do
    fs ← addEntry fs (current.join path)
  if let some path := Walk.userRuleFile? fs then
    fs ← addEntry fs (current.join path)
  return fs

/-- The files that an invocation is about. -/
def readFiles (i : Invocation) : IO FileSystem := do
  let current : Path := ⟨(← IO.FS.realPath (← IO.currentDir)).toString⟩
  let fs := (({} : FileSystem).createDirectories current).1
  let mut fs := { fs with
    current := (fs.locate current).toOption.getD []
    user := ← userDirectories }
  fs ← addUserFiles fs current
  let base := i.root.getD ⟨"."⟩
  for name in configFileNames do
    fs ← addEntry fs (current.join (base.join ⟨name⟩))
  if let some path := i.config then
    fs ← addEntry fs (current.join path)
  match i.loadConfig fs with
  | .error _ => return fs
  | .ok config =>
    let root := (Path.absolutize current config.scan.root).toPath
    fs ← addEntry fs root
    fs ← addIgnoreFiles fs root
    if fs.isDirectory root then
      fs ← addTree fs root depthLimit
    fs ← addEntry fs (Path.absolutize root config.scan.output).toPath
    if let some path := config.scan.ignoreFile then
      fs ← addEntry fs (Path.absolutize root path).toPath
    return fs

/-! ## Writing the files -/

/-- Writes the files that differ. -/
def writeFiles (before after : FileSystem) : IO Unit := do
  for path in before.differences after do
    match after.lookup path with
    | .ok (.file bytes) => do
      if let some parent := path.parent? then
        IO.FS.createDirAll parent.text
      IO.FS.writeBinFile path.text bytes
    | .ok .directory => IO.FS.createDirAll path.text
    | _ => pure ()

/-! ## Carrying out an invocation -/

/-- Tells of an error and what lies behind it. -/
def tellError (e : InvocationError) : IO Unit := do
  for cause in e.causes do
    IO.eprintln ("Error: " ++ cause)

/-- Lets a session notice all that is new. -/
def noticeAll (w : World) : Nat → World
  | 0 => w
  | bound + 1 =>
    match w.step? .notice with
    | some w => noticeAll w bound
    | none => w

/-- Lets the pass that runs go to its end, and writes what it changed. -/
def finishPass (w : World) : IO World := do
  match w.session.running with
  | none => return w
  | some pass =>
    let (files, pass) := pass.finish w.session.scanner w.files
    writeFiles w.files files
    if let some report := pass.report? then
      IO.println ("Pass " ++ report.outcome.message)
    let w := { w with files, session := { w.session with running := some pass } }
    return (w.step? .complete).getD w

/-- One round of a watch: looks at the files, tells the session and lets it work. -/
def watchRound (i : Invocation) (o : Observer) (w : World) : IO World := do
  let files ← readFiles i
  let w := match o.signal? files (w.files.differences files) with
    | some signal => { w with files, queue := w.queue ++ [signal] }
    | none => { w with files }
  let w ← finishPass (noticeAll w w.queue.length)
  match w.step? .resume with
  | some w => finishPass w
  | none => return w

/-- Watches until the process is ended. -/
def watchForever (i : Invocation) (o : Observer) (w : World) : IO Unit := do
  let mut w := w
  repeat
    w ← watchRound i o w
    IO.sleep 100

/-- Carries out an invocation; the answer is the exit code. -/
def execute (i : Invocation) : IO UInt32 := do
  let fs ← readFiles i
  match i.verb with
  | .generate =>
    let (after, result) := i.generate fs
    writeFiles fs after
    match result with
    | .ok () => return 0
    | .error e => do
      tellError e
      return 1
  | .watch =>
    match i.watch fs with
    | .ok (world, observer) => do
      watchForever i observer world
      return 0
    | .error e => do
      tellError e
      return 1

end KeyRegistry.Main

open KeyRegistry in
/-- Runs the program. -/
def main (arguments : List String) : IO UInt32 := do
  let environment : Environment := {
    root := ← IO.getEnv "QK_GEN_ROOT"
    config := ← IO.getEnv "QK_GEN_CONFIG" }
  match Invocation.ofArguments environment arguments with
  | .ok invocation => Main.execute invocation
  | .error .help => do
    IO.println "Usage: qk-gen [OPTIONS] <generate|watch>"
    return 0
  | .error (.version verb) => do
    IO.print (CommandLine.versionText verb)
    return 0
  | .error .misuse => do
    IO.eprintln "Usage: qk-gen [OPTIONS] <generate|watch>"
    return 2

import KeyRegistry.Scan.Matcher

/-!
# Walking a project

The walk finds the files below the root. It does not enter directories of dependencies and of
version control, directories that an exclude covers, and whatever the ignore files of the
directories above ignore; hidden entries count as ignored unless a rule allows them. Links are
not followed.

Where no ignore file of a directory says anything, the walk goes by the rules that the user keeps
for all projects. They are in a file that the user's settings name, and if they name none, in one
with a usual name beside them.

Main definitions:

* `Walk.userRuleFile?` — the file with the rules that the user keeps for all projects
* `Walk.verdict?` — what the ignore files say about an entry
* `Walk.reaches` — whether the walk comes to a file
* `Matcher.candidates` — the files of a scan, in the order of their paths
-/

namespace KeyRegistry

namespace Walk

/-- The names of directories that are never entered. -/
def neverEntered : List String := ["node_modules", ".git"]

/-- The rule files of a directory, by their names below it, the strongest first. -/
def ruleFiles : List (List String) := [[".ignore"], [".gitignore"], [".git", "info", "exclude"]]

/-- What the rule files of one name say about an entry, given by the names on the way to it: the
nearest directory above it with an opinion decides. `depth` is the number of directories to
ask. -/
def verdictOf? (fs : FileSystem) (file : List String) (names : List String) (isDirectory : Bool) :
    Nat → Option Ignore.Verdict
  | 0 => none
  | depth + 1 =>
    let directory := Route.toPath ⟨true, names.take depth⟩
    let rules := Ignore.Rules.load fs (directory.join ⟨Text.joinAll '/' file⟩)
    rules.verdict? (Text.joinAll '/' (names.drop depth)) isDirectory <|>
      verdictOf? fs file names isDirectory depth

/-- What the ignore files of the directories above an entry say about it. -/
def fileVerdict? (fs : FileSystem) (names : List String) (isDirectory : Bool) :
    Option Ignore.Verdict :=
  ruleFiles.findSome? fun file => verdictOf? fs file names isDirectory names.length

/-! ## The rules of the user -/

/-- The white space of settings, in bytes. -/
def isSpace (b : UInt8) : Bool :=
  b == 0x20 || (0x09 ≤ b && b ≤ 0x0D)

/-- Whether nothing but white space comes up to the end of some line. -/
def endsLine (text : List UInt8) : Bool :=
  (text.takeWhile isSpace).contains Ignore.lineFeed || (text.dropWhile isSpace).isEmpty

/-- Whether a value may end here: a quote may come behind it, and then the end of a line. -/
def endsValue (text : List UInt8) : Bool :=
  endsLine text ||
    match text.dropWhile isSpace with
    | b :: rest => b == 0x22 && endsLine rest
    | [] => false

/-- The shortest value without white space that may end where it does. -/
def value? : List UInt8 → Option (List UInt8)
  | [] => none
  | b :: rest =>
    if isSpace b then none
    else if endsValue rest then some [b]
    else (value? rest).map (b :: ·)

/-- The value behind an equals sign; quotes around it do not belong to it. -/
def quotedValue? (text : List UInt8) : Option (List UInt8) :=
  match text.dropWhile isSpace with
  | [] => none
  | b :: rest =>
    -- the quote is dropped if a value stands behind it, and is the value otherwise
    if b == 0x22 then value? (rest.dropWhile isSpace) <|> value? (b :: rest)
    else value? (b :: rest)

/-- The setting that names the file with rules, in small letters. -/
def settingName : List UInt8 := "excludesfile".toUTF8.toList

/-- A letter as a small one, in bytes. -/
def toLower (b : UInt8) : UInt8 :=
  if 0x41 ≤ b && b ≤ 0x5A then b + 0x20 else b

/-- The value of the setting, if it stands at the start of a text. -/
def settingHere? (text : List UInt8) : Option (List UInt8) :=
  let text := text.dropWhile isSpace
  if (text.take settingName.length).map toLower == settingName then
    match (text.drop settingName.length).dropWhile isSpace with
    | b :: rest => if b == 0x3D then quotedValue? rest else none
    | [] => none
  else none

/-- The value of the setting where it first stands at the start of a line. -/
def setting? (atStart : Bool) : List UInt8 → Option (List UInt8)
  | [] => none
  | b :: rest =>
    (if atStart then settingHere? (b :: rest) else none) <|> setting? (b == Ignore.lineFeed) rest

/-- The directory of the user's configurations. -/
def configurations? (user : UserDirectories) : Option Path :=
  (user.config?.filter fun p => !p.text.isEmpty) <|> user.home?.map (·.join ⟨".config"⟩)

/-- The files of settings that may name the file with rules, the stronger one first. -/
def settingsFiles (user : UserDirectories) : List Path :=
  (user.home?.map (·.join ⟨".gitconfig"⟩)).toList ++
    ((configurations? user).map (·.join ⟨"git/config"⟩)).toList

/-- The home directory in place of each tilde. -/
def expandTilde (user : UserDirectories) (text : String) : String :=
  match user.home? with
  | some home =>
    String.ofList (text.toList.flatMap fun c => if c = '~' then home.text.toList else [c])
  | none => text

/-- The file with rules that a file of settings names. -/
def namedRuleFile? (fs : FileSystem) (settings : Path) : Option Path := do
  let bytes ← (fs.read settings).toOption
  let value ← setting? true bytes.toList
  let text ← String.fromUTF8? ⟨value.toArray⟩
  return ⟨expandTilde fs.user text⟩

/-- The file with the rules that the user keeps for all projects. -/
def userRuleFile? (fs : FileSystem) : Option Path :=
  (settingsFiles fs.user).findSome? (namedRuleFile? fs) <|>
    -- the usual place counts if no setting names another one, whether or not there is a file
    (configurations? fs.user).map (·.join ⟨"git/ignore"⟩)

/-- All files that the rules of the user come from. -/
def userFiles (fs : FileSystem) : List Path :=
  settingsFiles fs.user ++ (userRuleFile? fs).toList

/-- An entry as the rules of the user see it: where its path starts with the text of the current
directory, that text is dropped, with a slash behind it. -/
def seenByUser (fs : FileSystem) (names : List String) : String :=
  let path := (Route.toPath ⟨true, names⟩).text
  match Place.path? fs.current with
  | some current =>
    -- texts are compared, so a name may be cut in the middle
    if current.text.toList.isPrefixOf path.toList then
      let rest := path.toList.drop current.text.length
      String.ofList (if rest.head? = some '/' then rest.tail else rest)
    else path
  | none => path

/-- What the rules of the user say about an entry. -/
def userVerdict? (fs : FileSystem) (names : List String) (isDirectory : Bool) :
    Option Ignore.Verdict := do
  let file ← userRuleFile? fs
  (Ignore.Rules.load fs file).verdict? (seenByUser fs names) isDirectory

/-! ## The walk -/

/-- What all rules say about an entry, those of the user last. -/
def verdict? (fs : FileSystem) (names : List String) (isDirectory : Bool) :
    Option Ignore.Verdict :=
  fileVerdict? fs names isDirectory <|> userVerdict? fs names isDirectory

/-- Whether an entry with this name is hidden: the name starts with a dot and does not end in
one. -/
def isHidden (name : String) : Bool :=
  name.toList.head? == some '.' && name.toList.getLast? != some '.'

/-- Whether the walk leaves out an entry because of ignore files or because it is hidden. -/
def isIgnored (fs : FileSystem) (names : List String) (isDirectory : Bool) : Bool :=
  match verdict? fs names isDirectory with
  | some verdict => verdict == .ignored
  | none => (names.getLast?.map isHidden).getD false

/-- Whether the walk enters a directory that it comes to. -/
def enters (m : Matcher) (fs : FileSystem) (names : List String) : Bool :=
  !(m.respectIgnores && isIgnored fs names true) &&
    !(neverEntered.any fun name => names.getLast? == some name) &&
    !m.isExcludedDirectory (Route.toPath ⟨true, names⟩)

/-- Whether the walk comes to a file, given by the names on the way to the root and those on the
way from there. -/
def reaches (m : Matcher) (fs : FileSystem) (root below : List String) : Bool :=
  -- the root was entered already; the directories to ask lie between it and the file
  ((List.range below.length).drop 1).all (fun depth => enters m fs (root ++ below.take depth)) &&
    !(m.respectIgnores && isIgnored fs (root ++ below) false)

/-- The names of the files of a file system that lie below a place. -/
def filesBelow (fs : FileSystem) (root : List String) : List (List String) :=
  fs.entries.filterMap fun (place, entry) => do
    let names ← Place.names? place
    match entry with
    | .file _ =>
      if root.isPrefixOf names && root.length < names.length then some (names.drop root.length)
      else none
    | _ => none

/-- Whether two lists of names are the same or come in this order. -/
def inOrder (first second : List String) : Bool :=
  !List.lex second first fun a b => a < b

end Walk

/-- The files of a scan, in the order of their paths. -/
def Matcher.candidates (m : Matcher) (fs : FileSystem) : List Path :=
  let root := m.root.names
  let files := (Walk.filesBelow fs root).mergeSort Walk.inOrder
  files.filterMap fun below =>
    let path := Route.toPath ⟨true, root ++ below⟩
    if Walk.reaches m fs root below && m.isCandidate path then some path else none

end KeyRegistry

import KeyRegistry.Config.Format
import KeyRegistry.Proofs.Json.Decoding

/-!
# Configuration files say what they say

A configuration file is an object with two objects in it, and each of these holds settings under
their names. Read back, the settings that are there are as they are written, whatever their order
and whatever else the objects hold, and the others have their defaults.

Main definitions:

* `ScanConfig.members`, `WatchConfig.members` — the settings as members of an object
* `Config.only` — a configuration with the defaults in the place of some settings
* `Config.Shows` — a value that holds some of the settings of a configuration

Main statements:

* `ScanConfig.overlays`, `WatchConfig.overlays` — each setting is read into its own place
* `Config.fills_toText`, `Config.shows_toValue` — written out, a configuration shows all of its
  settings
* `Config.decoding_is_exact` — a configuration file is read as what it shows
-/

namespace KeyRegistry

open Json Config.Format

/-! ## Settings as members of objects -/

/-- A path that may be left open. -/
def Config.Format.optionalPath : Option Path → Value
  | none => .null
  | some path => .ofText path.text

/-- The settings of a scan under their names. -/
def ScanConfig.members (c : ScanConfig) : List (String × Value) := [
  ("root", .ofText c.root.text),
  ("include", .list (c.includes.map .ofText)),
  ("exclude", .list (c.excludes.map .ofText)),
  ("function_names", .list (c.markers.map .ofText)),
  ("output_path", .ofText c.output.text),
  ("module_name", .ofText c.moduleName),
  ("ignore_file", optionalPath c.ignoreFile),
  ("respect_gitignore", .boolean c.respectIgnores),
  ("verbose", .boolean c.verbose)]

/-- The settings of a watch under their names. -/
def WatchConfig.members (c : WatchConfig) : List (String × Value) := [
  ("debounce_ms", .ofNat c.debounce.toNat)]

/-- The settings of the given names; the others have their defaults. -/
def ScanConfig.only (c : ScanConfig) (given : List String) : ScanConfig where
  root := if "root" ∈ given then c.root else ({} : ScanConfig).root
  includes := if "include" ∈ given then c.includes else ({} : ScanConfig).includes
  excludes := if "exclude" ∈ given then c.excludes else ({} : ScanConfig).excludes
  markers := if "function_names" ∈ given then c.markers else ({} : ScanConfig).markers
  output := if "output_path" ∈ given then c.output else ({} : ScanConfig).output
  moduleName := if "module_name" ∈ given then c.moduleName else ({} : ScanConfig).moduleName
  ignoreFile := if "ignore_file" ∈ given then c.ignoreFile else ({} : ScanConfig).ignoreFile
  respectIgnores :=
    if "respect_gitignore" ∈ given then c.respectIgnores else ({} : ScanConfig).respectIgnores
  verbose := if "verbose" ∈ given then c.verbose else ({} : ScanConfig).verbose

/-- The settings of the given names; the others have their defaults. -/
def WatchConfig.only (c : WatchConfig) (given : List String) : WatchConfig where
  debounce := if "debounce_ms" ∈ given then c.debounce else ({} : WatchConfig).debounce

/-- The settings of the given names in each group; the others have their defaults. -/
def Config.only (c : Config) (scan watch : List String) : Config where
  scan := c.scan.only scan
  watch := c.watch.only watch

/-- Whether a value is an object that shows the given settings of a configuration and none of the
other settings: in any order, and among members of other names. A group may be missing if nothing in
it is given. -/
def Config.Shows (c : Config) (scan watch : List String) (value : Value) : Prop :=
  ∃ scanMembers watchMembers groups members,
    Holds c.scan.members scan scanMembers ∧ Holds c.watch.members watch watchMembers ∧
    Holds [("scan", .ofMembers scanMembers), ("watch", .ofMembers watchMembers)] groups members ∧
    ("scan" ∉ groups → scan = []) ∧ ("watch" ∉ groups → watch = []) ∧ value = .ofMembers members

/-! ## Reading -/

/-- A path is read from its text. -/
theorem decodes_readPath {path : Path} : Decodes readPath (.ofText path.text) path :=
  decodes_text.map rfl

/-- Texts are read from a list of them. -/
theorem decodes_readTexts {texts : List String} :
    Decodes readTexts (.list (texts.map .ofText)) texts := by
  refine decodes_list ?_
  rw [List.forall₂_map_left_iff, List.forall₂_same]
  exact fun text _ => decodes_text

/-- A path that may be absent is read from its text or from null. -/
theorem decodes_optionalPath {path : Option Path} :
    Decodes (Reader.optional readPath) (optionalPath path) path := by
  cases path with
  | none => exact decodes_optional_null
  | some path => exact decodes_readPath.optional

/-- Reading the members of a scan configuration replaces the fields that they name, whichever these
are. -/
theorem ScanConfig.overlays (c : ScanConfig) :
    Overlays ScanConfig.fields c.members c.only where
  names := rfl
  distinct := by
    show (ScanConfig.fields.map Field.name).Nodup
    decide
  reads := by
    simp only [members, List.forall_mem_cons]
    refine ⟨fun seen => ⟨_, rfl, decodes_readPath.map ?_⟩,
      fun seen => ⟨_, rfl, decodes_readTexts.map ?_⟩,
      fun seen => ⟨_, rfl, decodes_readTexts.map ?_⟩,
      fun seen => ⟨_, rfl, decodes_readTexts.map ?_⟩,
      fun seen => ⟨_, rfl, decodes_readPath.map ?_⟩,
      fun seen => ⟨_, rfl, decodes_text.map ?_⟩,
      fun seen => ⟨_, rfl, decodes_optionalPath.map ?_⟩,
      fun seen => ⟨_, rfl, decodes_boolean.map ?_⟩,
      fun seen => ⟨_, rfl, decodes_boolean.map ?_⟩, List.forall_mem_nil _⟩
    -- one more setting is given, and the places of the others are those of other names
    all_goals simp [only]
  same given seen h := by
    simp only [members, List.map_cons, List.map_nil, List.forall_mem_cons] at h
    simp only [only, h]

/-- Reading the members of a watch configuration replaces the fields that they name, whichever these
are. -/
theorem WatchConfig.overlays (c : WatchConfig) :
    Overlays WatchConfig.fields c.members c.only where
  names := rfl
  distinct := by
    show (WatchConfig.fields.map Field.name).Nodup
    decide
  reads := by
    simp only [members, List.forall_mem_cons]
    exact ⟨fun seen => ⟨_, rfl, decodes_natural.map (by simp [only])⟩, List.forall_mem_nil _⟩
  same given seen h := by
    simp only [members, List.map_cons, List.map_nil, List.forall_mem_cons] at h
    simp only [only, h]

section Reading

variable {c : Config} {scan watch groups : List String} {value : Value} {text : String}
  {scanMembers watchMembers : List (String × Value)}

/-- The groups of the given names; the others have the defaults of all of their settings. -/
def Config.onlyGroups (c : Config) (groups : List String) : Config where
  scan := if "scan" ∈ groups then c.scan else {}
  watch := if "watch" ∈ groups then c.watch else {}

/-- Each group is read into its own place. -/
theorem Config.overlays (hScan : Holds c.scan.members scan scanMembers)
    (hWatch : Holds c.watch.members watch watchMembers) :
    Overlays Config.fields [("scan", .ofMembers scanMembers), ("watch", .ofMembers watchMembers)]
      (c.only scan watch).onlyGroups where
  names := rfl
  distinct := by
    show (Config.fields.map Field.name).Nodup
    decide
  reads := by
    simp only [List.forall_mem_cons]
    refine ⟨fun seen => ⟨_, rfl, (c.scan.overlays.decodes hScan).map ?_⟩,
      fun seen => ⟨_, rfl, (c.watch.overlays.decodes hWatch).map ?_⟩, List.forall_mem_nil _⟩
    all_goals simp [only, onlyGroups]
  same given seen h := by
    simp only [List.map_cons, List.map_nil, List.forall_mem_cons] at h
    simp only [onlyGroups, h]

/-- With no fields kept, a scan configuration is the default one. -/
theorem ScanConfig.only_nil (c : ScanConfig) : c.only [] = {} := by
  simp [only]

/-- With no fields kept, a watch configuration is the default one. -/
theorem WatchConfig.only_nil (c : WatchConfig) : c.only [] = {} := by
  simp [only]

/-- A configuration is decoded to the part of it that is shown. -/
theorem Config.Shows.ofText? (hShows : c.Shows scan watch value) (hText : value.Fills text) :
    Config.ofText? text = .ok (c.only scan watch) := by
  obtain ⟨scanMembers, watchMembers, groups, members, hScan, hWatch, hGroups, hNoScan, hNoWatch,
    rfl⟩ := hShows
  -- a group that is missing has nothing in it
  have hOnly : (c.only scan watch).onlyGroups groups = c.only scan watch := by
    unfold onlyGroups
    congr
    · split
      · rfl
      · next hMissing =>
        rw [hNoScan hMissing]
        exact c.scan.only_nil.symm
    · split
      · rfl
      · next hMissing =>
        rw [hNoWatch hMissing]
        exact c.watch.only_nil.symm
  rw [← hOnly]
  exact decode_eq_ok ((Config.overlays hScan hWatch).decodes hGroups) hText

end Reading

/-! ## Writing -/

section Writing

variable {items : List Value} {members : List (String × Value)} {texts : List String}
  {value : Value} {name text : String}

/-- Texts with commas between them are the first one and then each other one behind a comma. -/
theorem toList_intercalate_cons (text : String) (texts : List String) :
    (String.intercalate "," (text :: texts)).toList =
      text.toList ++ texts.flatMap fun text => ',' :: text.toList := by
  induction texts generalizing text with
  | nil => simp
  | cons next texts ih =>
    rw [String.intercalate_cons_cons, String.toList_append, String.toList_append, ih,
      List.flatMap_cons, List.append_assoc]
    rfl

/-- A quoted text spells the text. -/
theorem spells_quote : (Value.ofText text).Spells (Text.quote text).toList := by
  refine ⟨_, ?_, spellsText_quote text⟩
  rw [Text.quote, String.toList_ofList]
  rfl

/-- A comma without white space leads to the next item. -/
theorem leads_comma : Leads false [','] :=
  ⟨[], [], rfl, .nil, .nil⟩

/-- Whether texts are items of a list as they are written out. -/
abbrev Config.Format.WritesItems (items : List Value) (texts : List String) : Prop :=
  List.Forall₂ (fun item text => item.Spells text.toList) items texts

/-- Whether texts are members of an object as they are written out. -/
abbrev Config.Format.WritesMembers (members : List (String × Value)) (texts : List String) : Prop :=
  List.Forall₂ (fun entry text => ∃ value, text = member entry.1 value ∧
    entry.2.Spells value.toList) members texts

/-- Written items, each behind a comma, spell the rest of a list. -/
theorem spellsItems_flatMap (h : WritesItems items texts) :
    SpellsItems false items (texts.flatMap fun text => ',' :: text.toList) := by
  induction h with
  | nil => exact .nil
  | cons hItem _ ih => exact ⟨[','], _, _, rfl, leads_comma, hItem, ih⟩

/-- Written items in brackets spell the list. -/
theorem spells_bracketed (h : WritesItems items texts) :
    (Value.list items).Spells (bracketed "[" "]" texts).toList := by
  refine ⟨(String.intercalate "," texts).toList, ?_, ?_⟩
  · rw [bracketed, String.toList_append, String.toList_append]
    rfl
  · cases h with
    | nil => exact .nil
    | cons hItem hItems =>
      rw [toList_intercalate_cons]
      exact ⟨[], _, _, rfl, .nil, hItem, spellsItems_flatMap hItems⟩

/-- A member is its quoted name, a colon and its value. -/
theorem toList_member (name value : String) :
    (member name value).toList =
      '\x22' :: (name.toList.flatMap Text.spell ++ '\x22' :: ':' :: value.toList) := by
  simp [member, Text.quote]

/-- A colon without white space is a colon. -/
theorem isColon : IsColon [':'] :=
  ⟨[], [], rfl, .nil, .nil⟩

/-- Written members, each behind a comma, spell the rest of an object. -/
theorem spellsMembers_flatMap (h : WritesMembers members texts) :
    SpellsMembers false (members.map lettered) (texts.flatMap fun text => ',' :: text.toList) := by
  induction h with
  | nil => exact .nil
  | cons hMember _ ih =>
    obtain ⟨value, rfl, hValue⟩ := hMember
    refine ⟨[','], _, [':'], _, _, ?_, leads_comma, spellsText_quote _, isColon, hValue, ih⟩
    rw [List.flatMap_cons, toList_member]
    simp

/-- Written members in braces spell the object. -/
theorem spells_braced (h : WritesMembers members texts) :
    (Value.ofMembers members).Spells (bracketed "\x7b" "\x7d" texts).toList := by
  refine ⟨(String.intercalate "," texts).toList, ?_, ?_⟩
  · rw [bracketed, String.toList_append, String.toList_append]
    rfl
  · cases h with
    | nil => exact .nil
    | cons hMember hMembers =>
      obtain ⟨value, rfl, hValue⟩ := hMember
      refine ⟨[], _, [':'], _, _, ?_, .nil, spellsText_quote _, isColon, hValue,
        spellsMembers_flatMap hMembers⟩
      rw [toList_intercalate_cons, toList_member]
      simp

/-- A written list of texts spells the list. -/
theorem spells_textList (texts : List String) :
    (Value.list (texts.map .ofText)).Spells (textList texts).toList := by
  refine spells_bracketed ?_
  rw [WritesItems, List.forall₂_map_left_iff, List.forall₂_map_right_iff, List.forall₂_same]
  exact fun text _ => spells_quote

/-- A written truth value spells it. -/
theorem spells_truth (value : Bool) : (Value.boolean value).Spells (truth value).toList := by
  cases value <;> rfl

/-- A written path that may be absent spells its text or null. -/
theorem spells_optionalPath (path : Option Path) :
    (optionalPath path).Spells
      ((path.map fun path => Text.quote path.text).getD "null").toList := by
  cases path with
  | none => rfl
  | some path => exact spells_quote

/-- A written scan configuration spells its members. -/
theorem ScanConfig.spells_toText (c : ScanConfig) :
    (Value.ofMembers c.members).Spells c.toText.toList := by
  refine spells_braced ?_
  exact .cons ⟨_, rfl, spells_quote⟩ <| .cons ⟨_, rfl, spells_textList _⟩ <|
    .cons ⟨_, rfl, spells_textList _⟩ <| .cons ⟨_, rfl, spells_textList _⟩ <|
    .cons ⟨_, rfl, spells_quote⟩ <| .cons ⟨_, rfl, spells_quote⟩ <|
    .cons ⟨_, rfl, spells_optionalPath _⟩ <| .cons ⟨_, rfl, spells_truth _⟩ <|
    .cons ⟨_, rfl, spells_truth _⟩ .nil

/-- A written watch configuration spells its members. -/
theorem WatchConfig.spells_toText (c : WatchConfig) :
    (Value.ofMembers c.members).Spells c.toText.toList := by
  refine spells_braced (.cons ⟨_, rfl, ?_⟩ .nil)
  rfl

/-- A configuration as a value with all of its settings. -/
def Config.toValue (c : Config) : Value :=
  .ofMembers [("scan", .ofMembers c.scan.members), ("watch", .ofMembers c.watch.members)]

/-- A written configuration is nothing but a spelling of its value. -/
theorem Config.fills_toText (c : Config) : c.toValue.Fills c.toText := by
  refine ⟨[], c.toText.toList, [], by simp, .nil, spells_braced ?_, .nil⟩
  exact .cons ⟨_, rfl, c.scan.spells_toText⟩ (.cons ⟨_, rfl, c.watch.spells_toText⟩ .nil)

/-- The value of a configuration shows all of its fields. -/
theorem Config.shows_toValue (c : Config) :
    c.Shows (c.scan.members.map Prod.fst) (c.watch.members.map Prod.fst) c.toValue :=
  ⟨_, _, _, _, .all _, .all _, .all _, fun h => absurd (by simp) h, fun h => absurd (by simp) h,
    rfl⟩

/-- With all fields kept, a configuration is itself. -/
theorem Config.only_all (c : Config) :
    c.only (c.scan.members.map Prod.fst) (c.watch.members.map Prod.fst) = c := by
  simp [only, ScanConfig.only, ScanConfig.members, WatchConfig.only, WatchConfig.members]

end Writing

/-! ## Files -/

/-- Whether a text is read as a configuration, and so is every file that holds it. -/
def Config.IsReadFrom (config : Config) (text : String) : Prop :=
  Config.ofText? text = .ok config ∧
    ∀ fs path, fs.readText path = .ok text → Config.read fs path = .ok config

/-- What a text is decoded to is read from every file that holds it. -/
theorem Config.isReadFrom_of_ofText? {config : Config} {text : String}
    (h : Config.ofText? text = .ok config) : config.IsReadFrom text := by
  refine ⟨h, fun fs path hFile => ?_⟩
  rw [Config.read, hFile]
  dsimp only
  rw [h]

/-- **Configuration files decode to what they say and to nothing else.** An object that shows some
of the settings of a configuration, in any order and among members of unknown names, is read as the
configuration that has these settings and the defaults of all the others, however it is written. A
configuration that is written out is read back, and a group that is missing or empty has its
defaults. -/
theorem Config.decoding_is_exact (c : Config) :
    (∀ scan watch value text, c.Shows scan watch value → value.Fills text →
      (c.only scan watch).IsReadFrom text) ∧
    c.IsReadFrom c.toText ∧
    (∀ watch value text, c.Shows [] watch value → value.Fills text →
      Config.IsReadFrom { scan := {}, watch := c.watch.only watch } text) ∧
    ∀ scan value text, c.Shows scan [] value → value.Fills text →
      Config.IsReadFrom { scan := c.scan.only scan, watch := {} } text := by
  -- what is written out shows all settings, and the other parts are cases of the first one
  refine ⟨fun scan watch value text hShows hText => isReadFrom_of_ofText? (hShows.ofText? hText),
    isReadFrom_of_ofText? ?_, fun watch value text hShows hText => isReadFrom_of_ofText? ?_,
    fun scan value text hShows hText => isReadFrom_of_ofText? ?_⟩
  · rw [c.shows_toValue.ofText? c.fills_toText, c.only_all]
  · rw [hShows.ofText? hText, only, ScanConfig.only_nil]
  · rw [hShows.ofText? hText, only, WatchConfig.only_nil]

/-- A text that names one field of each group and spells the largest number, where the other fields
keep their defaults. -/
theorem Config.decoding_is_exact_of_part :
    Config.IsReadFrom { scan := { verbose := true }, watch := { debounce := 18446744073709551615 } }
      ("\x7b \x22later\x22: null,\x22watch\x22:\x7b\x22debounce_ms\x22:18446744073709551615\x7d," ++
        "\x22scan\x22:\x7b\x22verbose\x22:true\x7d\x7d") := by
  let watch : WatchConfig := { debounce := 18446744073709551615 }
  have hBlank : Blanks [' '] := by simp [Blanks, Reader.isBlank]
  have hMembers : WritesMembers [("verbose", .boolean true)] [member "verbose" "true"] :=
    .cons ⟨"true", rfl, spells_truth true⟩ .nil
  have hScan : (Value.ofMembers [("verbose", .boolean true)]).Spells
      "\x7b\x22verbose\x22:true\x7d".toList := spells_braced hMembers
  have hWatch : (Value.ofMembers watch.members).Spells
      "\x7b\x22debounce_ms\x22:18446744073709551615\x7d".toList := by
    have hText : watch.toText = "\x7b\x22debounce_ms\x22:18446744073709551615\x7d" := by
      decide +kernel
    rw [← hText]
    exact watch.spells_toText
  refine (Config.decoding_is_exact { scan := { root := ⟨"app"⟩, verbose := true }, watch }).1
    ["verbose"] ["debounce_ms"] (.ofMembers [("later", .null), ("watch", .ofMembers watch.members),
      ("scan", .ofMembers [("verbose", .boolean true)])]) _ ?_ ?_
  -- the groups come in another order than they are written in, behind a member of an unknown name
  · exact ⟨[("verbose", .boolean true)], watch.members, ["watch", "scan"], _,
      ⟨[], .refl _, List.forall_mem_nil _⟩, ⟨[], .refl _, List.forall_mem_nil _⟩,
      ⟨[("later", .null)], List.reverse_perm _, by simp⟩, by simp, by simp, rfl⟩
  · refine ⟨[], _, [], ?_, .nil, ⟨_, rfl, [' '], _, [':', ' '], _, _, rfl, hBlank,
      spellsText_quote "later", ⟨[], [' '], rfl, .nil, hBlank⟩, rfl, [','], _, [':'], _, _, rfl,
      leads_comma, spellsText_quote "watch", isColon, hWatch, [','], _, [':'], _, _, rfl,
      leads_comma, spellsText_quote "scan", isColon, hScan, .nil⟩, .nil⟩
    decide

end KeyRegistry

import ApiWorkshop.Proofs.Json.ReadBack
import ApiWorkshop.Run.Settings
import ApiWorkshop.Settings.Project

/-!
# Settings are read back

A value of the settings is written back as it is if each number in it is finite, each
integer short enough and each key has bytes.  The text that is written for the settings of
a project is read as these settings, in a file of any tree.  This holds exactly of settings
that last: the entries that are not known hold data that is written back as it is, and no
text has adjacent halves of a surrogate pair, whose escapes would be read as one character.
-/

namespace ApiWorkshop

/-! ## Values that are written back -/

namespace ProjectSettings

/-- Data that is written back as it is and can be read again. -/
abbrev IsKept (content : JsonValue) : Prop :=
  content.Regular Binary64.IsStandard fun key => key.isWhole = true

mutual

theorem settled?_of_isKept : ∀ {content : JsonValue}, IsKept content → settled? content = some content
  | .null, _ => rfl
  | .bool _, _ => rfl
  | .int _, .int canWrite => by rw [settled?, if_pos canWrite]
  | .float _, .float ⟨isFinite, _⟩ => congrArg some (if_pos isFinite)
  | .string _, _ => rfl
  | .array _, .array areKept => by rw [settled?, settledItems?_of_isKept areKept, Option.map_some]
  | .object _, .object _ areWhole areKept => by
      rw [settled?, settledEntries?_of_isKept areWhole areKept, Option.map_some]

theorem settledItems?_of_isKept :
    ∀ {items : List JsonValue}, (∀ item ∈ items, IsKept item) → settledItems? items = some items
  | [], _ => rfl
  | item :: items, areKept => by
      obtain ⟨isKept, restKept⟩ := List.forall_mem_cons.mp areKept
      rw [settledItems?, settled?_of_isKept isKept, settledItems?_of_isKept restKept]
      rfl

theorem settledEntries?_of_isKept :
    ∀ {entries : List (LooseText × JsonValue)}, (∀ entry ∈ entries, entry.1.isWhole = true) →
      (∀ entry ∈ entries, IsKept entry.2) → settledEntries? entries = some entries
  | [], _, _ => rfl
  | (key, inner) :: entries, areWhole, areKept => by
      obtain ⟨isWhole, restWhole⟩ := List.forall_mem_cons.mp areWhole
      obtain ⟨isKept, restKept⟩ := List.forall_mem_cons.mp areKept
      rw [settledEntries?, if_pos isWhole, settled?_of_isKept isKept,
        settledEntries?_of_isKept restWhole restKept]
      rfl

end

mutual

/-- What is written back of data that was read is kept when it is written again. -/
-- The equation is introduced behind the match, which would otherwise compute with the
-- bound on integers in order to see which cases the equation rules out.
theorem isKept_of_settled? : ∀ {content : JsonValue}, Json.IsReadValue content →
    ∀ {written : JsonValue}, settled? content = some written → IsKept written
  | .null, _ => by
      intro isWritten
      obtain rfl := Option.some.inj isWritten
      exact .null
  | .bool part, _ => by
      intro isWritten
      obtain rfl := Option.some.inj isWritten
      exact .bool part
  | .int _, .int canWrite => by
      intro isWritten
      rw [settled?, if_pos canWrite] at isWritten
      obtain rfl := Option.some.inj isWritten
      exact .int canWrite
  | .float part, .float isRounded => by
      intro isWritten
      obtain rfl := Option.some.inj isWritten
      split
      next isFinite => exact .float ⟨isFinite, isRounded⟩
      next => exact .null
  | .string _, .string isApart => by
      intro isWritten
      obtain rfl := Option.some.inj isWritten
      exact .string isApart
  | .array _, .array areRead => by
      intro isWritten
      obtain ⟨items, areWritten, rfl⟩ := Option.map_eq_some_iff.mp isWritten
      exact .array (areKept_of_settledItems? areRead areWritten)
  | .object _, .object distinct _ areRead => by
      intro isWritten
      obtain ⟨entries, areWritten, rfl⟩ := Option.map_eq_some_iff.mp isWritten
      obtain ⟨sameKeys, areKept⟩ := areKept_of_settledEntries? areRead areWritten
      exact .object (sameKeys ▸ distinct) (fun entry member => (areKept entry member).1)
        fun entry member => (areKept entry member).2

theorem areKept_of_settledItems? : ∀ {items written : List JsonValue},
    (∀ item ∈ items, Json.IsReadValue item) → settledItems? items = some written →
      ∀ item ∈ written, IsKept item
  | [], _, _, areWritten => Option.some.inj areWritten ▸ nofun
  | item :: items, _, areRead, areWritten => by
      obtain ⟨isRead, restRead⟩ := List.forall_mem_cons.mp areRead
      obtain ⟨first, isFirst, behind⟩ := Option.bind_eq_some_iff.mp areWritten
      obtain ⟨others, areOthers, same⟩ := Option.bind_eq_some_iff.mp behind
      obtain rfl := Option.some.inj same
      exact List.forall_mem_cons.mpr
        ⟨isKept_of_settled? isRead isFirst, areKept_of_settledItems? restRead areOthers⟩

theorem areKept_of_settledEntries? : ∀ {entries written : List (LooseText × JsonValue)},
    (∀ entry ∈ entries, Json.IsReadValue entry.2) → settledEntries? entries = some written →
      Entries.keys written = Entries.keys entries ∧
        ∀ entry ∈ written, entry.1.isWhole = true ∧ IsKept entry.2
  | [], _, _, areWritten => Option.some.inj areWritten ▸ ⟨rfl, nofun⟩
  | (key, inner) :: entries, _, areRead, areWritten => by
      obtain ⟨isRead, restRead⟩ := List.forall_mem_cons.mp areRead
      rw [settledEntries?] at areWritten
      split at areWritten
      next isWhole =>
        obtain ⟨first, isFirst, behind⟩ := Option.bind_eq_some_iff.mp areWritten
        obtain ⟨others, areOthers, same⟩ := Option.bind_eq_some_iff.mp behind
        obtain rfl := Option.some.inj same
        obtain ⟨sameKeys, areKept⟩ := areKept_of_settledEntries? restRead areOthers
        exact ⟨congrArg (key :: ·) sameKeys,
          List.forall_mem_cons.mpr ⟨⟨isWhole, isKept_of_settled? isRead isFirst⟩, areKept⟩⟩
      next => contradiction

end

end ProjectSettings

namespace Checked

variable {α β : Type}

theorem seq_eq_accepted_iff {change : Checked (α → β)} {value : Checked α} {answer : β} :
    change <*> value = .accepted answer ↔
      ∃ f found, change = .accepted f ∧ value = .accepted found ∧ f found = answer := by
  change apply change value = _ ↔ _
  cases change <;> cases value <;> simp [apply]

theorem map_eq_accepted_iff {change : α → β} {value : Checked α} {answer : β} :
    change <$> value = .accepted answer ↔
      ∃ found, value = .accepted found ∧ change found = answer := by
  change map change value = _ ↔ _
  cases value <;> simp [map]

theorem text_eq_accepted_iff {path : List String} {value : JsonValue} {found : LooseText} :
    text path value = .accepted found ↔ value = .string found := by
  cases value <;> simp [text, fault]

theorem text?_eq_accepted_some_iff {path : List String} {value : JsonValue} {found : LooseText} :
    text? path value = .accepted (some found) ↔ value = .string found := by
  cases value <;> simp [text?, text, fault, map]

theorem isApart_of_string {found : LooseText} (isRead : Json.IsReadValue (.string found)) :
    found.IsApart := by
  cases isRead with
  | string isApart => exact isApart

/-- A text among entries, or the fallback for it, has no adjacent halves if both have
none. -/
theorem isApart_of_orElse {entries : Entries LooseText JsonValue}
    (areRead : ∀ entry ∈ entries, Json.IsReadValue entry.2) {path : List String} {key : String}
    {fallback found : LooseText} (isApart : fallback.IsApart)
    (isText : orElse entries key fallback (text path) = .accepted found) : found.IsApart := by
  rw [orElse] at isText
  split at isText
  next value isValue =>
    obtain rfl := text_eq_accepted_iff.mp isText
    exact isApart_of_string (areRead _ (Entries.mem_of_get? isValue))
  next => exact Checked.accepted.inj isText ▸ isApart

/-- The entry that is found under its key is read. -/
theorem orElse_of_mem {entries : Entries LooseText JsonValue}
    (distinct : (Entries.keys entries).Nodup) {key : String} {value : JsonValue}
    (member : (LooseText.ofString key, value) ∈ entries) {α : Type} (fallback : α)
    (read : JsonValue → Checked α) :
    orElse entries key fallback read = read value := by
  rw [orElse, Entries.get?_of_mem distinct member]

theorem required_of_mem {entries : Entries LooseText JsonValue}
    (distinct : (Entries.keys entries).Nodup) {key : String} {value : JsonValue}
    (member : (LooseText.ofString key, value) ∈ entries) {α : Type} (read : JsonValue → Checked α) :
    required entries key read = read value := by
  rw [required, Entries.get?_of_mem distinct member]

end Checked

namespace ProjectSettings

variable {settings : ProjectSettings} {entries extras : Entries LooseText JsonValue}

/-! ## Settings that last -/

/-- No text of the settings that are known has adjacent halves of a surrogate pair. -/
structure HasApartTexts (settings : ProjectSettings) : Prop where
  name : settings.name.IsApart
  package : ∀ package ∈ settings.package, package.IsApart
  version : settings.version.IsApart
  apiDirectory : settings.apiDirectory.IsApart
  openapiOutput : settings.openapiOutput.IsApart
  translationsOutput : settings.translationsOutput.IsApart

/-- The texts that stand where none is set have no adjacent halves. -/
theorem hasApartTexts_named {name : LooseText} (isApart : name.IsApart) :
    HasApartTexts { name := name, extras := extras } where
  name := isApart
  package := nofun
  version := Json.isApart_ofString _
  apiDirectory := Json.isApart_ofString _
  openapiOutput := Json.isApart_ofString _
  translationsOutput := Json.isApart_ofString _

/-- Entries that are not known, with distinct keys that have bytes, and with data that is
written back as it is. -/
structure AreKeptExtras (extras : Entries LooseText JsonValue) : Prop where
  distinct : (Entries.keys extras).Nodup
  unknown : ∀ entry ∈ extras, isKnown entry.1 = false
  whole : ∀ entry ∈ extras, entry.1.isWhole = true
  kept : ∀ entry ∈ extras, IsKept entry.2

/-- Settings that their text keeps. -/
structure IsLasting (settings : ProjectSettings) : Prop where
  texts : settings.HasApartTexts
  extras : AreKeptExtras settings.extras
  notNull : ∀ entry ∈ settings.extras, entry.2.isNull = false

/-! ## The entries of a settings file -/

theorem isKnown_of_mem_knownEntries (settings : ProjectSettings) :
    ∀ entry ∈ settings.knownEntries, isKnown entry.1 = true := by
  cases isPackage : settings.package with
  | none => simp [knownEntries, isPackage, textEntry, isKnown, knownKeys]
  | some package => simp [knownEntries, isPackage, textEntry, isKnown, knownKeys]

/-- The keys that are written: those of the known settings, that of the package only if
one is set. -/
theorem keys_knownEntries (settings : ProjectSettings) :
    Entries.keys settings.knownEntries =
      (if settings.package.isSome then knownKeys else knownKeys.erase "package").map
        LooseText.ofString := by
  cases isPackage : settings.package with
  | none =>
      have others : knownKeys.erase "package" =
          ["name", "version", "api_dir", "openapi_output", "translations_output"] := by decide
      simp [knownEntries, isPackage, textEntry, Entries.keys, others]
  | some package => simp [knownEntries, isPackage, textEntry, Entries.keys, knownKeys]

theorem nodup_keys_knownEntries (settings : ProjectSettings) :
    (Entries.keys settings.knownEntries).Nodup := by
  rw [keys_knownEntries]
  cases settings.package.isSome <;> decide

/-- Behind the known settings, entries that are not known do not hide anything. -/
theorem nodup_keys_knownEntries_append (settings : ProjectSettings)
    (distinct : (Entries.keys extras).Nodup) (unknown : ∀ entry ∈ extras, isKnown entry.1 = false) :
    (Entries.keys (settings.knownEntries ++ extras)).Nodup := by
  rw [Entries.keys_append, List.nodup_append]
  refine ⟨nodup_keys_knownEntries settings, distinct, ?_⟩
  rintro _ isKey _ isExtraKey rfl
  obtain ⟨entry, member, same⟩ := List.mem_map.mp isKey
  obtain ⟨extra, isExtra, sameExtra⟩ := List.mem_map.mp isExtraKey
  have known := isKnown_of_mem_knownEntries settings entry member
  rw [same, ← sameExtra, unknown extra isExtra] at known
  contradiction

theorem unknownEntries_knownEntries_append (settings : ProjectSettings)
    (unknown : ∀ entry ∈ extras, isKnown entry.1 = false) :
    unknownEntries (settings.knownEntries ++ extras) = extras := by
  have noneKnown : settings.knownEntries.filter (fun entry => !isKnown entry.1) = [] := by
    simpa using isKnown_of_mem_knownEntries settings
  have allUnknown : extras.filter (fun entry => !isKnown entry.1) = extras := by
    simpa using unknown
  rw [unknownEntries, List.filter_append, noneKnown, allUnknown, List.nil_append]

theorem isReadBack_knownEntries (texts : settings.HasApartTexts) :
    ∀ entry ∈ settings.knownEntries, entry.1.isWhole = true ∧ Json.IsReadBack entry.2 := by
  have isText (key : String) {text : LooseText} (isApart : text.IsApart) :
      (textEntry key text).1.isWhole = true ∧ Json.IsReadBack (textEntry key text).2 :=
    ⟨LooseText.isWhole_ofText _, .string isApart⟩
  simp only [knownEntries, List.forall_mem_append, List.forall_mem_cons, List.forall_mem_map,
    Option.mem_toList]
  exact ⟨⟨⟨isText _ texts.name, List.forall_mem_nil _⟩,
      fun package isPackage => isText _ (texts.package _ isPackage)⟩,
    isText _ texts.version, isText _ texts.apiDirectory, isText _ texts.openapiOutput,
    isText _ texts.translationsOutput, List.forall_mem_nil _⟩

/-- The known settings and entries that are read back make an object that is read back. -/
theorem isReadBack_knownEntries_append (texts : settings.HasApartTexts)
    (distinct : (Entries.keys extras).Nodup) (unknown : ∀ entry ∈ extras, isKnown entry.1 = false)
    (areReadBack : ∀ entry ∈ extras, entry.1.isWhole = true ∧ Json.IsReadBack entry.2) :
    Json.IsReadBack (.object (settings.knownEntries ++ extras)) := by
  have allReadBack := List.forall_mem_append.mpr ⟨isReadBack_knownEntries texts, areReadBack⟩
  exact .object (nodup_keys_knownEntries_append settings distinct unknown)
    (fun entry member => Json.isApart_of_isWhole (allReadBack entry member).1)
    fun entry member => (allReadBack entry member).2

theorem AreKeptExtras.isReadBack (areKept : AreKeptExtras extras) (texts : settings.HasApartTexts) :
    Json.IsReadBack (.object (settings.knownEntries ++ extras)) := by
  refine isReadBack_knownEntries_append texts areKept.distinct areKept.unknown ?_
  intro entry member
  exact ⟨areKept.whole entry member,
    (areKept.kept entry member).imp (fun _ => id) fun _ => Json.isApart_of_isWhole⟩

/-! ## Reading the entries -/

theorem ofKnownEntries_eq_accepted_iff :
    ofKnownEntries entries = .accepted settings ↔
      Checked.required entries "name" (Checked.text ["name"]) = .accepted settings.name ∧
      Checked.orElse entries "package" none (Checked.text? ["package"]) =
        .accepted settings.package ∧
      Checked.orElse entries "version" (LooseText.ofString "0.1.0") (Checked.text ["version"]) =
        .accepted settings.version ∧
      Checked.orElse entries "api_dir" (LooseText.ofString "config/openapi")
        (Checked.text ["api_dir"]) = .accepted settings.apiDirectory ∧
      Checked.orElse entries "openapi_output" (LooseText.ofString "docs/openapi.json")
        (Checked.text ["openapi_output"]) = .accepted settings.openapiOutput ∧
      Checked.orElse entries "translations_output" (LooseText.ofString "docs/translations.json")
        (Checked.text ["translations_output"]) = .accepted settings.translationsOutput ∧
      unknownEntries entries = settings.extras := by
  simp only [ofKnownEntries, Checked.seq_eq_accepted_iff, Checked.map_eq_accepted_iff]
  constructor
  · rintro ⟨_, extras, ⟨_, translationsOutput, ⟨_, openapiOutput, ⟨_, apiDirectory, ⟨_, version,
      ⟨_, package, ⟨name, isName, rfl⟩, isPackage, rfl⟩, isVersion, rfl⟩, isDirectory, rfl⟩,
      isOpenapi, rfl⟩, isTranslations, rfl⟩, isExtras, rfl⟩
    exact ⟨isName, isPackage, isVersion, isDirectory, isOpenapi, isTranslations,
      Checked.accepted.inj isExtras⟩
  · rintro ⟨isName, isPackage, isVersion, isDirectory, isOpenapi, isTranslations, isExtras⟩
    exact ⟨_, _, ⟨_, _, ⟨_, _, ⟨_, _, ⟨_, _, ⟨_, _, ⟨_, isName, rfl⟩, isPackage, rfl⟩, isVersion,
      rfl⟩, isDirectory, rfl⟩, isOpenapi, rfl⟩, isTranslations, rfl⟩,
      congrArg Checked.accepted isExtras, rfl⟩

theorem ofEntries_eq_accepted_iff :
    ofEntries entries = .accepted settings ↔
      (∀ entry ∈ unknownEntries entries, entry.1.isWhole = true) ∧
        ofKnownEntries entries = .accepted settings := by
  rw [ofEntries, ← List.all_eq_true]
  split
  next areWhole => simp [areWhole]
  next notWhole => simp [notWhole, Checked.fault]

/-- Settings are read from the entries of an object. -/
theorem ofText_eq_ok_iff {text : Text} :
    ofText text = .ok settings ↔
      ∃ entries, Json.read text = .ok (.object entries) ∧
        ofEntries entries = .accepted settings := by
  rw [ofText, settingsOf]
  split
  next fault isRead => simp [isRead]
  next value isRead =>
    rw [isRead]
    cases value with
    | object entries =>
        cases isAccepted : ofEntries entries <;> simp [Checked.table, isAccepted]
    | _ => simp [Checked.table, Checked.fault]

/-- The entries that are written for settings are read as these settings. -/
theorem ofEntries_knownEntries_append (settings : ProjectSettings)
    (distinct : (Entries.keys settings.extras).Nodup)
    (unknown : ∀ entry ∈ settings.extras, isKnown entry.1 = false)
    (whole : ∀ entry ∈ settings.extras, entry.1.isWhole = true) :
    ofEntries (settings.knownEntries ++ settings.extras) = .accepted settings := by
  have extrasRead := unknownEntries_knownEntries_append settings unknown
  have allDistinct := nodup_keys_knownEntries_append settings distinct unknown
  have isText {key : String} {text fallback : LooseText}
      (member : textEntry key text ∈ settings.knownEntries) :
      Checked.orElse (settings.knownEntries ++ settings.extras) key fallback (Checked.text [key]) =
        .accepted text :=
    Checked.orElse_of_mem allDistinct (List.mem_append_left _ member) _ _
  have isName : textEntry "name" settings.name ∈ settings.knownEntries ++ settings.extras :=
    List.mem_append_left _ List.mem_cons_self
  rw [ofEntries_eq_accepted_iff, extrasRead, ofKnownEntries_eq_accepted_iff]
  refine ⟨whole, Checked.required_of_mem allDistinct isName _, ?_, isText ?_, isText ?_, isText ?_,
    isText ?_, extrasRead⟩
  · cases isPackage : settings.package with
    | none =>
        have notWritten : LooseText.ofString "package" ∉
            Entries.keys (settings.knownEntries ++ settings.extras) := by
          rw [Entries.keys_append, List.mem_append, keys_knownEntries, isPackage]
          rintro (isWritten | isExtra)
          · exact absurd isWritten (by decide)
          · obtain ⟨entry, member, same⟩ := List.mem_map.mp isExtra
            exact absurd (unknown entry member) (same ▸ by decide)
        rw [Checked.orElse, Entries.get?_of_not_mem notWritten]
    | some package =>
        have member : textEntry "package" package ∈ settings.knownEntries := by
          simp [knownEntries, isPackage]
        exact Checked.orElse_of_mem allDistinct (List.mem_append_left _ member) _ _
  all_goals simp [knownEntries]

/-- The texts of settings that were read have no adjacent halves. -/
theorem hasApartTexts_of_ofKnownEntries (areRead : ∀ entry ∈ entries, Json.IsReadValue entry.2)
    (isRead : ofKnownEntries entries = .accepted settings) : settings.HasApartTexts := by
  obtain ⟨isName, isPackage, isVersion, isDirectory, isOpenapi, isTranslations, -⟩ :=
    ofKnownEntries_eq_accepted_iff.mp isRead
  constructor
  case version => exact Checked.isApart_of_orElse areRead (Json.isApart_ofString _) isVersion
  case apiDirectory => exact Checked.isApart_of_orElse areRead (Json.isApart_ofString _) isDirectory
  case openapiOutput => exact Checked.isApart_of_orElse areRead (Json.isApart_ofString _) isOpenapi
  case translationsOutput =>
    exact Checked.isApart_of_orElse areRead (Json.isApart_ofString _) isTranslations
  case name =>
    rw [Checked.required] at isName
    split at isName
    next value isValue =>
      obtain rfl := Checked.text_eq_accepted_iff.mp isName
      exact Checked.isApart_of_string (areRead _ (Entries.mem_of_get? isValue))
    next => contradiction
  case package =>
    intro package isSet
    rw [Option.mem_def.mp isSet, Checked.orElse] at isPackage
    split at isPackage
    next value isValue =>
      obtain rfl := Checked.text?_eq_accepted_some_iff.mp isPackage
      exact Checked.isApart_of_string (areRead _ (Entries.mem_of_get? isValue))
    next => nomatch isPackage

/-- The entries that are not known are kept with their order. -/
theorem unknownEntries_of_ofEntries (isRead : ofEntries entries = .accepted settings) :
    unknownEntries entries = settings.extras := by
  obtain ⟨-, -, -, -, -, -, areExtras⟩ :=
    ofKnownEntries_eq_accepted_iff.mp (ofEntries_eq_accepted_iff.mp isRead).2
  exact areExtras

/-! ## The text of settings -/

/-- The text of settings that last is read as these settings. -/
theorem ofText_of_isLasting (lasting : settings.IsLasting) :
    ∃ text, settings.text? = some text ∧ ofText text = .ok settings := by
  obtain ⟨texts, areKept, notNull⟩ := lasting
  have allWritten : settings.extras.filter (fun entry => !entry.2.isNull) = settings.extras := by
    simpa using notNull
  have isText : settings.text? =
      some (Json.document .ascii (.object (settings.knownEntries ++ settings.extras))) := by
    rw [text?, allWritten, settledEntries?_of_isKept areKept.whole areKept.kept]
    rfl
  have isObject := Json.read_document .ascii (areKept.isReadBack texts)
  have isRead :=
    ofEntries_knownEntries_append settings areKept.distinct areKept.unknown areKept.whole
  exact ⟨_, isText, ofText_eq_ok_iff.mpr ⟨_, isObject, isRead⟩⟩

/-- What is written of entries that were read is kept when it is written again. -/
theorem areKeptExtras_of_settledEntries? {written : Entries LooseText JsonValue}
    (distinct : (Entries.keys extras).Nodup) (unknown : ∀ entry ∈ extras, isKnown entry.1 = false)
    (areRead : ∀ entry ∈ extras, Json.IsReadValue entry.2)
    (areWritten : settledEntries? extras = some written) : AreKeptExtras written := by
  obtain ⟨sameKeys, areKept⟩ := areKept_of_settledEntries? areRead areWritten
  refine ⟨sameKeys ▸ distinct, fun entry member => ?_, fun entry member => (areKept entry member).1,
    fun entry member => (areKept entry member).2⟩
  have isKey : entry.1 ∈ Entries.keys extras := sameKeys ▸ List.mem_map_of_mem member
  obtain ⟨extra, isExtra, same⟩ := List.mem_map.mp isKey
  exact same ▸ unknown extra isExtra

/-- Settings last if they are what is read from their text. -/
theorem isLasting_of_ofText {text : Text} (isText : settings.text? = some text)
    (isRead : ofText text = .ok settings) : settings.IsLasting := by
  obtain ⟨written, areWritten, same⟩ := Option.bind_eq_some_iff.mp isText
  obtain rfl := Option.some.inj same
  obtain ⟨entries, isObject, isRead⟩ := ofText_eq_ok_iff.mp isRead
  have areExtras := unknownEntries_of_ofEntries isRead
  cases Json.isReadValue_of_read isObject with
  | object distinct _ areRead =>
    have texts := hasApartTexts_of_ofKnownEntries areRead (ofEntries_eq_accepted_iff.mp isRead).2
    have extrasDistinct : (Entries.keys settings.extras).Nodup :=
      areExtras ▸ Entries.nodup_keys_filter _ distinct
    have extrasUnknown : ∀ entry ∈ settings.extras, isKnown entry.1 = false := by
      rw [← areExtras]
      exact fun entry member => by simpa using (List.mem_filter.mp member).2
    have extrasRead : ∀ entry ∈ settings.extras, Json.IsReadValue entry.2 := by
      rw [← areExtras]
      exact fun entry member => areRead entry (List.mem_of_mem_filter member)
    have areKept : AreKeptExtras written :=
      areKeptExtras_of_settledEntries? (Entries.nodup_keys_filter _ extrasDistinct)
        (fun entry member => extrasUnknown entry (List.mem_of_mem_filter member))
        (fun entry member => extrasRead entry (List.mem_of_mem_filter member)) areWritten
    -- What was written is read back, so the entries that were read are those that were written.
    have isWritten := Json.read_document .ascii (areKept.isReadBack texts)
    obtain rfl : settings.knownEntries ++ written = entries :=
      JsonValue.object.inj (Except.ok.inj (isWritten.symm.trans isObject))
    obtain rfl : written = settings.extras :=
      (unknownEntries_knownEntries_append settings areKept.unknown).symm.trans areExtras
    -- No entry was left out, because as many are written as there were.
    have sameKeys := (areKept_of_settledEntries?
      (fun entry member => extrasRead entry (List.mem_of_mem_filter member)) areWritten).1
    have sameLength := congrArg List.length sameKeys
    simp only [Entries.keys, List.length_map] at sameLength
    have noneNull := List.length_filter_eq_length_iff.mp sameLength.symm
    exact ⟨texts, areKept, by simpa using noneNull⟩

/-! ## The settings file of a project -/

/-- The settings of a project are what its settings file holds. -/
theorem loadProject_eq_ok_iff {tree : FileTree} {here : Location} {root : Path} {text : Text}
    (isFile : tree.node here (root.join (Path.ofString projectFileName)) = .ok (.file (.text text))) :
    loadProject tree here root = .ok settings ↔ ofText text = .ok settings := by
  have isThere : tree.isFile here (root.join (Path.ofString projectFileName)) = .ok true := by
    rw [FileTree.isFile, FileTree.holds, isFile]
    rfl
  have isRead : tree.readText here (root.join (Path.ofString projectFileName)) = .ok text := by
    rw [FileTree.readText, isFile]
  simp only [loadProject, readSettings, isThere, isRead, Sources.asked, Bind.bind, Except.bind]
  cases ofText text <;> simp

/-- A tree with nothing but the settings file of a project at its top. -/
def projectTree (text : Text) : FileTree :=
  [([projectFileName], .file (.text text))]

theorem node_projectTree (text : Text) :
    (projectTree text).node [] ((⟨.relative, []⟩ : Path).join (Path.ofString projectFileName)) =
      .ok (.file (.text text)) := by
  have isLocated : (projectTree text).locate [] ((⟨.relative, []⟩ : Path).join
      (Path.ofString projectFileName)) = .ok [projectFileName] := by
    rfl
  rw [FileTree.node, isLocated]
  rfl

/-- Settings have a text, and wherever that text is the settings file of a project, they
are the settings of the project. -/
def IsReloaded (settings : ProjectSettings) : Prop :=
  ∃ text, settings.text? = some text ∧
    ∀ (tree : FileTree) (here : Location) (root : Path),
      tree.node here (root.join (Path.ofString projectFileName)) = .ok (.file (.text text)) →
        loadProject tree here root = .ok settings

theorem isLasting_of_isReloaded (reloaded : settings.IsReloaded) : settings.IsLasting := by
  obtain ⟨text, isText, isLoaded⟩ := reloaded
  have isNode := node_projectTree text
  exact isLasting_of_ofText isText ((loadProject_eq_ok_iff isNode).mp (isLoaded _ _ _ isNode))

/-- Settings are read back from their settings file exactly if they last. -/
theorem isReloaded_iff_isLasting (settings : ProjectSettings) :
    settings.IsReloaded ↔ settings.IsLasting := by
  refine ⟨isLasting_of_isReloaded, fun lasting => ?_⟩
  obtain ⟨text, isText, isRead⟩ := ofText_of_isLasting lasting
  exact ⟨text, isText, fun _ _ _ isFile => (loadProject_eq_ok_iff isFile).mpr isRead⟩

/-- Data of any depth lasts, with a string that is half of a surrogate pair in it. -/
theorem isReloaded_nested :
    IsReloaded
      { name := "shop"
        extras :=
          [("ci", .object [("steps", .array [.null, .string [.half 0], .array [.int 3]])])] } := by
  refine (isReloaded_iff_isLasting _).mpr
    ⟨hasApartTexts_named (Json.isApart_ofString _), ?_, by decide⟩
  refine ⟨by decide, by decide, by decide, List.forall_mem_singleton.mpr ?_⟩
  refine .object (by decide) (by decide) (List.forall_mem_singleton.mpr (.array ?_))
  simp only [List.forall_mem_cons]
  exact ⟨.null, .string (List.isChain_singleton _),
    .array (List.forall_mem_singleton.mpr (.int (by decide +kernel))), List.forall_mem_nil _⟩

/-- Settings with half of a surrogate pair as the key of an inner object can be read, but
have no text.  Two halves that make a pair, or an integer with too many digits, do not
last either. -/
theorem not_isReloaded_surrogate_key :
    (let settings : ProjectSettings :=
        { name := "p", extras := [("x", .object [([.half 0], .bool true)])] };
      ofText (Json.document .ascii (.object (settings.knownEntries ++ settings.extras))) =
          .ok settings ∧
        settings.text? = none ∧ ¬ settings.IsReloaded) ∧
      ¬ IsReloaded { name := [.half 0x3D, .half 0x600] } ∧
      ¬ IsReloaded { name := "p", extras := [("x", .int Decimal.sizeBound)] } := by
  refine ⟨⟨ofText_eq_ok_iff.mpr ⟨_, Json.read_document _ ?_, ?_⟩, rfl, nofun⟩,
    fun reloaded => ?_, fun reloaded => ?_⟩
  · refine isReadBack_knownEntries_append (hasApartTexts_named (Json.isApart_ofString _))
      (by decide) (by decide) ?_
    refine List.forall_mem_singleton.mpr ⟨by decide, .object (by decide) ?_ ?_⟩
    · exact List.forall_mem_singleton.mpr (List.isChain_singleton _)
    · exact List.forall_mem_singleton.mpr (.bool true)
  · exact ofEntries_knownEntries_append _ (by decide) (by decide) (by decide)
  · have apart := (isLasting_of_isReloaded reloaded).texts.name
    exact List.isChain_pair.mp apart (by decide)
  · cases (isLasting_of_isReloaded reloaded).extras.kept _ List.mem_cons_self with
    | int canWrite =>
        rw [Decimal.isWritable, Int.natAbs_natCast, decide_eq_true_iff] at canWrite
        exact Nat.lt_irrefl _ canWrite

end ProjectSettings

end ApiWorkshop

import ApiWorkshop.Settings.Error

/-!
# Settings of the user

The user decides for all projects whether a new project becomes a repository,
and how results are shown.  Entries that are not known are passed over.
-/

namespace ApiWorkshop

/-- The settings of the user. -/
structure UserSettings where
  gitInit : Bool := true
  outputFormat : LooseText := "auto"
  deriving DecidableEq, Repr

namespace UserSettings

/-- Reads the entries of a settings file. -/
def ofEntries (entries : Entries LooseText JsonValue) : Checked UserSettings :=
  let defaults : UserSettings := {}
  let format := fun inner =>
    Checked.orElse inner "format" defaults.outputFormat (Checked.text ["output", "format"])
  UserSettings.mk
    <$> Checked.orElse entries "git_init" defaults.gitInit (Checked.truth ["git_init"])
    <*> Checked.orElse entries "output" defaults.outputFormat (Checked.table ["output"] format)

/-- Reads the text of a settings file. -/
def ofText (text : Text) : Except SettingsFault UserSettings :=
  settingsOf (Checked.table [] ofEntries) text

end UserSettings

end ApiWorkshop

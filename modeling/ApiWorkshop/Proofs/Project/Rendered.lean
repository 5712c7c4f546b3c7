import ApiWorkshop.Proofs.Api.Accepted
import ApiWorkshop.Proofs.Api.Reading
import ApiWorkshop.Proofs.Entries
import ApiWorkshop.Run.Compile

/-!
# Rendered files that have bytes

What a definition says is a text when it is rendered.  So the files and the
documents of a project have bytes if its settings have.
-/

namespace ApiWorkshop

namespace LooseText

@[simp]
theorem isWhole_append (first second : LooseText) :
    isWhole (first ++ second) = (first.isWhole && second.isWhole) :=
  List.all_append

@[simp]
theorem isWhole_ofString (text : String) : (ofString text).isWhole = true :=
  isWhole_ofText text.toList

theorem isWhole_unlines (contents : List LooseText) :
    (unlines contents).isWhole = contents.all isWhole := by
  induction contents with
  | nil => rfl
  | cons content contents ih =>
      have breakIsWhole : isWhole [.char '\n'] = true := rfl
      rw [unlines, List.flatMap_cons, isWhole_append, isWhole_append, breakIsWhole,
        Bool.and_true, List.all_cons, ← ih, unlines]

end LooseText

/-- All texts of some settings have bytes. -/
structure ProjectSettings.IsWhole (settings : ProjectSettings) : Prop where
  name : settings.name.isWhole = true
  version : settings.version.isWhole = true
  packageName : settings.packageName.isWhole = true
  apiDirectory : settings.apiDirectory.isWhole = true
  openapiOutput : settings.openapiOutput.isWhole = true
  translationsOutput : settings.translationsOutput.isWhole = true

/-- The texts of the settings that a rendered file shows as they are.  The version is not
one of them, for it is quoted. -/
def ProjectFile.shownSettings (settings : ProjectSettings) : ProjectFile → List LooseText
  | .page => [settings.name, settings.apiDirectory, settings.openapiOutput,
      settings.translationsOutput]
  | .manifest => [settings.packageName]
  | .packageFile => [settings.name]
  | .ignored | .routes | .schemas | .labels => []

namespace Overview

variable (settings : ProjectSettings)

theorem isWhole_page (path : String) (api : Api) :
    (page path settings api).isWhole =
      (ProjectFile.page.shownSettings settings).all LooseText.isWhole := by
  have introduced : (introduction settings api.description).isWhole =
      (ProjectFile.page.shownSettings settings).all LooseText.isWhole := by
    rw [introduction, LooseText.isWhole_unlines, introductionLines]
    split <;> simp [placeLines, ProjectFile.shownSettings]
  simp [page, introduced]

theorem isWhole_manifest :
    (manifest settings).isWhole =
      (ProjectFile.manifest.shownSettings settings).all LooseText.isWhole := by
  rw [manifest, LooseText.isWhole_unlines]
  simp [manifestLines, ProjectFile.shownSettings]

theorem isWhole_packageFile :
    (packageFile settings).isWhole =
      (ProjectFile.packageFile.shownSettings settings).all LooseText.isWhole := by
  rw [packageFile, LooseText.isWhole_unlines]
  simp [packageLines, ProjectFile.shownSettings]

end Overview

namespace ProjectFile

/-- A rendered file has bytes exactly if all that it shows of the settings has. -/
theorem isWhole_text (settings : ProjectSettings) (api : Api) (table : TranslationTable)
    (file : ProjectFile) :
    (file.text settings api table).isWhole = (file.shownSettings settings).all LooseText.isWhole := by
  cases file with
  | page => exact Overview.isWhole_page settings _ api
  | ignored => exact LooseText.isWhole_ofText _
  | manifest => exact Overview.isWhole_manifest settings
  | packageFile => exact Overview.isWhole_packageFile settings
  | routes => exact LooseText.isWhole_ofText _
  | schemas => exact LooseText.isWhole_ofText _
  | labels => exact LooseText.isWhole_ofText _

theorem whole_shownSettings {settings : ProjectSettings} (whole : settings.IsWhole)
    (file : ProjectFile) : (file.shownSettings settings).all LooseText.isWhole = true := by
  cases file <;>
    simp [shownSettings, whole.name, whole.packageName, whole.apiDirectory, whole.openapiOutput,
      whole.translationsOutput]

end ProjectFile

theorem isWhole_renderProject {settings : ProjectSettings}
    (whole : ∀ file : ProjectFile, (file.shownSettings settings).all LooseText.isWhole = true)
    (api : Api) (table : TranslationTable) :
    ∀ file ∈ renderProject settings api table, file.2.isWhole = true := by
  intro file member
  obtain ⟨kind, -, rfl⟩ := List.mem_map.mp (Entries.mem_of_mem_ofPairs member)
  exact (kind.isWhole_text settings api table).trans (whole kind)

/-! ## Documents -/

theorem isWhole_firstAfter {given : Option LooseText} {texts : List (Option String)}
    (whole : ∀ text ∈ given, text.isWhole = true) {fallback : LooseText}
    (isWhole : fallback.isWhole = true) :
    ((Normalize.firstAfter given texts).getD fallback).isWhole = true := by
  cases found : Normalize.firstAfter given texts with
  | none => exact isWhole
  | some text =>
      obtain ⟨source, member, kept⟩ := List.exists_of_findSome?_eq_some found
      have isSource := (Option.filter_eq_some_iff.mp kept).1
      rcases List.mem_cons.mp member with rfl | inTexts
      · exact whole text isSource
      · obtain ⟨string, -, rfl⟩ := List.mem_map.mp inTexts
        obtain ⟨plain, -, rfl⟩ := Option.map_eq_some_iff.mp isSource
        exact LooseText.isWhole_ofText _

theorem exists_of_compileApi {heading : Heading} {sources : List SourceText} {api : Api}
    (isApi : compileApi heading sources = .ok api) :
    ∃ definitions, Definition.readAll sources = .ok definitions ∧
      normalize heading definitions = .ok api := by
  unfold compileApi at isApi
  split at isApi
  · contradiction
  · contradiction
  next definitions areRead =>
    split at isApi
    next merged isMerged => exact ⟨definitions, areRead, by rw [isMerged, Except.ok.inj isApi]⟩
    · contradiction
    · contradiction

theorem exists_of_compileDocuments {settings : ProjectSettings} {api : Api}
    {table : TranslationTable} {documents : Entries LooseText Draft}
    (areDocuments : compileDocuments settings api table = .ok documents) :
    ∃ openapi translations,
      openapi.whole = (api.title.isWhole && api.version.isWhole) ∧
      documents = Entries.ofPairs [(settings.openapiOutput, openapi),
        (settings.translationsOutput, ⟨translations, true⟩)] := by
  unfold compileDocuments at areDocuments
  split at areDocuments
  next made isMade =>
    obtain ⟨openapi, isDraft, isMade⟩ := bind_eq_ok_iff.mp isMade
    obtain ⟨translations, -, isMade⟩ := bind_eq_ok_iff.mp isMade
    obtain ⟨text, -, isDraft⟩ := bind_eq_ok_iff.mp isDraft
    refine ⟨openapi, translations, ?_, ?_⟩
    · rw [← Except.ok.inj isDraft]
    · rw [← Except.ok.inj areDocuments, ← Except.ok.inj isMade]
  · contradiction

/-- The documents of a project have bytes, for they get its name and version. -/
theorem whole_of_compileDocuments {settings : ProjectSettings} (whole : settings.IsWhole)
    {sources : List SourceText} {api : Api} (isApi : compileApi settings.heading sources = .ok api)
    {table : TranslationTable} {documents : Entries LooseText Draft}
    (areDocuments : compileDocuments settings api table = .ok documents) :
    ∀ document ∈ documents, document.2.whole = true := by
  have wholeHeading : (api.title.isWhole && api.version.isWhole) = true := by
    obtain ⟨definitions, -, isMerged⟩ := exists_of_compileApi isApi
    obtain ⟨rfl, -⟩ := eq_merge_of_normalize isMerged
    simp only [Api.merge, Bool.and_eq_true]
    exact ⟨isWhole_firstAfter (by simp [ProjectSettings.heading, whole.name]) rfl,
      isWhole_firstAfter (by simp [ProjectSettings.heading, whole.version]) rfl⟩
  obtain ⟨openapi, translations, isWhole, rfl⟩ := exists_of_compileDocuments areDocuments
  intro document member
  have isDocument := Entries.mem_of_mem_ofPairs member
  simp only [List.mem_cons, List.not_mem_nil, or_false] at isDocument
  rcases isDocument with rfl | rfl
  · exact isWhole.trans wholeHeading
  · rfl

end ApiWorkshop

import Mathlib.Data.List.Nodup
import ApiWorkshop.Project.Rendering
import ApiWorkshop.Proofs.Files.Under
import ApiWorkshop.Proofs.Text.CaseWords

/-!
# The paths of the files of a project

The files of a project are at fixed places, of which some are in the directory
of its package.  For a package name each of them is at an inner path.
-/

namespace ApiWorkshop

/-- A text that stands for itself as a name in a path. -/
def IsPlainName (name : LooseText) : Prop :=
  name ≠ [] ∧ .char '/' ∉ name ∧ name ≠ LooseText.ofString "." ∧ name ≠ LooseText.ofString ".."

instance : DecidablePred IsPlainName :=
  fun _ => inferInstanceAs (Decidable (_ ∧ _))

/-- A text that can be the name of a package. -/
def IsPackage (package : LooseText) : Prop :=
  package ≠ [] ∧ ∀ c ∈ package, ∃ part, c = .char part ∧ Text.isPackagePart part = true

theorem isPackage_packageName (name : Text) :
    IsPackage (LooseText.ofText (Text.packageName name)) := by
  refine ⟨by simpa [LooseText.ofText] using Text.packageName_ne_nil name, fun c member => ?_⟩
  obtain ⟨part, inName, rfl⟩ := List.mem_map.mp member
  exact ⟨part, rfl, Text.isPackagePart_of_mem_packageName inName⟩

namespace IsPackage

variable {package : LooseText}

theorem notMem (isPackage : IsPackage package) {c : Char} (noPart : Text.isPackagePart c = false) :
    .char c ∉ package := by
  intro member
  obtain ⟨part, same, isPart⟩ := isPackage.2 _ member
  rw [← CodePoint.char.inj same, noPart] at isPart
  contradiction

theorem isClean (isPackage : IsPackage package) : package.IsClean := by
  intro c member
  obtain ⟨part, rfl, isPart⟩ := isPackage.2 c member
  refine ⟨rfl, fun isNull => isPackage.notMem (c := '\x00') (by decide) ?_⟩
  exact isNull ▸ member

theorem isPlainName (isPackage : IsPackage package) : IsPlainName package := by
  have noDot := isPackage.notMem (c := '.') (by decide)
  refine ⟨isPackage.1, isPackage.notMem (by decide), ?_, ?_⟩
  · rintro rfl
    exact absurd noDot (by decide)
  · rintro rfl
    exact absurd noDot (by decide)

end IsPackage

namespace ProjectFile

open Layout

theorem mem_all (file : ProjectFile) : file ∈ all := by
  cases file <;> decide

/-- The names of the path of a file for a package. -/
def names (package : LooseText) : ProjectFile → List LooseText
  | page => ["README.md"]
  | ignored => [".gitignore"]
  | manifest => ["pyproject.toml"]
  | packageFile => [("src" : LooseText), package, ("__init__.py" : LooseText)]
  | routes => [("src" : LooseText), package, ("routes.py" : LooseText)]
  | schemas => [("src" : LooseText), package, ("schemas.py" : LooseText)]
  | labels => [("src" : LooseText), package, ("translations.py" : LooseText)]

theorem partFor_package (package : LooseText) :
    partFor package (LooseText.ofString "__package__") = package := by
  simp [partFor, unmasked, Text.after?, Text.replaceAll, Text.replaceFrom, LooseText.ofString,
    LooseText.ofText]

theorem withoutEnding_append (place : LooseText) :
    withoutEnding (place ++ LooseText.ofString ".j2") = place := by
  rw [withoutEnding, Text.before?_append, Option.getD_some]

/-- The path of a file is made of its names. -/
theorem path_eq (file : ProjectFile) (package : LooseText) :
    file.path package = List.intercalate [.char '/'] (file.names package) := by
  have inPackage {place name : String}
      (parts : (Path.ofString place).parts = [("src" : LooseText), ("__package__" : LooseText),
        LooseText.ofString name ++ LooseText.ofString ".j2"])
      (isFixed : partFor package (LooseText.ofString name ++ LooseText.ofString ".j2") =
        LooseText.ofString name ++ LooseText.ofString ".j2") :
      outputPath place package = List.intercalate [.char '/'] [("src" : LooseText), package,
        LooseText.ofString name] := by
    have joined : List.intercalate [.char '/'] [("src" : LooseText), package,
          LooseText.ofString name ++ LooseText.ofString ".j2"] =
        List.intercalate [.char '/'] [("src" : LooseText), package, LooseText.ofString name] ++
          LooseText.ofString ".j2" := by
      simp [List.intercalate]
    have sameFront : partFor package (LooseText.ofString "src") = LooseText.ofString "src" := rfl
    rw [outputPath, parts, List.map_cons, List.map_cons, List.map_cons, List.map_nil, sameFront,
      partFor_package, isFixed, joined, withoutEnding_append]
  cases file with
  | page => rfl
  | ignored => rfl
  | manifest => rfl
  | packageFile => exact inPackage (by decide) rfl
  | routes => exact inPackage (by decide) rfl
  | schemas => exact inPackage (by decide) rfl
  | labels => exact inPackage (by decide) rfl

/-- The last name of the path of a file. -/
def fileName : ProjectFile → LooseText
  | page => "README.md"
  | ignored => ".gitignore"
  | manifest => "pyproject.toml"
  | packageFile => "__init__.py"
  | routes => "routes.py"
  | schemas => "schemas.py"
  | labels => "translations.py"

theorem fileName_suffix (file : ProjectFile) (package : LooseText) :
    file.fileName <:+ file.path package := by
  have inPackage (name : LooseText) :
      name <:+ List.intercalate [.char '/'] [("src" : LooseText), package, name] :=
    ⟨("src" : LooseText) ++ [.char '/'] ++ package ++ [.char '/'], by simp [List.intercalate]⟩
  rw [path_eq]
  cases file with
  | page | ignored | manifest => exact List.suffix_rfl
  | packageFile | routes | schemas | labels => exact inPackage _

theorem eq_of_fileName_suffix {first second : ProjectFile}
    (isSuffix : first.fileName <:+ second.fileName) : first = second := by
  have apart : ∀ first ∈ all, ∀ second ∈ all, first.fileName <:+ second.fileName →
      first = second := by decide +kernel
  exact apart first first.mem_all second second.mem_all isSuffix

/-- Whatever the package is, different files are at different paths. -/
theorem path_injective (package : LooseText) :
    Function.Injective fun file : ProjectFile => file.path package := by
  intro first second same
  have samePath : first.path package = second.path package := same
  have firstName := first.fileName_suffix package
  rw [samePath] at firstName
  rcases List.suffix_or_suffix_of_suffix firstName (second.fileName_suffix package) with
    isSuffix | isSuffix
  · exact eq_of_fileName_suffix isSuffix
  · exact (eq_of_fileName_suffix isSuffix).symm

theorem isPlainName_of_mem_names {package : LooseText} (isPackage : IsPackage package)
    (file : ProjectFile) : ∀ name ∈ file.names package, IsPlainName name := by
  have isPlain := isPackage.isPlainName
  cases file <;> simp only [names, List.forall_mem_cons, isPlain, true_and] <;> decide

/-- The names of the path of a file stand between its slashes. -/
theorem pieces_path {package : LooseText} (isPackage : IsPackage package) (file : ProjectFile) :
    Text.pieces (.char '/') (file.path package) = file.names package := by
  rw [path_eq]
  exact Text.pieces_intercalate (by cases file <;> exact List.cons_ne_nil _ _)
    fun name member => (isPlainName_of_mem_names isPackage file name member).2.1

theorem rootOf_path (package : LooseText) (file : ProjectFile) :
    Path.rootOf (file.path package) = .relative := by
  rw [path_eq]
  cases file <;> rfl

theorem ofText_path {package : LooseText} (isPackage : IsPackage package) (file : ProjectFile) :
    Path.ofText (file.path package) = ⟨.relative, file.names package⟩ := by
  have areKept : ∀ name ∈ file.names package,
      (!name.isEmpty && name != [.char '.']) = true := by
    intro name member
    obtain ⟨someChar, -, noDot, -⟩ := isPlainName_of_mem_names isPackage file name member
    have notDot : name ≠ [.char '.'] := noDot
    simp [someChar, notDot]
  rw [Path.ofText, rootOf_path, Path.namesOf, pieces_path isPackage,
    List.filter_eq_self.mpr areKept]

theorem isInner_path {package : LooseText} (isPackage : IsPackage package) (file : ProjectFile) :
    (Path.ofText (file.path package)).IsInner := by
  rw [ofText_path isPackage]
  have noStep : package.label ≠ ".." := by
    intro isStep
    apply isPackage.notMem (c := '.') (by decide)
    rw [(FileTree.label_eq_step_iff package isPackage.isClean).mp isStep]
    decide
  have inPackage (name : LooseText) (clean : name.IsClean) (isName : name.label ≠ "..") :
      Path.IsInner ⟨.relative, [("src" : LooseText), package, name]⟩ := by
    refine ⟨rfl, List.cons_ne_nil _ _, ?_, ?_⟩
    · simp only [Path.IsClean, List.forall_mem_cons]
      exact ⟨by decide, isPackage.isClean, clean, by simp⟩
    · simp only [List.forall_mem_cons]
      exact ⟨by decide, noStep, isName, by simp⟩
  cases file with
  | page => simp only [names]; decide
  | ignored => simp only [names]; decide
  | manifest => simp only [names]; decide
  | packageFile => exact inPackage _ (by decide) (by decide)
  | routes => exact inPackage _ (by decide) (by decide)
  | schemas => exact inPackage _ (by decide) (by decide)
  | labels => exact inPackage _ (by decide) (by decide)

end ProjectFile

theorem nodup_paths (package : LooseText) :
    (ProjectFile.all.map fun file => file.path package).Nodup :=
  List.Nodup.map (ProjectFile.path_injective package) (by decide)

/-- No rendered file takes the place of another one. -/
theorem renderProject_eq (settings : ProjectSettings) (api : Api) (table : TranslationTable) :
    renderProject settings api table = ProjectFile.all.map fun file =>
      (file.path settings.packageName, file.text settings api table) := by
  refine Entries.ofPairs_of_nodup ?_
  simp only [Entries.keys, List.map_map, Function.comp_def]
  exact nodup_paths settings.packageName

theorem keys_renderProject (settings : ProjectSettings) (api : Api) (table : TranslationTable) :
    Entries.keys (renderProject settings api table) =
      ProjectFile.all.map fun file => file.path settings.packageName := by
  simp only [renderProject_eq, Entries.keys, List.map_map, Function.comp_def]

theorem mem_renderProject_iff {settings : ProjectSettings} {api : Api} {table : TranslationTable}
    {path text : LooseText} :
    (path, text) ∈ renderProject settings api table ↔
      ∃ file : ProjectFile, file.path settings.packageName = path ∧
        file.text settings api table = text := by
  simp only [renderProject_eq, List.mem_map, ProjectFile.mem_all, true_and, Prod.mk.injEq]

theorem get?_renderProject (settings : ProjectSettings) (api : Api) (table : TranslationTable)
    (file : ProjectFile) :
    Entries.get? (file.path settings.packageName) (renderProject settings api table) =
      some (file.text settings api table) :=
  Entries.get?_of_mem (Entries.nodup_keys_ofPairs _) (mem_renderProject_iff.mpr ⟨file, rfl, rfl⟩)

end ApiWorkshop

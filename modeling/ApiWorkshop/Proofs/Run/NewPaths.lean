import ApiWorkshop.Proofs.Api.Completed
import ApiWorkshop.Proofs.Api.Gathered
import ApiWorkshop.Proofs.Project.Manifest
import ApiWorkshop.Proofs.Run.Fresh
import ApiWorkshop.Proofs.Run.NewProject
import ApiWorkshop.Proofs.Text.SnakeCase

/-!
# The paths of a new project

The starter definition names the project in a comment only, so it is read alike for every
name without control characters, and a plan is made for each of them.  The paths that are
planned are fixed but for the name of the package, which is in snake case and begins with a
letter: they are different, and none of them leads out of the directory of the project.
-/

namespace ApiWorkshop

namespace Toml

/-! ## Reading in two parts -/

/-- What is read in a number of steps, and the text that is left then. -/
def statementsLeft : Nat → Builder → Text → Except Stop (Builder × Text)
  | 0, builder, text => .ok (builder, text)
  | steps + 1, builder, text =>
      match skipSpaces text with
      | [] => .ok (builder, [])
      | '\n' :: rest => statementsLeft steps builder rest
      | text => do
          let (builder, rest) ← statement builder text
          let rest ← statementEnd rest
          statementsLeft steps builder rest

theorem statements_nil (steps : Nat) (builder : Builder) :
    statements steps builder [] = .ok builder := by
  cases steps <;> rfl

theorem statements_of_text {steps : Nat} {builder : Builder} {text left : Text}
    (isLeft : skipSpaces text = left) (noEnd : left ≠ [])
    (noLine : ∀ rest, left ≠ '\n' :: rest) :
    statements (steps + 1) builder text =
      statement builder left >>= fun (changed, rest) =>
        statementEnd rest >>= statements steps changed := by
  rw [statements, isLeft]
  split
  next => exact absurd rfl noEnd
  next rest => exact absurd rfl (noLine rest)
  next => rfl

theorem statementsLeft_of_text {steps : Nat} {builder : Builder} {text left : Text}
    (isLeft : skipSpaces text = left) (noEnd : left ≠ [])
    (noLine : ∀ rest, left ≠ '\n' :: rest) :
    statementsLeft (steps + 1) builder text =
      statement builder left >>= fun (changed, rest) =>
        statementEnd rest >>= statementsLeft steps changed := by
  rw [statementsLeft, isLeft]
  split
  next => exact absurd rfl noEnd
  next rest => exact absurd rfl (noLine rest)
  next => rfl

theorem statements_add (steps more : Nat) (builder : Builder) (text : Text) :
    statements (steps + more) builder text =
      statementsLeft steps builder text >>= fun (changed, rest) =>
        statements more changed rest := by
  induction steps generalizing builder text with
  | zero => rw [Nat.zero_add]; rfl
  | succ steps ih =>
      rw [Nat.succ_add_eq_add_succ, Nat.add_succ]
      by_cases noEnd : skipSpaces text = []
      · rw [statements, statementsLeft, noEnd]
        exact (statements_nil more builder).symm
      by_cases noLine : ∃ rest, skipSpaces text = '\n' :: rest
      · obtain ⟨rest, isLine⟩ := noLine
        rw [statements, statementsLeft, isLine]
        exact ih builder rest
      · have noLine := not_exists.mp noLine
        rw [Nat.succ_eq_add_one, statements_of_text rfl noEnd noLine,
          statementsLeft_of_text rfl noEnd noLine, bind_assoc]
        refine bind_congr fun found => ?_
        rw [bind_assoc]
        exact bind_congr fun rest => ih found.1 rest

/-- A line with a comment changes nothing. -/
theorem readsLine_comment {comment : Text} (noControl : ∀ c ∈ comment, isControl c = false)
    (builder : Builder) : ReadsLine ('#' :: comment) builder builder := by
  intro steps rest
  have inLine : ∀ c ∈ comment, (c != '\n') = true := by
    intro c member
    have isAllowed := noControl c member
    refine bne_iff_ne.mpr fun isLine => ?_
    rw [isLine] at isAllowed
    exact absurd isAllowed (by decide)
  have isTaken : (comment ++ '\n' :: rest).takeWhile (· != '\n') = comment := by
    rw [List.takeWhile_append_of_pos inLine]
    simp
  have isDropped : (comment ++ '\n' :: rest).dropWhile (· != '\n') = '\n' :: rest := by
    rw [List.dropWhile_append_of_pos inLine]
    rfl
  have noneFound : comment.find? isControl = none :=
    List.find?_eq_none.mpr fun c member => by simp [noControl c member]
  have isEnd : statementEnd ('#' :: (comment ++ '\n' :: rest)) = .ok rest := by
    rw [statementEnd, skipSpaces_cons (by decide), skipComment]
    simp only [isTaken, noneFound, isDropped]
    rfl
  rw [List.cons_append, statements_cons (by decide) (by decide), statement.eq_3]
  exact congrArg (· >>= statements steps builder) isEnd

/-- A document that a number of steps are enough for is read alike after a comment. -/
theorem decode_comment {comment content : Text} (noControl : ∀ c ∈ comment, isControl c = false)
    (noReturn : '\r' ∉ content) {steps : Nat} (isLong : steps ≤ content.length) {final : Builder}
    (isFinal : ∀ more, statements (steps + more) {} content = .ok final) (source : String) :
    Toml.decode source ('#' :: comment ++ '\n' :: content) = .ok final.entries := by
  have noReturnInText : '\r' ∉ '#' :: comment ++ '\n' :: content := by
    have noReturnInComment : '\r' ∉ comment := fun member =>
      absurd (noControl _ member) (by decide)
    simp [noReturnInComment, noReturn]
  have isFuel : ('#' :: comment ++ '\n' :: content).length + 1 =
      steps + (content.length - steps + comment.length + 2) + 1 := by
    simp only [List.length_append, List.length_cons]
    omega
  refine Overview.decode_eq_ok_iff.mpr ⟨final, ?_, rfl⟩
  rw [Region.unixLines_of_noReturn noReturnInText, isFuel, readsLine_comment noControl {}]
  exact isFinal _

end Toml

/-! ## The starter definition -/

namespace Starter

open Toml

/-- Whether a content is read to its end in a number of steps. -/
def isReadIn (steps : Nat) (content : Text) : Bool :=
  match statementsLeft steps {} content with
  | .ok (_, []) => true
  | _ => false

theorem exists_of_isReadIn {steps : Nat} {content : Text} (isRead : isReadIn steps content = true) :
    ∃ final, ∀ more, statements (steps + more) {} content = .ok final := by
  rw [isReadIn] at isRead
  split at isRead
  next final isFinal =>
    refine ⟨final, fun more => ?_⟩
    rw [statements_add, isFinal]
    exact statements_nil more final
  next => contradiction

theorem isReadIn_content :
    isReadIn remainingLines.length (Text.ofLines remainingLines) = true ∧
      '\r' ∉ Text.ofLines remainingLines := by
  -- The content is found line by line, so that the kernel need not decode the literals.
  obtain ⟨content, areLines, isRead⟩ : ∃ content, Text.ofLines remainingLines = content ∧
      (isReadIn remainingLines.length content = true ∧ '\r' ∉ content) := by
    apply Exists.intro
    apply And.intro
    · unfold remainingLines
      repeat apply Text.ofLines_cons_of_eq rfl
      exact rfl
    · decide +kernel
  rw [areLines]
  exact isRead

theorem length_le_ofLines (lines : List String) : lines.length ≤ (Text.ofLines lines).length := by
  rw [← List.length_map String.toList]
  exact Text.length_le_unlines _

theorem comment_append (name : Text) (content : Text) :
    "# API definition for ".toList ++ name ++ ".\n".toList ++ content =
      '#' :: (" API definition for ".toList ++ name ++ ['.']) ++ '\n' :: content := by
  simp

/-- The starter definition is read alike for every name without control characters. -/
theorem exists_document : ∃ document, ∀ source name : String,
    (∀ c ∈ name.toList, isControl c = false) →
      Toml.decode source (Starter.text name) = .ok document := by
  obtain ⟨isRead, noReturn⟩ := isReadIn_content
  obtain ⟨final, isFinal⟩ := exists_of_isReadIn isRead
  refine ⟨final.entries, fun source name noControl => ?_⟩
  have inComment : ∀ c ∈ " API definition for ".toList ++ name.toList ++ ['.'],
      isControl c = false := by
    have isFront : ∀ c ∈ " API definition for ".toList, isControl c = false := by
      simp [isControl]
    simp only [List.forall_mem_append]
    exact ⟨⟨isFront, noControl⟩, by simp [isControl]⟩
  have isDocument := decode_comment inComment noReturn (length_le_ofLines _) isFinal source
  rwa [← comment_append] at isDocument

end Starter

/-- Texts with the same document have the same definitions. -/
theorem Definition.readAll_of_decode {source : String} {text other : Text}
    {document : Entries String Value} (isDecoded : Toml.decode source text = .ok document)
    (isOther : Toml.decode source other = .ok document) {definitions : List Definition}
    (areRead : Definition.readAll [⟨source, text⟩] = .ok definitions) :
    Definition.readAll [⟨source, other⟩] = .ok definitions := by
  obtain ⟨definition, isDefinition, isRest⟩ := bind_eq_ok_iff.mp areRead
  refine bind_eq_ok_iff.mpr ⟨definition, ?_, isRest⟩
  obtain ⟨found, isFound, isDefined⟩ := Definition.read_eq_ok_iff.mp isDefinition
  obtain rfl := Except.ok.inj (isDecoded.symm.trans isFound)
  exact Definition.read_eq_ok_iff.mpr ⟨document, isOther, isDefined⟩

theorem Api.Annotates.of_merge {heading other : Heading} {definitions : List Definition}
    {notes : Notes} (annotates : (Api.merge heading definitions).Annotates notes) :
    (Api.merge other definitions).Annotates notes := by
  cases annotates with
  | schema isSchema => exact .schema isSchema
  | field isSchema holds => exact .field isSchema holds
  | parameter isEndpoint isParameter => exact .parameter isEndpoint isParameter

namespace NewRequest

/-! ## Plans for all names -/

theorem exists_api (request : NewRequest)
    (noControl : ∀ c ∈ request.name.toList, Toml.isControl c = false) :
    ∃ api, compileApi request.settings.heading
        [⟨request.starterPath.label, Starter.text request.name⟩] = .ok api ∧
      ∃ content, JsonValue.ofValue (OpenApi.document api) = .ok content := by
  obtain ⟨sample, isSample, sampleText⟩ :=
    MissingParent.exists_of_isWritable MissingParent.isWritable_starter
  obtain ⟨document, isDocument⟩ := Starter.exists_document
  obtain ⟨definitions, sampleRead, isMerged⟩ := exists_of_compileApi isSample
  have plainSample : ∀ c ∈ MissingParent.request.name.toList, Toml.isControl c = false := by
    simp [MissingParent.request, Toml.isControl]
  have areRead : Definition.readAll
      [⟨request.starterPath.label, Starter.text request.name⟩] = .ok definitions :=
    Definition.readAll_of_decode (isDocument _ _ plainSample) (isDocument _ _ noControl) sampleRead
  obtain ⟨passed, rfl⟩ := Api.normalize_eq_ok_iff_passed.mp isMerged
  have isApi : normalize request.settings.heading definitions =
      .ok (Api.merge request.settings.heading definitions) :=
    Api.normalize_eq_ok_iff_passed.mpr ⟨passed, rfl⟩
  refine ⟨Api.merge request.settings.heading definitions, ?_, ?_⟩
  · simp only [compileApi, areRead, isApi]
  · have sampleWritable := (OpenApi.all_hasText_iff (Api.regular_of_normalize areRead isMerged)).mp
      (JsonValue.exists_ofValue_iff.mp sampleText)
    refine JsonValue.exists_ofValue_iff.mpr
      ((OpenApi.all_hasText_iff (Api.regular_of_normalize areRead isApi)).mpr ?_)
    exact ⟨fun notes annotates => sampleWritable.choices notes annotates.of_merge,
      fun notes annotates => sampleWritable.integers notes annotates.of_merge⟩

/-! ## The paths that are planned -/

/-- The paths of all files of a new project. -/
def paths (request : NewRequest) : List LooseText :=
  ProjectFile.all.map (fun file => file.path request.settings.packageName) ++
    [request.starterPath, LooseText.ofString projectFileName] ++
      [request.settings.openapiOutput, request.settings.translationsOutput]

/-- A path that does not lead out of the directory it is below: it is relative, and between
its slashes are names that stand for themselves. -/
def IsPlainPath (path : LooseText) : Prop :=
  Path.rootOf path = .relative ∧ ∀ name ∈ Text.pieces (.char '/') path, IsPlainName name

instance : DecidablePred IsPlainPath :=
  fun _ => inferInstanceAs (Decidable (_ ∧ _))

variable {request : NewRequest} {operations : List FileOperation}

theorem isPackage_settings (request : NewRequest) : IsPackage request.settings.packageName := by
  rw [packageName_settings]
  exact isPackage_packageName _

theorem isPlainPath_of_mem_paths : ∀ path ∈ request.paths, IsPlainPath path := by
  have fixed : IsPlainPath (LooseText.ofString "config/openapi/user.toml") ∧
      IsPlainPath (LooseText.ofString projectFileName) ∧
      IsPlainPath (LooseText.ofString "docs/openapi.json") ∧
      IsPlainPath (LooseText.ofString "docs/translations.json") := by decide
  rw [paths, List.forall_mem_append, List.forall_mem_append, List.forall_mem_map]
  refine ⟨⟨fun file _ => ⟨ProjectFile.rootOf_path _ file, ?_⟩, ?_⟩, ?_⟩
  · rw [ProjectFile.pieces_path (isPackage_settings request)]
    exact ProjectFile.isPlainName_of_mem_names (isPackage_settings request) file
  · exact List.forall_mem_cons.mpr ⟨fixed.1, List.forall_mem_singleton.mpr fixed.2.1⟩
  · exact List.forall_mem_cons.mpr ⟨fixed.2.2.1, List.forall_mem_singleton.mpr fixed.2.2.2⟩

theorem nodup_paths (request : NewRequest) : request.paths.Nodup := by
  -- The last names do not have the package in them, and they are different already.
  have lastNames : request.paths.map (fun path => (Text.pieces (.char '/') path).getLastD []) =
      ["README.md", ".gitignore", "pyproject.toml", "__init__.py", "routes.py", "schemas.py",
        "translations.py", "user.toml", "specforge.json", "openapi.json",
        "translations.json"].map LooseText.ofString := by
    have isPackage := isPackage_settings request
    simp only [paths, ProjectFile.all, List.map_append, List.map_cons, List.map_nil,
      ProjectFile.pieces_path isPackage]
    rfl
  refine List.Nodup.of_map (fun path => (Text.pieces (.char '/') path).getLastD []) ?_
  rw [lastNames]
  decide

theorem keys_put_of_nodup {entries : Entries LooseText LooseText} {key : LooseText}
    (value : LooseText) (distinct : (Entries.keys entries ++ [key]).Nodup) :
    Entries.keys (Entries.put key value entries) = Entries.keys entries ++ [key] :=
  Entries.keys_put_of_not_mem value fun member =>
    (List.nodup_append.mp distinct).2.2 key member key (List.mem_singleton_self key) rfl

theorem keys_files (request : NewRequest) (api : Api) (table : TranslationTable) :
    Entries.keys (request.files api table) =
      ProjectFile.all.map (fun file => file.path request.settings.packageName) ++
        [request.starterPath, LooseText.ofString projectFileName] := by
  have distinct := nodup_paths request
  rw [paths, List.nodup_append, List.append_cons] at distinct
  obtain ⟨distinct, -⟩ := distinct
  rw [List.append_cons]
  have withStarter := (List.nodup_append.mp distinct).1
  have rendered : Entries.keys (renderProject request.settings api table) =
      ProjectFile.all.map fun file => file.path request.settings.packageName := by
    have areFiles := (List.nodup_append.mp withStarter).1
    have areKeys : Entries.keys (ProjectFile.all.map fun file =>
        (file.path request.settings.packageName, file.text request.settings api table)) =
          ProjectFile.all.map fun file => file.path request.settings.packageName := by
      simp only [Entries.keys, List.map_map, Function.comp_def]
    rw [← areKeys] at areFiles
    rw [renderProject, Entries.ofPairs_of_nodup areFiles, areKeys]
  rw [← rendered] at withStarter distinct ⊢
  have isStarter := keys_put_of_nodup (Starter.text request.name) withStarter
  rw [← isStarter] at distinct ⊢
  rw [files]
  exact keys_put_of_nodup _ distinct

theorem map_path_creations (entries : Entries LooseText Plan.Candidate) :
    (entries.map fun entry => FileOperation.create entry.1 entry.2.draft).map
      FileOperation.path = Entries.keys entries := by
  rw [List.map_map]
  exact List.map_congr_left fun entry _ => rfl

/-- One file is created for each path. -/
theorem paths_of_plan (isPlan : request.plan = .ok operations) :
    operations.map FileOperation.path = request.paths ∧
      ∀ operation ∈ operations, operation.change = .create := by
  obtain ⟨api, table, documents, -, areDocuments, planned⟩ := exists_of_plan isPlan
  obtain ⟨openapi, translations, -, rfl⟩ := exists_of_compileDocuments areDocuments
  rw [Plan.plan_of_isBlank ⟨fun _ => rfl, rfl⟩] at planned
  obtain rfl := Except.ok.inj planned
  have distinct := nodup_paths request
  rw [paths, List.nodup_append] at distinct
  have areDocuments : Entries.ofPairs [(request.settings.openapiOutput, openapi),
      (request.settings.translationsOutput, ⟨translations, true⟩)] =
        [(request.settings.openapiOutput, openapi),
          (request.settings.translationsOutput, ⟨translations, true⟩)] :=
    Entries.ofPairs_of_nodup distinct.2.1
  constructor
  · rw [map_path_creations, Plan.keys_candidates, keys_files, areDocuments, paths]
    simp only [Entries.keys, List.map_cons, List.map_nil]
  · exact List.forall_mem_map.mpr fun entry _ => rfl

/-- A plan is made for every name without control characters that can be one, wherever its
place is free. -/
theorem exists_checkedPlan {around : Surroundings} {tree : FileTree}
    (isValid : isValidName request.name = true)
    (noControl : ∀ c ∈ request.name.toList, Toml.isControl c = false)
    (isFree : isOccupied tree around.workingDirectory request.root = .ok false) :
    ∃ operations, request.checkedPlan around tree = .ok operations := by
  obtain ⟨api, isApi, hasText⟩ := exists_api request noControl
  obtain ⟨operations, isPlan, -⟩ := exists_plan isApi hasText
  exact ⟨operations, checkedPlan_eq_ok_iff.mpr ⟨isValid, isFree, isPlan⟩⟩

/-- The package of a new project is in snake case, begins with a letter, and is the package
of itself.  A new project creates one file for each of its paths; these are different, and
none of them leads out of the directory of the project. -/
theorem planned_paths (request : NewRequest) (around : Surroundings) (tree : FileTree) :
    Text.IsPackageName (Text.packageName request.name.toList) ∧
      Text.packageName (Text.packageName request.name.toList) =
        Text.packageName request.name.toList ∧
      (isValidName request.name = true →
        (∀ c ∈ request.name.toList, Toml.isControl c = false) →
        isOccupied tree around.workingDirectory request.root = .ok false →
        ∃ operations, request.checkedPlan around tree = .ok operations) ∧
      ∀ operations, request.checkedPlan around tree = .ok operations →
        operations.map FileOperation.path = request.paths ∧
          (operations.map FileOperation.path).Nodup ∧
          ∀ operation ∈ operations, operation.change = .create ∧ IsPlainPath operation.path := by
  have isName := Text.isPackageName_packageName request.name.toList
  refine ⟨isName, Text.packageName_eq_self isName, exists_checkedPlan, fun operations isPlan => ?_⟩
  obtain ⟨arePaths, areCreated⟩ := paths_of_plan (checkedPlan_eq_ok_iff.mp isPlan).2.2
  refine ⟨arePaths, arePaths ▸ nodup_paths request,
    fun operation member => ⟨areCreated operation member, ?_⟩⟩
  exact isPlainPath_of_mem_paths _ (arePaths ▸ List.mem_map_of_mem member)

theorem planned_paths_of_missingParent :
    ∃ operations,
      MissingParent.request.checkedPlan MissingParent.around [] = .ok operations ∧
        operations.map FileOperation.path = MissingParent.request.paths ∧
          (operations.map FileOperation.path).Nodup := by
  obtain ⟨-, -, isPlanned, arePaths⟩ := planned_paths MissingParent.request MissingParent.around []
  obtain ⟨operations, isPlan⟩ := isPlanned (by decide)
    (by simp [MissingParent.request, Toml.isControl])
    (by decide : isOccupied [] [] MissingParent.request.root = .ok false)
  exact ⟨operations, isPlan, (arePaths operations isPlan).1, (arePaths operations isPlan).2.1⟩

end NewRequest

end ApiWorkshop

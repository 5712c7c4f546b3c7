import ApiWorkshop.Project.Rendering
import ApiWorkshop.Proofs.Files.Ways
import ApiWorkshop.Proofs.Project.Paths
import ApiWorkshop.Proofs.Region.Written
import ApiWorkshop.Proofs.Region.Splices
import ApiWorkshop.Proofs.Text.CaseWords
import ApiWorkshop.Proofs.Toml.Lasting
import ApiWorkshop.Proofs.Toml.Lines
import ApiWorkshop.Run.Compile
import ApiWorkshop.Toml.Report
import Mathlib.Data.List.Basic

/-!
# What a manifest says

The manifest of a project is a document with its name, its version and the directory of
its package.  The name always stands there as it should.  The version is written as a
quoted literal and the directory without any escapes, so a document says other things
than the settings if the literal is read in another way or if the package has a character
that does not stand for itself.
-/

namespace ApiWorkshop

namespace LooseText

theorem ofText_append (first second : Text) :
    ofText (first ++ second) = ofText first ++ ofText second :=
  List.map_append

theorem unlines_map_ofText (lines : List Text) (last : LooseText) :
    unlines (lines.map ofText ++ [last]) =
      ofText (Text.unlines lines) ++ (last ++ [.char '\n']) := by
  induction lines with
  | nil => simp [unlines, Text.unlines, ofText]
  | cons line lines ih =>
      rw [unlines] at ih
      simp only [unlines, List.map_cons, List.cons_append, List.flatMap_cons, ih,
        Text.unlines_cons]
      simp [ofText]

end LooseText

namespace Overview

open Toml

/-! ## The lines of a manifest -/

/-- What has been read in the first table, with the keys of the arrays in it. -/
def inBuildSystem (pairs : Entries String Value) (sealedKeys : List Key) : Builder where
  entries := [("build-system", .table pairs)]
  header := ["build-system"]
  sealedKeys
  declaredKeys := [["build-system"]]

def buildSystem : Entries String Value := [
  ("requires", .array [.string "hatchling"]),
  ("build-backend", .string "hatchling.build")]

/-- What has been read in the table of the project. -/
def inProject (pairs : Entries String Value) (sealedKeys : List Key) : Builder where
  entries := [("build-system", .table buildSystem), ("project", .table pairs)]
  header := ["project"]
  sealedKeys
  declaredKeys := [["project"], ["build-system"]]

def project (name version : String) : Entries String Value := [
  ("name", .string name),
  ("version", .string version),
  ("requires-python", .string ">=3.11"),
  ("dependencies", .array [])]

/-- What has been read in the last table, below that of the project. -/
def inWheel (project pairs : Entries String Value) (sealedKeys : List Key) : Builder where
  entries := [
    ("build-system", .table buildSystem),
    ("project", .table project),
    ("tool", .table [("hatch", .table [("build", .table [("targets", .table [
      ("wheel", .table pairs)])])])])]
  header := ["tool", "hatch", "build", "targets", "wheel"]
  sealedKeys
  declaredKeys := [["tool", "hatch", "build", "targets", "wheel"], ["project"], ["build-system"]]

/-- The arrays that have been read in front of the last table. -/
def arrays : List Key := [["project", "dependencies"], ["build-system", "requires"]]

/-- The lines up to the name of a project. -/
def openingLines (name : LooseText) : List Text := [
  "[build-system]",
  "requires = [\"hatchling\"]",
  "build-backend = \"hatchling.build\"",
  "",
  "[project]",
  "name = " ++ name.quoted]

/-- The lines between its version and its package. -/
def closingLines : List Text := [
  "requires-python = \">=3.11\"",
  "dependencies = []",
  "",
  "[tool.hatch.build.targets.wheel]"]

theorem readsLines_opening {name : LooseText} (alike : ReadsAlike name) :
    ReadsLines (openingLines name) {}
      (inProject [("name", .string name.label)] [["build-system", "requires"]]) := by
  have opensBuildSystem : ReadsLine "[build-system]" {} (inBuildSystem [] []) :=
    readsLine_of_statement (by decide) (by decide) fun rest => rfl
  have addsRequires : ReadsLine "requires = [\"hatchling\"]" (inBuildSystem [] [])
      (inBuildSystem [("requires", .array [.string "hatchling"])]
        [["build-system", "requires"]]) :=
    @readsLine_singleton "requires" "hatchling" (by simp [IsBare, isBareKey])
      (by simp [IsPlain, isControl]) _ _ rfl
  have addsBackend : ReadsLine "build-backend = \"hatchling.build\""
      (inBuildSystem [("requires", .array [.string "hatchling"])] [["build-system", "requires"]])
      (inBuildSystem buildSystem [["build-system", "requires"]]) :=
    @readsLine_string "build-backend" "hatchling.build" (by simp [IsBare, isBareKey])
      (by simp [IsPlain, isControl]) _ _ rfl
  have opensProject : ReadsLine "[project]"
      (inBuildSystem buildSystem [["build-system", "requires"]])
      (inProject [] [["build-system", "requires"]]) :=
    readsLine_of_statement (by decide) (by decide) fun rest => rfl
  have addsName : ReadsLine ("name = " ++ name.quoted)
      (inProject [] [["build-system", "requires"]])
      (inProject [("name", .string name.label)] [["build-system", "requires"]]) :=
    @readsLine_quoted "name" (by simp [IsBare, isBareKey]) _ alike _ _ rfl
  exact readsLines_cons opensBuildSystem <| readsLines_cons addsRequires <|
    readsLines_cons addsBackend <| readsLines_cons (readsLine_blank _) <|
    readsLines_cons opensProject <| readsLines_cons addsName <| readsLines_nil _

theorem readsLines_closing (name version : String) :
    ReadsLines closingLines
      (inProject [("name", .string name), ("version", .string version)]
        [["build-system", "requires"]])
      (inWheel (project name version) [] arrays) := by
  have addsPython : ReadsLine "requires-python = \">=3.11\""
      (inProject [("name", .string name), ("version", .string version)]
        [["build-system", "requires"]])
      (inProject [("name", .string name), ("version", .string version),
        ("requires-python", .string ">=3.11")] [["build-system", "requires"]]) :=
    @readsLine_string "requires-python" ">=3.11" (by simp [IsBare, isBareKey])
      (by simp [IsPlain, isControl]) _ _ rfl
  have addsDependencies : ReadsLine "dependencies = []"
      (inProject [("name", .string name), ("version", .string version),
        ("requires-python", .string ">=3.11")] [["build-system", "requires"]])
      (inProject (project name version) arrays) :=
    @readsLine_pair "dependencies" (by simp [IsBare, isBareKey]) _ (by decide) _ _ _ _
      (fun steps rest => valueIn_empty (steps + 1) _) rfl
  have opensWheel : ReadsLine "[tool.hatch.build.targets.wheel]"
      (inProject (project name version) arrays) (inWheel (project name version) [] arrays) :=
    readsLine_of_statement (by decide) (by decide) fun rest => rfl
  exact readsLines_cons addsPython <| readsLines_cons addsDependencies <|
    readsLines_cons (readsLine_blank _) <| readsLines_cons opensWheel <| readsLines_nil _

/-- The line that names the directory of a package. -/
def packageLine (directory : Text) : Text :=
  "packages = [\"" ++ directory ++ "\"]"

theorem packageLine_append (directory : Text) :
    packageLine directory ++ ['\n'] =
      "packages = [\"".toList ++ (directory ++ '"' :: ']' :: ['\n']) := by
  have isBack (text : Text) : text ++ "\"]".toList ++ ['\n'] = text ++ '"' :: ']' :: ['\n'] :=
    List.append_assoc text _ _
  exact (isBack _).trans (List.append_assoc _ directory _)

theorem readsLine_packages (pairs : Entries String Value) {directory : String}
    (arePlain : ∀ c ∈ directory.toList, IsPlain c) :
    ReadsLine (packageLine directory.toList) (inWheel pairs [] arrays)
      (inWheel pairs [("packages", .array [.string directory])]
        (["tool", "hatch", "build", "targets", "wheel", "packages"] :: arrays)) :=
  @readsLine_singleton "packages" directory (by simp [IsBare, isBareKey]) arePlain _ _ rfl

/-- If a string was read that is as long as its text, it is plain. -/
theorem plain_of_stringValue {directory raw middle : Text}
    (isShort : raw.length ≤ directory.length) (start : ∀ c ∈ raw.head?, c ≠ '"')
    (isString : stringValue '"' (raw ++ '"' :: ']' :: ['\n']) = .ok (directory, middle))
    (goesOn : ∃ c ∈ middle, isSpaceOrLine c = false) : ∀ c ∈ directory, IsPlain c := by
  rw [stringValue_eq start (by simp), if_pos rfl] at isString
  obtain ⟨front, isText, isLonger, isExact⟩ := exists_of_basicString isString
  have lengths := congrArg List.length isText
  simp only [List.length_append, List.length_cons, List.length_nil] at lengths
  by_contra notPlain
  have isLong : directory.length + 2 ≤ front.length := by
    have notExact : front.length ≠ directory.length + 1 := fun same => notPlain (isExact same).2
    omega
  have isEnd : middle = (raw ++ '"' :: ']' :: ['\n']).drop front.length := by
    rw [isText, List.drop_left]
  have isLast : middle ⊆ ['\n'] := by
    obtain ⟨more, isMore⟩ := Nat.exists_eq_add_of_le (show raw.length + 2 ≤ front.length by omega)
    rw [isEnd, isMore, Nat.add_assoc, Nat.add_comm 2, List.drop_length_add_append]
    exact List.drop_subset more ['\n']
  obtain ⟨c, member, notBlank⟩ := goesOn
  rw [List.mem_singleton.mp (isLast member)] at notBlank
  contradiction

/-! ## Reading a manifest -/

section Reading

variable {name version : LooseText} {steps : Nat}

/-- The lines in front of that with the package. -/
def frontLines (name version : LooseText) : List Text :=
  openingLines name ++ ("version = " ++ version.quoted) :: closingLines

theorem readsLines_front (alike : ReadsAlike name) (alikeVersion : ReadsAlike version) :
    ReadsLines (frontLines name version) {}
      (inWheel (project name.label version.label) [] arrays) := by
  have addsVersion : ReadsLine ("version = " ++ version.quoted)
      (inProject [("name", .string name.label)] [["build-system", "requires"]])
      (inProject [("name", .string name.label), ("version", .string version.label)]
        [["build-system", "requires"]]) :=
    @readsLine_quoted "version" (by simp [IsBare, isBareKey]) _ alikeVersion _ _ rfl
  exact readsLines_append (readsLines_opening alike)
    (readsLines_cons addsVersion (readsLines_closing _ _))

/-- Whatever the literal of the version is read as, the lines after it are read as they
stand. -/
theorem exists_of_statements_front (alike : ReadsAlike name) {rest : Text} {final : Builder}
    (isRead : statements (steps + (frontLines name version).length) {}
      (Text.unlines (frontLines name version) ++ rest) = .ok final) :
    ∃ inside, (LooseText.ofText inside = version ↔ ReadsAlike version) ∧
      statements steps (inWheel (project name.label (String.ofList inside)) [] arrays) rest =
        .ok final := by
  have opening := readsLines_opening alike (steps + closingLines.length + 1)
    ("version = ".toList ++ version.quoted ++ '\n' :: (Text.unlines closingLines ++ rest))
  have isText : Text.unlines (frontLines name version) ++ rest =
      Text.unlines (openingLines name) ++ ("version = ".toList ++ version.quoted ++
        '\n' :: (Text.unlines closingLines ++ rest)) := by
    rw [frontLines, Text.unlines_append, Text.unlines_cons, List.append_assoc, List.append_assoc,
      List.cons_append]
  have isLength : steps + (frontLines name version).length =
      steps + closingLines.length + 1 + (openingLines name).length := by
    rw [frontLines, List.length_append, List.length_cons]
    omega
  rw [isText, isLength, opening] at isRead
  obtain ⟨inside, changed, readsAlike, isAdded, isNext⟩ :=
    @exists_of_statements_quoted "version" (by simp [IsBare, isBareKey]) version _ _ _ _ isRead
  refine ⟨inside, readsAlike, ?_⟩
  obtain rfl : inProject [("name", .string name.label), ("version", .string (String.ofList inside))]
      [["build-system", "requires"]] = changed := Except.ok.inj isAdded
  rw [readsLines_closing] at isNext
  exact isNext

/-- The place of the directories of packages in a manifest. -/
def packagesPath : KeyPath :=
  [.name "tool", .name "hatch", .name "build", .name "targets", .name "wheel", .name "packages"]

theorem unixLines_of_plain {text : Text} (arePlain : ∀ c ∈ text, IsPlain c) :
    Text.unixLines text = text := by
  refine Region.unixLines_of_noReturn fun member => ?_
  have noControl := (arePlain _ member).2.2
  contradiction

/-- The directory of a package is read as it is if it is plain. -/
theorem packages_iff {pairs : Entries String Value} {final : Builder} {directory : Text}
    (start : ∀ c ∈ (Text.unixLines directory).head?, c ≠ '"')
    (isRead : statements (steps + 1) (inWheel pairs [] arrays)
      (packageLine (Text.unixLines directory) ++ ['\n']) = .ok final) :
    (Value.table final.entries).at? packagesPath =
        some (.array [.string (String.ofList directory)]) ↔
      ∀ c ∈ directory, IsPlain c := by
  constructor
  · intro tells
    have isPair (text : Text) : "packages = [\"".toList ++ text =
        "packages".toList ++ ' ' :: '=' :: ' ' :: '[' :: '"' :: text :=
      rfl
    rw [packageLine_append, isPair] at isRead
    obtain ⟨fuel, value, after, changed, left, isValue, isAdded, -, isFinal⟩ :=
      @exists_of_statements_pair "packages" (by simp [IsBare, isBareKey]) _ (by decide) _ _ _ _ isRead
    obtain ⟨inside, middle, items, isString, goesOn, rfl⟩ := exists_of_valueIn_array isValue
    have isChanged : inWheel pairs [("packages", .array (.string (String.ofList inside) :: items))]
        (["tool", "hatch", "build", "targets", "wheel", "packages"] :: arrays) = changed :=
      Except.ok.inj isAdded
    subst isChanged
    have lasts := lastsIn_statements isFinal (packagesPath ++ [.index 0])
      (.string (String.ofList inside)) rfl
    rw [Value.at?_append, tells] at lasts
    have isFirst : Value.string (String.ofList directory) = .string (String.ofList inside) :=
      Option.some.inj lasts
    have same : directory = inside := String.ofList_injective (by simpa using isFirst)
    subst same
    exact plain_of_stringValue (Text.length_unixLines_le directory) start isString goesOn
  · intro arePlain
    have isLine := @readsLine_packages pairs (String.ofList directory) (by simpa using arePlain)
    rw [String.toList_ofList] at isLine
    have isEnd (builder : Builder) : statements steps builder [] = .ok builder := by
      cases steps <;> rfl
    rw [unixLines_of_plain arePlain, isLine steps [], isEnd] at isRead
    rw [← Except.ok.inj isRead]
    rfl

end Reading

/-! ## The text of a manifest -/

theorem readsAlike_distributionName (settings : ProjectSettings) :
    ReadsAlike (LooseText.ofText (distributionName settings)) := by
  have inName : ∀ c ∈ distributionName settings, 45 ≤ c.toNat ∧ c.toNat ≤ 122 ∧ c.toNat ≠ 92 := by
    refine List.forall_mem_map.mpr fun c member => ?_
    split
    · decide
    next notMark =>
      rcases Text.mem_or_exists_of_mem_intercalate member with isMark | ⟨word, isWord, inWord⟩
      · exact absurd (List.mem_singleton.mp isMark) notMark
      · have isPart := (Text.isLower_or_isDigit_of_mem_lowerWords isWord).2 c inWord
        have code := Text.code_of_isPackagePart (Bool.or_eq_true_iff.mpr (.inl isPart))
        omega
  refine .inl ⟨fun member => ?_, List.forall_mem_map.mpr fun c member => ?_⟩
  · obtain ⟨c, inText, isMark⟩ := List.mem_map.mp member
    have code := inName c inText
    rw [CodePoint.char.inj isMark] at code
    exact absurd code (by decide)
  · have code := inName c member
    refine ⟨?_, fun isEscape => ?_⟩
    · rw [Text.isPrintable, if_pos (by omega)]
      simp only [Bool.and_eq_true, decide_eq_true_eq]
      omega
    · rw [isEscape] at code
      exact absurd code (by decide)

theorem quoted_ofText (text : Text) :
    (LooseText.ofText text).quoted = Text.quoted text := by
  rw [LooseText.quoted, Text.quoted, LooseText.shown_ofText, LooseText.ofText, List.flatMap_map]
  rfl

theorem manifest_eq (settings : ProjectSettings) :
    manifest settings = LooseText.ofText (Text.unlines
      (frontLines (LooseText.ofText (distributionName settings)) settings.version)) ++
        (LooseText.ofString "packages = [\"src/" ++ settings.packageName ++
          LooseText.ofString "\"]" ++ [.char '\n']) := by
  have joined (first : String) (second : Text) :
      LooseText.ofString first ++ LooseText.ofText second =
        LooseText.ofText (first.toList ++ second) :=
    (LooseText.ofText_append first.toList second).symm
  have isManifest : manifest settings = LooseText.unlines
      ((frontLines (LooseText.ofText (distributionName settings)) settings.version).map
        LooseText.ofText ++ [LooseText.ofString "packages = [\"src/" ++ settings.packageName ++
          LooseText.ofString "\"]"]) := by
    rw [manifest, manifestLines, joined, joined, ← quoted_ofText]
    rfl
  rw [isManifest, LooseText.unlines_map_ofText]

/-- The text of a manifest that names a directory. -/
def manifestText (settings : ProjectSettings) (directory : Text) : Text :=
  Text.unlines (frontLines (LooseText.ofText (distributionName settings)) settings.version) ++
    (packageLine directory ++ ['\n'])

theorem packageLine_directory (package : Text) :
    packageLine ("src/".toList ++ package) =
      "packages = [\"src/".toList ++ package ++ "\"]".toList := by
  have isFront : "packages = [\"".toList ++ ("src/".toList ++ package) =
      "packages = [\"src/".toList ++ package :=
    rfl
  exact congrArg (· ++ "\"]".toList) isFront

theorem manifest_eq_ofText {settings : ProjectSettings} {package : Text}
    (isPackage : settings.packageName = LooseText.ofText package) :
    manifest settings = LooseText.ofText (manifestText settings ("src/".toList ++ package)) := by
  have isEnd : [CodePoint.char '\n'] = LooseText.ofText ['\n'] := rfl
  rw [manifest_eq, isPackage, isEnd, LooseText.ofString, LooseText.ofString,
    ← LooseText.ofText_append, ← LooseText.ofText_append, ← LooseText.ofText_append,
    ← LooseText.ofText_append, manifestText, packageLine_directory]

theorem exists_of_text?_manifest {settings : ProjectSettings} {text : Text}
    (isText : (manifest settings).text? = some text) :
    ∃ package, settings.packageName = LooseText.ofText package ∧
      text = manifestText settings ("src/".toList ++ package) := by
  have whole : ∀ c ∈ settings.packageName, c.isChar = true := by
    intro c member
    have inText : c ∈ LooseText.ofText text := by
      rw [← LooseText.eq_ofText_of_text? isText, manifest_eq]
      simp only [List.mem_append]
      exact .inr (.inl (.inl (.inr member)))
    obtain ⟨d, -, rfl⟩ := List.mem_map.mp inText
    rfl
  obtain ⟨package, isPackage⟩ := LooseText.exists_ofText whole
  rw [manifest_eq_ofText isPackage, LooseText.text?_ofText] at isText
  exact ⟨package, isPackage, (Option.some.inj isText).symm⟩

theorem noReturn_frontLines (name version : LooseText) :
    ∀ line ∈ frontLines name version, '\r' ∉ line := by
  have inQuoted (front : Text) (text : LooseText) (noReturn : '\r' ∉ front) :
      '\r' ∉ front ++ text.quoted := by
    intro member
    rcases List.mem_append.mp member with inFront | inLiteral
    · exact noReturn inFront
    · exact absurd (not_break_of_mem_literal text '\r' inLiteral) (by decide)
  simp only [frontLines, openingLines, closingLines, List.cons_append, List.nil_append,
    List.forall_mem_cons]
  exact ⟨by decide, by decide, by decide, by decide, by decide, inQuoted _ _ (by decide),
    inQuoted _ _ (by decide), by decide, by decide, by decide, by decide, by simp⟩

theorem unixLines_manifestText (settings : ProjectSettings) (directory : Text) :
    Text.unixLines (manifestText settings directory) =
      manifestText settings (Text.unixLines directory) := by
  have noReturn : '\r' ∉ Text.unlines
      (frontLines (LooseText.ofText (distributionName settings)) settings.version) := by
    intro member
    obtain ⟨line, isLine, inLine⟩ := List.mem_flatMap.mp member
    rcases List.mem_append.mp inLine with inContent | isEnd
    · exact noReturn_frontLines _ _ line isLine inContent
    · simp at isEnd
  have isFront (rest : Text) : Text.unixLines ("packages = [\"".toList ++ rest) =
      "packages = [\"".toList ++ Text.unixLines rest :=
    Text.unixLines_append (by decide) rest
  rw [manifestText, Text.unixLines_append noReturn, packageLine_append, isFront,
    Text.unixLines_append_cons (by decide), manifestText, packageLine_append]
  rfl

/-! ## What a manifest tells -/

variable {settings : ProjectSettings} {source : String}

/-- A document tells the name of a project. -/
def TellsName (settings : ProjectSettings) (document : Entries String Value) : Prop :=
  (Value.table document).at? [.name "project", .name "name"] =
    some (.string (String.ofList (distributionName settings)))

/-- A document tells the version of a project. -/
def TellsVersion (settings : ProjectSettings) (document : Entries String Value) : Prop :=
  ∃ version, (Value.table document).at? [.name "project", .name "version"] =
    some (.string version) ∧ LooseText.ofString version = settings.version

/-- A document tells the directory of the one package of a project. -/
def TellsPackage (settings : ProjectSettings) (document : Entries String Value) : Prop :=
  ∃ directory, (Value.table document).at? packagesPath = some (.array [.string directory]) ∧
    LooseText.ofString directory = LooseText.ofString "src/" ++ settings.packageName

/-- A package name in which every character stands for itself. -/
def HasPlainPackage (settings : ProjectSettings) : Prop :=
  ∀ c ∈ settings.packageName, ∃ part, c = .char part ∧ IsPlain part

/-- There are more characters in a manifest than lines in front of its package. -/
theorem exists_fuel (settings : ProjectSettings) (directory : Text) : ∃ steps,
    (manifestText settings directory).length + 1 = steps + 1 +
      (frontLines (LooseText.ofText (distributionName settings)) settings.version).length := by
  have isLong := Text.length_le_unlines
    (frontLines (LooseText.ofText (distributionName settings)) settings.version)
  obtain ⟨steps, isFuel⟩ := Nat.exists_eq_add_of_le (Nat.succ_le_succ isLong)
  refine ⟨steps + (packageLine directory ++ ['\n']).length, ?_⟩
  rw [manifestText, List.length_append]
  omega

theorem hasPlainPackage_iff {package : Text}
    (isPackage : settings.packageName = LooseText.ofText package) :
    HasPlainPackage settings ↔ ∀ c ∈ "src/".toList ++ package, IsPlain c := by
  have isFront : ∀ c ∈ "src/".toList, IsPlain c := by simp [IsPlain, isControl]
  rw [HasPlainPackage, isPackage, LooseText.ofText, List.forall_mem_map, List.forall_mem_append]
  constructor
  · refine fun arePlain => ⟨isFront, fun c member => ?_⟩
    obtain ⟨part, same, isPlain⟩ := arePlain c member
    rwa [CodePoint.char.inj same]
  · exact fun arePlain c member => ⟨c, rfl, arePlain.2 c member⟩

theorem decode_eq_ok_iff {text : Text} {document : Entries String Value} :
    Toml.decode source text = .ok document ↔
      ∃ final, statements ((Text.unixLines text).length + 1) {} (Text.unixLines text) = .ok final ∧
        final.entries = document := by
  have isDocument : Toml.document (Text.unixLines text) = .ok document ↔ ∃ final,
      statements ((Text.unixLines text).length + 1) {} (Text.unixLines text) = .ok final ∧
        final.entries = document := by
    rw [Toml.document, bind_eq_ok_iff]
    simp only [Except.ok.injEq]
  rw [← isDocument, decode]
  split
  next isOk => simp [isOk]
  next isError => simp [isError]

/-- What is left of a manifest after the lines in front of its package. -/
theorem exists_of_decode {package : Text} {document : Entries String Value}
    (isDocument : Toml.decode source (manifestText settings ("src/".toList ++ package)) =
      .ok document) :
    ∃ steps inside final, (LooseText.ofText inside = settings.version ↔
        ReadsAlike settings.version) ∧ final.entries = document ∧
      statements (steps + 1) (inWheel (project (String.ofList (distributionName settings))
        (String.ofList inside)) [] arrays)
          (packageLine (Text.unixLines ("src/".toList ++ package)) ++ ['\n']) = .ok final := by
  obtain ⟨final, isFinal, isDocument⟩ := decode_eq_ok_iff.mp isDocument
  obtain ⟨steps, isFuel⟩ := exists_fuel settings (Text.unixLines ("src/".toList ++ package))
  rw [unixLines_manifestText, isFuel, manifestText] at isFinal
  obtain ⟨inside, readsAlike, isNext⟩ :=
    exists_of_statements_front (readsAlike_distributionName settings) isFinal
  rw [LooseText.label, LooseText.shown_ofText] at isNext
  exact ⟨steps, inside, final, readsAlike, isDocument, isNext⟩

/-- What a manifest tells when it is a document. -/
theorem tells_of_decode {text : Text} {document : Entries String Value}
    (isText : (manifest settings).text? = some text)
    (isDocument : Toml.decode source text = .ok document) :
    TellsName settings document ∧ (TellsVersion settings document ↔ ReadsAlike settings.version) ∧
      (TellsPackage settings document ↔ HasPlainPackage settings) := by
  obtain ⟨package, isPackage, rfl⟩ := exists_of_text?_manifest isText
  obtain ⟨steps, inside, final, readsAlike, rfl, isRead⟩ := exists_of_decode isDocument
  have lasts := lastsIn_statements isRead
  have isVersion : (Value.table final.entries).at? [.name "project", .name "version"] =
      some (.string (String.ofList inside)) :=
    lasts _ (.string (String.ofList inside)) rfl
  have start : ∀ c ∈ (Text.unixLines ("src/".toList ++ package)).head?, c ≠ '"' := by
    rw [Text.unixLines_append (by decide)]
    simp
  refine ⟨lasts _ (.string _) rfl, ?_, ?_⟩
  · rw [← readsAlike, TellsVersion, isVersion]
    constructor
    · rintro ⟨version, same, isSame⟩
      obtain rfl : String.ofList inside = version := by simpa using same
      rwa [LooseText.ofString, String.toList_ofList] at isSame
    · exact fun isSame => ⟨_, rfl, by rwa [LooseText.ofString, String.toList_ofList]⟩
  · have isDirectory (directory : String) :
        LooseText.ofString directory = LooseText.ofString "src/" ++ LooseText.ofText package ↔
          String.ofList ("src/".toList ++ package) = directory := by
      rw [LooseText.ofString, LooseText.ofString, ← LooseText.ofText_append]
      constructor
      · intro same
        have sameText := congrArg LooseText.shown same
        rw [LooseText.shown_ofText, LooseText.shown_ofText] at sameText
        rw [← sameText, String.ofList_toList]
      · rintro rfl
        rw [String.toList_ofList]
    rw [hasPlainPackage_iff isPackage, ← packages_iff start isRead, TellsPackage, isPackage]
    simp only [isDirectory, exists_eq_right']

/-- A manifest is a document if its version and its package can stand in it. -/
theorem exists_document (source : String) (alike : ReadsAlike settings.version)
    (isPlain : HasPlainPackage settings) :
    ∃ text document, (manifest settings).text? = some text ∧
      Toml.decode source text = .ok document := by
  have whole : ∀ c ∈ settings.packageName, c.isChar = true := by
    intro c member
    obtain ⟨part, rfl, -⟩ := isPlain c member
    rfl
  obtain ⟨package, isPackage⟩ := LooseText.exists_ofText whole
  have arePlain := (hasPlainPackage_iff isPackage).mp isPlain
  have front := readsLines_front (readsAlike_distributionName settings) alike
  have last := @readsLine_packages (project (LooseText.ofText (distributionName settings)).label
    settings.version.label) (String.ofList ("src/".toList ++ package))
    (by rwa [String.toList_ofList])
  rw [String.toList_ofList] at last
  obtain ⟨steps, isFuel⟩ := exists_fuel settings ("src/".toList ++ package)
  have isEnd (builder : Builder) : statements steps builder [] = .ok builder := by
    cases steps <;> rfl
  have isRead := front (steps + 1) (packageLine ("src/".toList ++ package) ++ ['\n'])
  have sameLines : Text.unixLines (manifestText settings ("src/".toList ++ package)) =
      manifestText settings ("src/".toList ++ package) := by
    rw [unixLines_manifestText, unixLines_of_plain arePlain]
  rw [last steps [], isEnd, ← isFuel, ← manifestText, ← sameLines] at isRead
  refine ⟨manifestText settings ("src/".toList ++ package), _, ?_,
    decode_eq_ok_iff.mpr ⟨_, isRead, rfl⟩⟩
  rw [manifest_eq_ofText isPackage, LooseText.text?_ofText]

end Overview

/-! ## The rendered manifest -/

theorem get?_manifest (settings : ProjectSettings) (api : Api) (table : TranslationTable) :
    Entries.get? (LooseText.ofString "pyproject.toml") (renderProject settings api table) =
      some (Overview.manifest settings) := by
  have isPath : ProjectFile.path .manifest settings.packageName =
      LooseText.ofString "pyproject.toml" :=
    ProjectFile.path_eq .manifest settings.packageName
  rw [← isPath]
  exact get?_renderProject settings api table .manifest

/-- The rendered manifest is a document that tells the name, the version and the package of
the settings exactly if the literal of the version is read as the version and the package
is plain.  Whenever it is a document it tells the name, and each of the other two depends
on its own text only. -/
theorem tells_of_renderProject (settings : ProjectSettings) (api : Api)
    (table : TranslationTable) (source : String) :
    ∃ file, Entries.get? (LooseText.ofString "pyproject.toml")
        (renderProject settings api table) = some file ∧
      ((∃ text document, file.text? = some text ∧ Toml.decode source text = .ok document ∧
          Overview.TellsName settings document ∧ Overview.TellsVersion settings document ∧
          Overview.TellsPackage settings document) ↔
        Toml.ReadsAlike settings.version ∧ Overview.HasPlainPackage settings) ∧
      ∀ text document, file.text? = some text → Toml.decode source text = .ok document →
        Overview.TellsName settings document ∧
        (Overview.TellsVersion settings document ↔ Toml.ReadsAlike settings.version) ∧
        (Overview.TellsPackage settings document ↔ Overview.HasPlainPackage settings) := by
  refine ⟨Overview.manifest settings, get?_manifest settings api table, ⟨?_, ?_⟩, ?_⟩
  · rintro ⟨text, document, isText, isDocument, -, tellsVersion, tellsPackage⟩
    obtain ⟨-, version, package⟩ := Overview.tells_of_decode isText isDocument
    exact ⟨version.mp tellsVersion, package.mp tellsPackage⟩
  · rintro ⟨alike, isPlain⟩
    obtain ⟨text, document, isText, isDocument⟩ := Overview.exists_document source alike isPlain
    obtain ⟨tellsName, version, package⟩ := Overview.tells_of_decode isText isDocument
    exact ⟨text, document, isText, isDocument, tellsName, version.mpr alike, package.mpr isPlain⟩
  · exact fun text document isText isDocument => Overview.tells_of_decode isText isDocument

/-- Settings with a backslash in their version. -/
def backslashSettings : ProjectSettings :=
  { name := "My Shop", package := some "shop", version := "1\\2" }

/-- A backslash in a version is told twice. -/
theorem version_doubled_of_backslashSettings : ∃ api table file text document,
    compileApi backslashSettings.heading [] = .ok api ∧ compileTable api = .ok table ∧
      Entries.get? (LooseText.ofString "pyproject.toml")
        (renderProject backslashSettings api table) = some file ∧
      file.text? = some text ∧ Toml.decode "pyproject.toml" text = .ok document ∧
      (Value.table document).at? [.name "project", .name "version"] =
        some (.string "1\\\\2") ∧ ¬ Overview.TellsVersion backslashSettings document := by
  have isRead : Toml.decode "pyproject.toml"
      (Overview.manifestText backslashSettings ("src/".toList ++ "shop".toList)) = .ok [
        ("build-system", .table Overview.buildSystem),
        ("project", .table (Overview.project "my-shop" "1\\\\2")),
        ("tool", .table [("hatch", .table [("build", .table [("targets", .table [
          ("wheel", .table [("packages", .array [.string "src/shop"])])])])])])] := by
    decide +kernel
  have isApi : compileApi backslashSettings.heading [] =
      .ok ⟨"My Shop", "1\\2", "", [], [], [], []⟩ := by
    decide +kernel
  have isTable : compileTable ⟨"My Shop", "1\\2", "", [], [], [], []⟩ = .ok [] := rfl
  have isFile := get?_manifest backslashSettings ⟨"My Shop", "1\\2", "", [], [], [], []⟩ []
  have isText : (Overview.manifest backslashSettings).text? =
      some (Overview.manifestText backslashSettings ("src/".toList ++ "shop".toList)) := by
    rw [@Overview.manifest_eq_ofText backslashSettings "shop" rfl, LooseText.text?_ofText]
  refine ⟨_, [], _, _, _, isApi, isTable, isFile, isText, isRead, ?_, ?_⟩
  · rfl
  · rintro ⟨version, isVersion, same⟩
    have isDoubled : Value.string "1\\\\2" = .string version := Option.some.inj isVersion
    obtain rfl : "1\\\\2" = version := by simpa using isDoubled
    exact absurd same (by decide)

end ApiWorkshop

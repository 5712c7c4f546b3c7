import ApiWorkshop.Proofs.Project.ListedLines
import ApiWorkshop.Proofs.Project.Outline
import ApiWorkshop.Proofs.Project.Paths
import ApiWorkshop.Proofs.Text.CaseWords
import ApiWorkshop.Proofs.Toml.Quoted

/-!
# Projects with texts on one line

The files of a project are ordinary when the texts that its settings and definitions
give them have no line breaks and none of them passes for a comment with a marker.
Texts that stand in literals do not matter.
-/

namespace ApiWorkshop

namespace Region

/-- A line without breaks that is no marker. -/
structure IsPlainLine (style : CommentStyle) (line : Text) : Prop where
  unbroken : ∀ c ∈ line, Text.isLineBreak c = false
  noMarker : markerOf? style (line ++ ['\n']) = none

theorem IsPlainLine.unmarkedLines {style : CommentStyle} {line : Text}
    (isPlain : IsPlainLine style line) : UnmarkedLines style (Text.lines (line ++ ['\n'])) := by
  have isLine := Text.lines_plain_append_ending isPlain.unbroken (.inl rfl) []
  rw [List.append_nil] at isLine
  rw [isLine]
  simpa [UnmarkedLines] using isPlain.noMarker

end Region

theorem Text.IsInert.isPlainLine {line : Text} (isInert : line.IsInert) (path : String) :
    Region.IsPlainLine (CommentStyle.ofPath path) line :=
  ⟨isInert.unbroken, Region.markerOf?_of_isInert path isInert⟩

namespace Outline

variable {path : String} {outline : Outline}

/-- A text that is put together from plain lines has no pair of carriage return and line
feed. -/
theorem noPair_of_plainLines (named : outline.IsNamed)
    (plain : ∀ content ∈ outline.contents,
      Region.IsPlainLine (CommentStyle.ofPath path) content) :
    Region.usesPairs (outline.text path) = false := by
  have noReturn {text : Text} (unbroken : ∀ c ∈ text, Text.isLineBreak c = false) : '\r' ∉ text :=
    fun member => absurd (unbroken _ member) (by decide)
  have inLines {contents : List Text} (plain : ∀ content ∈ contents,
      Region.IsPlainLine (CommentStyle.ofPath path) content) : '\r' ∉ Text.unlines contents := by
    simp only [Text.unlines, List.mem_flatMap, List.mem_append, not_exists, not_and]
    rintro content member (inContent | isFeed)
    · exact noReturn (plain content member).unbroken inContent
    · exact absurd isFeed (by decide)
  have isFree : '\r' ∉ outline.text path := by
    cases outline with
    | plain contents => exact inLines plain
    | framed before name inside after =>
        rw [contents, List.forall_mem_append, List.forall_mem_append] at plain
        have noMarker (boundary : Boundary) :
            '\r' ∉ Marker.line (CommentStyle.ofPath path) ⟨boundary, name⟩ :=
          noReturn (Marker.not_break_of_mem_line path (named name rfl))
        simp [text, ApiWorkshop.framed, beginMarker, endMarker, inLines plain.1.1, inLines plain.1.2,
          inLines plain.2, noMarker]
  rw [Region.usesPairs, Bool.eq_false_iff, Ne, Text.hasPart_iff (by simp)]
  exact fun isPart => isFree (isPart.subset List.mem_cons_self)

end Outline

/-! ## Texts of settings and definitions -/

/-- The texts of settings that are written as they are have no line breaks. -/
structure ProjectSettings.IsOneLined (settings : ProjectSettings) : Prop where
  name : ∀ c ∈ settings.name.shown, Text.isLineBreak c = false
  packageName : ∀ c ∈ settings.packageName.shown, Text.isLineBreak c = false
  apiDirectory : ∀ c ∈ settings.apiDirectory.shown, Text.isLineBreak c = false
  openapiOutput : ∀ c ∈ settings.openapiOutput.shown, Text.isLineBreak c = false
  translationsOutput : ∀ c ∈ settings.translationsOutput.shown, Text.isLineBreak c = false

/-- The texts of an API that are written as they are have no line breaks.  Its description
does not begin like a comment of the page, and that of a record that is written as a call
not like a marker in its comment. -/
structure Api.IsOneLined (api : Api) : Prop where
  description : ∀ c ∈ api.description.toList, Text.isLineBreak c = false
  opening : ∀ c ∈ (api.description.toList.dropWhile Text.isSpaceOrTab).head?, c ≠ '<'
  paths : ∀ endpoint ∈ api.endpoints, ∀ c ∈ endpoint.path.toList, Text.isLineBreak c = false
  summaries : ∀ endpoint ∈ api.endpoints, ∀ c ∈ endpoint.summary.toList, Text.isLineBreak c = false
  records : ∀ record ∈ api.records, ∀ c ∈ record.description.toList, Text.isLineBreak c = false
  comments : ∀ record ∈ api.records, record.functional = true →
    Text.after? Marker.tag (record.description.toList.dropWhile Text.isSpaceOrTab) = none

/-! ## The page, the manifest and the package -/

namespace Overview

variable {settings : ProjectSettings}

theorem isInert_endpointRow {endpoint : Endpoint}
    (path : ∀ c ∈ endpoint.path.toList, Text.isLineBreak c = false)
    (summary : ∀ c ∈ endpoint.summary.toList, Text.isLineBreak c = false) :
    (endpointRow endpoint).IsInert := by
  have method : ∀ c ∈ (endpoint.method.name : Text), Text.isLineBreak c = false := by
    cases endpoint.method <;> exact Text.eq_false_of_mem (by decide)
  have mark : ∀ c ∈ ("` | `" : Text), Text.isLineBreak c = false := Text.eq_false_of_mem (by decide)
  have closing : ∀ c ∈ ("` | " : Text), Text.isLineBreak c = false :=
    Text.eq_false_of_mem (by decide)
  have ending : ∀ c ∈ (" |" : Text), Text.isLineBreak c = false := Text.eq_false_of_mem (by decide)
  unfold endpointRow
  simp only [List.append_assoc]
  apply Text.IsInert.of_front (by decide) (by decide)
  simp only [List.forall_mem_append]
  exact ⟨method, mark, path, closing, summary, ending⟩

/-- The lines of the table of the page. -/
theorem isInert_tableLine {endpoints : List Endpoint}
    (paths : ∀ endpoint ∈ endpoints, ∀ c ∈ endpoint.path.toList, Text.isLineBreak c = false)
    (summaries : ∀ endpoint ∈ endpoints, ∀ c ∈ endpoint.summary.toList,
      Text.isLineBreak c = false) :
    ∀ line ∈ tableHead.map String.toList ++ endpoints.map endpointRow, Text.IsInert line := by
  refine List.forall_mem_append.mpr ⟨isInert_of_fixed tableHead (by simp [fixedLines]), ?_⟩
  exact List.forall_mem_map.mpr fun endpoint member =>
    isInert_endpointRow (paths endpoint member) (summaries endpoint member)

/-- A line that does not begin like a comment of the page is no marker there. -/
theorem isPlainLine_of_head {line : Text} (unbroken : ∀ c ∈ line, Text.isLineBreak c = false)
    (head : ∀ c ∈ (line.dropWhile Text.isSpaceOrTab).head?, c ≠ '<') :
    Region.IsPlainLine (CommentStyle.ofPath "README.md") line := by
  refine ⟨unbroken, Region.markerOf?_of_noOpening unbroken ?_⟩
  have isMarkup : CommentStyle.ofPath "README.md" = .markup := by decide
  generalize line.dropWhile Text.isSpaceOrTab = rest at head
  rw [isMarkup, Text.after?_eq_none_iff]
  rintro ⟨others, rfl⟩
  exact head _ rfl rfl

theorem isPlainLine_empty :
    Region.IsPlainLine (CommentStyle.ofPath "README.md") ("" : LooseText).shown :=
  isPlainLine_of_head (by simp [LooseText.ofString]) (by simp [LooseText.ofString])

variable (oneLined : settings.IsOneLined)

include oneLined

theorem isPlainLine_title :
    Region.IsPlainLine (CommentStyle.ofPath "README.md") ("# " ++ settings.name).shown := by
  rw [LooseText.shown_append, LooseText.ofString, LooseText.shown_ofText]
  exact isPlainLine_of_head (Text.not_break_of_mem_append (Text.eq_false_of_mem (by decide))
    oneLined.name) (by simp [Text.isSpaceOrTab])

theorem isPlainLine_placeLine :
    ∀ line ∈ placeLines settings,
      Region.IsPlainLine (CommentStyle.ofPath "README.md") line.shown := by
  have literal {string : String} {line : Text} (same : string = String.ofList line)
      (isInert : line.IsInert) : Region.IsPlainLine (CommentStyle.ofPath "README.md") string :=
    (Text.IsInert.ofString same isInert).isPlainLine _
  simp only [placeLines, List.forall_mem_cons, LooseText.shown_append, LooseText.ofString,
    LooseText.shown_ofText, List.append_assoc]
  and_intros
  · refine (Text.IsInert.of_front (.ofString rfl (by decide +kernel)) (by decide +kernel)
      ?_).isPlainLine _
    exact Text.not_break_of_mem_append oneLined.apiDirectory
      (Text.eq_false_of_mem (by decide +kernel))
  · exact literal rfl (by decide +kernel)
  · exact literal rfl (by decide +kernel)
  · exact literal rfl (by decide +kernel)
  · exact literal rfl (by decide +kernel)
  · exact literal rfl (by decide +kernel)
  · refine (Text.IsInert.of_front (.ofString rfl (by decide +kernel)) (by decide +kernel)
      ?_).isPlainLine _
    refine Text.not_break_of_mem_append oneLined.openapiOutput ?_
    refine Text.not_break_of_mem_append (Text.eq_false_of_mem (by decide +kernel)) ?_
    exact Text.not_break_of_mem_append oneLined.translationsOutput
      (Text.eq_false_of_mem (by decide +kernel))
  · exact literal rfl (by decide +kernel)
  · exact literal rfl (by decide +kernel)
  · exact literal rfl (by decide +kernel)
  · exact isPlainLine_of_head (Text.eq_false_of_mem (by decide +kernel))
      (by simp [Text.isSpaceOrTab])
  · exact literal rfl (by decide +kernel)
  · simp

theorem isPlainLine_introductionLine {description : String}
    (unbroken : ∀ c ∈ description.toList, Text.isLineBreak c = false)
    (opening : ∀ c ∈ (description.toList.dropWhile Text.isSpaceOrTab).head?, c ≠ '<') :
    ∀ line ∈ introductionLines settings description,
      Region.IsPlainLine (CommentStyle.ofPath "README.md") line.shown := by
  simp only [introductionLines, List.forall_mem_append, List.forall_mem_cons]
  refine ⟨⟨⟨isPlainLine_title oneLined, isPlainLine_empty, by simp⟩, ?_⟩,
    isPlainLine_placeLine oneLined⟩
  split
  · simp
  · simp only [List.forall_mem_cons]
    refine ⟨?_, isPlainLine_empty, by simp⟩
    rw [LooseText.ofString, LooseText.shown_ofText]
    exact isPlainLine_of_head unbroken opening

theorem isInert_manifestLine : ∀ line ∈ manifestLines settings, line.shown.IsInert := by
  have literal {string : String} {line : Text} (same : string = String.ofList line)
      (isInert : line.IsInert) : Text.IsInert string := .ofString same isInert
  simp only [manifestLines, List.forall_mem_cons, LooseText.shown_append, LooseText.ofString,
    LooseText.shown_ofText, List.append_assoc]
  and_intros
  · exact literal rfl (by decide +kernel)
  · exact literal rfl (by decide +kernel)
  · exact literal rfl (by decide +kernel)
  · exact literal rfl (by decide +kernel)
  · exact literal rfl (by decide +kernel)
  · exact Text.IsInert.of_front (by decide) (by decide) (Text.not_break_of_mem_quoted _)
  · exact Text.IsInert.of_front (by decide) (by decide) (Toml.not_break_of_mem_literal _)
  · exact literal rfl (by decide +kernel)
  · exact literal rfl (by decide +kernel)
  · exact literal rfl (by decide +kernel)
  · exact literal rfl (by decide +kernel)
  · refine Text.IsInert.of_front (.ofString rfl (by decide +kernel)) (by decide +kernel) ?_
    exact Text.not_break_of_mem_append oneLined.packageName (Text.eq_false_of_mem (by decide))
  · simp

theorem isInert_packageLine : ∀ line ∈ packageLines settings, line.shown.IsInert := by
  simp only [packageLines, List.forall_mem_cons, LooseText.shown_append, LooseText.ofString,
    LooseText.shown_ofText, List.append_assoc]
  refine ⟨?_, by decide, ?_, by simp⟩
  · refine Text.IsInert.of_front (by decide) (by decide) ?_
    exact Text.not_break_of_mem_append oneLined.name (Text.eq_false_of_mem (by decide))
  · exact Text.IsInert.of_front (.ofString rfl (by decide +kernel)) (by decide +kernel)
      (Toml.not_break_of_mem_literal _)

end Overview

/-! ## The modules -/

theorem LabelsModule.isInert_regionLines (table : TranslationTable) :
    ∀ line ∈ regionLines table, line.IsInert := by
  simp only [regionLines, modelLines, fieldLines, List.forall_mem_cons, List.forall_mem_append,
    List.forall_mem_flatMap, List.forall_mem_map]
  refine ⟨isInert_text .tableOpening, fun model _ => ⟨isInert_text (.modelOpening model.1),
    fun field _ => ⟨isInert_text (.fieldOpening field.1), fun rule _ =>
      isInert_text (.label ⟨rule.matcher.text, rule.label⟩), isInert_text .fieldClosing, by simp⟩,
    isInert_text .modelClosing, by simp⟩, isInert_text .tableClosing, by simp⟩

/-! ## Schemas -/

namespace Text

/-- Letters and digits can stand in front of a line. -/
theorem IsInert.afterWordParts {front rest : Text} (areParts : ∀ c ∈ front, isWordPart c = true)
    (isInert : rest.IsInert) : (front ++ rest).IsInert := by
  refine ⟨List.forall_mem_append.mpr ⟨fun c member =>
    not_break_of isWordPart (by decide) (areParts c member), isInert.unbroken⟩, ?_⟩
  cases front with
  | nil => exact isInert.uncommented
  | cons c front =>
      have isPart := areParts c List.mem_cons_self
      have kept := of_isWordPart (fun c => !isSpaceOrTab c && (c ≠ '#' && c ≠ '<' && c ≠ '/'))
        (by decide) isPart
      simp only [Bool.and_eq_true, Bool.not_eq_true', decide_eq_true_eq] at kept
      rw [List.cons_append, List.dropWhile_cons_of_neg (by simp [kept.1])]
      rintro d isHead
      obtain rfl := Option.some.inj isHead
      exact ⟨kept.2.1.1, kept.2.1.2, kept.2.2⟩

/-- A line can begin with an identifier. -/
theorem IsInert.afterIdentifier {name rest : Text} (isName : isIdentifier name = true)
    (unbroken : ∀ c ∈ rest, isLineBreak c = false) : (name ++ rest).IsInert := by
  cases name with
  | nil => exact absurd isName nofun
  | cons c name =>
      obtain ⟨starts, goesOn⟩ := Bool.and_eq_true_iff.mp isName
      have apart {d : Char} (noStart : isIdentifierStart d = false) : c ≠ d := by
        rintro rfl
        rw [starts] at noStart
        contradiction
      have visible : isSpaceOrTab c = false := by
        simp [isSpaceOrTab, apart (d := ' ') (by decide), apart (d := '\t') (by decide)]
      refine ⟨not_break_of_mem_append (List.forall_mem_cons.mpr
        ⟨not_break_of isIdentifierStart (by decide +kernel) starts, fun d member =>
          not_break_of isIdentifierContinue (by decide +kernel)
            (List.all_eq_true.mp goesOn d member)⟩) unbroken, ?_⟩
      rw [List.cons_append, List.dropWhile_cons_of_neg (by simp [visible])]
      rintro d isHead
      obtain rfl := Option.some.inj isHead
      exact ⟨apart (by decide), apart (by decide), apart (by decide)⟩

end Text

namespace Schema

theorem isWordPart_of_mem_typeName (schema : String × Schema) :
    ∀ c ∈ typeName schema, Text.isWordPart c = true :=
  Text.isWordPart_of_mem_pascalCase

theorem isWordPart_of_mem_itemTypeName (schema : String × Schema) :
    ∀ c ∈ itemTypeName schema, Text.isWordPart c = true :=
  List.forall_mem_append.mpr ⟨isWordPart_of_mem_typeName schema, List.all_eq_true.mp (by decide)⟩

end Schema

theorem Field.annotation_noBreak (field : Field) :
    ∀ c ∈ field.annotation, Text.isLineBreak c = false := by
  fun_induction Field.annotation field with
  | case1 type => cases type <;> exact Text.eq_false_of_mem (by decide)
  | case2 => exact Text.eq_false_of_mem (by decide)
  | case3 item notes ih =>
      exact Text.not_break_of_mem_append (Text.not_break_of_mem_append
        (Text.eq_false_of_mem (by decide)) ih) (Text.eq_false_of_mem (by decide))
  | case4 => exact Text.eq_false_of_mem (by decide)
  | case5 schema =>
      exact fun c member => Text.not_break_of Text.isWordPart (by decide)
        (Text.isWordPart_of_mem_pascalCase c member)

namespace SchemasModule

/-- The name of a record and the types of its fields are made of names and fixed words. -/
structure IsMade (record : RecordType) : Prop where
  name : ∀ c ∈ record.name, Text.isWordPart c = true
  fields : ∀ field ∈ record.fields, ∀ c ∈ field.annotation, Text.isLineBreak c = false

theorem isMade_make {name : Text} (areParts : ∀ c ∈ name, Text.isWordPart c = true)
    (description : Option String) (fields : List (String × Field)) (required : List String) :
    IsMade (RecordType.make name description fields required) :=
  ⟨areParts, List.forall_mem_map.mpr fun field _ => field.2.annotation_noBreak⟩

theorem isMade_of_mem_records {api : Api} {record : RecordType} (member : record ∈ api.records) :
    IsMade record := by
  obtain ⟨schema, -, isRecord⟩ := List.mem_filterMap.mp member
  rw [Schema.record?] at isRecord
  split at isRecord
  · rw [← Option.some.inj isRecord]
    exact isMade_make (Schema.isWordPart_of_mem_typeName schema) _ _ _
  · rw [← Option.some.inj isRecord]
    exact isMade_make (Schema.isWordPart_of_mem_itemTypeName schema) _ _ _
  · contradiction

theorem not_break_of_mem_fieldType {field : RecordField}
    (unbroken : ∀ c ∈ field.annotation, Text.isLineBreak c = false) :
    ∀ c ∈ fieldType field, Text.isLineBreak c = false := by
  rw [fieldType]
  split
  · exact Text.not_break_of_mem_append (Text.not_break_of_mem_append
      (Text.eq_false_of_mem (by decide)) unbroken) (Text.eq_false_of_mem (by decide))
  · exact unbroken

theorem isInert_callField (field : RecordField) : (callField field).IsInert := by
  unfold callField
  simp only [List.append_assoc]
  apply Text.IsInert.indented _ (by decide)
  apply Text.isInert_quoted_append
  apply Text.not_break_of_mem_append (Text.eq_false_of_mem (by decide))
  exact Text.not_break_of_mem_append (Text.not_break_of_mem_quoted _)
    (Text.eq_false_of_mem (by decide))

theorem isInert_classField {field : RecordField}
    (isName : Text.isIdentifier field.name.toList = true)
    (unbroken : ∀ c ∈ field.annotation, Text.isLineBreak c = false) :
    (classField field).IsInert := by
  unfold classField
  simp only [List.append_assoc]
  apply Text.IsInert.indented _ (by decide)
  apply Text.IsInert.afterIdentifier isName
  exact Text.not_break_of_mem_append (Text.eq_false_of_mem (by decide))
    (not_break_of_mem_fieldType unbroken)

/-- The comment of a record is no marker when its description does not begin like one. -/
theorem isPlainLine_comment (path : String) {description : Text}
    (unbroken : ∀ c ∈ description, Text.isLineBreak c = false)
    (noTag : Text.after? Marker.tag (description.dropWhile Text.isSpaceOrTab) = none) :
    Region.IsPlainLine (CommentStyle.ofPath path) ("# " ++ onOneLine description) := by
  have isSame : onOneLine description = description := by
    refine (List.map_congr_left fun c member => if_neg ?_).trans (List.map_id description)
    rintro rfl
    exact absurd (unbroken _ member) (by decide)
  have lineUnbroken : ∀ c ∈ ("# " : Text) ++ description, Text.isLineBreak c = false :=
    Text.not_break_of_mem_append (Text.eq_false_of_mem (by decide)) unbroken
  rw [isSame]
  refine ⟨lineUnbroken, ?_⟩
  rcases CommentStyle.ofPath_eq path with same | same | same | same
  · -- the line is a comment of the file, and what it says is not a marker
    have dropped : ∀ c ∈ ['\n'], Region.isLineEnd c = true := List.all_eq_true.mp (by decide)
    have isLine : ("# " : Text) ++ description = '#' :: ' ' :: description := rfl
    rw [same, Region.markerOf?, Text.trimEnd_append_of_drop dropped,
      Text.trimEnd_lineEnd_of_plain lineUnbroken, isLine]
    simp [Marker.ofLine?, CommentStyle.hash, Text.after?, Text.isSpaceOrTab, noTag]
  all_goals
    rw [same]
    exact Region.markerOf?_of_noOpening lineUnbroken rfl

theorem isPlainLine_recordLine (path : String) {record : RecordType} (isMade : IsMade record)
    (unbroken : ∀ c ∈ record.description.toList, Text.isLineBreak c = false)
    (noTag : record.functional = true →
      Text.after? Marker.tag (record.description.toList.dropWhile Text.isSpaceOrTab) = none) :
    ∀ line ∈ recordLines record, Region.IsPlainLine (CommentStyle.ofPath path) line := by
  have isEmpty : Region.IsPlainLine (CommentStyle.ofPath path) [] :=
    Text.IsInert.isPlainLine (by decide) path
  have inert {line : Text} (isInert : line.IsInert) :
      Region.IsPlainLine (CommentStyle.ofPath path) line := isInert.isPlainLine path
  have nameUnbroken : ∀ c ∈ record.name, Text.isLineBreak c = false :=
    fun c member => Text.not_break_of Text.isWordPart (by decide) (isMade.name c member)
  rw [recordLines]
  simp only [List.forall_mem_append, List.forall_mem_cons]
  refine ⟨⟨isEmpty, isEmpty, by simp⟩, ?_⟩
  split
  next isCall =>
    simp only [callLines, commentLines, List.forall_mem_append, List.forall_mem_cons,
      List.map_cons, List.map_nil, List.forall_mem_map]
    refine ⟨⟨⟨⟨?_, ?_, ?_, by simp⟩, ?_, by simp⟩, fun field _ => ?_⟩, ?_, ?_, ?_, by simp⟩
    · split
      · simp
      · simpa using isPlainLine_comment path unbroken (noTag isCall)
    · exact inert (.afterWordParts isMade.name (by decide +kernel))
    · rw [List.append_assoc]
      exact inert (Text.IsInert.indented (Text.isInert_quoted_append _
        (Text.eq_false_of_mem (by decide))) (by decide))
    · exact inert (.ofString rfl (by decide +kernel))
    · exact inert (isInert_callField field)
    · exact inert (.ofString rfl (by decide +kernel))
    · exact inert (.ofString rfl (by decide +kernel))
    · exact inert (.ofString rfl (by decide +kernel))
  next isClass =>
    simp only [classLines, docLines, fieldLines, List.forall_mem_append, List.forall_mem_cons]
    refine ⟨⟨⟨?_, by simp⟩, ?_⟩, ?_⟩
    · rw [List.append_assoc]
      refine inert (Text.IsInert.of_front (.ofString rfl (by decide +kernel)) (by decide +kernel) ?_)
      exact Text.not_break_of_mem_append nameUnbroken (Text.eq_false_of_mem (by decide +kernel))
    · split
      · simp
      · simp only [List.forall_mem_cons, List.append_assoc]
        refine ⟨inert (Text.IsInert.of_front (.ofString rfl (by decide +kernel)) (by decide +kernel)
          ?_), isEmpty, by simp⟩
        exact Text.not_break_of_mem_append unbroken (Text.eq_false_of_mem (by decide))
    · split
      · simpa using inert (.ofString rfl (by decide +kernel))
      · refine List.forall_mem_map.mpr fun field member => inert (isInert_classField ?_ ?_)
        · have areNames : ∀ field ∈ record.fields, RecordType.isFieldName field.name = true := by
            simpa [RecordType.functional] using isClass
          exact (Bool.and_eq_true_iff.mp (areNames field member)).1
        · exact isMade.fields field member

theorem isInert_aliasLine {given : TypeAlias} (areParts : ∀ c ∈ given.name, Text.isWordPart c = true)
    (unbroken : ∀ c ∈ given.annotation, Text.isLineBreak c = false) : (aliasLine given).IsInert := by
  unfold aliasLine
  rw [List.append_assoc]
  exact .afterWordParts areParts (Text.IsInert.of_front (by decide) (by decide) unbroken)

theorem isInert_aliasLine_of_mem {api : Api} {given : TypeAlias} (member : given ∈ api.aliases) :
    (aliasLine given).IsInert := by
  have parts {name : Text} (areParts : ∀ c ∈ name, Text.isWordPart c = true) :
      ∀ c ∈ name, Text.isLineBreak c = false :=
    fun c member => Text.not_break_of Text.isWordPart (by decide) (areParts c member)
  have listOf {item : Text} (unbroken : ∀ c ∈ item, Text.isLineBreak c = false) :
      ∀ c ∈ ("list[" : Text) ++ item ++ ("]" : Text), Text.isLineBreak c = false :=
    Text.not_break_of_mem_append (Text.not_break_of_mem_append
      (Text.eq_false_of_mem (by decide)) unbroken) (Text.eq_false_of_mem (by decide))
  rcases List.mem_append.mp member with isSingle | isList
  · obtain ⟨schema, -, isAlias⟩ := List.mem_filterMap.mp isSingle
    rw [Schema.singleAlias?] at isAlias
    split at isAlias
    next type _ =>
      rw [← Option.some.inj isAlias]
      refine isInert_aliasLine (Schema.isWordPart_of_mem_typeName schema) ?_
      exact (Field.primitive type default).annotation_noBreak
    · contradiction
  · obtain ⟨schema, -, isAlias⟩ := List.mem_filterMap.mp isList
    have areParts := Schema.isWordPart_of_mem_typeName schema
    rw [Schema.listAlias?] at isAlias
    split at isAlias
    · rw [← Option.some.inj isAlias]
      exact isInert_aliasLine areParts (listOf (parts (Schema.isWordPart_of_mem_itemTypeName schema)))
    · rw [← Option.some.inj isAlias]
      exact isInert_aliasLine areParts (listOf (Field.annotation_noBreak _))
    · rw [← Option.some.inj isAlias]
      exact isInert_aliasLine areParts (Field.anyArray default).annotation_noBreak
    · contradiction

theorem isPlainLine_regionLine (path : String) {api : Api} (oneLined : api.IsOneLined) :
    ∀ line ∈ regionLines api, Region.IsPlainLine (CommentStyle.ofPath path) line := by
  rw [regionLines, aliasLines]
  simp only [List.forall_mem_append, List.forall_mem_flatMap]
  refine ⟨fun record member => isPlainLine_recordLine path (isMade_of_mem_records member)
    (oneLined.records record member) (oneLined.comments record member), ?_⟩
  split
  · simp
  · have isEmpty : Region.IsPlainLine (CommentStyle.ofPath path) [] :=
      Text.IsInert.isPlainLine (by decide) path
    simp only [List.forall_mem_append, List.forall_mem_cons, List.forall_mem_map]
    exact ⟨⟨isEmpty, isEmpty, by simp⟩, fun given member =>
      (isInert_aliasLine_of_mem member).isPlainLine path⟩

end SchemasModule

/-- The lines of the files of a project are plain when its texts are on one line. -/
theorem ProjectFile.isPlainLine_of_oneLined {settings : ProjectSettings} {api : Api}
    (settingsOneLined : settings.IsOneLined) (apiOneLined : api.IsOneLined)
    (table : TranslationTable) (file : ProjectFile) :
    ∀ content ∈ (file.outline settings api table).contents,
      Region.IsPlainLine (CommentStyle.ofPath (file.path settings.packageName).label) content := by
  have inert (path : String) {contents : List Text} (areInert : ∀ line ∈ contents, line.IsInert) :
      ∀ line ∈ contents, Region.IsPlainLine (CommentStyle.ofPath path) line :=
    fun line member => (areInert line member).isPlainLine path
  have fixed (path : String) {lines : List String} (isFixed : lines ∈ fixedLines) :
      ∀ line ∈ lines.map String.toList, Region.IsPlainLine (CommentStyle.ofPath path) line :=
    inert path (isInert_of_fixed lines isFixed)
  generalize isPath : (file.path settings.packageName).label = path
  cases file with
  | page =>
      obtain rfl : "README.md" = path := isPath
      rw [outline, Outline.contents, List.forall_mem_append, List.forall_mem_append]
      exact ⟨⟨List.forall_mem_map.mpr (Overview.isPlainLine_introductionLine settingsOneLined
        apiOneLined.description apiOneLined.opening),
        inert _ (Overview.isInert_tableLine apiOneLined.paths apiOneLined.summaries)⟩, by simp⟩
  | ignored => exact fixed path (by simp [fixedLines])
  | manifest =>
      exact inert path (List.forall_mem_map.mpr (Overview.isInert_manifestLine settingsOneLined))
  | packageFile =>
      exact inert path (List.forall_mem_map.mpr (Overview.isInert_packageLine settingsOneLined))
  | routes =>
      simp only [outline, Outline.contents, List.forall_mem_append]
      exact ⟨⟨fixed path (by simp [fixedLines]),
        inert path (RoutesModule.isInert_regionLines api.endpoints)⟩,
        fixed path (by simp [fixedLines])⟩
  | schemas =>
      simp only [outline, Outline.contents, List.forall_mem_append]
      exact ⟨⟨fixed path (by simp [fixedLines]),
        SchemasModule.isPlainLine_regionLine path apiOneLined⟩, by simp⟩
  | labels =>
      simp only [outline, Outline.contents, List.forall_mem_append]
      exact ⟨⟨fixed path (by simp [fixedLines]),
        inert path (LabelsModule.isInert_regionLines table)⟩,
        fixed path (by simp [fixedLines])⟩

/-- The files of a project are ordinary when its texts are on one line. -/
theorem ProjectFile.isOrdinary_of_oneLined {settings : ProjectSettings} {api : Api}
    (settingsOneLined : settings.IsOneLined) (apiOneLined : api.IsOneLined)
    (table : TranslationTable) (file : ProjectFile) : file.IsOrdinary settings api table := by
  have plain := isPlainLine_of_oneLined settingsOneLined apiOneLined table file
  refine ⟨?_, (ownMarkers_iff file).mpr fun content member => (plain content member).unmarkedLines⟩
  rw [shown_text]
  exact Outline.noPair_of_plainLines (isNamed_outline file) plain

end ApiWorkshop

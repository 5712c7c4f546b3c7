import Mathlib.Data.List.Basic
import ApiWorkshop.Proofs.Region.Blocks

/-!
# The lines of markers

A line is a marker exactly if it is laid out as one: the delimiters of a comment
around the tag, the word for a boundary and a name, where spaces and tabs may stand
around each part and some have to stand before the name.  The line that is written
for a marker is laid out so for every kind of comment, also when the name ends in the
hyphens that close the comment.
-/

namespace ApiWorkshop

/-- Only spaces and tabs. -/
def Text.IsBlankRun (text : Text) : Prop :=
  ∀ c ∈ text, isSpaceOrTab c = true

/-- A name that a region can have. -/
structure IsRegionName (name : String) : Prop where
  nonempty : name.toList ≠ []
  areNameChars : ∀ c ∈ name.toList, Marker.isNameChar c = true

/-- A line that is laid out as a marker. -/
inductive Marker.IsShownBy (style : CommentStyle) (marker : Marker) : Text → Prop
  | mk {indent gap space before after : Text}
      (areBlank : ∀ run ∈ [indent, gap, space, before, after], run.IsBlankRun)
      (someSpace : space ≠ []) (isName : IsRegionName marker.name) :
      IsShownBy style marker (indent ++ style.opening ++ gap ++ tag ++ marker.boundary.word ++
        space ++ marker.name.toList ++ before ++ style.closing ++ after)

namespace CommentStyle

/-- There is something at the start of a comment, and no space or tab is at its
start or its end. -/
structure IsTight (style : CommentStyle) : Prop where
  opening_ne_nil : style.opening ≠ []
  first : ∀ c ∈ style.opening.head?, Text.isSpaceOrTab c = false
  last : ∀ c ∈ style.closing.getLast?, Text.isSpaceOrTab c = false

theorem ofPath_eq (path : String) :
    ofPath path = hash ∨ ofPath path = markup ∨ ofPath path = slashes ∨ ofPath path = block := by
  simp only [ofPath, ofSuffix]
  split
  · exact .inr (.inl rfl)
  · split
    · exact .inr (.inr (.inl rfl))
    · split
      · exact .inr (.inr (.inr rfl))
      · exact .inl rfl

theorem isTight_ofPath (path : String) : (ofPath path).IsTight := by
  rcases ofPath_eq path with same | same | same | same <;> rw [same] <;>
    exact ⟨by decide, Text.eq_false_of_mem_option (by decide), Text.eq_false_of_mem_option (by decide)⟩

end CommentStyle

namespace Marker

theorem not_blank_of_isNameChar {c : Char} (isNameChar : isNameChar c = true) :
    Text.isSpaceOrTab c = false := by
  rw [← Bool.not_eq_true]
  intro isBlank
  rw [Text.isSpaceOrTab, Bool.or_eq_true, decide_eq_true_eq, decide_eq_true_eq] at isBlank
  rcases isBlank with rfl | rfl <;> exact absurd isNameChar (by decide)

/-- A character of a name ends no line. -/
theorem not_break_of_isNameChar {c : Char} (isNameChar : isNameChar c = true) :
    Text.isLineBreak c = false :=
  Text.not_break_of Marker.isNameChar (by decide +kernel) isNameChar

theorem boundary?_eq_some_iff {text rest : Text} {boundary : Boundary} :
    boundary? text = some (boundary, rest) ↔ text = boundary.word ++ rest := by
  rw [boundary?]
  constructor
  · intro isRead
    split at isRead
    next other isOpening =>
      obtain ⟨rfl, rfl⟩ := Prod.mk.inj (Option.some.inj isRead)
      exact Text.after?_eq_some_iff.mp isOpening
    next =>
      obtain ⟨other, isClosing, same⟩ := Option.map_eq_some_iff.mp isRead
      obtain ⟨rfl, rfl⟩ := Prod.mk.inj same
      exact Text.after?_eq_some_iff.mp isClosing
  · rintro rfl
    cases boundary with
    | opening => rw [Text.after?_append]
    | closing =>
        have notOpening : Text.after? Boundary.opening.word (Boundary.closing.word ++ rest) = none :=
          rfl
        rw [notOpening, Text.after?_append, Option.map_some]

/-- Trimming the end of a line leaves the end of its comment.  Where nothing closes the
comment, the blanks before it are dropped as well. -/
theorem exists_trimEnd_eq {style : CommentStyle} (isTight : style.IsTight)
    {named before after : Text} (lastKept : ∀ c ∈ named.getLast?, Text.isSpaceOrTab c = false)
    (areBefore : before.IsBlankRun) (areAfter : after.IsBlankRun) :
    ∃ kept : Text, kept.IsBlankRun ∧
      Text.trimEnd Text.isSpaceOrTab (named ++ before ++ style.closing ++ after) =
        named ++ kept ++ style.closing := by
  rw [Text.trimEnd_append_of_drop areAfter]
  rcases List.eq_nil_or_concat style.closing with noClosing | ⟨front, last, isClosing⟩
  · refine ⟨[], by simp [Text.IsBlankRun], ?_⟩
    rw [noClosing, List.append_nil, List.append_nil, List.append_nil,
      Text.trimEnd_append_of_drop areBefore, Text.trimEnd_eq_self lastKept]
  · have closingKept := isTight.last last (by simp [isClosing])
    refine ⟨before, areBefore, Text.trimEnd_eq_self fun c isLast => ?_⟩
    rw [isClosing, List.concat_eq_append, ← List.append_assoc, List.getLast?_concat,
      Option.mem_some_iff] at isLast
    exact isLast ▸ closingKept

theorem name?_eq_some_iff {style : CommentStyle} (isTight : style.IsTight) {text : Text}
    {name : String} :
    name? style text = some name ↔ IsRegionName name ∧ ∃ lead before after : Text,
      (∀ run ∈ [lead, before, after], run.IsBlankRun) ∧
        text = lead ++ name.toList ++ before ++ style.closing ++ after := by
  rw [name?, Option.bind_eq_bind, Option.bind_eq_some_iff]
  constructor
  · rintro ⟨named, isNamed, isRead⟩
    obtain ⟨after, isText, areAfter⟩ := Text.exists_eq_trimEnd_append Text.isSpaceOrTab text
    obtain ⟨lead, before, isLine, areLead, areBefore⟩ :=
      Text.exists_eq_append_trim Text.isSpaceOrTab named
    dsimp only at isRead
    split at isRead
    next => contradiction
    next isName =>
      obtain rfl := Option.some.inj isRead
      simp only [Bool.or_eq_true, List.isEmpty_iff, Bool.not_eq_true', not_or, Bool.not_eq_false,
        List.all_eq_true] at isName
      refine ⟨⟨by simpa using isName.1, by simpa using isName.2⟩, lead, before, after, ?_, ?_⟩
      · simpa [Text.IsBlankRun] using ⟨areLead, areBefore, areAfter⟩
      · rw [String.toList_ofList, ← isLine, ← Text.before?_eq_some_iff.mp isNamed]
        exact isText
  · rintro ⟨isName, lead, before, after, areBlank, rfl⟩
    simp only [List.mem_cons, List.not_mem_nil, or_false, forall_eq_or_imp, forall_eq] at areBlank
    obtain ⟨areLead, areBefore, areAfter⟩ := areBlank
    have lastKept : ∀ c ∈ name.toList.getLast?, Text.isSpaceOrTab c = false := fun c isLast =>
      not_blank_of_isNameChar (isName.areNameChars c (List.mem_of_getLast? isLast))
    have lineKept : ∀ c ∈ (lead ++ name.toList).getLast?, Text.isSpaceOrTab c = false := by
      rwa [List.getLast?_append_of_ne_nil _ isName.nonempty]
    obtain ⟨kept, isKept, areKept⟩ := exists_trimEnd_eq isTight lineKept areBefore areAfter
    have firstKept : ∀ c ∈ (name.toList ++ kept).head?, Text.isSpaceOrTab c = false := by
      rw [List.head?_append_of_ne_nil _ isName.nonempty]
      exact fun c isFirst =>
        not_blank_of_isNameChar (isName.areNameChars c (List.mem_of_head? isFirst))
    refine ⟨lead ++ name.toList ++ kept, ?_, ?_⟩
    · rw [areKept, Text.before?_append]
    · dsimp only
      rw [Text.trim_append areLead firstKept lastKept isKept, if_neg, String.ofList_toList]
      simp only [Bool.or_eq_true, List.isEmpty_iff, Bool.not_eq_true', not_or, Bool.not_eq_false,
        List.all_eq_true]
      exact ⟨isName.nonempty, isName.areNameChars⟩

/-- A line that is read as a marker is laid out as that marker. -/
theorem isShownBy_of_ofLine? {style : CommentStyle} (isTight : style.IsTight) {line : Text}
    {marker : Marker} (isMarker : ofLine? style line = some marker) :
    marker.IsShownBy style line := by
  rw [ofLine?] at isMarker
  simp only [Option.bind_eq_bind, Option.bind_eq_some_iff] at isMarker
  obtain ⟨afterOpening, isOpening, afterTag, isTag, ⟨boundary, afterWord⟩, isBoundary, isRead⟩ :=
    isMarker
  dsimp only at isRead
  split at isRead
  next startsBlank =>
    obtain ⟨name, isName, same⟩ := Option.bind_eq_some_iff.mp isRead
    obtain rfl := Option.some.inj same
    obtain ⟨isRegionName, space, before, after, areBlank, rfl⟩ :=
      (name?_eq_some_iff isTight).mp isName
    have someSpace : space ≠ [] := by
      rintro rfl
      obtain ⟨c, others, isCons⟩ := List.exists_cons_of_ne_nil isRegionName.nonempty
      have notBlank := not_blank_of_isNameChar (isRegionName.areNameChars c (by simp [isCons]))
      simp [isCons, notBlank] at startsBlank
    have isLine : line = line.takeWhile Text.isSpaceOrTab ++ style.opening ++
        afterOpening.takeWhile Text.isSpaceOrTab ++ tag ++ boundary.word ++ space ++
          name.toList ++ before ++ style.closing ++ after :=
      calc line
          = line.takeWhile Text.isSpaceOrTab ++ (style.opening ++ afterOpening) := by
            rw [← Text.after?_eq_some_iff.mp isOpening, List.takeWhile_append_dropWhile]
        _ = line.takeWhile Text.isSpaceOrTab ++ (style.opening ++
              (afterOpening.takeWhile Text.isSpaceOrTab ++ (tag ++ afterTag))) := by
            rw [← Text.after?_eq_some_iff.mp isTag, List.takeWhile_append_dropWhile]
        _ = _ := by
            rw [boundary?_eq_some_iff.mp isBoundary]
            simp only [List.append_assoc]
    have isBlankRun (text : Text) : Text.IsBlankRun (text.takeWhile Text.isSpaceOrTab) :=
      List.all_eq_true.mp List.all_takeWhile
    have allBlank : ∀ run ∈ [line.takeWhile Text.isSpaceOrTab,
        afterOpening.takeWhile Text.isSpaceOrTab, space, before, after], Text.IsBlankRun run :=
      List.forall_mem_cons.mpr ⟨isBlankRun line,
        List.forall_mem_cons.mpr ⟨isBlankRun afterOpening, areBlank⟩⟩
    rw [isLine]
    exact .mk allBlank someSpace isRegionName
  next => contradiction

/-- A line that is laid out as a marker is read as that marker. -/
theorem ofLine?_of_isShownBy {style : CommentStyle} (isTight : style.IsTight) {line : Text}
    {marker : Marker} (isShown : marker.IsShownBy style line) :
    ofLine? style line = some marker := by
  obtain @⟨indent, gap, space, before, after, areBlank, someSpace, isName⟩ := isShown
  rw [ofLine?]
  simp only [Option.bind_eq_bind, Option.bind_eq_some_iff]
  simp only [List.mem_cons, List.not_mem_nil, or_false, forall_eq_or_imp, forall_eq] at areBlank
  obtain ⟨areIndent, areGap, areSpace, areEnd⟩ := areBlank
  obtain ⟨inside, isInside⟩ : ∃ inside, inside =
      space ++ marker.name.toList ++ before ++ style.closing ++ after := ⟨_, rfl⟩
  have isLine : indent ++ style.opening ++ gap ++ tag ++ marker.boundary.word ++ space ++
      marker.name.toList ++ before ++ style.closing ++ after =
        indent ++ (style.opening ++ (gap ++ (tag ++ (marker.boundary.word ++ inside)))) := by
    simp only [isInside, List.append_assoc]
  have isRead : name? style inside = some marker.name := (name?_eq_some_iff isTight).mpr
    ⟨isName, space, before, after, by simpa using ⟨areSpace, areEnd⟩, isInside⟩
  have startsBlank : inside.head?.any Text.isSpaceOrTab = true := by
    obtain ⟨c, others, rfl⟩ := List.exists_cons_of_ne_nil someSpace
    rw [isInside]
    exact areSpace c List.mem_cons_self
  have openingFirst (rest : Text) :
      ∀ c ∈ (style.opening ++ rest).head?, Text.isSpaceOrTab c = false := by
    rw [List.head?_append_of_ne_nil _ isTight.opening_ne_nil]
    exact isTight.first
  have tagFirst (rest : Text) : ∀ c ∈ (tag ++ rest).head?, Text.isSpaceOrTab c = false := by
    rw [List.head?_append_of_ne_nil _ (by decide)]
    exact Text.eq_false_of_mem_option (by decide)
  rw [isLine]
  refine ⟨gap ++ (tag ++ (marker.boundary.word ++ inside)), ?_, marker.boundary.word ++ inside, ?_,
    (marker.boundary, inside), boundary?_eq_some_iff.mpr rfl, ?_⟩
  · rw [List.dropWhile_append_of_pos areIndent, Text.dropWhile_eq_self (openingFirst _),
      Text.after?_append]
  · rw [List.dropWhile_append_of_pos areGap, Text.dropWhile_eq_self (tagFirst _),
      Text.after?_append]
  · dsimp only
    rw [if_pos startsBlank, isRead]
    rfl

/-- The lines that are read as markers are those that are laid out as markers. -/
theorem ofLine?_eq_some_iff {style : CommentStyle} (isTight : style.IsTight) {line : Text}
    {marker : Marker} : ofLine? style line = some marker ↔ marker.IsShownBy style line :=
  ⟨isShownBy_of_ofLine? isTight, ofLine?_of_isShownBy isTight⟩

/-! ## Written markers -/

/-- The line that is written for a marker is laid out as one. -/
theorem isShownBy_line (style : CommentStyle) {marker : Marker}
    (isName : IsRegionName marker.name) : marker.IsShownBy style (line style marker) := by
  obtain ⟨before, areBefore, isLine⟩ : ∃ before : Text, before.IsBlankRun ∧
      line style marker = [] ++ style.opening ++ [' '] ++ tag ++ marker.boundary.word ++ [' '] ++
        marker.name.toList ++ before ++ style.closing ++ [] := by
    rw [line]
    cases isClosing : style.closing with
    | nil => exact ⟨[], by simp [Text.IsBlankRun], by simp⟩
    | cons c closing => exact ⟨[' '], by simp [Text.IsBlankRun, Text.isSpaceOrTab], by simp⟩
  rw [isLine]
  refine .mk ?_ (List.cons_ne_nil _ _) isName
  simp [Text.IsBlankRun, Text.isSpaceOrTab] at areBefore ⊢
  exact areBefore

/-- A marker that is written is read. -/
theorem ofLine?_line {style : CommentStyle} (isTight : style.IsTight) {marker : Marker}
    (isName : IsRegionName marker.name) : ofLine? style (line style marker) = some marker :=
  (ofLine?_eq_some_iff isTight).mpr (isShownBy_line style isName)

end Marker

end ApiWorkshop

import ApiWorkshop.Proofs.Region.Markers
import ApiWorkshop.Proofs.Region.Replace

/-!
# Written regions

A region that is written into a text, between the lines that are written for its
markers, is the one region that is found there, and its body is what was written.  The
lines may end either way, and what is written around the region does not matter as
long as it is no marker.

Lines that have no break in them and do not begin like a comment are no markers in any
file.  When such lines are put between the marker lines of a region and around them, they
are the lines of the file, and its one region has the lines between the markers.
-/

namespace ApiWorkshop

/-- A line that ends in a line feed, alone or in a pair, is set apart from what follows
it. -/
theorem Text.lines_plain_append_ending {text ending : Text}
    (isPlain : ∀ c ∈ text, isLineBreak c = false)
    (isEnding : ending = ['\n'] ∨ ending = ['\r', '\n']) (rest : Text) :
    lines (text ++ ending ++ rest) = (text ++ ending) :: lines rest := by
  have isLine : lines (text ++ ending) = [text ++ ending] := by
    rcases isEnding with rfl | rfl
    · exact lines_plain_append_break isPlain (by decide)
    · exact lines_plain_append_pair isPlain
  have isLast : (text ++ ending).getLast? = some '\n' := by
    rcases isEnding with rfl | rfl <;> simp
  have ends : EndsLine (text ++ ending) := by
    intro c isLastToo
    obtain rfl := Option.some.inj (isLast.symm.trans isLastToo)
    decide
  have apart : ¬ JoinsPair (text ++ ending) rest := by
    rintro ⟨isReturn, -⟩
    rw [isLast] at isReturn
    contradiction
  rw [lines_append ends apart, isLine, List.singleton_append]

namespace Marker

/-- No character of the line of a marker ends a line. -/
theorem not_break_of_mem_line (path : String) {marker : Marker}
    (isName : IsRegionName marker.name) :
    ∀ c ∈ line (CommentStyle.ofPath path) marker, Text.isLineBreak c = false := by
  have wordIsPlain : ∀ c ∈ marker.boundary.word, Text.isLineBreak c = false := by
    cases marker.boundary <;> exact Text.eq_false_of_mem (by decide)
  have nameIsPlain : ∀ c ∈ marker.name.toList, Text.isLineBreak c = false :=
    fun c member => not_break_of_isNameChar (isName.areNameChars c member)
  simp only [line, List.forall_mem_append]
  have blankIsPlain : ∀ c ∈ (" " : Text), Text.isLineBreak c = false :=
    Text.eq_false_of_mem (by decide)
  refine ⟨⟨⟨⟨⟨⟨?_, blankIsPlain⟩, Text.eq_false_of_mem (by decide)⟩, wordIsPlain⟩, blankIsPlain⟩,
    nameIsPlain⟩, ?_⟩
  all_goals
    rcases CommentStyle.ofPath_eq path with same | same | same | same <;> rw [same] <;>
      exact Text.eq_false_of_mem (by decide)

end Marker

namespace Region

/-- A written marker is read from its line, however the line ends. -/
theorem markerOf?_line (path : String) {marker : Marker} (isName : IsRegionName marker.name)
    {ending : Text} (isEnding : ending = ['\n'] ∨ ending = ['\r', '\n']) :
    markerOf? (CommentStyle.ofPath path) (Marker.line (CommentStyle.ofPath path) marker ++ ending) =
      some marker := by
  have dropped : ∀ c ∈ ending, isLineEnd c = true := by
    rcases isEnding with rfl | rfl <;> exact List.all_eq_true.mp (by decide)
  rw [markerOf?, Text.trimEnd_append_of_drop dropped,
    Text.trimEnd_lineEnd_of_plain (Marker.not_break_of_mem_line path isName),
    Marker.ofLine?_line (CommentStyle.isTight_ofPath path) isName]

/-- What is written before a marker keeps its lines, where it ends one. -/
theorem lines_append_line {path : String} {marker : Marker} (isName : IsRegionName marker.name)
    {ending : Text} (isEnding : ending = ['\n'] ∨ ending = ['\r', '\n']) {front : Text}
    (frontEnds : Text.EndsLine front) (rest : Text) :
    let line := Marker.line (CommentStyle.ofPath path) marker ++ ending
    Text.lines (front ++ (line ++ rest)) = Text.lines front ++ line :: Text.lines rest := by
  intro line
  have linesEq : Text.lines (line ++ rest) = line :: Text.lines rest :=
    Text.lines_plain_append_ending (Marker.not_break_of_mem_line path isName) isEnding rest
  have areLines := Text.areLines_lines (line ++ rest)
  rw [linesEq] at areLines
  have notFeed : line.head? ≠ some '\n' :=
    head?_ne_feed_of_markerOf? (CommentStyle.opening_ofPath_ne_nil path)
      (Text.areLines_cons areLines).1 (markerOf?_line path isName isEnding)
  have apart : ¬ Text.JoinsPair front (line ++ rest) := by
    rintro ⟨-, isFeed⟩
    rw [List.head?_append_of_ne_nil _ (Text.ne_nil_of_areLines_cons areLines)] at isFeed
    exact notFeed isFeed
  rw [Text.lines_append frontEnds apart, linesEq]

/-- The lines of a text with a region that is written between two others. -/
theorem lines_written (path : String) {name : String} (isName : IsRegionName name)
    {ending before body : Text} (isEnding : ending = ['\n'] ∨ ending = ['\r', '\n'])
    (beforeEnds : Text.EndsLine before) (bodyEnds : Text.EndsLine body) (after : Text) :
    Text.lines (before ++ beginMarker path name ++ ending ++ body ++ endMarker path name ++ ending ++
        after) =
      Text.lines before ++ (beginMarker path name ++ ending) ::
        (Text.lines body ++ (endMarker path name ++ ending) :: Text.lines after) := by
  have regrouped : before ++ beginMarker path name ++ ending ++ body ++ endMarker path name ++
      ending ++ after = before ++ ((beginMarker path name ++ ending) ++
        (body ++ ((endMarker path name ++ ending) ++ after))) := by
    simp only [List.append_assoc]
  rw [regrouped, beginMarker, endMarker, lines_append_line isName isEnding beforeEnds,
    lines_append_line isName isEnding bodyEnds]

/-- A region that is written between unmarked texts makes the one block of its text. -/
theorem layout_written (path : String) {name : String} (isName : IsRegionName name)
    {ending before body after : Text} (isEnding : ending = ['\n'] ∨ ending = ['\r', '\n'])
    (beforeEnds : Text.EndsLine before) (bodyEnds : Text.EndsLine body)
    (unmarked : ∀ part ∈ [before, body, after],
      UnmarkedLines (CommentStyle.ofPath path) (Text.lines part)) :
    Layout (CommentStyle.ofPath path)
      (before ++ beginMarker path name ++ ending ++ body ++ endMarker path name ++ ending ++ after)
      (Text.lines before)
      [⟨name, beginMarker path name ++ ending, Text.lines body, endMarker path name ++ ending,
        Text.lines after⟩] := by
  simp only [List.forall_mem_cons] at unmarked
  obtain ⟨beforeUnmarked, bodyUnmarked, afterUnmarked, -⟩ := unmarked
  refine ⟨?_, beforeUnmarked, List.forall_mem_singleton.mpr ⟨markerOf?_line path isName isEnding,
    markerOf?_line path isName isEnding, bodyUnmarked, afterUnmarked⟩, by simp⟩
  rw [lines_written path isName isEnding beforeEnds bodyEnds]
  simp [Block.lines]

/-- The region of a text that is one block is the body of the block. -/
theorem Layout.exists_region {path : String} {text : Text} {lead : List Text} {block : Block}
    (layout : Layout (CommentStyle.ofPath path) text lead [block]) :
    ∃ region, findRegions path text = .ok [region] ∧ region.name = block.name ∧
      region.body text = block.body.flatten := by
  have textEq : text = lead.flatten ++ (block.lines.flatten ++ []) := by simpa using layout.text_eq
  refine ⟨_, findRegions_eq_ok_iff.mpr ⟨lead, [block], layout, rfl⟩, rfl, ?_⟩
  rw [textEq, body_block]

end Region

/-- A region that is written between unmarked texts is the one region that is found, with
the body that was written. -/
theorem findRegions_written (path : String) {name : String} (isName : IsRegionName name)
    {ending before body after : Text} (isEnding : ending = ['\n'] ∨ ending = ['\r', '\n'])
    (beforeEnds : Text.EndsLine before) (bodyEnds : Text.EndsLine body)
    (unmarked : ∀ part ∈ [before, body, after],
      Region.UnmarkedLines (CommentStyle.ofPath path) (Text.lines part)) :
    let text := before ++ beginMarker path name ++ ending ++ body ++ endMarker path name ++ ending ++
      after
    ∃ region, findRegions path text = .ok [region] ∧ region.name = name ∧
      region.body text = body := by
  intro text
  obtain ⟨region, found, isName, isBody⟩ :=
    (Region.layout_written path isName isEnding beforeEnds bodyEnds unmarked).exists_region
  exact ⟨region, found, isName, isBody.trans (Text.lines_flatten body)⟩

/-- A name that ends in hyphens, at the end of a comment that is closed by hyphens. -/
theorem findRegions_written_hyphens :
    let text : Text := "# A\r\n".toList ++ beginMarker "README.md" "a.b--" ++ ['\r', '\n'] ++
      "\nx\r".toList ++ endMarker "README.md" "a.b--" ++ ['\r', '\n'] ++ "end".toList
    ∃ region, findRegions "README.md" text = .ok [region] ∧ region.name = "a.b--" ∧
      region.body text = "\nx\r".toList :=
  findRegions_written "README.md" ⟨by decide, List.all_eq_true.mp (by decide)⟩ (.inr rfl)
    (by decide +kernel) (by decide +kernel) (by decide +kernel)

/-! ## Framed lines -/

namespace Text

/-- A line without a break in it that does not begin like a comment of any style. -/
structure IsInert (line : Text) : Prop where
  unbroken : ∀ c ∈ line, isLineBreak c = false
  uncommented : ∀ c ∈ (line.dropWhile isSpaceOrTab).head?, c ≠ '#' ∧ c ≠ '<' ∧ c ≠ '/'

instance (line : Text) : Decidable line.IsInert :=
  decidable_of_iff (line.all (!isLineBreak ·) = true ∧
      (line.dropWhile isSpaceOrTab).head?.all (fun c => c ≠ '#' ∧ c ≠ '<' ∧ c ≠ '/') = true) <| by
    simp only [List.all_eq_true, Option.all_eq_true, Bool.not_eq_true', decide_eq_true_eq]
    exact ⟨fun ⟨unbroken, uncommented⟩ => ⟨unbroken, uncommented⟩,
      fun isInert => ⟨isInert.unbroken, isInert.uncommented⟩⟩

/-- The characters of a literal are taken from it as a list, so that the kernel need not
decode it. -/
theorem IsInert.ofString {string : String} {line : Text} (same : string = String.ofList line)
    (isInert : line.IsInert) : IsInert string := by
  rwa [same, String.toList_ofList]

/-- What a line goes on with does not matter after a character that is no blank and begins
no comment. -/
theorem IsInert.of_front {front rest : Text} (isInert : front.IsInert)
    (begins : front.any (!isSpaceOrTab ·) = true) (unbroken : ∀ c ∈ rest, isLineBreak c = false) :
    (front ++ rest).IsInert := by
  obtain ⟨c, isPart, isVisible⟩ := List.any_eq_true.mp begins
  obtain ⟨blank, left, -, sameLeft, split, areBlank, -⟩ := exists_span isSpaceOrTab front
  have someLeft : left ≠ [] := by
    rintro rfl
    rw [List.append_nil] at split
    simp [areBlank c (split ▸ isPart)] at isVisible
  have uncommented := isInert.uncommented
  rw [sameLeft] at uncommented
  refine ⟨List.forall_mem_append.mpr ⟨isInert.unbroken, unbroken⟩, ?_⟩
  rw [List.dropWhile_append, sameLeft, if_neg (by simpa using someLeft),
    List.head?_append_of_ne_nil _ someLeft]
  exact uncommented

/-- A line can be indented. -/
theorem IsInert.indented {indent line : Text} (isInert : line.IsInert)
    (isIndent : indent.all (· = ' ') = true) : (indent ++ line).IsInert := by
  have areSpaces : ∀ c ∈ indent, c = ' ' := by simpa using isIndent
  refine ⟨List.forall_mem_append.mpr ⟨fun c member => ?_, isInert.unbroken⟩, ?_⟩
  · rw [areSpaces c member]
    decide
  · rw [List.dropWhile_append_of_pos fun c member => areSpaces c member ▸ by decide]
    exact isInert.uncommented

theorem unlines_cons (line : Text) (lines : List Text) :
    unlines (line :: lines) = line ++ '\n' :: unlines lines := by
  rw [unlines, List.flatMap_cons, List.append_assoc, List.singleton_append, unlines]

theorem length_le_unlines (lines : List Text) : lines.length ≤ (unlines lines).length := by
  induction lines with
  | nil => exact Nat.le_refl _
  | cons line lines ih =>
      rw [unlines_cons, List.length_append, List.length_cons, List.length_cons]
      omega

theorem unlines_append (first second : List Text) :
    unlines (first ++ second) = unlines first ++ unlines second :=
  List.flatMap_append

theorem last_unlines (contents : List Text) : ∀ c ∈ (unlines contents).getLast?, c = '\n' := by
  intro c isLast
  rcases List.eq_nil_or_concat contents with rfl | ⟨front, last, rfl⟩
  · simp [unlines] at isLast
  · rw [List.concat_eq_append, unlines_append, unlines, unlines, List.flatMap_singleton,
      ← List.append_assoc, List.getLast?_concat] at isLast
    exact (Option.some.inj isLast).symm

theorem endsLine_unlines (contents : List Text) : EndsLine (unlines contents) := by
  intro c isLast
  rw [last_unlines contents c isLast]
  decide

theorem lines_unlines_append (first second : List Text) :
    lines (unlines (first ++ second)) = lines (unlines first) ++ lines (unlines second) := by
  rw [unlines_append]
  refine lines_append (endsLine_unlines first) ?_
  rintro ⟨isReturn, -⟩
  exact absurd (last_unlines first _ isReturn) (by decide)

/-- Lines without breaks that are put together are the lines of what they make. -/
theorem lines_unlines {contents : List Text}
    (unbroken : ∀ content ∈ contents, ∀ c ∈ content, isLineBreak c = false) :
    lines (unlines contents) = contents.map (· ++ ['\n']) := by
  induction contents with
  | nil => rfl
  | cons content contents ih =>
      obtain ⟨isPlain, restPlain⟩ := List.forall_mem_cons.mp unbroken
      rw [unlines, List.flatMap_cons, lines_plain_append_ending isPlain (.inl rfl), List.map_cons]
      exact congrArg _ (ih restPlain)

end Text

namespace Region

/-- A line that does not begin like a comment of a file is no marker in the file. -/
theorem markerOf?_of_noOpening {style : CommentStyle} {line : Text}
    (unbroken : ∀ c ∈ line, Text.isLineBreak c = false)
    (noOpening : Text.after? style.opening (line.dropWhile Text.isSpaceOrTab) = none) :
    markerOf? style (line ++ ['\n']) = none := by
  have dropped : ∀ c ∈ ['\n'], isLineEnd c = true := List.all_eq_true.mp (by decide)
  rw [markerOf?, Text.trimEnd_append_of_drop dropped, Text.trimEnd_lineEnd_of_plain unbroken,
    Marker.ofLine?, noOpening]
  rfl

theorem markerOf?_of_isInert (path : String) {line : Text} (isInert : line.IsInert) :
    markerOf? (CommentStyle.ofPath path) (line ++ ['\n']) = none := by
  refine markerOf?_of_noOpening isInert.unbroken ?_
  have uncommented := isInert.uncommented
  generalize line.dropWhile Text.isSpaceOrTab = rest at uncommented
  rw [Text.after?_eq_none_iff]
  rintro ⟨others, rfl⟩
  rcases CommentStyle.ofPath_eq path with same | same | same | same
  all_goals
    rw [same] at uncommented
    exact absurd (uncommented _ rfl) (by decide)

theorem unmarkedLines_unlines (path : String) {contents : List Text}
    (areInert : ∀ line ∈ contents, line.IsInert) :
    UnmarkedLines (CommentStyle.ofPath path) (Text.lines (Text.unlines contents)) := by
  rw [Text.lines_unlines fun line member => (areInert line member).unbroken]
  intro line member
  obtain ⟨content, isContent, rfl⟩ := List.mem_map.mp member
  exact markerOf?_of_isInert path (areInert content isContent)

end Region

/-- A text has one region, and the region has a name and is made of some lines. -/
def HasOneRegion (path : String) (text : Text) (name : String) (contents : List Text) : Prop :=
  ∃ region, findRegions path text = .ok [region] ∧ region.name = name ∧
    Text.lines (region.body text) = contents.map (· ++ ['\n'])

theorem append_framed_append (path name : String) (before body after : Text) :
    before ++ framed path name body ++ after =
      before ++ beginMarker path name ++ ['\n'] ++ body ++ endMarker path name ++ ['\n'] ++
        after := by
  simp only [framed, List.append_assoc]

/-- Lines between the markers of a region make the one region that is found, when no line
in the file begins like a comment or has a break in it. -/
theorem hasOneRegion_framed (path : String) {name : String} (isName : IsRegionName name)
    {before body after : List Text} (beforeInert : ∀ line ∈ before, line.IsInert)
    (bodyInert : ∀ line ∈ body, line.IsInert) (afterInert : ∀ line ∈ after, line.IsInert) :
    HasOneRegion path
      (Text.unlines before ++ framed path name (Text.unlines body) ++ Text.unlines after) name
      body := by
  rw [append_framed_append]
  obtain ⟨region, found, isName, isBody⟩ := (Region.layout_written path isName (.inl rfl)
    (Text.endsLine_unlines before) (Text.endsLine_unlines body) (by
      simp only [List.forall_mem_cons]
      exact ⟨Region.unmarkedLines_unlines path beforeInert,
        Region.unmarkedLines_unlines path bodyInert,
        Region.unmarkedLines_unlines path afterInert, by simp⟩)).exists_region
  refine ⟨region, found, isName, ?_⟩
  rw [isBody, Text.lines_flatten,
    Text.lines_unlines fun line member => (bodyInert line member).unbroken]

end ApiWorkshop

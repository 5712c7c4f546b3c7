import ApiWorkshop.Proofs.Region.Replace

/-!
# Line ends under replacement

A text whose carriage returns all belong to line ends has one line end, and
putting bodies in place one after the other can lose the pairs of such a text but
never bring them in.  So the body that a content becomes in the end is the one
that it became when its turn came: where the pairs were lost in between, the
content has no line end at all.
-/

namespace ApiWorkshop

namespace Text

/-- Every carriage return is followed by a line feed. -/
def Paired (text : Text) : Prop :=
  ∀ before after, text = before ++ '\r' :: after → after.head? = some '\n'

theorem paired_of_noReturn {text : Text} (noReturn : '\r' ∉ text) : Paired text := by
  rintro before after rfl
  simp at noReturn

theorem paired_append {first second : Text} (firstPaired : Paired first)
    (secondPaired : Paired second) : Paired (first ++ second) := by
  intro before after split
  rcases List.append_eq_append_iff.mp split with ⟨middle, rfl, isSecond⟩ | ⟨middle, isFirst, isAfter⟩
  · exact secondPaired middle after isSecond
  · cases middle with
    | nil => exact secondPaired [] after (by simpa using isAfter.symm)
    | cons c middle =>
        obtain ⟨rfl, rfl⟩ := List.cons.inj isAfter
        have next := firstPaired before middle isFirst
        cases middle with
        | nil => simp at next
        | cons d middle => simpa using next

/-- A text whose carriage returns are followed by line feeds can be parted where
no pair is. -/
theorem paired_of_append {first second : Text} (paired : Paired (first ++ second))
    (apart : ¬ JoinsPair first second) : Paired first ∧ Paired second := by
  constructor
  · rintro before after rfl
    have next := paired before (after ++ second) (by simp)
    cases after with
    | nil => exact absurd ⟨by simp, by simpa using next⟩ apart
    | cons c after => simpa using next
  · rintro before after rfl
    exact paired (first ++ before) after (by simp)

theorem hasPart_iff {part text : Text} (somePart : part ≠ []) :
    hasPart part text = true ↔ part <:+: text := by
  induction text with
  | nil => simp [hasPart, somePart]
  | cons c text ih =>
      rw [hasPart, Bool.or_eq_true, List.isPrefixOf_iff_prefix, ih, List.infix_cons_iff]

end Text

namespace Region

theorem lineEnd_eq_pair_iff (text : Text) :
    lineEnd text = ['\r', '\n'] ↔ ['\r', '\n'] <:+: text := by
  rw [lineEnd, usesPairs, ← Text.hasPart_iff (by simp)]
  split <;> simp_all

theorem lineEnd_of_noReturn {text : Text} (noReturn : '\r' ∉ text) : lineEnd text = ['\n'] := by
  rcases lineEnd_eq text with isFeed | isPair
  · exact isFeed
  · have member := ((lineEnd_eq_pair_iff text).mp isPair).subset (List.mem_cons_self ..)
    exact absurd member noReturn

/-- Without pairs a text has no carriage return if they all belong to pairs. -/
theorem noReturn_of_lineEnd {text : Text} (paired : Text.Paired text)
    (isFeed : lineEnd text = ['\n']) : '\r' ∉ text := by
  intro member
  obtain ⟨before, after, rfl⟩ := List.append_of_mem member
  have next := paired before after rfl
  cases after with
  | nil => simp at next
  | cons c after =>
      obtain rfl : c = '\n' := by simpa using next
      have hasPair : ['\r', '\n'] <:+: before ++ '\r' :: '\n' :: after := ⟨before, after, by simp⟩
      rw [(lineEnd_eq_pair_iff _).mpr hasPair] at isFeed
      simp at isFeed

/-! ## Plain bodies -/

/-- A text without carriage returns that is empty or ends in a line feed. -/
structure PlainBody (content : Text) : Prop where
  noReturn : '\r' ∉ content
  last : ∀ c ∈ content.getLast?, c = '\n'

theorem unixLines_of_noReturn {text : Text} (noReturn : '\r' ∉ text) :
    Text.unixLines text = text := by
  fun_induction Text.unixLines text with
  | case1 => rfl
  | case2 => simp at noReturn
  | case3 c text _ ih => rw [ih fun member => noReturn (List.mem_cons_of_mem c member)]

theorem terminated_eq_self_iff {text : Text} :
    terminated text = text ↔ ∀ c ∈ text.getLast?, c = '\n' := by
  rw [terminated]
  cases isLast : text.getLast? with
  | none => simp [List.getLast?_eq_none_iff.mp isLast]
  | some c =>
      by_cases isFeed : c = '\n' <;> simp [isFeed]

theorem withLineEnd_self (text : Text) : withLineEnd ['\n'] text = text := by
  have same : (fun c : Char => if c = '\n' then ['\n'] else [c]) = fun c => [c] := by
    funext c
    split <;> simp_all
  rw [withLineEnd, same, List.flatMap_singleton']

theorem bodyFor_plain {content : Text} (plain : PlainBody content) (ending : Text) :
    bodyFor ending content = withLineEnd ending content := by
  rw [bodyFor, unixLines_of_noReturn plain.noReturn, terminated_eq_self_iff.mpr plain.last]

theorem bodyFor_feed {content : Text} (plain : PlainBody content) :
    bodyFor ['\n'] content = content := by
  rw [bodyFor_plain plain, withLineEnd_self]

theorem withLineEnd_append (ending first second : Text) :
    withLineEnd ending (first ++ second) = withLineEnd ending first ++ withLineEnd ending second :=
  List.flatMap_append

theorem paired_withLineEnd {content : Text} (noReturn : '\r' ∉ content) :
    Text.Paired (withLineEnd ['\r', '\n'] content) := by
  induction content with
  | nil => exact Text.paired_of_noReturn (by simp [withLineEnd])
  | cons c content ih =>
      have rest := ih fun member => noReturn (List.mem_cons_of_mem c member)
      have split : withLineEnd ['\r', '\n'] (c :: content) =
          (if c = '\n' then ['\r', '\n'] else [c]) ++ withLineEnd ['\r', '\n'] content := rfl
      rw [split]
      refine Text.paired_append ?_ rest
      split
      · intro before after isPair
        cases before with
        | nil => simp [(List.cons.inj isPair).2.symm]
        | cons d before =>
            have length := congrArg List.length isPair
            have second := (List.cons.inj isPair).2
            cases before with
            | nil => simp at second
            | cons e before => simp at length
      · refine Text.paired_of_noReturn fun member => noReturn ?_
        rw [List.mem_singleton.mp member]
        exact List.mem_cons_self ..

theorem paired_bodyFor {content : Text} (plain : PlainBody content) (text : Text) :
    Text.Paired (bodyFor (lineEnd text) content) := by
  rcases lineEnd_eq text with isFeed | isPair
  · rw [isFeed, bodyFor_feed plain]
    exact Text.paired_of_noReturn plain.noReturn
  · rw [isPair, bodyFor_plain plain]
    exact paired_withLineEnd plain.noReturn

/-- A body without pairs that was made for a text with pairs is empty. -/
theorem eq_nil_of_noPair {content : Text} (plain : PlainBody content) {text : Text}
    (isPart : bodyFor ['\r', '\n'] content <:+: text) (isFeed : lineEnd text = ['\n']) :
    content = [] := by
  rcases List.eq_nil_or_concat content with isEmpty | ⟨front, last, rfl⟩
  · exact isEmpty
  · rw [List.concat_eq_append] at *
    obtain rfl : last = '\n' := plain.last last (by simp)
    rw [bodyFor_plain plain, withLineEnd_append] at isPart
    have hasPair : ['\r', '\n'] <:+:
        withLineEnd ['\r', '\n'] front ++ withLineEnd ['\r', '\n'] ['\n'] :=
      ⟨withLineEnd ['\r', '\n'] front, [], by simp [withLineEnd]⟩
    rw [(lineEnd_eq_pair_iff text).mpr (hasPair.trans isPart)] at isFeed
    simp at isFeed

/-! ## Replacement -/

theorem mem_replaceBodies_put {bodies : Entries String Text} {text : Text}
    {regions : List Region} {offset : Nat} {name : String} {body : Text} {c : Char}
    (member : c ∈ replaceBodies (Entries.put name body bodies) text offset regions) :
    c ∈ replaceBodies bodies text offset regions ∨ c ∈ body := by
  induction regions generalizing offset with
  | nil => exact .inl member
  | cons region regions ih =>
      rw [replaceBodies, List.mem_append, List.mem_append] at member ⊢
      rcases member with inFront | inBody | inRest
      · exact .inl (.inl inFront)
      · by_cases same : region.name = name
        · rw [same, Entries.get?_put_self] at inBody
          exact .inr inBody
        · rw [Entries.get?_put_of_ne same] at inBody
          exact .inl (.inr (.inl inBody))
      · rcases ih inRest with inOld | inNew
        · exact .inl (.inr (.inr inOld))
        · exact .inr inNew

theorem placeBodies_append (text : Text) (regions : List Region) (bodies : Entries String Text)
    (first second : List (String × Text)) :
    placeBodies text regions bodies (first ++ second) =
      placeBodies text regions (placeBodies text regions bodies first) second := by
  induction first generalizing bodies with
  | nil => rfl
  | cons content first ih => exact ih _

/-- A text without carriage returns does not get any. -/
theorem noReturn_placeBodies {text : Text} {regions : List Region}
    {bodies : Entries String Text} (noReturn : '\r' ∉ replaceBodies bodies text 0 regions)
    {contents : List (String × Text)} (plain : ∀ content ∈ contents, PlainBody content.2) :
    '\r' ∉ replaceBodies (placeBodies text regions bodies contents) text 0 regions := by
  induction contents generalizing bodies with
  | nil => exact noReturn
  | cons content contents ih =>
      refine ih (fun member => ?_) fun other inRest => plain other (List.mem_cons_of_mem _ inRest)
      rcases mem_replaceBodies_put member with inOld | inNew
      · exact noReturn inOld
      · have isPlain := plain content (List.mem_cons_self ..)
        rw [lineEnd_of_noReturn noReturn, bodyFor_feed isPlain] at inNew
        exact isPlain.noReturn inNew

/-- All bodies have their carriage returns in pairs. -/
def AllPaired (bodies : Entries String Text) : Prop :=
  ∀ name body, Entries.get? name bodies = some body → Text.Paired body

theorem allPaired_placeBodies {text : Text} {regions : List Region}
    {bodies : Entries String Text} (paired : AllPaired bodies) {contents : List (String × Text)}
    (plain : ∀ content ∈ contents, PlainBody content.2) :
    AllPaired (placeBodies text regions bodies contents) := by
  induction contents generalizing bodies with
  | nil => exact paired
  | cons content contents ih =>
      refine ih (fun name body isBody => ?_)
        fun other inRest => plain other (List.mem_cons_of_mem _ inRest)
      by_cases same : name = content.1
      · subst same
        rw [Entries.get?_put_self] at isBody
        rw [← Option.some.inj isBody]
        exact paired_bodyFor (plain content (List.mem_cons_self ..)) _
      · rw [Entries.get?_put_of_ne same] at isBody
        exact paired name body isBody

theorem paired_of_areLines {first second : List Text} (areLines : Text.AreLines (first ++ second))
    (paired : Text.Paired (first ++ second).flatten) :
    Text.Paired first.flatten ∧ Text.Paired second.flatten := by
  rw [List.flatten_append] at paired
  exact Text.paired_of_append paired (Text.areLines_of_append areLines).2.2.2

theorem paired_blocks {bodies : Entries String Text} (allPaired : AllPaired bodies)
    {blocks : List Block} (areLines : Text.AreLines (blocks.flatMap Block.lines))
    (paired : Text.Paired (blocks.flatMap Block.lines).flatten) :
    Text.Paired ((blocks.map (Block.fill bodies)).flatMap Block.lines).flatten := by
  induction blocks with
  | nil => exact paired
  | cons block blocks ih =>
      have split : (block :: blocks).flatMap Block.lines = [block.opening] ++ (block.body ++
          ((block.closing :: block.gap) ++ blocks.flatMap Block.lines)) := by
        simp [Block.lines]
      rw [split] at areLines paired
      obtain ⟨openingPaired, restPaired⟩ := paired_of_areLines areLines paired
      have restLines := (Text.areLines_of_append areLines).2.1
      obtain ⟨bodyPaired, backPaired⟩ := paired_of_areLines restLines restPaired
      have backLines := (Text.areLines_of_append restLines).2.1
      obtain ⟨closingPaired, blocksPaired⟩ := paired_of_areLines backLines backPaired
      have tail := ih (Text.areLines_of_append backLines).2.1 blocksPaired
      rw [List.map_cons, List.flatMap_cons, List.flatten_append, Block.fill_lines_flatten]
      refine Text.paired_append (Text.paired_append (by simpa using openingPaired)
        (Text.paired_append ?_ (by simpa using closingPaired))) tail
      cases isBody : Entries.get? block.name bodies with
      | none => exact bodyPaired
      | some body => exact allPaired block.name body isBody

/-- New bodies leave the carriage returns of a text in pairs. -/
theorem Layout.paired_replaceBodies {style : CommentStyle} {text : Text} {lead : List Text}
    {blocks : List Block} (layout : Layout style text lead blocks) (paired : Text.Paired text)
    {bodies : Entries String Text} (allPaired : AllPaired bodies) :
    Text.Paired (replaceBodies bodies text 0 (Block.regions lead.flatten.length blocks)) := by
  have areLines : Text.AreLines (lead ++ blocks.flatMap Block.lines) := by
    rw [← layout.lines_eq]
    exact Text.areLines_lines text
  have whole : Text.Paired (lead ++ blocks.flatMap Block.lines).flatten := by
    rwa [← layout.lines_eq, Text.lines_flatten]
  obtain ⟨leadPaired, blocksPaired⟩ := paired_of_areLines areLines whole
  rw [layout.replaceBodies_eq]
  exact Text.paired_append leadPaired
    (paired_blocks allPaired (Text.areLines_of_append areLines).2.1 blocksPaired)

/-- What a content becomes in between is what it becomes in the end, as long as
it is still there in the end. -/
theorem bodyFor_placeBodies {path : String} {text : Text} {regions : List Region}
    (found : findRegions path text = .ok regions) (paired : Text.Paired text)
    {before after : List (String × Text)}
    (plain : ∀ content ∈ before ++ after, PlainBody content.2) {content : Text}
    (isPlain : PlainBody content) :
    let current := replaceBodies (placeBodies text regions [] before) text 0 regions
    let final := replaceBodies (placeBodies text regions [] (before ++ after)) text 0 regions
    bodyFor (lineEnd current) content <:+: final →
      bodyFor (lineEnd final) content = bodyFor (lineEnd current) content := by
  intro current final isPart
  obtain ⟨lead, blocks, layout, rfl⟩ := findRegions_eq_ok_iff.mp found
  have nonePaired : AllPaired [] := by simp [AllPaired]
  have currentPaired : Text.Paired current :=
    layout.paired_replaceBodies paired (allPaired_placeBodies nonePaired
      fun other member => plain other (List.mem_append_left after member))
  rcases lineEnd_eq current with isFeed | isPair
  · have noReturn := noReturn_placeBodies (noReturn_of_lineEnd currentPaired isFeed)
      fun other member => plain other (List.mem_append_right before member)
    rw [← placeBodies_append] at noReturn
    rw [isFeed, lineEnd_of_noReturn noReturn]
  · rcases lineEnd_eq final with finalFeed | finalPair
    · rw [isPair] at isPart
      rw [eq_nil_of_noPair isPlain isPart finalFeed]
      rfl
    · rw [isPair, finalPair]

end Region

end ApiWorkshop

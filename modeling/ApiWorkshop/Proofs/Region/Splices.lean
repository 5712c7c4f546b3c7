import ApiWorkshop.Proofs.Region.Bodies
import ApiWorkshop.Proofs.Region.LineEnds

/-!
# Spliced texts

Splicing a region keeps the text on both sides of its body, the regions of the text and
the bodies of all others.  The region gets the content with the line ends of the text,
and these stay what they were: where all line feeds of a text are in pairs they remain
so, and splicing the same content once more changes nothing, since only content without
any line can have taken the last pair from the text.
-/

namespace ApiWorkshop

namespace Text

/-- Every line feed comes after a carriage return. -/
def FeedsPaired (text : Text) : Prop :=
  ∀ before after, text = before ++ '\n' :: after → before.getLast? = some '\r'

theorem feedsPaired_of_noFeed {text : Text} (noFeed : '\n' ∉ text) : FeedsPaired text := by
  rintro before after rfl
  simp at noFeed

theorem feedsPaired_append {first second : Text} (firstPaired : FeedsPaired first)
    (secondPaired : FeedsPaired second) : FeedsPaired (first ++ second) := by
  intro before after split
  rcases List.append_eq_append_iff.mp split with ⟨middle, rfl, isSecond⟩ | ⟨middle, isFirst, isAfter⟩
  · have isReturn := secondPaired middle after isSecond
    rw [List.getLast?_append, isReturn, Option.some_or]
  · cases middle with
    | nil =>
        have isReturn := secondPaired [] after (by simpa using isAfter.symm)
        simp at isReturn
    | cons c middle =>
        obtain ⟨rfl, rfl⟩ := List.cons.inj isAfter
        exact firstPaired before middle isFirst

theorem feedsPaired_of_append_left {first second : Text} (paired : FeedsPaired (first ++ second)) :
    FeedsPaired first := by
  rintro before after rfl
  exact paired before (after ++ second) (by simp)

theorem feedsPaired_of_append_right {first second : Text} (paired : FeedsPaired (first ++ second))
    (notFeed : second.head? ≠ some '\n') : FeedsPaired second := by
  rintro before after rfl
  have isReturn := paired (first ++ before) after (by simp)
  cases before with
  | nil => simp at notFeed
  | cons c before => simpa using isReturn

/-- A pair in a text put together of two is in one of them or comes about at the seam. -/
theorem pair_infix_append {first second : Text} (isPart : ['\r', '\n'] <:+: first ++ second) :
    ['\r', '\n'] <:+: first ∨ ['\r', '\n'] <:+: second ∨ JoinsPair first second := by
  obtain ⟨before, after, split⟩ := isPart
  rw [List.append_assoc] at split
  rcases List.append_eq_append_iff.mp split with ⟨middle, rfl, isSeam⟩ | ⟨middle, rfl, isSecond⟩
  · match middle, isSeam with
    | [], isSeam => exact .inr (.inl ⟨[], after, by simpa using isSeam⟩)
    | [c], isSeam =>
        obtain ⟨rfl, rfl⟩ := List.cons.inj isSeam
        exact .inr (.inr ⟨by simp, rfl⟩)
    | c :: d :: middle, isSeam =>
        simp only [List.cons_append, List.nil_append, List.cons.injEq] at isSeam
        obtain ⟨rfl, rfl, -⟩ := isSeam
        exact .inl ⟨before, middle, by simp⟩
  · exact .inr (.inl ⟨middle, after, by simpa using isSecond.symm⟩)

theorem unixLines_append {line : Text} (noReturn : '\r' ∉ line) (rest : Text) :
    unixLines (line ++ rest) = line ++ unixLines rest := by
  induction line with
  | nil => rfl
  | cons c line ih =>
      simp only [List.mem_cons, not_or] at noReturn
      have notPair : ∀ others, c = '\r' → line ++ rest = '\n' :: others → False :=
        fun _ isReturn _ => noReturn.1 isReturn.symm
      rw [List.cons_append, unixLines.eq_3 _ _ notPair, ih noReturn.2, List.cons_append]

theorem length_unixLines_le (text : Text) : (unixLines text).length ≤ text.length := by
  fun_induction unixLines text with
  | case1 => exact Nat.le_refl _
  | case2 text ih =>
      simp only [List.length_cons]
      omega
  | case3 c text _ ih =>
      simp only [List.length_cons]
      omega

/-- Only a carriage return in front of a line feed goes. -/
theorem unixLines_append_cons {c : Char} (noLine : c ≠ '\n') (text rest : Text) :
    unixLines (text ++ c :: rest) = unixLines text ++ unixLines (c :: rest) := by
  fun_induction unixLines text with
  | case1 => rfl
  | case2 text ih =>
      rw [List.cons_append, List.cons_append, unixLines, ih, List.cons_append]
  | case3 d text notPair ih =>
      have notPairBefore : ∀ others, d = '\r' → text ++ c :: rest = '\n' :: others → False := by
        intro others isReturn isPair
        cases text with
        | nil => exact noLine (List.cons.inj isPair).1
        | cons e text =>
            obtain ⟨rfl, -⟩ := List.cons.inj isPair
            exact notPair text isReturn rfl
      rw [List.cons_append, unixLines.eq_3 _ _ notPairBefore, ih, List.cons_append]

theorem noReturn_unixLines {text : Text} (paired : Paired text) : '\r' ∉ unixLines text := by
  fun_induction unixLines text with
  | case1 => exact List.not_mem_nil
  | case2 text ih =>
      have restPaired : Paired text := by
        rintro before after rfl
        exact paired ('\r' :: '\n' :: before) after rfl
      simpa using ih restPaired
  | case3 c text noPair ih =>
      have restPaired : Paired text := by
        rintro before after rfl
        exact paired (c :: before) after rfl
      have notReturn : '\r' ≠ c := by
        rintro rfl
        obtain ⟨rest, rfl⟩ := List.head?_eq_some_iff.mp (paired [] text rfl)
        exact noPair rest rfl rfl
      simpa [notReturn] using ih restPaired

end Text

namespace Region

/-! ## Content with other line ends -/

/-- Content whose lines, which end in a line feed or a pair, have another end.  A last
line without an end gets one as well. -/
inductive Reterminated (ending : Text) : Text → Text → Prop
  | nil : Reterminated ending [] []
  | last {line : Text} (someLine : line ≠ []) (isPlain : ∀ c ∈ line, isLineEnd c = false) :
      Reterminated ending line (line ++ ending)
  | line {line own content body : Text} (isPlain : ∀ c ∈ line, isLineEnd c = false)
      (isEnding : own = ['\n'] ∨ own = ['\r', '\n']) (rest : Reterminated ending content body) :
      Reterminated ending (line ++ own ++ content) (line ++ ending ++ body)

theorem terminated_append_feed (front rest : Text) :
    terminated (front ++ '\n' :: rest) = front ++ '\n' :: terminated rest := by
  rcases List.eq_nil_or_concat rest with rfl | ⟨rest, last, rfl⟩
  · simp [terminated]
  · have isLast : (front ++ '\n' :: (rest ++ [last])).getLast? = some last := by
      rw [← List.cons_append, ← List.append_assoc, List.getLast?_concat]
    rw [List.concat_eq_append, terminated, terminated, isLast, List.getLast?_concat]
    dsimp only
    split <;> simp

theorem withLineEnd_of_noFeed {text : Text} (noFeed : '\n' ∉ text) (ending : Text) :
    withLineEnd ending text = text := by
  induction text with
  | nil => rfl
  | cons c text ih =>
      obtain ⟨notFeed, restFeed⟩ := not_or.mp (mt List.mem_cons.mpr noFeed)
      have rest := ih restFeed
      rw [withLineEnd] at rest ⊢
      rw [List.flatMap_cons, if_neg (Ne.symm notFeed), rest, List.singleton_append]

theorem withLineEnd_feed (ending rest : Text) :
    withLineEnd ending ('\n' :: rest) = ending ++ withLineEnd ending rest := by
  simp [withLineEnd]

section Line

variable {line : Text} (isPlain : ∀ c ∈ line, isLineEnd c = false)

include isPlain

theorem noReturn_of_plain : '\r' ∉ line :=
  fun member => Bool.noConfusion (isPlain _ member)

theorem noFeed_of_plain : '\n' ∉ line :=
  fun member => Bool.noConfusion (isPlain _ member)

theorem bodyFor_line {own : Text} (isEnding : own = ['\n'] ∨ own = ['\r', '\n'])
    (ending content : Text) :
    bodyFor ending (line ++ own ++ content) = line ++ ending ++ bodyFor ending content := by
  have unixEq : Text.unixLines (own ++ content) = '\n' :: Text.unixLines content := by
    rcases isEnding with rfl | rfl <;> simp [Text.unixLines]
  rw [bodyFor, List.append_assoc, Text.unixLines_append (noReturn_of_plain isPlain), unixEq,
    terminated_append_feed, withLineEnd_append, withLineEnd_of_noFeed (noFeed_of_plain isPlain),
    withLineEnd_feed, bodyFor, List.append_assoc]

theorem bodyFor_last (someLine : line ≠ []) (ending : Text) :
    bodyFor ending line = line ++ ending := by
  have isTerminated : terminated line = line ++ ['\n'] := by
    rw [terminated]
    split
    next isEmpty => exact absurd (List.getLast?_eq_none_iff.mp isEmpty) someLine
    next c isLast =>
      rw [if_neg]
      rintro rfl
      exact noFeed_of_plain isPlain (List.mem_of_getLast? isLast)
  have unixEq : Text.unixLines line = line := unixLines_of_noReturn (noReturn_of_plain isPlain)
  rw [bodyFor, unixEq, isTerminated, withLineEnd_append,
    withLineEnd_of_noFeed (noFeed_of_plain isPlain), withLineEnd_feed]
  simp [withLineEnd]

end Line

/-- Content whose carriage returns are in pairs gets other line ends as a body. -/
theorem reterminated_bodyFor {content : Text} (paired : Text.Paired content) (ending : Text) :
    Reterminated ending content (bodyFor ending content) := by
  induction size : content.length using Nat.strongRecOn generalizing content with
  | _ length ih =>
      cases isFirst : content.find? isLineEnd with
      | none =>
          have isPlain : ∀ c ∈ content, isLineEnd c = false := by
            simpa using List.find?_eq_none.mp isFirst
          by_cases someLine : content = []
          · subst someLine
            exact .nil
          · rw [bodyFor_last isPlain someLine]
            exact .last someLine isPlain
      | some c =>
          obtain ⟨isEnd, line, rest, rfl, isPlain⟩ := List.find?_eq_some_iff_append.mp isFirst
          simp only [Bool.not_eq_true'] at isPlain
          obtain ⟨own, others, isEnding, isSplit⟩ : ∃ own others : Text,
              (own = ['\n'] ∨ own = ['\r', '\n']) ∧ c :: rest = own ++ others := by
            simp only [isLineEnd, Bool.or_eq_true, decide_eq_true_eq] at isEnd
            rcases isEnd with rfl | rfl
            · obtain ⟨others, rfl⟩ := List.head?_eq_some_iff.mp (paired line rest rfl)
              exact ⟨_, others, .inr rfl, rfl⟩
            · exact ⟨_, rest, .inl rfl, rfl⟩
          rw [isSplit, ← List.append_assoc] at paired size ⊢
          have apart : ¬ Text.JoinsPair (line ++ own) others := by
            rcases isEnding with rfl | rfl <;> simp [Text.JoinsPair]
          have shorter : others.length < length := by
            rw [← size, List.length_append, List.length_append]
            rcases isEnding with rfl | rfl <;> simp
          rw [bodyFor_line isPlain isEnding]
          exact .line isPlain isEnding
            (ih others.length shorter (Text.paired_of_append paired apart).2 rfl)

/-- Content as the body of a region is a plain body with other line ends. -/
theorem exists_plainBody {content : Text} (paired : Text.Paired content) :
    ∃ plain, PlainBody plain ∧ ∀ ending, bodyFor ending content = withLineEnd ending plain := by
  refine ⟨terminated (Text.unixLines content), ⟨?_, ?_⟩, fun ending => rfl⟩
  · have noReturn := Text.noReturn_unixLines paired
    rw [terminated]
    split
    · exact List.not_mem_nil
    · split
      · exact noReturn
      · simpa using noReturn
  · rcases terminated_eq_or (Text.unixLines content) with isEmpty | ⟨front, isFront⟩
    · simp [isEmpty]
    · simp [isFront]

/-! ## The line ends of a spliced text -/

theorem feedsPaired_withLineEnd (content : Text) :
    Text.FeedsPaired (withLineEnd ['\r', '\n'] content) := by
  induction content with
  | nil => exact Text.feedsPaired_of_noFeed List.not_mem_nil
  | cons c content ih =>
      have split : withLineEnd ['\r', '\n'] (c :: content) =
          (if c = '\n' then ['\r', '\n'] else [c]) ++ withLineEnd ['\r', '\n'] content := rfl
      rw [split]
      refine Text.feedsPaired_append ?_ ih
      split
      · intro before after isPair
        cases before with
        | nil => simp at isPair
        | cons d before =>
            obtain ⟨rfl, isFeed⟩ := List.cons.inj isPair
            cases before with
            | nil => rfl
            | cons e before => simp at isFeed
      next notFeed => exact Text.feedsPaired_of_noFeed (by simpa [eq_comm] using notFeed)

/-- The line ends that content gets do not change when it has been spliced: it is without
lines where the text has lost its last pair. -/
theorem bodyFor_lineEnd_splice {text content : Text} {region : Region}
    (paired : Text.Paired content)
    (noReturn : (text.take region.start).getLast? ≠ some '\r') :
    bodyFor (lineEnd (splice text region content)) content = bodyFor (lineEnd text) content := by
  obtain ⟨plain, isPlain, bodyEq⟩ := exists_plainBody paired
  have plainEq (ending : Text) : bodyFor ending content = bodyFor ending plain := by
    rw [bodyEq, bodyFor_plain isPlain]
  rw [plainEq, plainEq, splice, replaceBody, plainEq]
  rcases lineEnd_eq text with isFeed | isPair
  · have noPair {part : Text} (isPart : part <:+: text) : ¬ ['\r', '\n'] <:+: part := by
      intro hasPair
      rw [(lineEnd_eq_pair_iff text).mpr (hasPair.trans isPart)] at isFeed
      contradiction
    have sameEnd : lineEnd (text.take region.start ++ plain ++ text.drop region.stop) = ['\n'] := by
      refine (lineEnd_eq _).resolve_right fun isPair => ?_
      rw [lineEnd_eq_pair_iff, List.append_assoc] at isPair
      rcases Text.pair_infix_append isPair with inFront | inRest | isSeam
      · exact noPair (List.take_prefix _ _).isInfix inFront
      · rcases Text.pair_infix_append inRest with inBody | inBack | isSeam
        · exact isPlain.noReturn (inBody.subset List.mem_cons_self)
        · exact noPair (List.drop_suffix _ _).isInfix inBack
        · exact isPlain.noReturn (List.mem_of_getLast? isSeam.1)
      · exact noReturn isSeam.1
    rw [isFeed, bodyFor_feed isPlain, sameEnd, bodyFor_feed isPlain]
  · rw [isPair]
    rcases lineEnd_eq (text.take region.start ++ bodyFor ['\r', '\n'] plain ++
      text.drop region.stop) with endFeed | endPair
    · have isPart : bodyFor ['\r', '\n'] plain <:+:
          text.take region.start ++ bodyFor ['\r', '\n'] plain ++ text.drop region.stop :=
        ⟨_, _, rfl⟩
      rw [eq_nil_of_noPair isPlain isPart endFeed]
      rfl
    · rw [endPair]

/-! ## The regions of a spliced text -/

theorem find?_of_mem {regions : List Region} (nodup : (regions.map Region.name).Nodup)
    {region : Region} (member : region ∈ regions) :
    regions.find? (·.name = region.name) = some region := by
  induction regions with
  | nil => simp at member
  | cons other regions ih =>
      obtain ⟨isNew, restNodup⟩ := List.nodup_cons.mp nodup
      rcases List.mem_cons.mp member with rfl | inRest
      · exact List.find?_cons_of_pos (by simp)
      · have different : other.name ≠ region.name := fun same =>
          isNew (same ▸ List.mem_map_of_mem inRest)
        rw [List.find?_cons_of_neg (by simpa using different), ih restNodup inRest]

section Found

variable {path : String} {text : Text} {regions : List Region}
  (found : findRegions path text = .ok regions) {region : Region} (member : region ∈ regions)

include found member

theorem spliceRegion_of_mem (content : Text) :
    spliceRegion path text region.name content = .ok (splice text region content) := by
  rw [spliceRegion, found]
  simp only [Bind.bind, Except.bind]
  rw [find?_of_mem (names_nodup found) member]

theorem feedsPaired_splice (feedsPaired : Text.FeedsPaired text)
    (hasPair : ['\r', '\n'] <:+: text) (content : Text) :
    Text.FeedsPaired (splice text region content) := by
  obtain ⟨lead, blocks, layout, rfl⟩ := findRegions_eq_ok_iff.mp found
  obtain ⟨front, block, back, rfl, -, -, -, -, isBack⟩ := layout.exists_split member
  have backNotFeed : (text.drop region.stop).head? ≠ some '\n' := by
    rw [isBack]
    exact layout.head?_closing_ne_feed (CommentStyle.opening_ofPath_ne_nil path) _
  have frontPaired : Text.FeedsPaired (text.take region.start) := by
    rw [← List.take_append_drop region.start text] at feedsPaired
    exact Text.feedsPaired_of_append_left feedsPaired
  have backPaired : Text.FeedsPaired (text.drop region.stop) := by
    rw [← List.take_append_drop region.stop text] at feedsPaired
    exact Text.feedsPaired_of_append_right feedsPaired backNotFeed
  rw [splice, replaceBody, (lineEnd_eq_pair_iff text).mpr hasPair]
  exact Text.feedsPaired_append (Text.feedsPaired_append frontPaired (feedsPaired_withLineEnd _))
    backPaired

theorem splice_eq_replaceBodies (content : Text) :
    splice text region content =
      replaceBodies (Entries.put region.name (bodyFor (lineEnd text) content) []) text 0 regions := by
  have spliced := spliceRegion_of_mem found member content
  obtain ⟨lead, blocks, layout, rfl⟩ := findRegions_eq_ok_iff.mp found
  have isBlock : region.name ∈ blocks.map Block.name := by
    rw [← Block.map_name_regions lead.flatten.length]
    exact List.mem_map_of_mem member
  have replaced := spliceRegion_replaceBodies layout (fit_nil _) isBlock rfl content
  simp only [layout.replaceBodies_nil] at replaced
  exact Except.ok.inj (spliced.symm.trans replaced)

/-- A spliced text has the regions that it had, all others with the bodies that they had. -/
theorem findRegions_splice {content : Text} (unmarked : Unmarked (CommentStyle.ofPath path) content)
    (noReturn : (text.take region.start).getLast? ≠ some '\r') :
    let result := splice text region content
    ∃ later, findRegions path result = .ok later ∧
      later.map (fun other => (other.name, other.body result)) = regions.map fun other =>
        (other.name, if other.name = region.name then bodyFor (lineEnd text) content
          else other.body text) := by
  intro result
  obtain ⟨bodies, isBodies⟩ : ∃ bodies, bodies =
      Entries.put region.name (bodyFor (lineEnd text) content) [] := ⟨_, rfl⟩
  have isResult : result = replaceBodies bodies text 0 regions :=
    isBodies ▸ splice_eq_replaceBodies found member content
  have fit : Fit (CommentStyle.ofPath path) bodies := isBodies ▸
    fit_put _ (fit_nil _) (endsLine_bodyFor text content) (unmarked_bodyFor unmarked text)
  have isBody (name : String) (old : Text) : (Entries.get? name bodies).getD old =
      if name = region.name then bodyFor (lineEnd text) content else old := by
    split
    next same => rw [isBodies, same, Entries.get?_put_self, Option.getD_some]
    next different => rw [isBodies, Entries.get?_put_of_ne different, Entries.get?, Option.getD_none]
  obtain ⟨lead, blocks, layout, rfl⟩ := findRegions_eq_ok_iff.mp found
  obtain ⟨front, block, back, rfl, sameName, -, isFront, -, -⟩ := layout.exists_split member
  have someOpening := CommentStyle.opening_ofPath_ne_nil path
  have openingNoReturn : block.opening.getLast? ≠ some '\r' := by
    have someLine := Text.ne_nil_of_areLines_cons layout.areLines_block
    rw [isFront, List.getLast?_append_of_ne_nil _ someLine] at noReturn
    exact noReturn
  obtain ⟨beforeDifferent, afterDifferent⟩ := names_ne_of_nodup layout.nodup
  have sameBodies := layout.map_body_replaceBodies someOpening fit fun other inBlocks isPut => by
    have isName : other.name = block.name := by
      by_contra different
      rw [isBodies, sameName, Entries.get?_put_of_ne different] at isPut
      simp [Entries.get?] at isPut
    rcases List.mem_append.mp inBlocks with inFront | inBack
    · exact absurd isName (beforeDifferent other inFront)
    · rcases List.mem_cons.mp inBack with rfl | inRest
      · exact openingNoReturn
      · exact absurd isName (afterDifferent other inRest)
  refine ⟨_, findRegions_eq_ok_iff.mpr ⟨lead, _, isResult ▸ layout.replace someOpening fit, rfl⟩, ?_⟩
  simp only [isBody] at sameBodies
  rw [isResult, sameBodies]

/-- Splicing the same content once more changes nothing. -/
theorem spliceRegion_splice {content : Text} (unmarked : Unmarked (CommentStyle.ofPath path) content)
    (paired : Text.Paired content) (noReturn : (text.take region.start).getLast? ≠ some '\r') :
    spliceRegion path (splice text region content) region.name content =
      .ok (splice text region content) := by
  obtain ⟨later, foundLater, sameBodies⟩ := findRegions_splice found member unmarked noReturn
  have isOther := List.mem_map_of_mem (f := fun other : Region =>
    (other.name, if other.name = region.name then bodyFor (lineEnd text) content
      else other.body text)) member
  rw [← sameBodies] at isOther
  obtain ⟨other, inLater, same⟩ := List.mem_map.mp isOther
  obtain ⟨sameName, sameBody⟩ := Prod.mk.inj same
  rw [if_pos rfl] at sameBody
  rw [← sameName, spliceRegion_of_mem foundLater inLater, splice,
    bodyFor_lineEnd_splice paired noReturn,
    (replaceBody_eq_self_iff (ordered_of_mem foundLater inLater) _).mpr sameBody.symm]

end Found

end Region

/-- Splicing a region whose first line does not end in a lone carriage return, with content
without markers and lone carriage returns: the text on both sides is kept, the regions are
those that there were with all other bodies, the line ends stay in pairs, and splicing once
more changes nothing. -/
theorem spliceRegion_keeps_rest {path : String} {text content : Text} {regions : List Region}
    {region : Region} (found : findRegions path text = .ok regions) (member : region ∈ regions)
    (noReturn : (text.take region.start).getLast? ≠ some '\r')
    (unmarked : Region.UnmarkedLines (CommentStyle.ofPath path) (Text.lines content))
    (paired : Text.Paired content) :
    ∃ result body later,
      spliceRegion path text region.name content = .ok result ∧
      Region.Reterminated (Region.lineEnd text) content body ∧
      result = text.take region.start ++ body ++ text.drop region.stop ∧
      findRegions path result = .ok later ∧
      (later.map fun other => (other.name, other.body result)) = (regions.map fun other =>
        (other.name, if other.name = region.name then body else other.body text)) ∧
      (['\r', '\n'] <:+: text → Text.FeedsPaired text → Text.FeedsPaired result) ∧
      spliceRegion path result region.name content = .ok result := by
  have stemsUnmarked :=
    (Region.unmarked_iff (CommentStyle.opening_ofPath_ne_nil path) content).mpr unmarked
  obtain ⟨later, foundLater, sameBodies⟩ :=
    Region.findRegions_splice found member stemsUnmarked noReturn
  exact ⟨Region.splice text region content, _, later, Region.spliceRegion_of_mem found member content,
    Region.reterminated_bodyFor paired _, rfl, foundLater, sameBodies,
    fun hasPair feedsPaired => Region.feedsPaired_splice found member feedsPaired hasPair content,
    Region.spliceRegion_splice found member stemsUnmarked paired noReturn⟩

/-- Content without its last line end in a text whose line ends are pairs. -/
theorem spliceRegion_keeps_pairs :
    let text : Text := "# specforge:begin a\r\nold\r\n# specforge:end a\r\n".toList
    let content : Text := "new\nlast".toList
    ∃ result, spliceRegion "x.py" text "a" content = .ok result ∧ Text.FeedsPaired result ∧
      spliceRegion "x.py" result "a" content = .ok result := by
  intro text content
  have found : findRegions "x.py" text = .ok [⟨"a", 21, 26⟩] := by decide +kernel
  have hasPair : ['\r', '\n'] <:+: text := by decide +kernel
  have paired : Text.Paired content := Text.paired_of_noReturn (by decide)
  have feedsPaired : Text.FeedsPaired text := Region.feedsPaired_withLineEnd
    "# specforge:begin a\nold\n# specforge:end a\n".toList
  obtain ⟨result, -, -, spliced, -, -, -, -, staysPaired, again⟩ :=
    spliceRegion_keeps_rest found List.mem_cons_self (by decide +kernel) (by decide +kernel) paired
  exact ⟨result, spliced, staysPaired hasPair feedsPaired, again⟩

end ApiWorkshop

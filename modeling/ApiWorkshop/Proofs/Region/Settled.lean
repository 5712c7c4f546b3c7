import ApiWorkshop.Proofs.Region.Splices

/-!
# Settled regions

The body of a region that is spliced into its own text is written with the line ends of
the text.  So it stays what it is exactly if it has these line ends and ends in one.
-/

namespace ApiWorkshop

namespace Region

/-- A region whose body is empty or ends in a line feed.  In a text with pairs every line
feed of the body is in a pair. -/
structure IsSettled (text : Text) (region : Region) : Prop where
  last : ∀ c ∈ (region.body text).getLast?, c = '\n'
  paired : usesPairs text = true → Text.FeedsPaired (region.body text)

theorem unixLines_of_noPair {text : Text} (noPair : usesPairs text = false) :
    Text.unixLines text = text := by
  fun_induction Text.unixLines text with
  | case1 => rfl
  | case2 => simp [usesPairs, Text.hasPart] at noPair
  | case3 c text _ ih =>
      simp only [usesPairs, Text.hasPart, Bool.or_eq_false_iff] at noPair
      rw [ih noPair.2]

theorem usesPairs_of_isInfix {part text : Text} (isPart : part <:+: text)
    (noPair : usesPairs text = false) : usesPairs part = false := by
  rw [usesPairs, Bool.eq_false_iff, Ne, Text.hasPart_iff (by simp)] at noPair ⊢
  exact fun isPair => noPair (isPair.trans isPart)

theorem withLineEnd_singleton {c : Char} (notFeed : c ≠ '\n') (ending : Text) :
    withLineEnd ending [c] = [c] := by
  simp [withLineEnd, notFeed]

/-- Line feeds that are all in pairs lose their carriage returns and get them back. -/
theorem withLineEnd_unixLines {text : Text} (paired : Text.FeedsPaired text) :
    withLineEnd ['\r', '\n'] (Text.unixLines text) = text := by
  fun_induction Text.unixLines text with
  | case1 => rfl
  | case2 text ih =>
      have restPaired : Text.FeedsPaired text := by
        rintro before after rfl
        have isReturn := paired ('\r' :: '\n' :: before) after rfl
        cases before with
        | nil => simp at isReturn
        | cons c before => simpa using isReturn
      rw [withLineEnd_feed, ih restPaired]
      rfl
  | case3 c text notPair ih =>
      have notFeed : c ≠ '\n' := by
        rintro rfl
        have isReturn := paired [] text rfl
        simp at isReturn
      have restPaired : Text.FeedsPaired text := by
        rintro before after rfl
        have isReturn := paired (c :: before) after rfl
        cases before with
        | nil => exact absurd rfl (notPair after (by simpa using isReturn))
        | cons d before => simpa using isReturn
      have split := withLineEnd_append ['\r', '\n'] [c] (Text.unixLines text)
      rw [withLineEnd_singleton notFeed, ih restPaired] at split
      exact split

theorem bodyFor_feed_eq_self_iff {body : Text} (noPair : usesPairs body = false) :
    bodyFor ['\n'] body = body ↔ ∀ c ∈ body.getLast?, c = '\n' := by
  rw [bodyFor, unixLines_of_noPair noPair, withLineEnd_self, terminated_eq_self_iff]

theorem bodyFor_pair_eq_self_iff {body : Text} :
    bodyFor ['\r', '\n'] body = body ↔
      (∀ c ∈ body.getLast?, c = '\n') ∧ Text.FeedsPaired body := by
  constructor
  · intro isBody
    refine ⟨?_, isBody ▸ feedsPaired_withLineEnd _⟩
    rw [← isBody, bodyFor]
    rcases terminated_eq_or (Text.unixLines body) with isEmpty | ⟨front, isFront⟩
    · simp [isEmpty, withLineEnd]
    · simp [isFront, withLineEnd]
  · rintro ⟨last, paired⟩
    have restored := withLineEnd_unixLines paired
    have isTerminated : terminated (Text.unixLines body) = Text.unixLines body := by
      refine terminated_eq_self_iff.mpr fun c isLast => ?_
      obtain ⟨front, isFront⟩ := List.getLast?_eq_some_iff.mp isLast
      by_contra notFeed
      rw [isFront, withLineEnd_append, withLineEnd_singleton notFeed] at restored
      exact notFeed (last c (by simp [← restored]))
    rw [bodyFor, isTerminated, restored]

/-- A region is settled exactly if its body stays what it is when it is spliced. -/
theorem isSettled_iff {text : Text} {region : Region} :
    region.IsSettled text ↔ bodyFor (lineEnd text) (region.body text) = region.body text := by
  cases uses : usesPairs text with
  | false =>
      rw [lineEnd, uses, if_neg Bool.false_ne_true,
        bodyFor_feed_eq_self_iff (usesPairs_of_isInfix (isInfix_body text region) uses)]
      exact ⟨IsSettled.last, fun last => ⟨last, fun isUsed => by simp [uses] at isUsed⟩⟩
  | true =>
      rw [lineEnd, uses, if_pos rfl, bodyFor_pair_eq_self_iff]
      exact ⟨fun settled => ⟨settled.last, settled.paired uses⟩,
        fun settled => ⟨settled.1, fun _ => settled.2⟩⟩

end Region

end ApiWorkshop

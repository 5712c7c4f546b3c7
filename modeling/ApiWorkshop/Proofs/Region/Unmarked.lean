import ApiWorkshop.Proofs.Text.Lines
import ApiWorkshop.Proofs.Text.Parts
import ApiWorkshop.Region.Splice

/-!
# Texts without marker lines

A marker line is recognized by what is left of it without the carriage returns
and line feeds at its end.  These stems of a text do not depend on how its lines
end, so a body without markers still has none once it has taken over the line
ends of a file, and it never lacks the last one.
-/

namespace ApiWorkshop

namespace Text

/-- The lines of a text after what is pending of its first line, without the
carriage returns and line feeds at their ends; empty ones are left out. -/
def stemsFrom : Text → Text → List Text
  | pending, [] => if pending.isEmpty then [] else [pending]
  | pending, c :: text =>
      if Region.isLineEnd c then
        if pending.isEmpty then stemsFrom [] text else pending :: stemsFrom [] text
      else if isLineBreak c then
        (pending ++ [c]) :: stemsFrom [] text
      else
        stemsFrom (pending ++ [c]) text

/-- The stems of a text. -/
def stems (text : Text) : List Text :=
  stemsFrom [] text

theorem isLineBreak_of_isLineEnd {c : Char} (isEnd : Region.isLineEnd c = true) :
    isLineBreak c = true := by
  simp only [Region.isLineEnd, Bool.or_eq_true, decide_eq_true_eq] at isEnd
  rcases isEnd with rfl | rfl <;> rfl

theorem trimEnd_lineEnd_of_plain {text : Text} (isPlain : ∀ c ∈ text, isLineBreak c = false) :
    trimEnd Region.isLineEnd text = text := by
  rcases List.eq_nil_or_concat text with rfl | ⟨front, last, rfl⟩
  · rfl
  · rw [List.concat_eq_append] at isPlain ⊢
    apply trimEnd_of_keep
    cases isEnd : Region.isLineEnd last with
    | false => rfl
    | true =>
        have notBreak := isPlain last (by simp)
        rw [isLineBreak_of_isLineEnd isEnd] at notBreak
        contradiction

/-- What is left of lines without the carriage returns and line feeds at their
ends; empty ones are left out. -/
def lineStems (parts : List Text) : List Text :=
  (parts.map (trimEnd Region.isLineEnd)).filter (!·.isEmpty)

theorem lineStems_append (first second : List Text) :
    lineStems (first ++ second) = lineStems first ++ lineStems second := by
  simp [lineStems]

theorem lines_plain_append_break {text : Text} {c : Char}
    (isPlain : ∀ d ∈ text, isLineBreak d = false) (isBreak : isLineBreak c = true) :
    lines (text ++ [c]) = [text ++ [c]] := by
  induction text with
  | nil => exact lines_break isBreak (not_joinsPair_nil [c])
  | cons d rest ih =>
      rw [List.cons_append, lines_plain (isPlain d (by simp)),
        ih fun e member => isPlain e (List.mem_cons_of_mem d member)]

theorem lines_plain_append_pair {text : Text} (isPlain : ∀ d ∈ text, isLineBreak d = false) :
    lines (text ++ ['\r', '\n']) = [text ++ ['\r', '\n']] := by
  induction text with
  | nil => rfl
  | cons d rest ih =>
      rw [List.cons_append, lines_plain (isPlain d (by simp)),
        ih fun e member => isPlain e (List.mem_cons_of_mem d member)]

theorem lineStems_trimmed {text ending : Text}
    (isEnding : ∀ c ∈ ending, Region.isLineEnd c = true) :
    lineStems [text ++ ending] = lineStems [text] := by
  simp [lineStems, trimEnd_append_of_drop isEnding]

/-- A line break splits stems, also where it is the first half of a pair. -/
theorem lineStems_lines_break {pending text : Text} {c : Char}
    (isPlain : ∀ d ∈ pending, isLineBreak d = false) (isBreak : isLineBreak c = true) :
    lineStems (lines (pending ++ c :: text)) =
      lineStems [pending ++ [c]] ++ lineStems (lines text) := by
  have split : pending ++ c :: text = (pending ++ [c]) ++ text := by simp
  have ends : EndsLine (pending ++ [c]) := by simpa [EndsLine] using isBreak
  by_cases joins : JoinsPair (pending ++ [c]) text
  · obtain ⟨isReturn, head⟩ := joins
    obtain ⟨rest, rfl⟩ : ∃ rest, text = '\n' :: rest := by
      cases text with
      | nil => simp at head
      | cons d rest => exact ⟨rest, by simpa using head⟩
    obtain rfl : c = '\r' := by simpa using isReturn
    have seam : ¬ JoinsPair (pending ++ ['\r', '\n']) rest := by simp [JoinsPair]
    have pairEnds : EndsLine (pending ++ ['\r', '\n']) := by simp [EndsLine, isLineBreak]
    have regrouped : pending ++ '\r' :: '\n' :: rest = (pending ++ ['\r', '\n']) ++ rest := by
      simp
    rw [regrouped, lines_append pairEnds seam, lines_plain_append_pair isPlain, lineStems_append,
      lines_break rfl (by simp [JoinsPair]), ← List.singleton_append (l := lines rest),
      lineStems_append, lineStems_trimmed (by simp [Region.isLineEnd]),
      lineStems_trimmed (by simp [Region.isLineEnd])]
    rfl
  · rw [split, lines_append ends joins, lines_plain_append_break isPlain isBreak,
      lineStems_append]

/-- The stems of a text are what is left of its lines. -/
theorem lineStems_lines (text : Text) : lineStems (lines text) = stems text := by
  suffices ∀ pending : Text, (∀ c ∈ pending, isLineBreak c = false) →
      lineStems (lines (pending ++ text)) = stemsFrom pending text from
    this [] (by simp)
  intro pending isPlain
  have whole (pending : Text) (isPlain : ∀ c ∈ pending, isLineBreak c = false) :
      lineStems [pending] = if pending.isEmpty then [] else [pending] := by
    cases pending with
    | nil => rfl
    | cons c rest => simp [lineStems, trimEnd_lineEnd_of_plain isPlain]
  fun_induction stemsFrom pending text with
  | case1 pending empty =>
      obtain rfl : pending = [] := by simpa using empty
      rfl
  | case2 pending notEmpty =>
      rw [List.append_nil, lines_of_plain isPlain (by simpa using notEmpty),
        whole pending isPlain, if_neg notEmpty]
  | case3 pending c text isEnd empty ih =>
      rw [lineStems_lines_break isPlain (isLineBreak_of_isLineEnd isEnd),
        lineStems_trimmed (by simpa using isEnd), whole pending isPlain, if_pos empty]
      exact ih (by simp)
  | case4 pending c text isEnd notEmpty ih =>
      rw [lineStems_lines_break isPlain (isLineBreak_of_isLineEnd isEnd),
        lineStems_trimmed (by simpa using isEnd), whole pending isPlain, if_neg notEmpty]
      exact congrArg (pending :: ·) (ih (by simp))
  | case5 pending c text notEnd isBreak ih =>
      rw [lineStems_lines_break isPlain isBreak]
      have kept : lineStems [pending ++ [c]] = [pending ++ [c]] := by
        simp [lineStems, trimEnd_of_keep (by simpa using notEnd)]
      rw [kept]
      exact congrArg ((pending ++ [c]) :: ·) (ih (by simp))
  | case6 pending c text notEnd notBreak ih =>
      have grown : ∀ d ∈ pending ++ [c], isLineBreak d = false := by
        intro d member
        rcases List.mem_append.mp member with inPending | isLast
        · exact isPlain d inPending
        · simpa [List.mem_singleton.mp isLast] using notBreak
      simpa using ih grown

/-! ## Line ends taken over from another text -/

theorem stemsFrom_unixLines (pending text : Text) :
    stemsFrom pending (unixLines text) = stemsFrom pending text := by
  fun_induction unixLines text generalizing pending with
  | case1 => rfl
  | case2 text ih => simp [stemsFrom, Region.isLineEnd, ih]
  | case3 c text noPair ih => simp [stemsFrom, ih]

theorem stemsFrom_withLineEnd {ending : Text}
    (isEnding : ending = ['\n'] ∨ ending = ['\r', '\n']) (pending text : Text) :
    stemsFrom pending (Region.withLineEnd ending text) = stemsFrom pending text := by
  induction text generalizing pending with
  | nil => rfl
  | cons c rest ih =>
      rw [Region.withLineEnd] at ih ⊢
      by_cases isFeed : c = '\n'
      · subst isFeed
        rcases isEnding with rfl | rfl <;> simp [stemsFrom, Region.isLineEnd, ih]
      · simp [stemsFrom, isFeed, ih]

theorem stemsFrom_append_feed (pending text : Text) :
    stemsFrom pending (text ++ ['\n']) = stemsFrom pending text := by
  induction text generalizing pending with
  | nil => simp [stemsFrom, Region.isLineEnd]
  | cons c rest ih => simp [stemsFrom, ih]

theorem stems_terminated (text : Text) : stems (Region.terminated text) = stems text := by
  rw [Region.terminated]
  split
  next isEmpty => simp [List.getLast?_eq_none_iff.mp isEmpty]
  next c isLast =>
    split
    · rfl
    · exact stemsFrom_append_feed [] text

end Text

namespace Region

theorem lineEnd_eq (text : Text) : lineEnd text = ['\n'] ∨ lineEnd text = ['\r', '\n'] := by
  rw [lineEnd]
  split
  · exact .inr rfl
  · exact .inl rfl

/-- Content keeps its stems when it becomes the body of a region. -/
theorem stems_bodyFor (text content : Text) :
    Text.stems (bodyFor (lineEnd text) content) = Text.stems content := by
  rw [bodyFor, Text.stems, Text.stemsFrom_withLineEnd (lineEnd_eq text)]
  exact (Text.stems_terminated _).trans (Text.stemsFrom_unixLines [] content)

theorem terminated_eq_or (text : Text) :
    terminated text = [] ∨ ∃ front, terminated text = front ++ ['\n'] := by
  rw [terminated]
  split
  next isEmpty => exact .inl rfl
  next c isLast =>
    right
    split
    next isFeed =>
      subst isFeed
      exact List.getLast?_eq_some_iff.mp isLast
    next => exact ⟨text, rfl⟩

/-- The body of a region is empty or ends in a line feed. -/
theorem bodyFor_eq_or (text content : Text) :
    bodyFor (lineEnd text) content = [] ∨
      ∃ front, bodyFor (lineEnd text) content = front ++ ['\n'] := by
  rw [bodyFor]
  rcases terminated_eq_or (Text.unixLines content) with isEmpty | ⟨front, isFront⟩
  · exact .inl (by simp [isEmpty, withLineEnd])
  · right
    rw [isFront]
    rcases lineEnd_eq text with isFeed | isPair
    · exact ⟨withLineEnd ['\n'] front, by simp [withLineEnd, isFeed]⟩
    · exact ⟨withLineEnd ['\r', '\n'] front ++ ['\r'], by simp [withLineEnd, isPair]⟩

theorem endsLine_bodyFor (text content : Text) :
    Text.EndsLine (bodyFor (lineEnd text) content) := by
  rcases bodyFor_eq_or text content with isEmpty | ⟨front, isFront⟩
  · simp [isEmpty]
  · simp [isFront, Text.EndsLine, Text.isLineBreak]

/-! ## Marker lines -/

/-- A text has no marker line. -/
def Unmarked (style : CommentStyle) (text : Text) : Prop :=
  ∀ stem ∈ Text.stems text, Marker.ofLine? style stem = none

theorem unmarked_bodyFor {style : CommentStyle} {content : Text}
    (unmarked : Unmarked style content) (text : Text) :
    Unmarked style (bodyFor (lineEnd text) content) := by
  rw [Unmarked, stems_bodyFor]
  exact unmarked

end Region

end ApiWorkshop

import ApiWorkshop.Text.Lines

/-!
# Lines of a joined text

The lines of two texts put together are the lines of both, as long as the first
text ends a line and no pair of carriage return and line feed comes about at
the seam.  Conversely, every run of lines of a text is the lines of the text
that it makes up.
-/

namespace ApiWorkshop

namespace Text

/-- A property that none of the line breaks has rules them out. -/
theorem not_break_of (property : Char → Bool)
    (noBreak : ['\n', '\r', '\x0b', '\x0c', '\x1c', '\x1d', '\x1e', '\u0085', '\u2028',
      '\u2029'].all (!property ·) = true) {c : Char} (has : property c = true) :
    isLineBreak c = false := by
  rw [← Bool.not_eq_true]
  intro isBreak
  have listed : c ∈ ['\n', '\r', '\x0b', '\x0c', '\x1c', '\x1d', '\x1e', '\u0085', '\u2028',
      '\u2029'] := by
    simpa [isLineBreak, or_assoc] using isBreak
  simpa [has] using List.all_eq_true.mp noBreak c listed

/-- A text that is empty or ends in a line break. -/
def EndsLine (text : Text) : Prop :=
  ∀ last, text.getLast? = some last → isLineBreak last = true

instance (text : Text) : Decidable (EndsLine text) :=
  decidable_of_iff (text.getLast?.all isLineBreak = true) (Option.all_eq_true _ _)

/-- The end of one text and the start of another make up one line break. -/
def JoinsPair (first second : Text) : Prop :=
  first.getLast? = some '\r' ∧ second.head? = some '\n'

@[simp]
theorem endsLine_nil : EndsLine [] := by
  simp [EndsLine]

theorem endsLine_append {first second : Text} (firstEnds : EndsLine first)
    (secondEnds : EndsLine second) : EndsLine (first ++ second) := by
  intro last isLast
  cases second with
  | nil => exact firstEnds last (by simpa using isLast)
  | cons c rest => exact secondEnds last (by simpa using isLast)

theorem endsLine_of_append {first second : Text} (ends : EndsLine (first ++ second)) :
    EndsLine second := by
  intro last isLast
  apply ends last
  cases second with
  | nil => simp at isLast
  | cons c rest => simpa using isLast

theorem endsLine_of_cons {c : Char} {text : Text} (ends : EndsLine (c :: text)) :
    EndsLine text := by
  rw [← List.singleton_append] at ends
  exact endsLine_of_append ends

theorem not_joinsPair_nil (text : Text) : ¬ JoinsPair text [] := by
  simp [JoinsPair]

theorem not_joinsPair_cons {c : Char} {first second : Text}
    (apart : ¬ JoinsPair (c :: first) second) : ¬ JoinsPair first second := by
  rintro ⟨last, head⟩
  refine apart ⟨?_, head⟩
  cases first with
  | nil => simp at last
  | cons d rest => simpa using last

/-! ## Equations for lines -/

theorem lines_pair (text : Text) :
    lines ('\r' :: '\n' :: text) = ['\r', '\n'] :: lines text :=
  rfl

/-- The lines of a text that does not begin with a carriage return and a line
feed. -/
theorem lines_cons {c : Char} {text : Text} (apart : ¬ JoinsPair [c] text) :
    lines (c :: text) =
      if isLineBreak c then
        [c] :: lines text
      else
        match lines text with
        | [] => [[c]]
        | line :: rest => (c :: line) :: rest := by
  rw [lines.eq_def]
  split
  · contradiction
  next isPair =>
    obtain ⟨rfl, rfl⟩ := List.cons.inj isPair
    exact absurd ⟨rfl, rfl⟩ apart
  next same =>
    obtain ⟨rfl, rfl⟩ := List.cons.inj same
    rfl

theorem lines_break {c : Char} {text : Text} (isBreak : isLineBreak c = true)
    (apart : ¬ JoinsPair [c] text) : lines (c :: text) = [c] :: lines text := by
  rw [lines_cons apart, if_pos isBreak]

theorem lines_plain {c : Char} {text : Text} (isPlain : isLineBreak c = false) :
    lines (c :: text) =
      match lines text with
      | [] => [[c]]
      | line :: rest => (c :: line) :: rest := by
  have apart : ¬ JoinsPair [c] text := by
    rintro ⟨isReturn, -⟩
    obtain rfl := Option.some.inj isReturn
    contradiction
  rewrite [lines_cons apart, if_neg (by simp [isPlain])]
  rfl

@[simp]
theorem lines_nil : lines [] = [] :=
  rfl

theorem lines_eq_nil_iff {text : Text} : lines text = [] ↔ text = [] := by
  constructor
  · intro noLines
    have flat := lines_flatten text
    rw [noLines] at flat
    exact flat.symm
  · rintro rfl
    rfl

theorem lines_append {first second : Text} (ends : EndsLine first)
    (apart : ¬ JoinsPair first second) :
    lines (first ++ second) = lines first ++ lines second := by
  fun_induction lines first with
  | case1 => simp
  | case2 text ih =>
      have textApart := not_joinsPair_cons (not_joinsPair_cons apart)
      simp [lines_pair, ih (endsLine_of_cons (endsLine_of_cons ends)) textApart]
  | case3 c text noPair isBreak ih =>
      have seam : ¬ JoinsPair [c] (text ++ second) := by
        rintro ⟨isReturn, head⟩
        cases text with
        | nil => exact apart ⟨isReturn, by simpa using head⟩
        | cons d rest =>
            simp only [List.cons_append, List.head?_cons, Option.some.injEq] at head
            simp only [List.getLast?_singleton, Option.some.injEq] at isReturn
            exact noPair rest isReturn (by rw [head])
      rw [List.cons_append, lines_break isBreak seam,
        ih (endsLine_of_cons ends) (not_joinsPair_cons apart)]
      rfl
  | case4 c text noPair isPlain empty ih =>
      rw [lines_eq_nil_iff] at empty
      subst empty
      exact absurd (ends c rfl) isPlain
  | case5 c text noPair isPlain line rest split ih =>
      have tail := ih (endsLine_of_cons ends) (not_joinsPair_cons apart)
      rw [split] at tail
      rw [List.cons_append, lines_plain (by simpa using isPlain), tail]
      rfl

theorem lines_of_plain {text : Text} (isPlain : ∀ c ∈ text, isLineBreak c = false)
    (someText : text ≠ []) : lines text = [text] := by
  induction text with
  | nil => exact absurd rfl someText
  | cons c rest ih =>
      rw [lines_plain (isPlain c (by simp))]
      cases rest with
      | nil => rfl
      | cons d rest =>
          rw [ih (fun e member => isPlain e (List.mem_cons_of_mem c member)) (by simp)]

/-! ## The first line of a text -/

/-- The first line of a text can be taken off it. -/
theorem lines_eq_cons {text line : Text} {rest : List Text}
    (split : lines text = line :: rest) :
    lines line = [line] ∧ lines rest.flatten = rest ∧
      (rest ≠ [] → EndsLine line) ∧ ¬ JoinsPair line rest.flatten := by
  fun_induction lines text generalizing line rest with
  | case1 => simp at split
  | case2 text ih =>
      obtain ⟨rfl, rfl⟩ := List.cons.inj split
      rw [lines_flatten]
      exact ⟨rfl, rfl, fun _ => by simp [EndsLine, isLineBreak], by simp [JoinsPair]⟩
  | case3 c text noPair isBreak ih =>
      obtain ⟨rfl, rfl⟩ := List.cons.inj split
      rw [lines_flatten]
      refine ⟨?_, rfl, fun _ => by simpa [EndsLine] using isBreak, ?_⟩
      · exact lines_break isBreak (not_joinsPair_nil [c])
      · rintro ⟨isReturn, head⟩
        cases text with
        | nil => simp at head
        | cons d rest =>
            simp only [List.head?_cons, Option.some.injEq] at head
            simp only [List.getLast?_singleton, Option.some.injEq] at isReturn
            exact noPair rest isReturn (by rw [head])
  | case4 c text noPair isPlain empty ih =>
      obtain ⟨rfl, rfl⟩ := List.cons.inj split
      refine ⟨?_, rfl, by simp, not_joinsPair_nil [c]⟩
      rw [lines_plain (by simpa using isPlain)]
      rfl
  | case5 c text noPair isPlain tail others split' ih =>
      obtain ⟨rfl, rfl⟩ := List.cons.inj split
      obtain ⟨tailLine, othersLines, tailEnds, tailApart⟩ := ih split'
      have someTail : tail ≠ [] := by
        rintro rfl
        simp at tailLine
      obtain ⟨d, tail, rfl⟩ := List.exists_cons_of_ne_nil someTail
      refine ⟨?_, othersLines, fun someRest last isLast => ?_, fun joins => tailApart ?_⟩
      · rw [lines_plain (by simpa using isPlain), tailLine]
      · exact tailEnds someRest last (by simpa using isLast)
      · exact ⟨by simpa using joins.1, joins.2⟩

/-! ## Runs of lines -/

/-- Lines that are the lines of the text that they make up. -/
def AreLines (parts : List Text) : Prop :=
  lines parts.flatten = parts

theorem areLines_lines (text : Text) : AreLines (lines text) := by
  rw [AreLines, lines_flatten]

@[simp]
theorem areLines_nil : AreLines [] :=
  rfl

theorem areLines_append {first second : List Text} (firstLines : AreLines first)
    (secondLines : AreLines second) (ends : second ≠ [] → EndsLine first.flatten)
    (apart : ¬ JoinsPair first.flatten second.flatten) : AreLines (first ++ second) := by
  cases second with
  | nil => simpa using firstLines
  | cons line rest =>
      rw [AreLines, List.flatten_append, lines_append (ends (by simp)) apart, firstLines,
        secondLines]

theorem areLines_cons {line : Text} {rest : List Text} (areLines : AreLines (line :: rest)) :
    AreLines [line] ∧ AreLines rest ∧ (rest ≠ [] → EndsLine line) ∧
      ¬ JoinsPair line rest.flatten := by
  obtain ⟨isLine, restLines, ends, apart⟩ := lines_eq_cons areLines
  exact ⟨by simpa [AreLines] using isLine, restLines, ends, apart⟩

theorem ne_nil_of_areLines_cons {line : Text} {rest : List Text}
    (areLines : AreLines (line :: rest)) : line ≠ [] := by
  rintro rfl
  have isLine := (areLines_cons areLines).1
  simp [AreLines] at isLine

/-- Lines that are put together of two runs are the lines of each run. -/
theorem areLines_of_append {first second : List Text} (areLines : AreLines (first ++ second)) :
    AreLines first ∧ AreLines second ∧ (second ≠ [] → EndsLine first.flatten) ∧
      ¬ JoinsPair first.flatten second.flatten := by
  induction first with
  | nil => exact ⟨areLines_nil, areLines, by simp, by simp [JoinsPair]⟩
  | cons line rest ih =>
      obtain ⟨isLine, others, ends, apart⟩ := areLines_cons areLines
      obtain ⟨restLines, secondLines, restEnds, restApart⟩ := ih others
      have restSeam : ¬ JoinsPair line rest.flatten := by
        rintro ⟨isReturn, head⟩
        refine apart ⟨isReturn, ?_⟩
        cases flat : rest.flatten with
        | nil => simp [flat] at head
        | cons c text => simpa [flat] using head
      have lineEnds : rest ++ second ≠ [] → EndsLine line := ends
      refine ⟨?_, secondLines, fun someSecond => ?_, fun joins => ?_⟩
      · exact areLines_append isLine restLines
          (fun someRest => by simpa using lineEnds (by simp [someRest])) (by simpa using restSeam)
      · exact endsLine_append (lineEnds (by simp [someSecond])) (restEnds someSecond)
      · cases rest with
        | nil => exact apart (by simpa using joins)
        | cons next rest =>
            have someNext := ne_nil_of_areLines_cons restLines
            obtain ⟨c, next, rfl⟩ := List.exists_cons_of_ne_nil someNext
            exact restApart ⟨by simpa using joins.1, joins.2⟩

/-- The characters of a line can be given as a list. -/
theorem ofLines_cons_of_eq {line : String} {lines : List String} {content rest : Text}
    (isLine : line = String.ofList content) (areLines : ofLines lines = rest) :
    ofLines (line :: lines) = content ++ '\n' :: rest := by
  rw [← areLines, isLine]
  change (String.ofList content).toList ++ ['\n'] ++ ofLines lines = _
  rw [String.toList_ofList, List.append_assoc]
  rfl

end Text

end ApiWorkshop

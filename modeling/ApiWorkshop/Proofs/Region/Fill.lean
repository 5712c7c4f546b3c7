import ApiWorkshop.Entries
import ApiWorkshop.Proofs.Region.Blocks

/-!
# Filling blocks

A body that ends its last line and has no marker line can take the place of the
body of a block.  The lines around it stay the lines that they were, except that
a line feed at its start completes the break of a line before it that ends in a
carriage return.
-/

namespace ApiWorkshop

namespace Region

/-- Bodies that do not touch the markers around them. -/
def Fit (style : CommentStyle) (bodies : Entries String Text) : Prop :=
  ∀ name body, Entries.get? name bodies = some body → Text.EndsLine body ∧ Unmarked style body

theorem fit_nil (style : CommentStyle) : Fit style [] := by
  simp [Fit]

theorem fit_put (name : String) {style : CommentStyle} {bodies : Entries String Text}
    {body : Text} (fit : Fit style bodies) (ends : Text.EndsLine body)
    (unmarked : Unmarked style body) : Fit style (Entries.put name body bodies) := by
  intro other found isFound
  by_cases same : other = name
  · subst same
    rw [Entries.get?_put_self] at isFound
    obtain rfl := Option.some.inj isFound
    exact ⟨ends, unmarked⟩
  · rw [Entries.get?_put_of_ne same] at isFound
    exact fit other found isFound

end Region

/-! ## Blocks with new bodies -/

namespace Text

instance (first second : Text) : Decidable (JoinsPair first second) :=
  inferInstanceAs (Decidable (_ ∧ _))

theorem areLines_append_feed {line : Text} (isLine : AreLines [line])
    (isReturn : line.getLast? = some '\r') : AreLines [line ++ ['\n']] := by
  have single : lines line = [line] := by simpa [AreLines] using isLine
  suffices lines (line ++ ['\n']) = [line ++ ['\n']] by simpa [AreLines] using this
  clear isLine
  induction line with
  | nil => simp at isReturn
  | cons c rest ih =>
      cases rest with
      | nil =>
          obtain rfl : c = '\r' := by simpa using isReturn
          rfl
      | cons d rest =>
          have restReturn : (d :: rest).getLast? = some '\r' := by simpa using isReturn
          by_cases isBreak : isLineBreak c = true
          · by_cases joins : JoinsPair [c] (d :: rest)
            · obtain rfl : c = '\r' := by simpa [JoinsPair] using joins.1
              obtain rfl : d = '\n' := by simpa [JoinsPair] using joins.2
              rw [lines_pair] at single
              obtain ⟨pairOnly, -⟩ := List.cons.inj single
              obtain rfl : rest = [] := by simpa using pairOnly.symm
              simp at restReturn
            · rw [lines_break isBreak joins] at single
              simp at single
          · have isPlain : isLineBreak c = false := by simpa using isBreak
            rw [lines_plain isPlain] at single
            cases tail : lines (d :: rest) with
            | nil => simp [lines_eq_nil_iff] at tail
            | cons first others =>
                rw [tail] at single
                obtain ⟨rfl, rfl⟩ : first = d :: rest ∧ others = [] := by simpa using single
                rw [List.cons_append, lines_plain isPlain, ih restReturn tail]

end Text

namespace Block

/-- A block with the body that is named for it, if there is one.  A line feed at
the start of the body may go to the line that begins the region. -/
def fill (bodies : Entries String Text) (block : Block) : Block :=
  match Entries.get? block.name bodies with
  | none => block
  | some body =>
      if Text.JoinsPair block.opening body then
        { block with opening := block.opening ++ ['\n'], body := Text.lines body.tail }
      else
        { block with body := Text.lines body }

theorem fill_of_none {bodies : Entries String Text} {block : Block}
    (noBody : Entries.get? block.name bodies = none) : block.fill bodies = block := by
  rw [fill, noBody]

theorem fill_congr {first second : Entries String Text} {block : Block}
    (same : Entries.get? block.name first = Entries.get? block.name second) :
    block.fill first = block.fill second := by
  rw [fill, fill, same]

@[simp]
theorem fill_name (bodies : Entries String Text) (block : Block) :
    (block.fill bodies).name = block.name := by
  rw [fill]
  split
  · rfl
  · split <;> rfl

@[simp]
theorem fill_closing (bodies : Entries String Text) (block : Block) :
    (block.fill bodies).closing = block.closing := by
  rw [fill]
  split
  · rfl
  · split <;> rfl

@[simp]
theorem fill_gap (bodies : Entries String Text) (block : Block) :
    (block.fill bodies).gap = block.gap := by
  rw [fill]
  split
  · rfl
  · split <;> rfl

theorem name_comp_fill (bodies : Entries String Text) : name ∘ fill bodies = name :=
  funext fun block => fill_name bodies block

/-- Up to the line that ends its region, a filled block is the line that begins
it and the body. -/
theorem fill_opening_body (bodies : Entries String Text) (block : Block) :
    (block.fill bodies).opening ++ (block.fill bodies).body.flatten =
      block.opening ++ (Entries.get? block.name bodies).getD block.body.flatten := by
  cases isBody : Entries.get? block.name bodies with
  | none => rw [fill_of_none isBody, Option.getD_none]
  | some body =>
      by_cases joins : Text.JoinsPair block.opening body
      · obtain ⟨rest, rfl⟩ : ∃ rest, body = '\n' :: rest := by
          cases body with
          | nil => simp [Text.JoinsPair] at joins
          | cons c rest => exact ⟨rest, by simpa [Text.JoinsPair] using joins.2⟩
        simp [fill, isBody, joins, Text.lines_flatten]
      · simp [fill, isBody, joins, Text.lines_flatten]

theorem fill_lines_flatten (bodies : Entries String Text) (block : Block) :
    (block.fill bodies).lines.flatten =
      block.opening ++ ((Entries.get? block.name bodies).getD block.body.flatten ++
        (block.closing ++ block.gap.flatten)) := by
  have front := fill_opening_body bodies block
  simp only [lines, List.cons_append, List.flatten_cons, List.flatten_append, fill_closing,
    fill_gap]
  rw [← List.append_assoc, front, List.append_assoc]

theorem isMarked_fill {style : CommentStyle} (someOpening : style.opening ≠ [])
    {bodies : Entries String Text} (fit : Region.Fit style bodies) {block : Block}
    (marked : block.IsMarked style) : (block.fill bodies).IsMarked style := by
  refine ⟨?_, by simpa using marked.closing_marker, ?_, by simpa using marked.gap_unmarked⟩
  · rw [fill_name, ← marked.opening_marker, fill]
    split
    · rfl
    · split
      · simp only [Region.markerOf?]
        rw [Text.trimEnd_append_of_drop (by simp [Region.isLineEnd])]
      · rfl
  · rw [fill]
    split
    next => exact marked.body_unmarked
    next body isBody =>
      have unmarked := (fit block.name body isBody).2
      split
      next joins =>
        obtain ⟨rest, rfl⟩ : ∃ rest, body = '\n' :: rest := by
          cases body with
          | nil => simp [Text.JoinsPair] at joins
          | cons c rest => exact ⟨rest, by simpa [Text.JoinsPair] using joins.2⟩
        exact (Region.unmarked_iff someOpening rest).mp unmarked
      next => exact (Region.unmarked_iff someOpening body).mp unmarked

/-- The front of a filled block falls into lines as the block has them. -/
theorem areLines_fill_front (bodies : Entries String Text) {block : Block}
    (isLine : Text.AreLines [block.opening]) (ends : Text.EndsLine block.opening)
    (front : Text.AreLines (block.opening :: block.body)) :
    Text.AreLines ((block.fill bodies).opening :: (block.fill bodies).body) := by
  rw [fill]
  split
  next => exact front
  next body isBody =>
    split
    next joins =>
      have openingLine : Text.AreLines [block.opening ++ ['\n']] :=
        Text.areLines_append_feed isLine joins.1
      refine Text.areLines_append openingLine (Text.areLines_lines body.tail) (fun _ => ?_) ?_
      · simp [Text.EndsLine, Text.isLineBreak]
      · simp [Text.JoinsPair]
    next apart =>
      refine Text.areLines_append isLine (Text.areLines_lines body)
        (fun _ => by simpa using ends) ?_
      simpa [Text.lines_flatten] using apart

theorem endsLine_fill_front {style : CommentStyle} {bodies : Entries String Text}
    (fit : Region.Fit style bodies) {block : Block} (ends : Text.EndsLine block.opening)
    (frontEnds : Text.EndsLine (block.opening :: block.body).flatten) :
    Text.EndsLine ((block.fill bodies).opening :: (block.fill bodies).body).flatten := by
  rw [List.flatten_cons, fill_opening_body]
  cases isBody : Entries.get? block.name bodies with
  | none => simpa using frontEnds
  | some body => exact Text.endsLine_append ends (fit block.name body isBody).1

/-- Blocks do not begin with a line feed. -/
theorem head?_blocks_ne_feed {style : CommentStyle} (someOpening : style.opening ≠ [])
    {blocks : List Block} (marked : ∀ block ∈ blocks, block.IsMarked style)
    (areLines : Text.AreLines (blocks.flatMap lines)) :
    (blocks.flatMap lines).flatten.head? ≠ some '\n' := by
  cases blocks with
  | nil => simp
  | cons block blocks =>
      have isLine := (Text.areLines_cons areLines).1
      have head := Region.head?_ne_feed_of_markerOf? someOpening isLine
        (marked block (by simp)).opening_marker
      have someLine := Text.ne_nil_of_areLines_cons isLine
      obtain ⟨c, rest, isOpening⟩ := List.exists_cons_of_ne_nil someLine
      simpa [lines, isOpening] using head

/-- Filled blocks fall into lines as the blocks do. -/
theorem areLines_map_fill {style : CommentStyle} (someOpening : style.opening ≠ [])
    {bodies : Entries String Text} (fit : Region.Fit style bodies) {blocks : List Block}
    (marked : ∀ block ∈ blocks, block.IsMarked style)
    (areLines : Text.AreLines (blocks.flatMap lines)) :
    Text.AreLines ((blocks.map (fill bodies)).flatMap lines) := by
  induction blocks with
  | nil => exact Text.areLines_nil
  | cons block blocks ih =>
      have isMarked := marked block (by simp)
      have others : ∀ other ∈ blocks, other.IsMarked style :=
        fun other member => marked other (List.mem_cons_of_mem block member)
      have split : (block :: blocks).flatMap lines = (block.opening :: block.body) ++
          ((block.closing :: block.gap) ++ blocks.flatMap lines) := by
        simp [lines]
      rw [split] at areLines
      obtain ⟨front, back, frontEnds, -⟩ := Text.areLines_of_append areLines
      obtain ⟨tail, rest, tailEnds, -⟩ := Text.areLines_of_append back
      obtain ⟨isLine, -, ends, -⟩ := Text.areLines_cons areLines
      have restLines := ih others rest
      have filledMarked : ∀ other ∈ blocks.map (fill bodies), other.IsMarked style := by
        intro other member
        obtain ⟨source, inBlocks, rfl⟩ := List.mem_map.mp member
        exact isMarked_fill someOpening fit (others source inBlocks)
      have restApart : ¬ Text.JoinsPair (block.closing :: block.gap).flatten
          ((blocks.map (fill bodies)).flatMap lines).flatten :=
        fun joins => head?_blocks_ne_feed someOpening filledMarked restLines joins.2
      have restEnds : (blocks.map (fill bodies)).flatMap lines ≠ [] →
          Text.EndsLine (block.closing :: block.gap).flatten := by
        intro someRest
        apply tailEnds
        cases blocks with
        | nil => simp at someRest
        | cons next blocks => simp [lines]
      have newBack := Text.areLines_append tail restLines restEnds restApart
      have closingHead : block.closing.head? ≠ some '\n' :=
        Region.head?_ne_feed_of_markerOf? someOpening (Text.areLines_cons tail).1
          isMarked.closing_marker
      have openingEnds : Text.EndsLine block.opening := ends (by simp)
      have result := Text.areLines_append (areLines_fill_front bodies isLine openingEnds front)
        newBack (fun _ => endsLine_fill_front fit openingEnds (frontEnds (by simp)))
        (by
          rintro ⟨-, head⟩
          obtain ⟨c, closing, isClosing⟩ :=
            List.exists_cons_of_ne_nil (Text.ne_nil_of_areLines_cons tail)
          exact closingHead (by simpa [isClosing] using head))
      simpa [lines] using result

end Block

end ApiWorkshop

import ApiWorkshop.Text.Basic

/-!
# Parts of a text

What is before and after a part of a text, what the pieces between its separating
characters are, and what is left of a text when the characters at its ends that satisfy a
test are dropped.
-/

namespace ApiWorkshop

namespace Text

/-! ## Before and after -/

section Elements

variable {α : Type} [DecidableEq α]

theorem after?_eq_some_iff {front text rest : List α} :
    after? front text = some rest ↔ text = front ++ rest := by
  induction front generalizing text with
  | nil => simp [after?]
  | cons c front ih =>
      cases text with
      | nil => simp [after?]
      | cons d text =>
          rw [after?, List.cons_append, List.cons.injEq, eq_comm (a := d)]
          split
          next same => rw [ih, and_iff_right same]
          next different => simp [different]

theorem after?_eq_none_iff {front text : List α} :
    after? front text = none ↔ ¬ front <+: text := by
  have isPrefix_iff : front <+: text ↔ ∃ rest, after? front text = some rest :=
    exists_congr fun rest => eq_comm.trans after?_eq_some_iff.symm
  rw [isPrefix_iff, Option.eq_none_iff_forall_ne_some, not_exists]

theorem after?_append (front text : List α) : after? front (front ++ text) = some text :=
  after?_eq_some_iff.mpr rfl

theorem before?_eq_some_iff {back text rest : List α} :
    before? back text = some rest ↔ text = rest ++ back := by
  rw [before?, Option.map_eq_some_iff]
  constructor
  · rintro ⟨reversed, isAfter, rfl⟩
    rw [← List.reverse_reverse text, after?_eq_some_iff.mp isAfter, List.reverse_append,
      List.reverse_reverse]
  · rintro rfl
    exact ⟨rest.reverse, after?_eq_some_iff.mpr List.reverse_append, List.reverse_reverse rest⟩

theorem before?_append (front back : List α) : before? back (front ++ back) = some front :=
  before?_eq_some_iff.mpr rfl

/-! ## Pieces -/

theorem pieces_of_notMem {separator : α} {text : List α} (apart : separator ∉ text) :
    pieces separator text = [text] := by
  induction text with
  | nil => rfl
  | cons c text ih =>
      obtain ⟨different, restApart⟩ := List.ne_and_not_mem_of_not_mem_cons apart
      simp [pieces, Ne.symm different, ih restApart]

theorem pieces_append {separator : α} {front : List α} (apart : separator ∉ front)
    (back : List α) :
    pieces separator (front ++ separator :: back) = front :: pieces separator back := by
  induction front with
  | nil => simp [pieces]
  | cons c front ih =>
      obtain ⟨different, restApart⟩ := List.ne_and_not_mem_of_not_mem_cons apart
      simp [pieces, Ne.symm different, ih restApart]

end Elements

/-! ## Tests that fail on every character -/

theorem eq_false_of_mem {test : Char → Bool} {text : Text} (noneIs : text.any test = false) :
    ∀ c ∈ text, test c = false := by
  simpa using noneIs

theorem eq_false_of_mem_option {test : Char → Bool} {found : Option Char}
    (noneIs : found.any test = false) : ∀ c ∈ found, test c = false := by
  cases found with
  | none => simp
  | some c => simpa using noneIs

/-! ## Runs of characters -/

/-- A run of characters that satisfy a test goes up to the first one that does not. -/
theorem span_append {test : Char → Bool} {run rest : Text} (inRun : ∀ c ∈ run, test c = true)
    (ends : ∀ c ∈ rest.head?, test c = false) :
    (run ++ rest).takeWhile test = run ∧ (run ++ rest).dropWhile test = rest := by
  have noMore : rest.takeWhile test = [] ∧ rest.dropWhile test = rest := by
    cases rest with
    | nil => exact ⟨rfl, rfl⟩
    | cons c rest => simp [ends c rfl]
  rw [List.takeWhile_append_of_pos inRun, List.dropWhile_append_of_pos inRun, noMore.1,
    noMore.2, List.append_nil]
  exact ⟨rfl, rfl⟩

theorem exists_span (test : Char → Bool) (text : Text) :
    ∃ run rest, text.takeWhile test = run ∧ text.dropWhile test = rest ∧ text = run ++ rest ∧
      (∀ c ∈ run, test c = true) ∧ ∀ c ∈ rest.head?, test c = false := by
  refine ⟨_, _, rfl, rfl, List.takeWhile_append_dropWhile.symm,
    List.all_eq_true.mp List.all_takeWhile, ?_⟩
  induction text with
  | nil => exact fun c isHead => nomatch isHead
  | cons first text ih =>
      rw [List.dropWhile_cons]
      split
      next => exact ih
      next fails =>
        intro c isHead
        obtain rfl : first = c := Option.some.inj isHead
        exact Bool.eq_false_iff.mpr fails

theorem forall_head?_append_of_ne_nil {Holds : Char → Prop} {run : Text} (nonempty : run ≠ [])
    (inRun : ∀ c ∈ run, Holds c) (rest : Text) : ∀ c ∈ (run ++ rest).head?, Holds c := by
  cases run with
  | nil => exact absurd rfl nonempty
  | cons first run =>
      intro c isHead
      obtain rfl : first = c := Option.some.inj isHead
      exact inRun first List.mem_cons_self

theorem forall_head?_append {Holds : Char → Prop} {run rest : Text} (inRun : ∀ c ∈ run, Holds c)
    (after : ∀ c ∈ rest.head?, Holds c) : ∀ c ∈ (run ++ rest).head?, Holds c := by
  by_cases nonempty : run = []
  · rw [nonempty]
    exact after
  · exact forall_head?_append_of_ne_nil nonempty inRun rest

/-! ## Trimmed texts -/

variable {drop : Char → Bool}

theorem trimEnd_append_of_drop {text ending : Text} (dropped : ∀ c ∈ ending, drop c = true) :
    trimEnd drop (text ++ ending) = trimEnd drop text := by
  have reversed : ∀ c ∈ ending.reverse, drop c = true := by simpa using dropped
  simp [trimEnd, List.dropWhile_append_of_pos reversed]

theorem trimEnd_of_keep {text : Text} {c : Char} (kept : drop c = false) :
    trimEnd drop (text ++ [c]) = text ++ [c] := by
  simp [trimEnd, kept]

theorem trimEnd_eq_self {text : Text} (kept : ∀ c ∈ text.getLast?, drop c = false) :
    trimEnd drop text = text := by
  rcases List.eq_nil_or_concat text with rfl | ⟨front, last, rfl⟩
  · rfl
  · rw [List.concat_eq_append] at kept ⊢
    exact trimEnd_of_keep (kept last (by simp))

/-- A text is what is left of it and the characters that were cut off. -/
theorem exists_eq_trimEnd_append (drop : Char → Bool) (text : Text) :
    ∃ cut, text = trimEnd drop text ++ cut ∧ ∀ c ∈ cut, drop c = true := by
  refine ⟨(text.reverse.takeWhile drop).reverse, ?_, ?_⟩
  · rw [trimEnd, ← List.reverse_append, List.takeWhile_append_dropWhile, List.reverse_reverse]
  · intro c member
    exact List.all_eq_true.mp List.all_takeWhile c (List.mem_reverse.mp member)

theorem exists_eq_append_trim (drop : Char → Bool) (text : Text) :
    ∃ lead trail, text = lead ++ trim drop text ++ trail ∧ (∀ c ∈ lead, drop c = true) ∧
      ∀ c ∈ trail, drop c = true := by
  obtain ⟨trail, same, areDropped⟩ := exists_eq_trimEnd_append drop (text.dropWhile drop)
  refine ⟨text.takeWhile drop, trail, ?_, List.all_eq_true.mp List.all_takeWhile, areDropped⟩
  rw [trim, List.append_assoc, ← same, List.takeWhile_append_dropWhile]

theorem dropWhile_eq_self {text : Text} (kept : ∀ c ∈ text.head?, drop c = false) :
    text.dropWhile drop = text := by
  cases text with
  | nil => rfl
  | cons c text => rw [List.dropWhile_cons_of_neg (by simp [kept c rfl])]

theorem trim_eq_self {text : Text} (kept : ∀ c ∈ text, drop c = false) : trim drop text = text := by
  rw [trim, dropWhile_eq_self fun c isHead => kept c (List.mem_of_mem_head? isHead)]
  exact trimEnd_eq_self fun c isLast => kept c (List.mem_of_getLast? isLast)

/-- Only the characters around a text whose ends are kept are cut off. -/
theorem trim_append {lead text trail : Text} (leadDropped : ∀ c ∈ lead, drop c = true)
    (firstKept : ∀ c ∈ (text ++ trail).head?, drop c = false)
    (lastKept : ∀ c ∈ text.getLast?, drop c = false)
    (trailDropped : ∀ c ∈ trail, drop c = true) : trim drop (lead ++ text ++ trail) = text := by
  rw [trim, List.append_assoc, List.dropWhile_append_of_pos leadDropped,
    dropWhile_eq_self firstKept, trimEnd_append_of_drop trailDropped, trimEnd_eq_self lastKept]

end Text

end ApiWorkshop

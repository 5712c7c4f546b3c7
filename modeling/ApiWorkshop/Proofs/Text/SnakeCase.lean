import ApiWorkshop.Proofs.Text.CaseWords

/-!
# Names in snake case

A name in snake case is words of lower-case letters and digits with single underscores
between them.  Splitting a name into words and rewriting it in place give the same name in
snake case, and both leave such a name alone.  A package name is in snake case as well; it
begins with a letter, and the package name of it is itself.
-/

namespace ApiWorkshop

namespace Text

/-- One or more lower-case letters and digits. -/
structure IsLowerWord (word : Text) : Prop where
  nonempty : word ≠ []
  areLower : ∀ c ∈ word, (c.isLower || c.isDigit) = true

/-- Words of lower-case letters and digits, if there are any, with one underscore between
each two. -/
def IsSnake (name : Text) : Prop :=
  ∃ words : List Text, (∀ word ∈ words, IsLowerWord word) ∧ name = List.intercalate ['_'] words

/-- A name in snake case that begins with a letter. -/
def IsPackageName (name : Text) : Prop :=
  IsSnake name ∧ ∃ first ∈ name.head?, first.isLower = true

/-! ## Lower-case letters and digits -/

theorem not_isUpper_of_isLower_or_isDigit {c : Char}
    (isLower : (c.isLower || c.isDigit) = true) : c.isUpper = false := by
  rw [← Bool.not_eq_true]
  intro isUpper
  have upper := code_of_isUpper isUpper
  rcases Bool.or_eq_true_iff.mp isLower with isLetter | isDigit
  · have lower := code_of_isLower isLetter
    omega
  · have digit := code_of_isDigit isDigit
    omega

theorem isWordPart_of_isLower_or_isDigit {c : Char} (isLower : (c.isLower || c.isDigit) = true) :
    isWordPart c = true := by
  rcases Bool.or_eq_true_iff.mp isLower with isLetter | isDigit
  · exact Bool.or_eq_true_iff.mpr (.inl (Bool.or_eq_true_iff.mpr (.inr isLetter)))
  · exact Bool.or_eq_true_iff.mpr (.inr isDigit)

theorem toLower_of_isLower_or_isDigit {c : Char} (isLower : (c.isLower || c.isDigit) = true) :
    c.toLower = c := by
  have unchanged := of_isWordPart (fun c => !(c.isLower || c.isDigit) || c.toLower = c)
    (by decide) (isWordPart_of_isLower_or_isDigit isLower)
  simpa [isLower] using unchanged

theorem IsLowerWord.isWord {word : Text} (isLower : IsLowerWord word) : IsWord word :=
  ⟨isLower.nonempty, fun c member => isWordPart_of_isLower_or_isDigit (isLower.areLower c member)⟩

theorem IsLowerWord.map_toLower {word : Text} (isLower : IsLowerWord word) :
    word.map Char.toLower = word :=
  (List.map_congr_left fun c member =>
    toLower_of_isLower_or_isDigit (isLower.areLower c member)).trans (List.map_id word)

/-! ## Reading the words back -/

/-- Inside of a word of lower-case letters and digits no word ends. -/
theorem endsBetween_of_isLower_or_isDigit (c : Char) {d : Char}
    (isLower : (d.isLower || d.isDigit) = true) : endsBetween c d = false := by
  simp [endsBetween, isCamelBoundary, isWordPart_of_isLower_or_isDigit isLower,
    not_isUpper_of_isLower_or_isDigit isLower]

/-- A word ends before something else than a lower-case letter or digit that is no word part
either. -/
theorem words_append {word rest : Text} (isLower : IsLowerWord word)
    (ends : ∀ c ∈ rest.head?, isWordPart c = false) :
    words (word ++ rest) = word :: words rest := by
  obtain ⟨nonempty, areLower⟩ := isLower
  induction word with
  | nil => exact absurd rfl nonempty
  | cons c word ih =>
      obtain ⟨isFirst, restLower⟩ := List.forall_mem_cons.mp areLower
      have isPart := isWordPart_of_isLower_or_isDigit isFirst
      cases word with
      | nil =>
          cases rest with
          | nil => simp [words, isPart]
          | cons d rest =>
              rcases words_cons_cases isPart d rest with ⟨-, asWords⟩ | ⟨goesOn, -⟩
              · exact asWords
              · simp [endsBetween, ends d rfl] at goesOn
      | cons d word =>
          rcases words_cons_cases isPart d (word ++ rest) with
            ⟨isEnd, -⟩ | ⟨-, first, more, isSplit, asWords⟩
          · rw [endsBetween_of_isLower_or_isDigit c (restLower d List.mem_cons_self)] at isEnd
            contradiction
          · obtain ⟨rfl, rfl⟩ := List.cons.inj
              (isSplit.symm.trans (ih (List.cons_ne_nil d word) restLower))
            exact asWords

theorem words_intercalate {lowered : List Text} (areLower : ∀ word ∈ lowered, IsLowerWord word) :
    words (List.intercalate ['_'] lowered) = lowered := by
  induction lowered with
  | nil => rfl
  | cons word lowered ih =>
      obtain ⟨isLower, restLower⟩ := List.forall_mem_cons.mp areLower
      by_cases isLast : lowered = []
      · have asWords : words (word ++ []) = word :: words [] := words_append isLower (by simp)
        rw [List.append_nil] at asWords
        rw [isLast, List.intercalate_singleton]
        exact asWords
      · have noPart : isWordPart '_' = false := by decide
        rw [intercalate_cons_of_ne_nil isLast, List.append_assoc, List.singleton_append,
          words_append isLower (by simpa using noPart), words_cons_of_not noPart, ih restLower]

theorem isSnake_snakeCase (name : Text) : IsSnake (snakeCase name) := by
  refine ⟨lowerWords name, fun word member => ?_, snakeCase_eq name⟩
  obtain ⟨nonempty, areLower⟩ := isLower_or_isDigit_of_mem_lowerWords member
  exact ⟨nonempty, areLower⟩

theorem snakeCase_eq_self {name : Text} (isSnake : IsSnake name) : snakeCase name = name := by
  obtain ⟨lowered, areLower, rfl⟩ := isSnake
  have sameWords : lowered.map (List.map Char.toLower) = lowered :=
    (List.map_congr_left fun word member => (areLower word member).map_toLower).trans
      (List.map_id lowered)
  rw [snakeCase, words_intercalate areLower, sameWords]

/-- Both ways to write a name in snake case give the same name, which is in snake case, and
leave it alone. -/
theorem underscored_snakeCase (name : Text) :
    underscored name = snakeCase name ∧ IsSnake (snakeCase name) ∧
      snakeCase (snakeCase name) = snakeCase name ∧
      underscored (snakeCase name) = snakeCase name := by
  have isSnake := isSnake_snakeCase name
  refine ⟨underscored_eq_snakeCase name, isSnake, snakeCase_eq_self isSnake, ?_⟩
  rw [underscored_eq_snakeCase, snakeCase_eq_self isSnake]

/-! ## Package names -/

/-- Inside of a run, what is left of a text is words of characters that are kept, and at most
underscores after the last one. -/
theorem exists_words_collapseRuns (keep : Char → Bool) (text : Text) :
    ∃ words trail, (∀ word ∈ words, word ≠ [] ∧ ∀ c ∈ word, keep c = true) ∧
      (∀ c ∈ trail, c = '_') ∧
      collapseRuns keep true text = List.intercalate ['_'] words ++ trail := by
  induction text with
  | nil => exact ⟨[], [], by simp, by simp, rfl⟩
  | cons c text ih =>
      obtain ⟨words, trail, areKept, areMarks, split⟩ := ih
      cases isKept : keep c with
      | false =>
          refine ⟨words, trail, areKept, areMarks, ?_⟩
          rw [collapseRuns, if_neg (by simp [isKept]), if_pos rfl, split]
      | true =>
          rw [collapseRuns, if_pos isKept, collapseRuns_false, split]
          have isSingle : ([c] : Text) ≠ [] ∧ ∀ d ∈ [c], keep d = true := by simp [isKept]
          cases ends : text.head?.any (!keep ·) with
          | true =>
              cases words with
              | nil =>
                  refine ⟨[[c]], '_' :: trail, by simpa using isSingle,
                    List.forall_mem_cons.mpr ⟨rfl, areMarks⟩, ?_⟩
                  rw [List.intercalate_singleton]
                  rfl
              | cons word words =>
                  refine ⟨[c] :: word :: words, trail,
                    List.forall_mem_cons.mpr ⟨isSingle, areKept⟩, areMarks, ?_⟩
                  rw [List.intercalate_cons_cons]
                  rfl
          | false =>
              cases words with
              | nil =>
                  refine ⟨[[c]], trail, by simpa using isSingle, areMarks, ?_⟩
                  rw [List.intercalate_singleton]
                  rfl
              | cons word words =>
                  obtain ⟨⟨-, firstKept⟩, restKept⟩ := List.forall_mem_cons.mp areKept
                  refine ⟨(c :: word) :: words, trail, List.forall_mem_cons.mpr
                    ⟨⟨List.cons_ne_nil c word, List.forall_mem_cons.mpr ⟨isKept, firstKept⟩⟩,
                      restKept⟩, areMarks, ?_⟩
                  rw [← cons_intercalate]
                  rfl

/-- What is left of a text when all but lower-case letters and digits is collapsed is in snake
case, once the underscores at its ends are cut off. -/
theorem isSnake_trim_collapseRuns (text : Text) : IsSnake
    (trim (· = '_') (collapseRuns (fun c => c.isLower || c.isDigit) false text)) := by
  obtain ⟨words, trail, areKept, areMarks, split⟩ :=
    exists_words_collapseRuns (fun c => c.isLower || c.isDigit) text
  have areLower : ∀ word ∈ words, IsLowerWord word :=
    fun word member => ⟨(areKept word member).1, (areKept word member).2⟩
  obtain ⟨lead, leadMarks, whole⟩ : ∃ lead : Text, (∀ c ∈ lead, c = '_') ∧
      collapseRuns (fun c => c.isLower || c.isDigit) false text =
        lead ++ List.intercalate ['_'] words ++ trail := by
    refine ⟨_, ?_, by rw [collapseRuns_false, split, List.append_assoc]⟩
    split <;> simp
  exact ⟨words, areLower, by
    rw [whole, trim_intercalate (fun word member => (areLower word member).isWord) leadMarks
      areMarks]⟩

/-- A name in snake case begins with a lower-case letter or a digit. -/
theorem IsSnake.isLower_or_isDigit_of_mem_head? {name : Text} (isSnake : IsSnake name) :
    ∀ c ∈ name.head?, (c.isLower || c.isDigit) = true := by
  obtain ⟨words, areLower, rfl⟩ := isSnake
  cases words with
  | nil => simp
  | cons word words =>
      have isLower := areLower word List.mem_cons_self
      rw [head?_intercalate isLower.nonempty]
      exact fun c isHead => isLower.areLower c (List.mem_of_mem_head? isHead)

/-- A word in front of a name in snake case, with an underscore between them. -/
theorem IsSnake.cons {word name : Text} (isLower : IsLowerWord word) (isSnake : IsSnake name)
    (someChar : name ≠ []) : IsSnake (word ++ '_' :: name) := by
  obtain ⟨words, areLower, rfl⟩ := isSnake
  have someWord : words ≠ [] := by
    rintro rfl
    exact someChar rfl
  refine ⟨word :: words, List.forall_mem_cons.mpr ⟨isLower, areLower⟩, ?_⟩
  rw [intercalate_cons_of_ne_nil someWord, List.append_assoc, List.singleton_append]

theorem isPackageName_packageName (name : Text) : IsPackageName (packageName name) := by
  have isApp : IsLowerWord "app".toList := ⟨by simp, by simp⟩
  have isSnake := isSnake_trim_collapseRuns (name.flatMap packageLower)
  simp only [packageName]
  split
  · exact ⟨⟨["app".toList], by simpa using isApp, by rw [List.intercalate_singleton]⟩, 'a',
      by simp, rfl⟩
  next first rest isSlug =>
    rw [isSlug] at isSnake ⊢
    split
    · exact ⟨isSnake.cons isApp (List.cons_ne_nil first rest), 'a', by simp, rfl⟩
    next noDigit =>
      have isFirst := isSnake.isLower_or_isDigit_of_mem_head? first rfl
      exact ⟨isSnake, first, rfl, by simpa [noDigit] using isFirst⟩

/-! ## Package names of package names -/

theorem packageLower_of_isPackagePart {c : Char} (isPart : isPackagePart c = true) :
    packageLower c = [c] := by
  have code := code_of_isPackagePart isPart
  have noDotted : c ≠ '\u0130' := by
    rintro rfl
    exact absurd code (by decide)
  have noKelvin : c ≠ '\u212a' := by
    rintro rfl
    exact absurd code (by decide)
  have sameCase : c.toLower = c := by
    rcases Bool.or_eq_true_iff.mp isPart with isLower | isMark
    · exact toLower_of_isLower_or_isDigit isLower
    · rw [of_decide_eq_true isMark]
      rfl
  rw [packageLower, if_neg noDotted, if_neg noKelvin, sameCase]

theorem collapseRuns_append {keep : Char → Bool} {word : Text}
    (areKept : ∀ c ∈ word, keep c = true) (rest : Text) :
    collapseRuns keep false (word ++ rest) = word ++ collapseRuns keep false rest := by
  induction word with
  | nil => rfl
  | cons c word ih =>
      obtain ⟨isKept, restKept⟩ := List.forall_mem_cons.mp areKept
      rw [List.cons_append, collapseRuns, if_pos isKept, ih restKept, List.cons_append]

/-- Single underscores between words of characters that are kept stay. -/
theorem collapseRuns_intercalate {keep : Char → Bool} (noMark : keep '_' = false)
    {words : List Text} (areKept : ∀ word ∈ words, word ≠ [] ∧ ∀ c ∈ word, keep c = true) :
    collapseRuns keep false (List.intercalate ['_'] words) = List.intercalate ['_'] words := by
  induction words with
  | nil => rfl
  | cons word words ih =>
      obtain ⟨⟨-, wordKept⟩, restKept⟩ := List.forall_mem_cons.mp areKept
      cases words with
      | nil =>
          have isWord := collapseRuns_append wordKept []
          rw [List.append_nil] at isWord
          rw [List.intercalate_singleton, isWord]
          exact List.append_nil word
      | cons next words =>
          have isNext := ih restKept
          obtain ⟨⟨someChar, nextKept⟩, -⟩ := List.forall_mem_cons.mp restKept
          have noRun : (List.intercalate ['_'] (next :: words)).head?.any (!keep ·) = false := by
            rw [head?_intercalate someChar, Option.any_eq_false]
            simpa using fun c isHead => nextKept c (List.mem_of_mem_head? isHead)
          rw [collapseRuns_false, if_neg (by simp [noRun]), List.nil_append] at isNext
          rw [List.intercalate_cons_cons, List.append_assoc, collapseRuns_append wordKept,
            List.singleton_append, collapseRuns, if_neg (by simp [noMark]), if_neg (by decide),
            isNext]

theorem IsSnake.isPackagePart_of_mem {name : Text} (isSnake : IsSnake name) :
    ∀ c ∈ name, isPackagePart c = true := by
  obtain ⟨words, areLower, rfl⟩ := isSnake
  intro c member
  rcases mem_or_exists_of_mem_intercalate member with isMark | ⟨word, isWord, inWord⟩
  · rw [List.mem_singleton.mp isMark]
    decide
  · rw [isPackagePart, (areLower word isWord).areLower c inWord, Bool.true_or]

/-- The package name of a package name is itself. -/
theorem packageName_eq_self {name : Text} (isName : IsPackageName name) :
    packageName name = name := by
  obtain ⟨isSnake, first, isHead, isLetter⟩ := isName
  have lowered : name.flatMap packageLower = name := by
    rw [List.flatMap_congr fun c member =>
      packageLower_of_isPackagePart (isSnake.isPackagePart_of_mem c member),
      List.flatMap_singleton']
  obtain ⟨words, areLower, isJoined⟩ := isSnake
  have collapsed : collapseRuns (fun c => c.isLower || c.isDigit) false name = name := by
    rw [isJoined]
    exact collapseRuns_intercalate rfl fun word member =>
      ⟨(areLower word member).nonempty, (areLower word member).areLower⟩
  have trimmed : trim (· = '_') name = name := by
    have isTrimmed : trim (· = '_') ([] ++ List.intercalate ['_'] words ++ []) =
        List.intercalate ['_'] words :=
      trim_intercalate (fun word member => (areLower word member).isWord) (by simp) (by simp)
    rwa [List.append_nil, List.nil_append, ← isJoined] at isTrimmed
  have noDigit : first.isDigit = false := by
    rw [← Bool.not_eq_true]
    intro isDigit
    have digitCode := code_of_isDigit isDigit
    have letterCode := code_of_isLower isLetter
    omega
  obtain ⟨rest, rfl⟩ : ∃ rest, name = first :: rest := by
    cases name with
    | nil => simp at isHead
    | cons c rest => exact ⟨rest, congrArg (· :: rest) (Option.some.inj isHead)⟩
  simp only [packageName, lowered, collapsed, trimmed, noDigit]
  rfl

end Text

end ApiWorkshop

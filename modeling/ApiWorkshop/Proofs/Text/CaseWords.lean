import ApiWorkshop.Proofs.Text.Classes
import ApiWorkshop.Proofs.Text.Parts
import ApiWorkshop.Text.Words
import Mathlib.Data.List.Basic

/-!
# Case conventions keep the words

The words of a name are never empty and consist of ASCII letters and digits.  Rewriting a
name in place comes to the same as joining its words in lower case, and words that are
joined by underscores can be told apart again.  A package name is never empty and has only
lower-case letters, digits and underscores, whatever name it comes from.
-/

namespace ApiWorkshop

namespace Text

/-! ## Package names -/

/-- Whether a character may stand in a package name. -/
def isPackagePart (c : Char) : Bool :=
  c.isLower || c.isDigit || c = '_'

theorem isPackagePart_of_mem_collapseRuns {name : Text} {inRun : Bool} {c : Char}
    (member : c ∈ collapseRuns (fun c => c.isLower || c.isDigit) inRun name) :
    isPackagePart c = true := by
  induction name generalizing inRun with
  | nil => simp [collapseRuns] at member
  | cons first name ih =>
      rw [collapseRuns] at member
      split at member
      next isKept =>
        rcases List.mem_cons.mp member with rfl | inRest
        · rw [isPackagePart, isKept, Bool.true_or]
        · exact ih inRest
      next =>
        split at member
        · exact ih member
        · rcases List.mem_cons.mp member with rfl | inRest
          · rfl
          · exact ih inRest

theorem mem_of_mem_trim {drop : Char → Bool} {text : Text} {c : Char}
    (member : c ∈ trim drop text) : c ∈ text := by
  rw [trim, trimEnd, List.mem_reverse] at member
  have inFront := (List.dropWhile_sublist _).mem member
  exact (List.dropWhile_sublist _).mem (List.mem_reverse.mp inFront)

theorem isPackagePart_of_mem_packageName {name : Text} {c : Char}
    (member : c ∈ packageName name) : isPackagePart c = true := by
  have fixedPart : ∀ c ∈ "app".toList ++ "app_".toList, isPackagePart c = true := by
    simp [isPackagePart]
  simp only [packageName] at member
  split at member
  · exact fixedPart c (List.mem_append_left _ member)
  next first rest isSlug =>
    have ofSlug {d : Char} (inSlug : d ∈ first :: rest) : isPackagePart d = true :=
      isPackagePart_of_mem_collapseRuns (mem_of_mem_trim (isSlug ▸ inSlug))
    split at member
    · rcases List.mem_append.mp member with inPrefix | inSlug
      · exact fixedPart c (List.mem_append_right _ inPrefix)
      · exact ofSlug (isSlug ▸ inSlug)
    · exact ofSlug (isSlug ▸ member)

theorem packageName_ne_nil (name : Text) : packageName name ≠ [] := by
  simp only [packageName]
  split
  · decide
  next isSlug =>
    split
    · simp
    · simp [isSlug]

/-! ## Words -/

theorem words_cons_of_not {c : Char} (noPart : isWordPart c = false) (rest : Text) :
    words (c :: rest) = words rest := by
  cases rest with
  | nil => simp [words, noPart]
  | cons d rest => simp [words, noPart]

theorem words_ne_nil {c : Char} (isPart : isWordPart c = true) (rest : Text) :
    words (c :: rest) ≠ [] := by
  cases rest with
  | nil => simp [words, isPart]
  | cons d rest =>
      rw [words, if_neg (by simp [isPart])]
      split
      · exact List.cons_ne_nil _ _
      · split
        · exact List.cons_ne_nil _ _
        · exact List.cons_ne_nil _ _

/-- Whether a word ends between two characters. -/
def endsBetween (c d : Char) : Bool :=
  !isWordPart d || isCamelBoundary c d

/-- A word part makes a word by itself where the word ends, and goes on with the first word
of what follows otherwise. -/
theorem words_cons_cases {c : Char} (isPart : isWordPart c = true) (d : Char) (rest : Text) :
    endsBetween c d = true ∧ words (c :: d :: rest) = [c] :: words (d :: rest) ∨
      endsBetween c d = false ∧ ∃ word more, words (d :: rest) = word :: more ∧
        words (c :: d :: rest) = (c :: word) :: more := by
  cases ends : endsBetween c d with
  | true =>
      refine .inl ⟨rfl, ?_⟩
      rw [words, if_neg (by simp [isPart])]
      exact if_pos ends
  | false =>
      have dIsPart : isWordPart d = true := by
        simpa using (Bool.or_eq_false_iff.mp ends).1
      obtain ⟨word, more, split⟩ := List.exists_cons_of_ne_nil (words_ne_nil dIsPart rest)
      refine .inr ⟨rfl, word, more, split, ?_⟩
      rw [words, if_neg (by simp [isPart]), split]
      exact if_neg (Bool.eq_false_iff.mp ends)

/-- What holds of every word: it is not empty, and all of its characters are word parts. -/
structure IsWord (word : Text) : Prop where
  nonempty : word ≠ []
  areParts : ∀ c ∈ word, isWordPart c = true

theorem IsWord.singleton {c : Char} (isPart : isWordPart c = true) : IsWord [c] :=
  ⟨List.cons_ne_nil _ _, by simpa using isPart⟩

theorem isWord_of_mem_words {name word : Text} (member : word ∈ words name) : IsWord word := by
  induction name generalizing word with
  | nil => simp [words] at member
  | cons c rest ih =>
      cases isPart : isWordPart c with
      | false =>
          rw [words_cons_of_not isPart] at member
          exact ih member
      | true =>
          cases rest with
          | nil =>
              rw [words, if_pos isPart, List.mem_singleton] at member
              exact member ▸ .singleton isPart
          | cons d rest =>
              rcases words_cons_cases isPart d rest with
                ⟨-, asWords⟩ | ⟨-, first, more, split, asWords⟩
              · rw [asWords] at member
                rcases List.mem_cons.mp member with rfl | inRest
                · exact .singleton isPart
                · exact ih inRest
              · rw [asWords] at member
                rw [split] at ih
                rcases List.mem_cons.mp member with rfl | inRest
                · have isWord := ih List.mem_cons_self
                  exact ⟨List.cons_ne_nil _ _, List.forall_mem_cons.mpr ⟨isPart, isWord.areParts⟩⟩
                · exact ih (List.mem_cons_of_mem _ inRest)

/-! ## Joined words -/

theorem intercalate_cons_of_ne_nil {α : Type} {separator : List α} {words : List (List α)}
    (someWord : words ≠ []) (word : List α) :
    List.intercalate separator (word :: words) =
      word ++ separator ++ List.intercalate separator words := by
  cases words with
  | nil => exact absurd rfl someWord
  | cons next words => rw [List.intercalate_cons_cons]

theorem map_intercalate (image : Char → Char) (separator : Text) (words : List Text) :
    (List.intercalate separator words).map image =
      List.intercalate (separator.map image) (words.map (List.map image)) := by
  induction words with
  | nil => rfl
  | cons word words ih =>
      cases words with
      | nil => simp only [List.map_cons, List.map_nil, List.intercalate_singleton]
      | cons next words =>
          simp only [List.map_cons, List.intercalate_cons_cons, List.map_append] at ih ⊢
          rw [ih]

/-- A first character goes to the first of the joined words. -/
theorem cons_intercalate (separator : Text) (c : Char) (word : Text) (words : List Text) :
    c :: List.intercalate separator (word :: words) =
      List.intercalate separator ((c :: word) :: words) := by
  cases words with
  | nil => rw [List.intercalate_singleton, List.intercalate_singleton]
  | cons next words =>
      rw [List.intercalate_cons_cons, List.intercalate_cons_cons]
      rfl

theorem mem_or_exists_of_mem_intercalate {c : Char} {separator : Text} {words : List Text}
    (member : c ∈ List.intercalate separator words) :
    c ∈ separator ∨ ∃ word ∈ words, c ∈ word := by
  induction words with
  | nil => simp at member
  | cons word words ih =>
      by_cases isLast : words = []
      · rw [isLast, List.intercalate_singleton] at member
        exact .inr ⟨word, List.mem_cons_self, member⟩
      · rw [intercalate_cons_of_ne_nil isLast, List.append_assoc, List.mem_append,
          List.mem_append] at member
        rcases member with inWord | inSeparator | inRest
        · exact .inr ⟨word, List.mem_cons_self, inWord⟩
        · exact .inl inSeparator
        · apply (ih inRest).imp_right
          rintro ⟨other, isOther, inOther⟩
          exact ⟨other, List.mem_cons_of_mem _ isOther, inOther⟩

theorem pieces_intercalate {α : Type} [DecidableEq α] {separator : α} {words : List (List α)}
    (someWord : words ≠ []) (apart : ∀ word ∈ words, separator ∉ word) :
    pieces separator (List.intercalate [separator] words) = words := by
  induction words with
  | nil => exact absurd rfl someWord
  | cons word words ih =>
      obtain ⟨wordApart, restApart⟩ := List.forall_mem_cons.mp apart
      by_cases isLast : words = []
      · rw [isLast, List.intercalate_singleton, pieces_of_notMem wordApart]
      · rw [intercalate_cons_of_ne_nil isLast, List.append_assoc, List.singleton_append,
          pieces_append wordApart, ih isLast restApart]

/-! ## Words in lower case -/

/-- What holds of the word characters among the ASCII characters holds of all of them. -/
theorem of_isWordPart (property : Char → Bool)
    (ofAscii : ∀ code : Fin 128, isWordPart (Char.ofNat code) = true →
      property (Char.ofNat code) = true)
    {c : Char} (isPart : isWordPart c = true) : property c = true := by
  have isAscii : c.toNat < 128 := by
    rcases Bool.or_eq_true_iff.mp isPart with isLetter | isDigit
    · have code := code_of_isAlpha isLetter
      omega
    · have code := code_of_isDigit isDigit
      omega
  have isKnown := ofAscii ⟨c.toNat, isAscii⟩
  rw [Char.ofNat_toNat] at isKnown
  exact isKnown isPart

/-- The words of a name in lower case. -/
def lowerWords (name : Text) : List Text :=
  (words name).map (List.map Char.toLower)

theorem snakeCase_eq (name : Text) : snakeCase name = List.intercalate ['_'] (lowerWords name) :=
  rfl

theorem isLower_or_isDigit_toLower {c : Char} (isPart : isWordPart c = true) :
    (c.toLower.isLower || c.toLower.isDigit) = true :=
  of_isWordPart (fun c => c.toLower.isLower || c.toLower.isDigit) (by decide) isPart

/-- The words of a name in lower case are not empty and have only lower-case letters and
digits. -/
theorem isLower_or_isDigit_of_mem_lowerWords {name word : Text} (member : word ∈ lowerWords name) :
    word ≠ [] ∧ ∀ c ∈ word, (c.isLower || c.isDigit) = true := by
  obtain ⟨given, isGiven, rfl⟩ := List.mem_map.mp member
  have isWord := isWord_of_mem_words isGiven
  refine ⟨by simpa using isWord.nonempty, List.forall_mem_map.mpr fun c inWord => ?_⟩
  exact isLower_or_isDigit_toLower (isWord.areParts c inWord)

theorem code_of_isPackagePart {c : Char} (isPart : isPackagePart c = true) :
    48 ≤ c.toNat ∧ c.toNat ≤ 122 ∧ c.toNat ≠ 92 := by
  rcases Bool.or_eq_true_iff.mp isPart with isAlphanumeric | isMark
  · rcases Bool.or_eq_true_iff.mp isAlphanumeric with isLower | isDigit
    · have code := code_of_isLower isLower
      omega
    · have code := code_of_isDigit isDigit
      omega
  · rw [of_decide_eq_true isMark]
    decide

/-! ## Names rewritten in place -/

theorem head?_markBoundaries (name : Text) : (markBoundaries name).head? = name.head? := by
  rcases name with _ | ⟨c, _ | ⟨d, rest⟩⟩
  · rfl
  · rfl
  · rw [markBoundaries]
    split <;> rfl

/-- Outside of a run the same comes about as inside of one, except for an underscore for a
first character that is not kept. -/
theorem collapseRuns_false (keep : Char → Bool) (text : Text) :
    collapseRuns keep false text =
      (if text.head?.any (!keep ·) then ['_'] else []) ++ collapseRuns keep true text := by
  cases text with
  | nil => rfl
  | cons c rest => cases isKept : keep c <;> simp [collapseRuns, isKept]

theorem markBoundaries_cons_of_not {c : Char} (noPart : isWordPart c = false) (rest : Text) :
    markBoundaries (c :: rest) = c :: markBoundaries rest := by
  cases rest with
  | nil => rfl
  | cons d rest =>
      have noBoundary : isCamelBoundary c d = false := by
        obtain ⟨noLetter, noDigit⟩ := Bool.or_eq_false_iff.mp noPart
        obtain ⟨noUpper, noLower⟩ := Bool.or_eq_false_iff.mp noLetter
        simp [isCamelBoundary, noLower, noDigit]
      rw [markBoundaries, if_neg (by simp [noBoundary])]

/-- A word part and what follows it: with an underscore between them where the word ends. -/
theorem collapseRuns_markBoundaries_cons {c : Char} (isPart : isWordPart c = true) (inRun : Bool)
    (d : Char) (rest : Text) :
    collapseRuns isWordPart inRun (markBoundaries (c :: d :: rest)) =
      c :: ((if endsBetween c d then ['_'] else []) ++
        collapseRuns isWordPart true (markBoundaries (d :: rest))) := by
  rw [markBoundaries, endsBetween]
  cases isBoundary : isCamelBoundary c d with
  | true =>
      rw [if_pos rfl, Bool.or_true, if_pos rfl, collapseRuns, if_pos isPart, collapseRuns,
        if_neg (by decide), if_neg (by decide)]
      rfl
  | false =>
      rw [if_neg (by decide), Bool.or_false, collapseRuns, if_pos isPart, collapseRuns_false,
        head?_markBoundaries]
      rfl

/-- Inside of a run a name becomes its joined words, and at most underscores for what
follows the last one. -/
theorem exists_collapseRuns_eq (name : Text) :
    ∃ trail, (∀ c ∈ trail, c = '_') ∧ collapseRuns isWordPart true (markBoundaries name) =
      List.intercalate ['_'] (words name) ++ trail := by
  induction name with
  | nil => exact ⟨[], by simp, rfl⟩
  | cons c rest ih =>
      obtain ⟨trail, areMarks, split⟩ := ih
      cases isPart : isWordPart c with
      | false =>
          refine ⟨trail, areMarks, ?_⟩
          rw [markBoundaries_cons_of_not isPart, collapseRuns, if_neg (by simp [isPart]),
            if_pos rfl, split, words_cons_of_not isPart]
      | true =>
          cases rest with
          | nil => exact ⟨[], by simp, by simp [markBoundaries, collapseRuns, words, isPart]⟩
          | cons d rest =>
              rw [collapseRuns_markBoundaries_cons isPart, split]
              rcases words_cons_cases isPart d rest with
                ⟨ends, asWords⟩ | ⟨goesOn, word, more, isSplit, asWords⟩
              · rw [asWords, if_pos ends]
                by_cases isLast : words (d :: rest) = []
                · refine ⟨'_' :: trail, List.forall_mem_cons.mpr ⟨rfl, areMarks⟩, ?_⟩
                  rw [isLast, List.intercalate_singleton]
                  rfl
                · refine ⟨trail, areMarks, ?_⟩
                  rw [intercalate_cons_of_ne_nil isLast]
                  rfl
              · refine ⟨trail, areMarks, ?_⟩
                rw [asWords, goesOn, isSplit, ← cons_intercalate]
                rfl

theorem intercalate_ne_nil {word : Text} (someChar : word ≠ []) (separator : Text)
    (words : List Text) : List.intercalate separator (word :: words) ≠ [] := by
  cases words with
  | nil => rwa [List.intercalate_singleton]
  | cons next words => simp [List.intercalate_cons_cons, someChar]

theorem head?_intercalate {word : Text} (someChar : word ≠ []) (separator : Text)
    (words : List Text) : (List.intercalate separator (word :: words)).head? = word.head? := by
  cases words with
  | nil => rw [List.intercalate_singleton]
  | cons next words =>
      rw [List.intercalate_cons_cons, List.append_assoc, List.head?_append_of_ne_nil _ someChar]

theorem isWordPart_of_mem_head? {words : List Text} (areWords : ∀ word ∈ words, IsWord word) :
    ∀ c ∈ (List.intercalate ['_'] words).head?, isWordPart c = true := by
  cases words with
  | nil => simp
  | cons word words =>
      have isWord := areWords word List.mem_cons_self
      rw [head?_intercalate isWord.nonempty]
      exact fun c isHead => isWord.areParts c (List.mem_of_mem_head? isHead)

theorem isWordPart_of_mem_getLast? {words : List Text} (areWords : ∀ word ∈ words, IsWord word) :
    ∀ c ∈ (List.intercalate ['_'] words).getLast?, isWordPart c = true := by
  induction words with
  | nil => simp
  | cons word words ih =>
      obtain ⟨isWord, restWords⟩ := List.forall_mem_cons.mp areWords
      cases words with
      | nil =>
          rw [List.intercalate_singleton]
          exact fun c isLast => isWord.areParts c (List.mem_of_getLast? isLast)
      | cons next words =>
          have someChar := (restWords next List.mem_cons_self).nonempty
          rw [List.intercalate_cons_cons,
            List.getLast?_append_of_ne_nil _ (intercalate_ne_nil someChar _ words)]
          exact ih restWords

/-- Underscores around joined words are cut off, and those between them stay. -/
theorem trim_intercalate {lead trail : Text} {words : List Text}
    (areWords : ∀ word ∈ words, IsWord word) (leadMarks : ∀ c ∈ lead, c = '_')
    (trailMarks : ∀ c ∈ trail, c = '_') :
    trim (· = '_') (lead ++ List.intercalate ['_'] words ++ trail) =
      List.intercalate ['_'] words := by
  have noPart : isWordPart '_' = false := by decide
  have isKept {c : Char} (isPart : isWordPart c = true) : decide (c = '_') = false := by
    refine decide_eq_false fun isMark => ?_
    rw [isMark, noPart] at isPart
    contradiction
  have leadDropped : ∀ c ∈ lead, decide (c = '_') = true := by simpa using leadMarks
  have trailDropped : ∀ c ∈ trail, decide (c = '_') = true := by simpa using trailMarks
  cases words with
  | nil =>
      have allDropped : ∀ c ∈ lead ++ trail, decide (c = '_') = true :=
        List.forall_mem_append.mpr ⟨leadDropped, trailDropped⟩
      have noText : trim (· = '_') (lead ++ trail ++ [] ++ []) = [] :=
        trim_append allDropped (by simp) (by simp) (by simp)
      simpa using noText
  | cons word words =>
      have someChar := intercalate_ne_nil (areWords word List.mem_cons_self).nonempty ['_'] words
      refine trim_append leadDropped ?_ ?_ trailDropped
      · rw [List.head?_append_of_ne_nil _ someChar]
        exact fun c isHead => isKept (isWordPart_of_mem_head? areWords c isHead)
      · exact fun c isLast => isKept (isWordPart_of_mem_getLast? areWords c isLast)

/-- Rewriting a name in place joins its words in lower case. -/
theorem underscored_eq_snakeCase (name : Text) : underscored name = snakeCase name := by
  have areWords : ∀ word ∈ words name, IsWord word := fun word => isWord_of_mem_words
  obtain ⟨trail, trailMarks, split⟩ := exists_collapseRuns_eq name
  obtain ⟨lead, leadMarks, whole⟩ : ∃ lead : Text, (∀ c ∈ lead, c = '_') ∧
      collapseRuns isWordPart false (markBoundaries name) =
        lead ++ List.intercalate ['_'] (words name) ++ trail := by
    refine ⟨_, ?_, by rw [collapseRuns_false, split, List.append_assoc]⟩
    split <;> simp
  rw [underscored, whole, trim_intercalate areWords leadMarks trailMarks, snakeCase,
    map_intercalate]
  rfl

/-! ## Names in one piece -/

theorem exists_words_cons {c : Char} (isPart : isWordPart c = true) (rest : Text) :
    ∃ word more, words (c :: rest) = (c :: word) :: more := by
  cases rest with
  | nil => exact ⟨[], [], by simp [words, isPart]⟩
  | cons d rest =>
      rcases words_cons_cases isPart d rest with ⟨-, asWords⟩ | ⟨-, word, more, -, asWords⟩
      · exact ⟨[], _, asWords⟩
      · exact ⟨word, more, asWords⟩

/-- A name in one piece begins with the first letter or digit of the name. -/
theorem head?_pascalCase (name : Text) :
    (pascalCase name).head? = (name.find? isWordPart).map Char.toUpper := by
  induction name with
  | nil => rfl
  | cons c rest ih =>
      cases isPart : isWordPart c with
      | false =>
          rw [pascalCase, words_cons_of_not isPart, List.find?_cons_of_neg (by simp [isPart])]
          exact ih
      | true =>
          obtain ⟨word, more, split⟩ := exists_words_cons isPart rest
          rw [pascalCase, split, List.find?_cons_of_pos isPart]
          rfl

theorem isWordPart_toUpper {c : Char} (isPart : isWordPart c = true) :
    isWordPart c.toUpper = true :=
  of_isWordPart (fun c => isWordPart c.toUpper) (by decide) isPart

theorem isWordPart_of_mem_pascalCase {name : Text} :
    ∀ c ∈ pascalCase name, isWordPart c = true := by
  intro c member
  obtain ⟨word, isGiven, inWord⟩ := List.mem_flatMap.mp member
  have areParts := (isWord_of_mem_words isGiven).areParts
  cases word with
  | nil => simp [capitalized] at inWord
  | cons first rest =>
      rcases List.mem_cons.mp inWord with rfl | inRest
      · exact isWordPart_toUpper (areParts first List.mem_cons_self)
      · exact areParts c (List.mem_cons_of_mem _ inRest)

end Text

end ApiWorkshop

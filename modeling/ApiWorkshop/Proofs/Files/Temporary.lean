import ApiWorkshop.Files.AtomicWrite
import ApiWorkshop.Proofs.Files.Ways
import ApiWorkshop.Proofs.Number.Digits

/-!
# Temporary files

A path that names a place is looked up there or not at all.  The temporary file
of a write stands beside that place under a name that was free: temporary names
with different numbers differ, so that among more numbers than there are entries
in the tree one is free.
-/

namespace ApiWorkshop

namespace FileTree

/-- A path that can be handed over and leads to a place, whether something
stands there or not. -/
def Names (tree : FileTree) (here : Location) (path : Path) (place : Location) : Prop :=
  path.IsClean ∧ place? tree (start here path) (path.names.map LooseText.label) = some place

theorem Names.of_directories {tree other : FileTree} {here place : Location} {path : Path}
    (names : Names tree here path place)
    (keeps : ∀ location, tree.at? location = some .directory →
      other.at? location = some .directory) : Names other here path place :=
  ⟨names.1, place?_of_directories keeps names.2⟩

/-- A path is short enough to be looked up. -/
def IsShort (path : Path) : Prop :=
  handOver path = .ok (path.names.map LooseText.label) ∧ Short (path.names.map LooseText.label)

/-- A path is located at the place that it names, if anything stands there. -/
theorem WellFormed.locate_cases {tree : FileTree} (wellFormed : tree.WellFormed)
    {here place : Location} {path : Path} (names : Names tree here path place) :
    (locate tree here path = .ok place ∧ IsShort path) ∨
      ((locate tree here path = .error .noEntry ∨
          locate tree here path = .error .notDirectory) ∧ tree.at? place = none) ∨
      (locate tree here path = .error .nameTooLong ∧ ¬ IsShort path) := by
  rcases handOver_of_isClean names.1 with handed | tooLong
  · have located : locate tree here path =
        walk tree (start here path) (path.names.map LooseText.label) := by
      simp [locate, handed, Bind.bind, Except.bind]
    simp only [located, IsShort, handed, true_and]
    exact wellFormed.walk_cases names.2
  · exact .inr (.inr ⟨by simp [locate, tooLong, Bind.bind, Except.bind],
      fun isShort => by simp [tooLong, IsShort] at isShort⟩)

theorem WellFormed.locate_eq_or {tree : FileTree} (wellFormed : tree.WellFormed)
    {here place : Location} {path : Path} (names : Names tree here path place) :
    (locate tree here path = .ok place ∧ IsShort path) ∨
      ∃ error, locate tree here path = .error error ∧ error.isFromSystem = true := by
  rcases wellFormed.locate_cases names with isPlace | ⟨absent | blocked, -⟩ | ⟨tooLong, -⟩
  · exact .inl isPlace
  · exact .inr ⟨_, absent, rfl⟩
  · exact .inr ⟨_, blocked, rfl⟩
  · exact .inr ⟨_, tooLong, rfl⟩

/-! ## Beside a place -/

theorem label_eq_step_iff (name : LooseText) (clean : name.IsClean) :
    name.label = ".." ↔ name = LooseText.ofString ".." := by
  obtain ⟨plain, rfl⟩ := LooseText.exists_ofText fun c member => (clean c member).1
  rw [LooseText.label, LooseText.shown_ofText]
  constructor
  · intro isStep
    rw [LooseText.ofString, ← isStep, String.toList_ofList]
  · intro isStep
    have sameText := congrArg LooseText.shown isStep
    rw [LooseText.shown_ofText, LooseText.ofString, LooseText.shown_ofText] at sameText
    rw [sameText, String.ofList_toList]

/-- The parent of a path names the directory in which its place is, or one that the
path steps back from or stays at. -/
theorem Names.parent {tree : FileTree} {here place : Location} {path : Path}
    (names : Names tree here path place) :
    ∃ directory, Names tree here path.parent directory ∧
      (endsInName path = true → path.name.label ≠ ".." ∧
        place = directory ++ [path.name.label]) ∧
      (endsInName path = false → place = directory ∨ tree.at? directory = some .directory) := by
  obtain ⟨clean, named⟩ := names
  have parentClean : path.parent.IsClean :=
    fun name member => clean name (List.dropLast_subset path.names member)
  rcases List.eq_nil_or_concat path.names with noNames | ⟨front, last, isNames⟩
  · refine ⟨place, ⟨parentClean, ?_⟩, fun ends => ?_, fun _ => .inl rfl⟩
    · simpa [Path.parent, noNames, start] using named
    · simp [endsInName, noNames] at ends
  · rw [List.concat_eq_append] at isNames
    rw [isNames, List.map_append, List.map_cons, List.map_nil, place?_append] at named
    obtain ⟨directory, isParent, isPlace⟩ := Option.bind_eq_some_iff.mp named
    have isLast : path.name = last := by simp [Path.name, isNames]
    have isStep_iff := label_eq_step_iff last (clean last (by simp [isNames]))
    refine ⟨directory, ⟨parentClean, ?_⟩, fun ends => ?_, fun stepsBack => .inr ?_⟩
    · simpa [Path.parent, isNames, start] using isParent
    · have noStep : last.label ≠ ".." := by
        rw [Ne, isStep_iff]
        simpa [endsInName, isNames] using ends
      rw [isLast]
      refine ⟨noStep, ?_⟩
      simpa [place?, noStep] using isPlace.symm
    · have isStep : last.label = ".." := by
        rw [isStep_iff]
        simpa [endsInName, isNames] using stepsBack
      rw [place?, if_pos isStep] at isPlace
      split at isPlace
      next isThere => exact isThere
      next => contradiction

/-! ## Temporary names -/

theorem padded_injective {width first second : Nat}
    (same : Text.padded width first = Text.padded width second) : first = second := by
  rw [← Text.decimal_padded width first, same, Text.decimal_padded]

theorem shown_temporaryName (name : LooseText) (number : Nat) :
    (temporaryName name number).shown =
      '.' :: (name.shown ++ '.' :: (Text.padded 8 number ++ ['.', 't', 'm', 'p'])) := by
  have dot : LooseText.shown (".".toList : Text) = ['.'] := rfl
  simp [temporaryName, LooseText.shown, LooseText.ofString, LooseText.ofText,
    CodePoint.shown, Function.comp_def]

theorem label_temporaryName_injective {name : LooseText} {first second : Nat}
    (same : (temporaryName name first).label = (temporaryName name second).label) :
    first = second := by
  have sameText := String.ofList_injective same
  rw [shown_temporaryName, shown_temporaryName] at sameText
  have sameTail := List.append_cancel_left (List.cons.inj sameText).2
  exact padded_injective (List.append_cancel_right (List.cons.inj sameTail).2)

theorem label_temporaryName_ne (name : LooseText) (number : Nat) :
    (temporaryName name number).label ≠ ".." := by
  intro same
  have sameText := congrArg String.toList same
  rw [LooseText.label, String.toList_ofList, shown_temporaryName] at sameText
  have sameLength := congrArg List.length sameText
  simp at sameLength
  omega

theorem isClean_temporaryName {name : LooseText} (clean : name.IsClean) (number : Nat) :
    (temporaryName name number).IsClean := by
  have digits : '\x00' ∉ Text.padded 8 number := by
    rw [Text.padded, List.mem_append, not_or]
    constructor
    · simp
    · intro member
      have isDigit := Nat.isDigit_of_mem_toDigits (by decide) (by decide) member
      simp at isDigit
  intro c member
  simp only [temporaryName, LooseText.ofString, LooseText.ofText, List.mem_append] at member
  rcases member with ((((isDot | inName) | isDot) | inDigits) | inEnd)
  · obtain ⟨d, inDot, rfl⟩ := List.mem_map.mp isDot
    simp_all [CodePoint.isChar]
  · exact clean c inName
  · obtain ⟨d, inDot, rfl⟩ := List.mem_map.mp isDot
    simp_all [CodePoint.isChar]
  · obtain ⟨d, inText, rfl⟩ := List.mem_map.mp inDigits
    exact ⟨rfl, fun isNull => digits (CodePoint.char.inj isNull ▸ inText)⟩
  · obtain ⟨d, inText, rfl⟩ := List.mem_map.mp inEnd
    simp at inText
    rcases inText with rfl | rfl | rfl | rfl <;> simp [CodePoint.isChar]

/-- The number of a temporary file is free. -/
theorem at?_freeNumber (tree : FileTree) (directory : Location) (name : LooseText) :
    tree.at? (directory ++ [(temporaryName name (freeNumber tree directory name)).label]) =
      none := by
  let location (number : Nat) : Location := directory ++ [(temporaryName name number).label]
  have someFree : ∃ number ∈ List.range (tree.length + 1),
      (tree.at? (location number)).isNone = true := by
    apply Decidable.byContradiction
    intro noneFree
    have allUsed : (List.range (tree.length + 1)).map location ⊆ Entries.keys tree := by
      intro used member
      obtain ⟨number, inRange, rfl⟩ := List.mem_map.mp member
      cases found : tree.at? (location number) with
      | none => exact absurd ⟨number, inRange, by simp [found]⟩ noneFree
      | some node =>
          have isEntry : Entries.get? (location number) tree = some node := by
            simpa [at?, location] using found
          exact Entries.mem_keys_of_get? isEntry
    have distinct : ((List.range (tree.length + 1)).map location).Nodup := by
      refine List.Pairwise.map location (fun first second different same => different ?_)
        (List.nodup_range (n := tree.length + 1))
      exact label_temporaryName_injective
        (List.singleton_inj.mp (List.append_cancel_left same))
    have tooMany := distinct.length_le_of_subset allUsed
    rw [List.length_map, List.length_range, Entries.keys, List.length_map] at tooMany
    omega
  obtain ⟨number, inRange, isFree⟩ := someFree
  rw [freeNumber]
  cases found : (List.range (tree.length + 1)).find? fun number =>
      (tree.at? (directory ++ [(temporaryName name number).label])).isNone with
  | none =>
      have noneFree := List.find?_eq_none.mp found number inRange
      exact absurd isFree noneFree
  | some number =>
      have isFree := List.find?_some found
      simpa using isFree

end FileTree

end ApiWorkshop

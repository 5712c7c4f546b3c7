import ApiWorkshop.Proofs.Files.Places

/-!
# The way to a place

A path whose names have bytes and no null characters can be handed over unless
it is too long.  Making the directories on the way to its place adds only
directories, and only such on the way; when this fails, the system says why.
-/

namespace ApiWorkshop

namespace LooseText

/-- A loose text without halves and null characters. -/
def IsClean (text : LooseText) : Prop :=
  ∀ c ∈ text, c.isChar = true ∧ c ≠ .char '\x00'

instance : DecidablePred IsClean :=
  fun text => inferInstanceAs (Decidable (∀ c ∈ text, c.isChar = true ∧ c ≠ .char '\x00'))

theorem exists_ofText {text : LooseText} (whole : ∀ c ∈ text, c.isChar = true) :
    ∃ plain, text = ofText plain := by
  induction text with
  | nil => exact ⟨[], rfl⟩
  | cons c text ih =>
      obtain ⟨plain, rfl⟩ := ih fun d member => whole d (List.mem_cons_of_mem c member)
      cases c with
      | char c => exact ⟨c :: plain, rfl⟩
      | half place => simpa [CodePoint.isChar] using whole (.half place) (by simp)

theorem eq_ofText_of_text? {text : LooseText} {plain : Text} (isPlain : text.text? = some plain) :
    text = ofText plain := by
  induction text generalizing plain with
  | nil => simp_all [text?, ofText]
  | cons c text ih =>
      cases c with
      | half place => simp [text?] at isPlain
      | char c =>
          obtain ⟨rest, isRest, rfl⟩ := Option.map_eq_some_iff.mp isPlain
          rw [ih isRest]
          rfl

theorem null_notMem_label {text : LooseText} (clean : text.IsClean) :
    '\x00' ∉ text.label.toList := by
  simp only [label, String.toList_ofList, shown, List.mem_map, not_exists, not_and]
  intro c member isNull
  obtain ⟨isChar, notNull⟩ := clean c member
  cases c with
  | char c =>
      subst isNull
      exact notNull rfl
  | half place => simp [CodePoint.isChar] at isChar

end LooseText

namespace Path

/-- All names of a path have bytes and no null characters. -/
def IsClean (path : Path) : Prop :=
  ∀ name ∈ path.names, name.IsClean

instance : DecidablePred IsClean :=
  fun path => inferInstanceAs (Decidable (∀ name ∈ path.names, name.IsClean))

theorem IsClean.null_notMem_labels {path : Path} (clean : path.IsClean) :
    ∀ name ∈ path.names.map LooseText.label, '\x00' ∉ name.toList :=
  List.forall_mem_map.mpr fun name member => LooseText.null_notMem_label (clean name member)

theorem IsClean.name {path : Path} (clean : path.IsClean) : path.name.IsClean := by
  intro c member
  rw [Path.name, List.getLastD_eq_getLast?] at member
  cases isLast : path.names.getLast? with
  | none => simp [isLast] at member
  | some last =>
      rw [isLast, Option.getD_some] at member
      exact clean last (List.mem_of_getLast? isLast) c member

theorem mem_intercalate_iff {c : CodePoint} {separator : LooseText} {names : List LooseText}
    (apart : c ∉ separator) :
    c ∈ List.intercalate separator names ↔ ∃ name ∈ names, c ∈ name := by
  induction names with
  | nil => simp [List.intercalate]
  | cons name names ih =>
      cases names with
      | nil => simp [List.intercalate]
      | cons next names =>
          have split : List.intercalate separator (name :: next :: names) =
              name ++ (separator ++ List.intercalate separator (next :: names)) := rfl
          rw [split, List.mem_append, List.mem_append, ih]
          simp [apart]

/-- What can stand in the text of a path besides its names. -/
theorem mem_text_iff {path : Path} {c : CodePoint} (noDot : c ≠ .char '.')
    (noSlash : c ≠ .char '/') : c ∈ path.text ↔ ∃ name ∈ path.names, c ∈ name := by
  have joined : c ∈ List.intercalate [.char '/'] path.names ↔ ∃ name ∈ path.names, c ∈ name :=
    mem_intercalate_iff (by simpa using noSlash)
  rw [Path.text]
  split
  next isEmpty =>
    obtain ⟨-, noNames⟩ := Bool.and_eq_true_iff.mp isEmpty
    rw [List.isEmpty_iff.mp noNames]
    simpa [LooseText.ofString, LooseText.ofText] using noDot
  next =>
    rw [List.mem_append, joined]
    cases path.root <;> simp [rootText, LooseText.ofString, LooseText.ofText, noSlash]

theorem isClean_join {base path : Path} (baseClean : base.IsClean) (clean : path.IsClean) :
    (base.join path).IsClean := by
  rw [join]
  split
  · intro name member
    rcases List.mem_append.mp member with inBase | inPath
    · exact baseClean name inBase
    · exact clean name inPath
  · exact clean

end Path

namespace FileTree

/-- A path whose names have bytes is handed over, or it is too long. -/
theorem handOver_of_isClean {path : Path} (clean : path.IsClean) :
    handOver path = .ok (path.names.map LooseText.label) ∨
      handOver path = .error .nameTooLong := by
  have textClean : ∀ c ∈ path.text, c.isChar = true ∧ c ≠ .char '\x00' := by
    intro c member
    by_cases isDot : c = .char '.'
    · simp [isDot, CodePoint.isChar]
    · by_cases isSlash : c = .char '/'
      · simp [isSlash, CodePoint.isChar]
      · obtain ⟨name, isName, inName⟩ := (Path.mem_text_iff isDot isSlash).mp member
        exact clean name isName c inName
  obtain ⟨plain, isPlain⟩ := LooseText.exists_ofText fun c member => (textClean c member).1
  have noNull : '\x00' ∉ plain := by
    intro member
    have inText : CodePoint.char '\x00' ∈ path.text := by
      rw [isPlain]
      exact List.mem_map_of_mem member
    exact (textClean _ inText).2 rfl
  rw [handOver, isPlain, LooseText.text?_ofText]
  simp only [List.contains_iff_mem, noNull, if_false]
  split
  · exact .inr rfl
  · exact .inl rfl

/-! ## Making the way -/

/-- A tree with more directories and otherwise as it was. -/
def Grown (tree grown : FileTree) : Prop :=
  ∀ location, grown.at? location = tree.at? location ∨
    (tree.at? location = none ∧ grown.at? location = some .directory)

theorem Grown.trans {tree grown further : FileTree} (first : Grown tree grown)
    (second : Grown grown further) : Grown tree further := by
  intro location
  rcases second location with same | ⟨absent, isDirectory⟩
  · rw [same]
    exact first location
  · rcases first location with before | ⟨-, isThere⟩
    · exact .inr ⟨before ▸ absent, isDirectory⟩
    · rw [absent] at isThere
      contradiction

theorem Grown.keeps {tree grown : FileTree} (isGrown : Grown tree grown) {location : Location}
    (isDirectory : tree.at? location = some .directory) :
    grown.at? location = some .directory := by
  rcases isGrown location with same | ⟨absent, -⟩
  · rw [same, isDirectory]
  · rw [absent] at isDirectory
    contradiction

theorem Grown.fileAt?_eq {tree grown : FileTree} (isGrown : Grown tree grown)
    (location : Location) : grown.fileAt? location = tree.fileAt? location := by
  rcases isGrown location with same | ⟨absent, isDirectory⟩
  · rw [fileAt?, same, fileAt?]
  · rw [fileAt?, isDirectory, fileAt?, absent]

/-- A tree with more directories on the way to a place and otherwise as it was. -/
def WayMade (place : Location) (tree made : FileTree) : Prop :=
  ∀ location, made.at? location = tree.at? location ∨
    (tree.at? location = none ∧ made.at? location = some .directory ∧ location <+: place)

theorem WayMade.grown {place : Location} {tree made : FileTree}
    (wayMade : WayMade place tree made) : Grown tree made :=
  fun location => (wayMade location).imp_right fun isNew => ⟨isNew.1, isNew.2.1⟩

theorem wayMade_refl (place : Location) (tree : FileTree) : WayMade place tree tree :=
  fun _ => .inl rfl

theorem WayMade.trans {place : Location} {tree made further : FileTree}
    (first : WayMade place tree made) (second : WayMade place made further) :
    WayMade place tree further := by
  intro location
  rcases second location with same | ⟨absent, isDirectory, onWay⟩
  · rw [same]
    exact first location
  · rcases first location with before | ⟨-, isThere, -⟩
    · exact .inr ⟨before ▸ absent, isDirectory, onWay⟩
    · rw [absent] at isThere
      contradiction

/-- There is nothing to be made on the way to a directory that is there. -/
theorem WayMade.at?_eq {place : Location} {tree made : FileTree} (wayMade : WayMade place tree made)
    (wellFormed : tree.WellFormed) (isThere : tree.at? place = some .directory)
    (location : Location) : made.at? location = tree.at? location := by
  rcases wayMade location with same | ⟨absent, -, names, rfl⟩
  · exact same
  · have noDirectory : tree.at? location ≠ some .directory := by simp [absent]
    cases names with
    | nil => exact absurd (List.append_nil location ▸ isThere) noDirectory
    | cons name names =>
        rw [wellFormed.at?_below noDirectory (name :: names) (by simp)] at isThere
        contradiction

/-- Making the directories along names from a directory ends at the place that
they name, or with an error of the system. -/
theorem WellFormed.makeWay_cases {tree : FileTree} (wellFormed : tree.WellFormed)
    {location place : Location} {names : List String}
    (isDirectory : tree.at? location = some .directory)
    (named : place? tree location names = some place)
    (clean : ∀ name ∈ names, '\x00' ∉ name.toList) (made : Bool) :
    (makeWay made location names tree).2.WellFormed ∧
      WayMade place tree (makeWay made location names tree).2 ∧
      match (makeWay made location names tree).1 with
      | .ok _ => (makeWay made location names tree).2.at? place = some .directory
      | .error error => error.isFromSystem = true := by
  induction names generalizing location made tree with
  | nil =>
      obtain rfl := Option.some.inj named
      exact ⟨wellFormed, wayMade_refl _ tree, isDirectory⟩
  | cons name names ih =>
      have restClean : ∀ other ∈ names, '\x00' ∉ other.toList :=
        fun other member => clean other (List.mem_cons_of_mem name member)
      by_cases isStep : name = ".."
      · simp only [place?, isStep, isDirectory, if_true] at named
        simp only [makeWay, isStep, if_true]
        exact ih wellFormed (wellFormed.at?_dropLast isDirectory) named restClean made
      · simp only [place?, isStep, if_false] at named
        cases tooLong : isTooLong name with
        | true =>
            simp only [makeWay, isStep, tooLong, if_true, if_false]
            exact ⟨wellFormed, wayMade_refl place tree, rfl⟩
        | false =>
            simp only [makeWay, isStep, tooLong, if_false, Bool.false_eq_true]
            cases found : tree.at? (location ++ [name]) with
            | some node =>
                cases node with
                | directory => exact ih wellFormed found named restClean made
                | file content =>
                    refine ⟨wellFormed, wayMade_refl place tree, ?_⟩
                    dsimp only
                    split <;> rfl
            | none =>
                have below : location ++ [name] ≠ [] := by simp
                have putFormed : FileTree.WellFormed
                    (Entries.put (location ++ [name]) .directory tree) :=
                  wellFormed.put isDirectory ⟨isStep, clean name (by simp)⟩ (.inl rfl)
                have added : WayMade place tree
                    (Entries.put (location ++ [name]) .directory tree) := by
                  intro other
                  rw [at?_put below]
                  split
                  next same =>
                    subst same
                    have onWay := wellFormed.place?_eq (by simp [found]) named
                    exact .inr ⟨found, rfl, ⟨names, onWay.symm⟩⟩
                  next => exact .inl rfl
                obtain ⟨madeFormed, wayMade, outcome⟩ := ih putFormed
                  (by rw [at?_put below, if_pos rfl])
                  (place?_of_directories (fun _ => added.grown.keeps) named) restClean true
                exact ⟨madeFormed, added.trans wayMade, outcome⟩

end FileTree

end ApiWorkshop

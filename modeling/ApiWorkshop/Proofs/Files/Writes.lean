import ApiWorkshop.Proofs.Files.Temporary

/-!
# The effect of an atomic write

A write whose cleaning up works either puts its text at the place that its path
names or leaves every file as it was.  In both cases only directories can have
been added besides.
-/

namespace ApiWorkshop

/-- The calls that fail do so with an error of the system, and none of those
that clean up fails. -/
structure WriteFaults.AllOrNothing (faults : WriteFaults) : Prop where
  fromSystem : ∀ {call : WriteCall} {error : FileError}, faults call = some error →
    error.isFromSystem = true
  closeAgain : faults .closeAgain = Option.none
  removeTemporary : faults .removeTemporary = Option.none

theorem WriteFaults.allOrNothing_none : AllOrNothing WriteFaults.none :=
  ⟨nofun, rfl, rfl⟩

theorem WriteFaults.allOrNothing_atOnce {error : FileError}
    (fromSystem : error.isFromSystem = true) : AllOrNothing (atOnce error) := by
  refine ⟨fun {call found} isFault => ?_, rfl, rfl⟩
  rw [atOnce] at isFault
  split at isFault
  · exact Option.some.inj isFault ▸ fromSystem
  · contradiction

namespace FileTree

/-- A tree in which the file at a place holds a text; directories on the way may
have been added, and all else is as it was. -/
structure Written (place : Location) (text : Text) (tree written : FileTree) : Prop where
  noDirectory : tree.at? place ≠ some .directory
  at_place : written.at? place = some (.file (.text text))
  elsewhere : ∀ location, location ≠ place →
    written.at? location = tree.at? location ∨
      (tree.at? location = none ∧ written.at? location = some .directory ∧ location <+: place)

theorem Written.keeps {place location : Location} {text : Text} {tree written : FileTree}
    (isWritten : Written place text tree written)
    (isDirectory : tree.at? location = some .directory) :
    written.at? location = some .directory := by
  have different : location ≠ place := by
    rintro rfl
    exact isWritten.noDirectory isDirectory
  rcases isWritten.elsewhere location different with same | ⟨absent, -, -⟩
  · rw [same, isDirectory]
  · rw [absent] at isDirectory
    contradiction

theorem Written.fileAt?_eq {place : Location} {text : Text} {tree written : FileTree}
    (isWritten : Written place text tree written) (location : Location) :
    written.fileAt? location =
      if location = place then some (.text text) else tree.fileAt? location := by
  split
  next same => rw [same, fileAt?, isWritten.at_place]
  next different =>
    rcases isWritten.elsewhere location different with same | ⟨absent, isDirectory, -⟩
    · rw [fileAt?, same, fileAt?]
    · rw [fileAt?, isDirectory, fileAt?, absent]

/-! ## Creating the temporary file -/

theorem WellFormed.isName_of_mem {tree : FileTree} (wellFormed : tree.WellFormed)
    {location : Location} {node : Node} (found : tree.at? location = some node) :
    ∀ name ∈ location, IsName name := by
  intro name member
  obtain ⟨front, back, rfl⟩ := List.append_of_mem member
  cases atName : tree.at? (front ++ [name]) with
  | some other => exact wellFormed.isName atName
  | none =>
      cases back with
      | nil => simp [atName] at found
      | cons next back =>
          have noDirectory : tree.at? (front ++ [name]) ≠ some .directory := by simp [atName]
          have below := wellFormed.at?_below noDirectory (next :: back) (by simp)
          rw [List.append_assoc, List.singleton_append] at below
          rw [below] at found
          contradiction

theorem place?_names (tree : FileTree) (location : Location) {names : List String}
    (noStep : ∀ name ∈ names, name ≠ "..") :
    place? tree location names = some (location ++ names) := by
  induction names generalizing location with
  | nil => simp [place?]
  | cons name names ih =>
      rw [place?, if_neg (noStep name (by simp)),
        ih _ fun other member => noStep other (List.mem_cons_of_mem name member)]
      simp

/-- The temporary file stands under a free name in the directory of the place,
unless the system does not let it be made. -/
theorem WellFormed.createTemporary_cases {tree : FileTree} (wellFormed : tree.WellFormed)
    {here directory : Location} {path : Path} (clean : path.IsClean)
    (names : Names tree here path.parent directory)
    (isDirectory : tree.at? directory = some .directory) :
    (∃ name, createTemporary here path tree =
        .ok (directory ++ [name], Entries.put (directory ++ [name]) (.file (.text [])) tree) ∧
        tree.at? (directory ++ [name]) = none ∧ IsName name) ∨
      ∃ error, createTemporary here path tree = .error error ∧ error.isFromSystem = true := by
  rcases wellFormed.locate_eq_or names with ⟨located, -⟩ | ⟨error, located, fromSystem⟩
  · generalize isTemporary : temporaryName path.name (freeNumber tree directory path.name) =
      temporary
    have temporaryClean : temporary.IsClean := by
      rw [← isTemporary]
      exact isClean_temporaryName clean.name _
    have isFree : tree.at? (directory ++ [temporary.label]) = none := by
      rw [← isTemporary]
      exact at?_freeNumber tree directory path.name
    have notStep : temporary.label ≠ ".." := by
      rw [← isTemporary]
      exact label_temporaryName_ne path.name _
    have directoryNames := wellFormed.isName_of_mem isDirectory
    have pathNames : Names tree here ((pathTo directory).join ⟨.relative, [temporary]⟩)
        (directory ++ [temporary.label]) := by
      constructor
      · refine Path.isClean_join (fun name member c inName => ?_) (by simpa [Path.IsClean])
        obtain ⟨text, inDirectory, rfl⟩ := List.mem_map.mp member
        obtain ⟨d, inText, rfl⟩ := List.mem_map.mp inName
        refine ⟨rfl, fun isNull => (directoryNames text inDirectory).2 ?_⟩
        exact CodePoint.char.inj isNull ▸ inText
      · have sameNames : ((pathTo directory).join ⟨.relative, [temporary]⟩).names.map
            LooseText.label = directory ++ [temporary.label] := by
          simp [pathTo, Path.join, Function.comp_def]
        have atTop : start here ((pathTo directory).join ⟨.relative, [temporary]⟩) = [] := rfl
        rw [sameNames, atTop, place?_names]
        · rfl
        · intro name member
          rcases List.mem_append.mp member with inDirectory | isLast
          · exact (directoryNames name inDirectory).1
          · rw [List.mem_singleton.mp isLast]
            exact notStep
    rcases wellFormed.locate_eq_or pathNames with ⟨made, -⟩ | ⟨error, made, fromSystem⟩
    · refine .inl ⟨temporary.label, ?_, isFree,
        ⟨notStep, LooseText.null_notMem_label temporaryClean⟩⟩
      simp [createTemporary, located, isTemporary, made, Bind.bind, Except.bind]
    · refine .inr ⟨error, ?_, fromSystem⟩
      simp [createTemporary, located, isTemporary, made, Bind.bind, Except.bind]
  · exact .inr ⟨error, by simp [createTemporary, located, Bind.bind, Except.bind], fromSystem⟩

/-! ## Filling the temporary file and moving it -/

/-- Putting something under a free name and taking it away leaves everything as
it was. -/
theorem at?_erase_put {tree : FileTree} {temporary : Location} (below : temporary ≠ [])
    (isFree : tree.at? temporary = none) (node : Node) (location : Location) :
    FileTree.at? (Entries.erase temporary (Entries.put temporary node tree)) location =
      tree.at? location := by
  rw [at?_erase below, at?_put below]
  split
  next same => rw [same, isFree]
  next => rfl

theorem at?_erase_put_put {tree : FileTree} {temporary : Location} (below : temporary ≠ [])
    (isFree : tree.at? temporary = none) (node other : Node) (location : Location) :
    FileTree.at? (Entries.erase temporary (Entries.put temporary other
      (Entries.put temporary node tree))) location = tree.at? location := by
  rw [at?_erase below, at?_put below, at?_put below]
  split
  next same => rw [same, isFree]
  next => rfl

theorem abandon_eq {faults : WriteFaults} (allOrNothing : faults.AllOrNothing) (closed : Bool)
    (temporary : Location) (error : FileError) (tree : FileTree) :
    abandon faults closed temporary error tree =
      (.error error, Entries.erase temporary tree) := by
  simp [abandon, allOrNothing.closeAgain, allOrNothing.removeTemporary]

/-- Moving the temporary file replaces what stands at the place, unless it is a
directory or no place to move to. -/
theorem WellFormed.moveOver_cases {tree : FileTree} (wellFormed : tree.WellFormed)
    {here temporary place : Location} {path : Path} (names : Names tree here path place)
    {node : Node} (found : tree.at? temporary = some node) :
    (moveOver here temporary path tree =
        .ok (Entries.put place node (Entries.erase temporary tree)) ∧
      endsInName path = true ∧ tree.at? place ≠ some .directory ∧ IsShort path) ∨
      ∃ error, moveOver here temporary path tree = .error error ∧ error.isFromSystem = true := by
  rcases wellFormed.locate_eq_or names with ⟨located, short⟩ | ⟨error, located, fromSystem⟩
  · cases ends : endsInName path with
    | false => exact .inr ⟨.busy, by simp [moveOver, located, ends, Bind.bind, Except.bind], rfl⟩
    | true =>
        by_cases isDirectory : tree.at? place = some .directory
        · refine .inr ⟨.isDirectory, ?_, rfl⟩
          simp [moveOver, located, ends, found, isDirectory, Bind.bind, Except.bind]
        · refine .inl ⟨?_, rfl, isDirectory, short⟩
          simp only [moveOver, located, ends, found, Bind.bind, Except.bind]
  · exact .inr ⟨error, by simp [moveOver, located, Bind.bind, Except.bind], fromSystem⟩

/-- What became of a write: the text stands at its place, or an error was
reported and every file is as it was. -/
def WriteOutcome (place : Location) (path : Path) (draft : Draft) (tree : FileTree)
    (outcome : Except FileError Unit × FileTree) : Prop :=
  outcome.2.WellFormed ∧
    ((outcome.1 = .ok () ∧ draft.whole = true ∧ IsShort path ∧ endsInName path = true ∧
        Written place draft.text tree outcome.2) ∨
      ∃ error, outcome.1 = .error error ∧
        (draft.whole = true → error.isFromSystem = true) ∧ Grown tree outcome.2)

theorem writeOutcome_error {place : Location} {path : Path} {draft : Draft}
    {tree other : FileTree} {error : FileError} (wellFormed : other.WellFormed)
    (fromSystem : draft.whole = true → error.isFromSystem = true) (grown : Grown tree other) :
    WriteOutcome place path draft tree (.error error, other) :=
  ⟨wellFormed, .inr ⟨error, rfl, fromSystem, grown⟩⟩

/-- The temporary file of a write that fails is gone again. -/
theorem writeOutcome_abandon {faults : WriteFaults} (allOrNothing : faults.AllOrNothing)
    {place temporary : Location} {path : Path} {draft : Draft} {tree filled : FileTree}
    {error : FileError} (wellFormed : tree.WellFormed)
    (same : ∀ location, FileTree.at? (Entries.erase temporary filled) location =
      tree.at? location)
    (fromSystem : draft.whole = true → error.isFromSystem = true) (closed : Bool) :
    WriteOutcome place path draft tree (abandon faults closed temporary error filled) := by
  rw [abandon_eq allOrNothing]
  exact writeOutcome_error (wellFormed.congr same) fromSystem fun location => .inl (same location)

/-- Making the way before a write is part of its outcome. -/
theorem WriteOutcome.of_wayMade {place directory : Location} {path : Path} {draft : Draft}
    {tree made : FileTree} {outcome : Except FileError Unit × FileTree}
    (wayMade : WayMade directory tree made)
    (onWay : endsInName path = true → directory <+: place)
    (wrote : WriteOutcome place path draft made outcome) :
    WriteOutcome place path draft tree outcome := by
  obtain ⟨wellFormed, ⟨isOk, whole, short, ends, written⟩ | ⟨error, isError, fromSystem, grown⟩⟩ :=
    wrote
  · have toPlace : WayMade place tree made := by
      intro location
      rcases wayMade location with same | ⟨absent, isDirectory, isPrefix⟩
      · exact .inl same
      · exact .inr ⟨absent, isDirectory, isPrefix.trans (onWay ends)⟩
    refine ⟨wellFormed, .inl ⟨isOk, whole, short, ends,
      fun isDirectory => written.noDirectory (wayMade.grown.keeps isDirectory),
      written.at_place, fun location different => ?_⟩⟩
    rcases written.elsewhere location different with same | ⟨absent, isDirectory, isPrefix⟩
    · rw [same]
      exact toPlace location
    · rcases toPlace location with before | ⟨-, isThere, -⟩
      · exact .inr ⟨before ▸ absent, isDirectory, isPrefix⟩
      · rw [absent] at isThere
        contradiction
  · exact ⟨wellFormed, .inr ⟨error, isError, fromSystem, wayMade.grown.trans grown⟩⟩

theorem filled_cases {faults : WriteFaults} (allOrNothing : faults.AllOrNothing) (draft : Draft) :
    (filled faults draft = .ok (.text draft.text) ∧ draft.whole = true) ∨
      ∃ error, filled faults draft = .error error ∧
        (draft.whole = true → error.isFromSystem = true) := by
  rw [filled]
  cases writeFault : faults .write with
  | some error => exact .inr ⟨error, rfl, fun _ => allOrNothing.fromSystem writeFault⟩
  | none =>
      cases isWhole : draft.whole with
      | true => exact .inl ⟨by simp [Draft.text?, isWhole], rfl⟩
      | false => exact .inr ⟨.notEncodable, by simp [Draft.text?, isWhole], by simp⟩

/-- A full temporary file is moved to its place or is gone again. -/
theorem WellFormed.moveOver_outcome {tree : FileTree} (wellFormed : tree.WellFormed)
    {here directory place : Location} {path : Path} (names : Names tree here path place)
    {name : String} (isName : IsName name) (isDirectory : tree.at? directory = some .directory)
    (isFree : tree.at? (directory ++ [name]) = none)
    (isPlace : endsInName path = true → IsName path.name.label ∧
      place = directory ++ [path.name.label])
    {faults : WriteFaults} (allOrNothing : faults.AllOrNothing) (draft : Draft)
    (whole : draft.whole = true) :
    let filledTree : FileTree := Entries.put (directory ++ [name]) (.file (.text draft.text))
      (Entries.put (directory ++ [name]) (.file (.text [])) tree)
    WriteOutcome place path draft tree
      (match moveOver here (directory ++ [name]) path filledTree with
      | .ok tree => (.ok (), tree)
      | .error error => abandon faults true (directory ++ [name]) error filledTree) := by
  intro filledTree
  have below : directory ++ [name] ≠ [] := by simp
  have gone := at?_erase_put_put below isFree (.file (.text [])) (.file (.text draft.text))
  have apart : directory ≠ directory ++ [name] := by
    intro same
    have sameLength := congrArg List.length same
    simp at sameLength
  have emptyFormed : FileTree.WellFormed
      (Entries.put (directory ++ [name]) (.file (.text [])) tree) :=
    wellFormed.put isDirectory isName (.inr (by simp [isFree]))
  have filledFormed : filledTree.WellFormed := emptyFormed.put
    (by rw [at?_put below, if_neg apart, isDirectory]) isName
    (.inr (by rw [at?_put below, if_pos rfl]; simp))
  have keeps (location : Location) (found : tree.at? location = some .directory) :
      filledTree.at? location = some .directory := by
    have different : location ≠ directory ++ [name] := by
      rintro rfl
      rw [isFree] at found
      contradiction
    rw [at?_put below, if_neg different, at?_put below, if_neg different, found]
  have atTemporary : filledTree.at? (directory ++ [name]) = some (.file (.text draft.text)) := by
    rw [at?_put below, if_pos rfl]
  rcases filledFormed.moveOver_cases (names.of_directories keeps) atTemporary with
    ⟨isMoved, ends, noDirectory, short⟩ | ⟨error, notMoved, fromSystem⟩
  · obtain ⟨lastName, rfl⟩ := isPlace ends
    have placeBelow : directory ++ [path.name.label] ≠ [] := by simp
    have noneBefore : tree.at? (directory ++ [path.name.label]) ≠ some .directory :=
      fun found => noDirectory (keeps _ found)
    rw [isMoved]
    refine ⟨(wellFormed.congr gone).put (by rw [gone, isDirectory]) lastName
      (.inr (by rwa [gone])), .inl ⟨rfl, whole, short, ends, noneBefore, ?_, ?_⟩⟩
    · rw [at?_put placeBelow, if_pos rfl]
    · intro location different
      rw [at?_put placeBelow, if_neg different, gone]
      exact .inl rfl
  · rw [notMoved]
    exact writeOutcome_abandon allOrNothing wellFormed gone (fun _ => fromSystem) true

/-- A temporary file is moved to its place or is gone again. -/
theorem WellFormed.fillAndMove_cases {tree : FileTree} (wellFormed : tree.WellFormed)
    {faults : WriteFaults} (allOrNothing : faults.AllOrNothing) {here directory place : Location}
    {path : Path} (names : Names tree here path place) {name : String} (isName : IsName name)
    (isDirectory : tree.at? directory = some .directory)
    (isFree : tree.at? (directory ++ [name]) = none)
    (isPlace : endsInName path = true → IsName path.name.label ∧
      place = directory ++ [path.name.label]) (draft : Draft) :
    WriteOutcome place path draft tree (fillAndMove faults here path draft (directory ++ [name])
      (Entries.put (directory ++ [name]) (.file (.text [])) tree)) := by
  have below : directory ++ [name] ≠ [] := by simp
  rw [fillAndMove]
  rcases filled_cases allOrNothing draft with ⟨isFilled, whole⟩ | ⟨error, isFilled, fromSystem⟩
  · rw [isFilled]
    cases flushFault : faults .flush with
    | some error =>
        exact writeOutcome_abandon allOrNothing wellFormed (at?_erase_put below isFree _)
          (fun _ => allOrNothing.fromSystem flushFault) false
    | none =>
        dsimp only
        have gone := at?_erase_put_put below isFree (.file (.text [])) (.file (.text draft.text))
        cases syncFault : faults .sync with
        | some error =>
            exact writeOutcome_abandon allOrNothing wellFormed gone
              (fun _ => allOrNothing.fromSystem syncFault) false
        | none =>
            cases closeFault : faults .close with
            | some error =>
                exact writeOutcome_abandon allOrNothing wellFormed gone
                  (fun _ => allOrNothing.fromSystem closeFault) true
            | none =>
                cases replaceFault : faults .replace with
                | some error =>
                    exact writeOutcome_abandon allOrNothing wellFormed gone
                      (fun _ => allOrNothing.fromSystem replaceFault) true
                | none =>
                    exact wellFormed.moveOver_outcome names isName isDirectory isFree isPlace
                      allOrNothing draft whole
  · rw [isFilled]
    exact writeOutcome_abandon allOrNothing wellFormed (at?_erase_put below isFree _)
      fromSystem false

theorem start_isDirectory {tree : FileTree} {here : Location}
    (isHere : tree.at? here = some .directory) (path : Path) :
    tree.at? (start here path) = some .directory := by
  rw [start]
  split
  · exact isHere
  · rfl

/-- Making the directories of a path that names a place adds directories on the way
to it, and ends at it or with an error. -/
theorem WellFormed.makeDirectories_cases {tree made : FileTree} (wellFormed : tree.WellFormed)
    {here place : Location} (isHere : tree.at? here = some .directory) {path : Path}
    (names : Names tree here path place) {outcome : Except FileError Unit}
    (isMade : makeDirectories here path tree = (outcome, made)) :
    made.WellFormed ∧ WayMade place tree made ∧
      ∀ reached, outcome = .ok reached → made.at? place = some .directory := by
  obtain ⟨madeFormed, wayMade, reached⟩ := wellFormed.makeWay_cases
    (start_isDirectory isHere path) names.2 names.1.null_notMem_labels false
  rw [makeDirectories] at isMade
  rcases handOver_of_isClean names.1 with handed | tooLong
  · rw [handed] at isMade
    dsimp only at isMade
    rw [isMade] at madeFormed wayMade reached
    refine ⟨madeFormed, wayMade, ?_⟩
    rintro _ rfl
    exact reached
  · rw [tooLong] at isMade
    obtain ⟨rfl, rfl⟩ := Prod.mk.inj isMade
    exact ⟨wellFormed, wayMade_refl place tree, by simp⟩

theorem WellFormed.isFromSystem_of_makeDirectories {tree made : FileTree}
    (wellFormed : tree.WellFormed) {here place : Location}
    (isHere : tree.at? here = some .directory) {path : Path}
    (names : Names tree here path place) {error : FileError}
    (isMade : makeDirectories here path tree = (.error error, made)) :
    error.isFromSystem = true := by
  have outcome := (wellFormed.makeWay_cases (start_isDirectory isHere path) names.2
    names.1.null_notMem_labels false).2.2
  rw [makeDirectories] at isMade
  rcases handOver_of_isClean names.1 with handed | tooLong
  · rw [handed] at isMade
    dsimp only at isMade
    rw [isMade] at outcome
    exact outcome
  · rw [tooLong] at isMade
    obtain rfl := Except.error.inj (Prod.mk.inj isMade).1
    rfl

/-- A write puts its text at the place that its path names, or leaves every
file as it was. -/
theorem WellFormed.atomicWrite_cases {tree : FileTree} (wellFormed : tree.WellFormed)
    {faults : WriteFaults} (allOrNothing : faults.AllOrNothing) {here place : Location}
    (isHere : tree.at? here = some .directory) {path : Path}
    (names : Names tree here path place) (draft : Draft) :
    WriteOutcome place path draft tree (tree.atomicWrite faults here path draft) := by
  obtain ⟨directory, parentNames, isPlace, -⟩ := names.parent
  have fail {other : FileTree} {error : FileError} (otherFormed : other.WellFormed)
      (grown : Grown tree other) (fromSystem : error.isFromSystem = true) :
      WriteOutcome place path draft tree (.error error, other) :=
    writeOutcome_error otherFormed (fun _ => fromSystem) grown
  have unchanged : Grown tree tree := fun _ => .inl rfl
  have lastName (ends : endsInName path = true) :
      IsName path.name.label ∧ place = directory ++ [path.name.label] :=
    ⟨⟨(isPlace ends).1, LooseText.null_notMem_label (names.1.name)⟩, (isPlace ends).2⟩
  have onWay (ends : endsInName path = true) : directory <+: place :=
    ⟨[path.name.label], (isPlace ends).2.symm⟩
  rw [atomicWrite]
  cases makeFault : faults .makeParent with
  | some error => exact fail wellFormed unchanged (allOrNothing.fromSystem makeFault)
  | none =>
      generalize isMade : makeDirectories here path.parent tree = outcome
      obtain ⟨result, made⟩ := outcome
      obtain ⟨madeFormed, wayMade, reached⟩ :=
        wellFormed.makeDirectories_cases isHere parentNames isMade
      cases result with
      | error error =>
          exact fail madeFormed wayMade.grown
            (wellFormed.isFromSystem_of_makeDirectories isHere parentNames isMade)
      | ok _ =>
          dsimp only
          have isDirectory := reached _ rfl
          have parentMade := parentNames.of_directories fun _ => wayMade.grown.keeps
          cases createFault : faults .createTemporary with
          | some error =>
              exact fail madeFormed wayMade.grown (allOrNothing.fromSystem createFault)
          | none =>
              rcases madeFormed.createTemporary_cases names.1 parentMade isDirectory with
                ⟨name, isCreated, isFree, isName⟩ | ⟨error, notCreated, fromSystem⟩
              · rw [isCreated]
                exact (madeFormed.fillAndMove_cases allOrNothing
                  (names.of_directories fun _ => wayMade.grown.keeps) isName isDirectory isFree
                  lastName draft).of_wayMade wayMade onWay
              · rw [notCreated]
                exact fail madeFormed wayMade.grown fromSystem

/-! ## Writes with faults -/

theorem abandon_ne_ok (faults : WriteFaults) (closed : Bool) (temporary : Location)
    (error : FileError) (tree after : FileTree) :
    abandon faults closed temporary error tree ≠ (.ok (), after) := by
  unfold abandon
  cases closed <;> cases faults .closeAgain <;> cases faults .removeTemporary <;> simp

/-- A write that goes well has made all of its calls but those that clean up,
and none of them failed. -/
theorem faults_eq_none_of_atomicWrite {faults : WriteFaults} {here : Location} {path : Path}
    {draft : Draft} {tree after : FileTree}
    (isOk : tree.atomicWrite faults here path draft = (.ok (), after)) {call : WriteCall}
    (noCleaning : call ≠ .closeAgain ∧ call ≠ .removeTemporary) : faults call = none := by
  rw [atomicWrite] at isOk
  split at isOk
  · simp at isOk
  next noMakeParent =>
    split at isOk
    · simp at isOk
    · split at isOk
      · simp at isOk
      · simp at isOk
      next noCreate _ =>
        rw [fillAndMove] at isOk
        split at isOk
        · exact (abandon_ne_ok _ _ _ _ _ _ isOk).elim
        · exact (abandon_ne_ok _ _ _ _ _ _ isOk).elim
        next isFilled noFlush =>
          have noWrite : faults .write = none := by
            rw [filled] at isFilled
            split at isFilled <;> simp_all
          dsimp only at isOk
          split at isOk
          · exact (abandon_ne_ok _ _ _ _ _ _ isOk).elim
          · exact (abandon_ne_ok _ _ _ _ _ _ isOk).elim
          · exact (abandon_ne_ok _ _ _ _ _ _ isOk).elim
          next noSync noClose noReplace =>
            cases call with
            | makeParent => exact noMakeParent
            | createTemporary => exact noCreate
            | write => exact noWrite
            | flush => exact noFlush
            | sync => exact noSync
            | close => exact noClose
            | replace => exact noReplace
            | closeAgain => exact absurd rfl noCleaning.1
            | removeTemporary => exact absurd rfl noCleaning.2

end FileTree

end ApiWorkshop

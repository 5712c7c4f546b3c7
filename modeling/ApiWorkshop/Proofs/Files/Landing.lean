import ApiWorkshop.Proofs.Files.Under

/-!
# Where a path lands

The names of a path lead somewhere when every step can be taken, whatever stands
on the way: double dots step back, and any other name goes on.  A walk that ends
well ends there.  A write that ends well puts its text there and makes
directories at the steps of its way only, also when the path steps back from a
directory that was not there before.
-/

namespace ApiWorkshop

namespace FileTree

/-! ## Steps without a tree -/

/-- The location that a name leads to from another one. -/
def step (location : Location) (name : String) : Location :=
  if name = ".." then location.dropLast else location ++ [name]

/-- The location that names lead to when every step can be taken. -/
def landing (location : Location) (names : List String) : Location :=
  names.foldl step location

/-- The locations that names lead through from another one, with both ends. -/
def way : Location → List String → List Location
  | location, [] => [location]
  | location, name :: names => location :: way (step location name) names

/-- The location that a path leads to when every step can be taken. -/
def destination (here : Location) (path : Path) : Location :=
  landing (start here path) (path.names.map LooseText.label)

/-- The locations that a path leads through. -/
def wayOf (here : Location) (path : Path) : List Location :=
  way (start here path) (path.names.map LooseText.label)

@[simp]
theorem landing_nil (location : Location) : landing location [] = location :=
  rfl

@[simp]
theorem landing_cons (location : Location) (name : String) (names : List String) :
    landing location (name :: names) = landing (step location name) names :=
  rfl

theorem start_mem_way (location : Location) (names : List String) :
    location ∈ way location names := by
  cases names <;> simp [way]

theorem landing_mem_way (location : Location) (names : List String) :
    landing location names ∈ way location names := by
  induction names generalizing location with
  | nil => exact List.mem_singleton_self location
  | cons name names ih => exact List.mem_cons_of_mem _ (ih _)

theorem destination_mem_wayOf (here : Location) (path : Path) :
    destination here path ∈ wayOf here path :=
  landing_mem_way _ _

theorem way_subset_append (location : Location) (names more : List String) :
    way location names ⊆ way location (names ++ more) := by
  induction names generalizing location with
  | nil => cases more <;> simp [way]
  | cons name names ih => exact List.cons_subset_cons _ (ih _)

/-! ## Names that are located -/

theorem place?_cons_eq_some_iff {tree : FileTree} {location place : Location} {name : String}
    {names : List String} :
    place? tree location (name :: names) = some place ↔
      (name = ".." → tree.at? location = some .directory) ∧
        place? tree (step location name) names = some place := by
  by_cases isStep : name = ".."
  · by_cases isDirectory : tree.at? location = some .directory <;>
      simp [place?, step, isStep, isDirectory]
  · simp [place?, step, isStep]

theorem walk_cons {tree : FileTree} {location : Location} {name : String}
    (isDirectory : tree.at? location = some .directory)
    (short : name ≠ ".." → isTooLong name = false) (names : List String) :
    walk tree location (name :: names) = walk tree (step location name) names := by
  by_cases isStep : name = ".."
  · simp [walk, step, isDirectory, isStep]
  · simp [walk, step, isDirectory, isStep, short isStep]

theorem walk_cons_eq_ok_iff {tree : FileTree} {location place : Location} {name : String}
    {names : List String} :
    walk tree location (name :: names) = .ok place ↔
      tree.at? location = some .directory ∧ (name ≠ ".." → isTooLong name = false) ∧
        walk tree (step location name) names = .ok place := by
  constructor
  · intro walked
    have isDirectory : tree.at? location = some .directory := by
      rw [walk] at walked
      split at walked
      · contradiction
      · contradiction
      · assumption
    have short : name ≠ ".." → isTooLong name = false := by
      intro noStep
      cases tooLong : isTooLong name with
      | false => rfl
      | true => simp [walk, isDirectory, noStep, tooLong] at walked
    exact ⟨isDirectory, short, walk_cons isDirectory short names ▸ walked⟩
  · rintro ⟨isDirectory, short, walked⟩
    rwa [walk_cons isDirectory short]

theorem landing_of_place? {tree : FileTree} {location place : Location} {names : List String}
    (named : place? tree location names = some place) : landing location names = place := by
  induction names generalizing location with
  | nil => simpa [place?] using named
  | cons name names ih => exact ih (place?_cons_eq_some_iff.mp named).2

theorem Names.destination_eq {tree : FileTree} {here place : Location} {path : Path}
    (names : Names tree here path place) : destination here path = place :=
  landing_of_place? names.2

theorem place?_of_walk {tree : FileTree} {location place : Location} {names : List String}
    (walked : walk tree location names = .ok place) :
    place? tree location names = some place := by
  induction names generalizing location with
  | nil => simpa [walk, place?] using walked
  | cons name names ih =>
      obtain ⟨isDirectory, -, walked⟩ := walk_cons_eq_ok_iff.mp walked
      exact place?_cons_eq_some_iff.mpr ⟨fun _ => isDirectory, ih walked⟩

theorem isClean_of_handOver {path : Path} {names : List String}
    (handed : handOver path = .ok names) : path.IsClean := by
  rw [handOver] at handed
  split at handed
  · contradiction
  next text isText =>
    split at handed
    · contradiction
    next noNull =>
      intro name isName c member
      have plain := LooseText.eq_ofText_of_text? isText
      by_cases isDot : c = .char '.'
      · simp [isDot, CodePoint.isChar]
      · by_cases isSlash : c = .char '/'
        · simp [isSlash, CodePoint.isChar]
        · have inText : c ∈ path.text :=
            (Path.mem_text_iff isDot isSlash).mpr ⟨name, isName, member⟩
          rw [plain] at inText
          obtain ⟨plainChar, isPlain, rfl⟩ := List.mem_map.mp inText
          refine ⟨rfl, fun isNull => noNull ?_⟩
          obtain rfl := CodePoint.char.inj isNull
          simpa using isPlain

theorem names_of_handOver {path : Path} {names : List String}
    (handed : handOver path = .ok names) : names = path.names.map LooseText.label := by
  rw [handOver] at handed
  split at handed
  · contradiction
  · split at handed
    · contradiction
    · split at handed
      · contradiction
      · exact (Except.ok.inj handed).symm

/-- A path that is located names the location. -/
theorem names_of_locate {tree : FileTree} {here place : Location} {path : Path}
    (located : locate tree here path = .ok place) : Names tree here path place := by
  cases handed : handOver path with
  | error error => simp [locate, handed, Bind.bind, Except.bind] at located
  | ok names =>
      obtain rfl := names_of_handOver handed
      simp only [locate, handed, Bind.bind, Except.bind] at located
      exact ⟨isClean_of_handOver handed, place?_of_walk located⟩

/-! ## Ways that are made -/

/-- A tree with new directories at some locations and otherwise as it was. -/
def MadeAt (locations : List Location) (tree made : FileTree) : Prop :=
  ∀ location, made.at? location = tree.at? location ∨
    (tree.at? location = none ∧ made.at? location = some .directory ∧ location ∈ locations)

theorem MadeAt.grown {locations : List Location} {tree made : FileTree}
    (madeAt : MadeAt locations tree made) : Grown tree made :=
  fun location => (madeAt location).imp_right fun isNew => ⟨isNew.1, isNew.2.1⟩

theorem MadeAt.cons {location : Location} {name : String} {names : List String}
    {tree made : FileTree} (madeAt : MadeAt (way (step location name) names) tree made) :
    MadeAt (way location (name :: names)) tree made :=
  fun other => (madeAt other).imp_right fun isNew =>
    ⟨isNew.1, isNew.2.1, List.mem_cons_of_mem _ isNew.2.2⟩

/-- A directory that is put where nothing stood is one of the new ones. -/
theorem MadeAt.of_put {locations : List Location} {location : Location} {tree made : FileTree}
    (below : location ≠ []) (absent : tree.at? location = none) (member : location ∈ locations)
    (madeAt : MadeAt locations (Entries.put location .directory tree) made) :
    MadeAt locations tree made := by
  intro other
  have atOther := madeAt other
  rw [at?_put below] at atOther
  by_cases isHere : other = location
  · subst isHere
    exact .inr ⟨absent, by simpa using atOther, member⟩
  · rwa [if_neg isHere] at atOther

/-- Making a way adds directories at its steps, also when it ends with an error. -/
theorem madeAt_makeWay (made : Bool) (location : Location) (names : List String)
    (tree : FileTree) :
    MadeAt (way location names) tree (makeWay made location names tree).2 := by
  induction names generalizing made location tree with
  | nil => exact fun _ => .inl rfl
  | cons name names ih =>
      have onWay := ih made (step location name) tree
      rw [makeWay]
      split
      next isStep => exact .cons (by rwa [step, if_pos isStep] at onWay ⊢)
      next noStep =>
        have isOn : step location name = location ++ [name] := if_neg noStep
        rw [isOn] at onWay
        split
        · exact fun _ => .inl rfl
        · split
          · exact .cons (isOn ▸ onWay)
          · exact fun _ => .inl rfl
          next absent =>
            rw [← isOn] at absent ⊢
            exact .cons (.of_put (by simp [isOn]) absent (start_mem_way _ names) (ih true _ _))

/-- A step of a way that is made leads to a directory, which was there or is new. -/
theorem WellFormed.exists_of_makeWay_cons {tree after : FileTree} (wellFormed : tree.WellFormed)
    {location : Location} {name : String} {names : List String}
    (isDirectory : tree.at? location = some .directory) (clean : '\x00' ∉ name.toList)
    {made : Bool} (isMade : makeWay made location (name :: names) tree = (.ok (), after)) :
    ∃ (next : FileTree) (madeNow : Bool), next.WellFormed ∧
      next.at? (step location name) = some .directory ∧
      makeWay madeNow (step location name) names next = (.ok (), after) := by
  by_cases isStep : name = ".."
  · rw [step, if_pos isStep]
    rw [makeWay, if_pos isStep] at isMade
    exact ⟨tree, made, wellFormed, wellFormed.at?_dropLast isDirectory, isMade⟩
  · rw [step, if_neg isStep]
    rw [makeWay, if_neg isStep] at isMade
    split at isMade
    · simp at isMade
    split at isMade
    next found => exact ⟨tree, made, wellFormed, found, isMade⟩
    next => simp at isMade
    next =>
      refine ⟨_, true, ?_, ?_, isMade⟩
      · exact wellFormed.put isDirectory ⟨isStep, clean⟩ (.inl rfl)
      · rw [at?_put (by simp), if_pos rfl]

/-- A way that is made leads where the names lead. -/
theorem WellFormed.of_makeWay {tree after : FileTree} (wellFormed : tree.WellFormed)
    {location : Location} {names : List String}
    (isDirectory : tree.at? location = some .directory)
    (clean : ∀ name ∈ names, '\x00' ∉ name.toList) {made : Bool}
    (isMade : makeWay made location names tree = (.ok (), after)) :
    after.WellFormed ∧ after.at? (landing location names) = some .directory ∧
      place? after location names = some (landing location names) := by
  induction names generalizing location made tree with
  | nil =>
      obtain rfl := (Prod.mk.inj isMade).2
      exact ⟨wellFormed, isDirectory, rfl⟩
  | cons name names ih =>
      obtain ⟨nameClean, restClean⟩ := List.forall_mem_cons.mp clean
      have madeAt := madeAt_makeWay made location (name :: names) tree
      rw [isMade] at madeAt
      obtain ⟨next, madeNow, nextFormed, isNext, isMade⟩ :=
        wellFormed.exists_of_makeWay_cons isDirectory nameClean isMade
      obtain ⟨afterFormed, reached, named⟩ := ih nextFormed isNext restClean isMade
      exact ⟨afterFormed, reached, place?_cons_eq_some_iff.mpr
        ⟨fun _ => madeAt.grown.keeps isDirectory, named⟩⟩

theorem madeAt_makeDirectories (here : Location) (path : Path) (tree : FileTree) :
    MadeAt (wayOf here path) tree (makeDirectories here path tree).2 := by
  rw [makeDirectories]
  split
  · exact fun _ => .inl rfl
  next names handed =>
    obtain rfl := names_of_handOver handed
    exact madeAt_makeWay _ _ _ tree

theorem WellFormed.reached_of_makeDirectories {tree made : FileTree}
    (wellFormed : tree.WellFormed) {here : Location} (isHere : tree.at? here = some .directory)
    {path : Path} (isMade : makeDirectories here path tree = (.ok (), made)) :
    made.WellFormed ∧ Names made here path (destination here path) ∧
      made.at? (destination here path) = some .directory := by
  rw [makeDirectories] at isMade
  split at isMade
  · simp at isMade
  next names handed =>
    have clean := isClean_of_handOver handed
    obtain rfl := names_of_handOver handed
    obtain ⟨madeFormed, reached, named⟩ :=
      wellFormed.of_makeWay (start_isDirectory isHere path) clean.null_notMem_labels isMade
    exact ⟨madeFormed, ⟨clean, named⟩, reached⟩

/-! ## Writes that end well -/

theorem exists_of_fillAndMove {faults : WriteFaults} {here temporary : Location} {path : Path}
    {draft : Draft} {tree after : FileTree}
    (isOk : fillAndMove faults here path draft temporary tree = (.ok (), after)) :
    ∃ content, moveOver here temporary path (Entries.put temporary (.file content) tree) =
      .ok after := by
  rw [fillAndMove] at isOk
  split at isOk
  · exact absurd isOk (abandon_ne_ok _ _ _ _ _ _)
  · exact absurd isOk (abandon_ne_ok _ _ _ _ _ _)
  · dsimp only at isOk
    split at isOk
    · exact absurd isOk (abandon_ne_ok _ _ _ _ _ _)
    · exact absurd isOk (abandon_ne_ok _ _ _ _ _ _)
    · exact absurd isOk (abandon_ne_ok _ _ _ _ _ _)
    · split at isOk
      next moved =>
        obtain rfl := (Prod.mk.inj isOk).2
        exact ⟨_, moved⟩
      · exact absurd isOk (abandon_ne_ok _ _ _ _ _ _)

theorem eq_put_of_createTemporary {here temporary : Location} {path : Path}
    {tree created : FileTree}
    (isCreated : createTemporary here path tree = .ok (temporary, created)) :
    created = Entries.put temporary (.file (.text [])) tree := by
  cases located : locate tree here path.parent with
  | error error => simp [createTemporary, located, Bind.bind, Except.bind] at isCreated
  | ok directory =>
      simp only [createTemporary, located, Bind.bind, Except.bind] at isCreated
      split at isCreated
      · contradiction
      · obtain ⟨rfl, rfl⟩ := Prod.mk.inj (Except.ok.inj isCreated)
        rfl

theorem exists_of_moveOver {here temporary : Location} {path : Path} {tree after : FileTree}
    (moved : moveOver here temporary path tree = .ok after) :
    ∃ location node, after = Entries.put location node (Entries.erase temporary tree) := by
  cases located : locate tree here path with
  | error error => simp [moveOver, located, Bind.bind, Except.bind] at moved
  | ok location =>
      simp only [moveOver, located, Bind.bind, Except.bind] at moved
      split at moved
      · contradiction
      · contradiction
      · contradiction
      · exact ⟨location, _, (Except.ok.inj moved).symm⟩

theorem exists_of_atomicWrite {faults : WriteFaults} {here : Location} {path : Path}
    {draft : Draft} {tree after : FileTree}
    (isOk : tree.atomicWrite faults here path draft = (.ok (), after)) :
    ∃ made temporary created, makeDirectories here path.parent tree = (.ok (), made) ∧
      createTemporary here path made = .ok (temporary, created) ∧
      fillAndMove faults here path draft temporary created = (.ok (), after) := by
  rw [atomicWrite] at isOk
  split at isOk
  · simp at isOk
  · split at isOk
    · simp at isOk
    next made isMade =>
      split at isOk
      · simp at isOk
      · simp at isOk
      next temporary created _ isCreated =>
        exact ⟨made, temporary, created, isMade, isCreated, isOk⟩

theorem nodup_keys_of_makeWay (made : Bool) (location : Location) (names : List String)
    {tree : FileTree} (distinct : (Entries.keys tree).Nodup) :
    (Entries.keys (makeWay made location names tree).2).Nodup := by
  induction names generalizing made location tree with
  | nil => exact distinct
  | cons name names ih =>
      rw [makeWay]
      split
      · exact ih _ _ distinct
      · split
        · exact distinct
        · split
          · exact ih _ _ distinct
          · exact distinct
          · exact ih _ _ (Entries.nodup_keys_put distinct)

/-- A write that ends well gives no location a second entry. -/
theorem nodup_keys_of_atomicWrite {faults : WriteFaults} {here : Location} {path : Path}
    {draft : Draft} {tree after : FileTree} (distinct : (Entries.keys tree).Nodup)
    (isOk : tree.atomicWrite faults here path draft = (.ok (), after)) :
    (Entries.keys after).Nodup := by
  obtain ⟨made, temporary, created, isMade, isCreated, isFilled⟩ := exists_of_atomicWrite isOk
  obtain ⟨content, moved⟩ := exists_of_fillAndMove isFilled
  have madeDistinct : (Entries.keys made).Nodup := by
    rw [makeDirectories] at isMade
    split at isMade
    · simp at isMade
    next names _ =>
      have wayDistinct := nodup_keys_of_makeWay false (start here path.parent) names distinct
      rw [isMade] at wayDistinct
      exact wayDistinct
  have createdDistinct : (Entries.keys created).Nodup := by
    rw [eq_put_of_createTemporary isCreated]
    exact Entries.nodup_keys_put madeDistinct
  obtain ⟨location, node, rfl⟩ := exists_of_moveOver moved
  exact Entries.nodup_keys_put
    (Entries.nodup_keys_filter _ (Entries.nodup_keys_put createdDistinct))

/-- A path that something is moved to has bytes and ends in a name. -/
theorem isClean_of_moveOver {here temporary : Location} {path : Path} {tree after : FileTree}
    (moved : moveOver here temporary path tree = .ok after) :
    path.IsClean ∧ endsInName path = true := by
  cases located : locate tree here path with
  | error error => simp [moveOver, located, Bind.bind, Except.bind] at moved
  | ok location =>
      refine ⟨(names_of_locate located).1, ?_⟩
      cases ends : endsInName path with
      | true => rfl
      | false => simp [moveOver, located, ends, Bind.bind, Except.bind] at moved

/-- A tree after a draft was written to a path. -/
structure Landed (here : Location) (path : Path) (draft : Draft) (tree after : FileTree) :
    Prop where
  wellFormed : after.WellFormed
  whole : draft.whole = true
  short : IsShort path
  names : Names after here path (destination here path)
  noDirectory : tree.at? (destination here path) ≠ some .directory
  holds : after.at? (destination here path) = some (.file (.text draft.text))
  elsewhere : ∀ location, location ≠ destination here path →
    after.at? location = tree.at? location ∨
      (tree.at? location = none ∧ after.at? location = some .directory ∧
        location ∈ wayOf here path)

theorem Landed.keeps {here location : Location} {path : Path} {draft : Draft}
    {tree after : FileTree} (landed : Landed here path draft tree after)
    (isDirectory : tree.at? location = some .directory) :
    after.at? location = some .directory := by
  have apart : location ≠ destination here path := by
    rintro rfl
    exact landed.noDirectory isDirectory
  rcases landed.elsewhere location apart with same | ⟨absent, -⟩
  · rw [same, isDirectory]
  · rw [isDirectory] at absent
    contradiction

/-- A path that ends in a name goes on from its parent with it. -/
theorem names_eq_of_endsInName {path : Path} (ends : endsInName path = true) :
    path.names = path.parent.names ++ [path.name] ∧ path.name ≠ LooseText.ofString ".." := by
  rcases List.eq_nil_or_concat path.names with noNames | ⟨front, last, isNames⟩
  · simp [endsInName, noNames] at ends
  · rw [List.concat_eq_append] at isNames
    have isLast : path.name = last := by simp [Path.name, isNames]
    refine ⟨by simp [Path.parent, isNames, isLast], ?_⟩
    rw [isLast]
    simpa [endsInName, isNames] using ends

/-- A write that ends well lands where its path leads. -/
theorem WellFormed.landed_of_atomicWrite {tree after : FileTree} (wellFormed : tree.WellFormed)
    {faults : WriteFaults} (allOrNothing : faults.AllOrNothing) {here : Location}
    (isHere : tree.at? here = some .directory) {path : Path} {draft : Draft}
    (isOk : tree.atomicWrite faults here path draft = (.ok (), after)) :
    Landed here path draft tree after := by
  obtain ⟨made, temporary, created, isMade, isCreated, isFilled⟩ := exists_of_atomicWrite isOk
  obtain ⟨content, moved⟩ := exists_of_fillAndMove isFilled
  obtain ⟨clean, ends⟩ := isClean_of_moveOver moved
  obtain ⟨isNames, noStep⟩ := names_eq_of_endsInName ends
  have labelNoStep : path.name.label ≠ ".." := by
    rwa [Ne, label_eq_step_iff _ clean.name]
  obtain ⟨madeFormed, parentNames, isReached⟩ :=
    wellFormed.reached_of_makeDirectories isHere isMade
  have madeAt := madeAt_makeDirectories here path.parent tree
  rw [isMade] at madeAt
  have names : Names made here path (destination here path.parent ++ [path.name.label]) := by
    refine ⟨clean, ?_⟩
    rw [isNames, List.map_append]
    exact place?_append_names parentNames.2 (by simpa using labelNoStep)
  have isDestination := names.destination_eq
  rw [← isDestination] at names
  have onWay : wayOf here path.parent ⊆ wayOf here path := by
    rw [wayOf, wayOf, isNames, List.map_append]
    exact way_subset_append _ _ _
  rcases madeFormed.createTemporary_cases clean parentNames isReached with
    ⟨name, isNamed, isFree, isName⟩ | ⟨error, notCreated, -⟩
  · rw [isNamed] at isCreated
    obtain ⟨rfl, rfl⟩ := Prod.mk.inj (Except.ok.inj isCreated)
    have outcome := madeFormed.fillAndMove_cases allOrNothing names isName isReached isFree
      (fun _ => ⟨⟨labelNoStep, LooseText.null_notMem_label clean.name⟩, isDestination⟩) draft
    rw [isFilled] at outcome
    obtain ⟨afterFormed, ⟨-, whole, short, -, written⟩ | ⟨error, isError, -⟩⟩ := outcome
    · refine ⟨afterFormed, whole, short, names.of_directories fun _ => written.keeps,
        fun isDirectory => written.noDirectory (madeAt.grown.keeps isDirectory),
        written.at_place, fun location apart => ?_⟩
      rcases written.elsewhere location apart with same | ⟨absent, isDirectory, onPlace⟩
      · rw [same]
        exact (madeAt location).imp_right fun isNew =>
          ⟨isNew.1, isNew.2.1, onWay isNew.2.2⟩
      · have isThere : made.at? (destination here path.parent) ≠ none := by simp [isReached]
        rw [isDestination, List.prefix_concat_iff] at onPlace
        rcases onPlace with isPlace | above
        · exact absurd (isPlace.trans isDestination.symm) apart
        · by_cases isParent : location = destination here path.parent
          · rw [isParent] at absent
            exact absurd absent isThere
          · rw [madeFormed.isDirectory_of_prefix isThere above isParent] at absent
            contradiction
    · contradiction
  · rw [notCreated] at isCreated
    contradiction

end FileTree

end ApiWorkshop

import ApiWorkshop.Proofs.Files.Landing
import ApiWorkshop.Proofs.Files.Reach

/-!
# All or nothing

A write that ends well has put its text where its path leads.  One that fails
leaves new directories on the way and nothing else, but for one case: when it
fails while its temporary file is open, that file is closed once more, and if
this fails too it is never removed.
-/

namespace ApiWorkshop

namespace FileTree

/-! ## The temporary file -/

/-- A location beside a path under one of its temporary names. -/
def IsTemporary (here : Location) (path : Path) (location : Location) : Prop :=
  ∃ number, location = destination here path.parent ++ [(temporaryName path.name number).label]

theorem label_temporaryName_ne_label (name : LooseText) (number : Nat) :
    (temporaryName name number).label ≠ name.label := by
  intro same
  have sameText := congrArg String.toList same
  rw [LooseText.label, LooseText.label, String.toList_ofList, String.toList_ofList,
    shown_temporaryName] at sameText
  have sameLength := congrArg List.length sameText
  simp at sameLength
  omega

/-- No path leads to a temporary file of its own. -/
theorem IsTemporary.ne_destination {here location : Location} {path : Path}
    (isTemporary : IsTemporary here path location) : location ≠ destination here path := by
  obtain ⟨number, rfl⟩ := isTemporary
  rcases List.eq_nil_or_concat path.names with noNames | ⟨front, last, isNames⟩
  · have isParent : destination here path = destination here path.parent := by
      simp [destination, start, Path.parent, noNames]
    rw [isParent]
    simp
  · rw [List.concat_eq_append] at isNames
    have isLast : path.name = last := by simp [Path.name, isNames]
    have isOn : destination here path = step (destination here path.parent) last.label := by
      simp [destination, start, landing, Path.parent, isNames]
    rw [isOn, step, isLast]
    split
    · intro same
      have sameLength := congrArg List.length same
      rw [List.length_append, List.length_dropLast, List.length_singleton] at sameLength
      omega
    · intro same
      exact label_temporaryName_ne_label last number
        (List.singleton_inj.mp (List.append_cancel_left same))

/-- A path from the top that goes on with a name leads to it, without steps back. -/
theorem destination_pathTo_join (here : Location) {directory : Location} {name : LooseText}
    (noStep : ∀ other ∈ directory, other ≠ "..") (nameNoStep : name.label ≠ "..") :
    destination here ((pathTo directory).join ⟨.relative, [name]⟩) =
      directory ++ [name.label] := by
  have isNames : ((pathTo directory).join ⟨.relative, [name]⟩).names.map LooseText.label =
      directory ++ [name.label] := by
    simp [pathTo, Path.join, Function.comp_def]
  have noStepOn : ∀ other ∈ directory ++ [name.label], other ≠ ".." := by
    simpa [or_imp, forall_and] using ⟨noStep, nameNoStep⟩
  rw [destination, isNames]
  exact landing_of_place? (place?_names [] [] noStepOn)

/-- A temporary file that could be made stands beside the path, where nothing stood. -/
theorem WellFormed.of_createTemporary {tree created : FileTree} (wellFormed : tree.WellFormed)
    {here temporary : Location} {path : Path}
    (isDirectory : tree.at? (destination here path.parent) = some .directory)
    (isCreated : createTemporary here path tree = .ok (temporary, created)) :
    IsTemporary here path temporary ∧ tree.at? temporary = none ∧
      created = Entries.put temporary (.file (.text [])) tree := by
  have isPut := eq_put_of_createTemporary isCreated
  cases located : locate tree here path.parent with
  | error error => simp [createTemporary, located, Bind.bind, Except.bind] at isCreated
  | ok directory =>
      obtain rfl := (names_of_locate located).destination_eq
      simp only [createTemporary, located, Bind.bind, Except.bind] at isCreated
      split at isCreated
      · contradiction
      next place isPlace =>
        obtain ⟨rfl, -⟩ := Prod.mk.inj (Except.ok.inj isCreated)
        have isBeside := (names_of_locate isPlace).destination_eq
        rw [destination_pathTo_join here
          (fun name member => (wellFormed.isName_of_mem isDirectory name member).1)
          (label_temporaryName_ne _ _)] at isBeside
        exact ⟨⟨_, isBeside.symm⟩, isBeside ▸ at?_freeNumber tree _ path.name, isPut⟩

/-! ## When the temporary file is left -/

/-- The temporary file for a write can be made, and the way to it. -/
def MakesTemporary (faults : WriteFaults) (here : Location) (path : Path) (tree : FileTree) :
    Prop :=
  faults .makeParent = none ∧ faults .createTemporary = none ∧
    ∃ made temporary created, makeDirectories here path.parent tree = (.ok (), made) ∧
      createTemporary here path made = .ok (temporary, created)

/-- A write fails before it closes its temporary file. -/
def FailsOpen (faults : WriteFaults) (draft : Draft) : Prop :=
  faults .write ≠ none ∨ draft.whole = false ∨ faults .flush ≠ none ∨ faults .sync ≠ none

/-- A write fails while its temporary file is open, and closing that file fails
as well. -/
def LeavesTemporary (faults : WriteFaults) (here : Location) (path : Path) (draft : Draft)
    (tree : FileTree) : Prop :=
  MakesTemporary faults here path tree ∧ FailsOpen faults draft ∧ faults .closeAgain ≠ none

theorem filled_eq_ok_iff {faults : WriteFaults} {draft : Draft} :
    (∃ content, filled faults draft = .ok content) ↔
      faults .write = none ∧ draft.whole = true := by
  cases isWritten : faults .write <;> cases isWhole : draft.whole <;>
    simp [filled, Draft.text?, isWritten, isWhole]

/-- An abandoned temporary file stays if it was open and cannot be closed. -/
theorem abandon_eq_of_removes {faults : WriteFaults} (removes : faults .removeTemporary = none)
    (closed : Bool) (temporary : Location) (error : FileError) (tree : FileTree) :
    (closed = false ∧ faults .closeAgain ≠ none →
      (abandon faults closed temporary error tree).2 = tree) ∧
    (¬ (closed = false ∧ faults .closeAgain ≠ none) →
      (abandon faults closed temporary error tree).2 = Entries.erase temporary tree) := by
  cases closed <;> cases isClosed : faults .closeAgain <;>
    simp [abandon, isClosed, removes]

/-- A tree in which nothing differs but a file that stands at a free location, if it
was left there. -/
structure LeftAt (temporary : Location) (left : Prop) (tree after : FileTree) : Prop where
  elsewhere : ∀ location, location ≠ temporary → after.at? location = tree.at? location
  gone : ¬ left → after.at? temporary = none
  stays : left → ∃ content, after.at? temporary = some (.file content)

/-- A temporary file with some content stays if the write failed while it was open
and cannot close it. -/
theorem leftAt_of_abandon {faults : WriteFaults} (removes : faults .removeTemporary = none)
    {temporary : Location} (below : temporary ≠ []) {tree other after : FileTree}
    (elsewhere : ∀ location, location ≠ temporary → other.at? location = tree.at? location)
    {content : Content} {closed : Bool} {failsOpen : Prop} (isOpen : closed = false ↔ failsOpen)
    {cause error : FileError}
    (isAbandoned : abandon faults closed temporary cause
      (Entries.put temporary (.file content) other) = (.error error, after)) :
    LeftAt temporary (failsOpen ∧ faults .closeAgain ≠ none) tree after := by
  obtain ⟨isLeft, isErased⟩ := abandon_eq_of_removes removes closed temporary cause
    (Entries.put temporary (.file content) other)
  rw [isAbandoned, isOpen] at isLeft isErased
  by_cases left : failsOpen ∧ faults .closeAgain ≠ none
  · obtain rfl := isLeft left
    refine ⟨fun location apart => ?_, fun noLeft => absurd left noLeft, fun _ => ⟨content, ?_⟩⟩
    · rw [at?_put below, if_neg apart, elsewhere location apart]
    · rw [at?_put below, if_pos rfl]
  · obtain rfl := isErased left
    refine ⟨fun location apart => ?_, fun _ => ?_, fun isLeft => absurd isLeft left⟩
    · rw [at?_erase below, if_neg apart, at?_put below, if_neg apart, elsewhere location apart]
    · rw [at?_erase below, if_pos rfl]

/-- A write that fails with its temporary file leaves it if it failed while that file
was open and cannot close it. -/
theorem leftAt_of_fillAndMove {faults : WriteFaults} (removes : faults .removeTemporary = none)
    {here temporary : Location} (below : temporary ≠ []) {path : Path} {draft : Draft}
    {tree after : FileTree} {error : FileError}
    (isFailure : fillAndMove faults here path draft temporary
      (Entries.put temporary (.file (.text [])) tree) = (.error error, after)) :
    LeftAt temporary (FailsOpen faults draft ∧ faults .closeAgain ≠ none) tree after := by
  have unchanged (location : Location) (_ : location ≠ temporary) :
      tree.at? location = tree.at? location := rfl
  have emptied (location : Location) (apart : location ≠ temporary) :
      FileTree.at? (Entries.put temporary (.file (.text [])) tree) location =
        tree.at? location := by
    rw [at?_put below, if_neg apart]
  rw [fillAndMove] at isFailure
  split at isFailure
  next isFilled =>
    have failsOpen : FailsOpen faults draft := by
      by_cases isWritten : faults .write = none
      · refine .inr (.inl (eq_false_of_ne_true fun isWhole => ?_))
        obtain ⟨content, isOk⟩ := filled_eq_ok_iff.mpr ⟨isWritten, isWhole⟩
        rw [isOk] at isFilled
        contradiction
      · exact .inl isWritten
    exact leftAt_of_abandon removes below unchanged (by simpa) isFailure
  next flushFault =>
    exact leftAt_of_abandon removes below unchanged (by simp [FailsOpen, flushFault]) isFailure
  next content isFilled noFlush =>
    have isWritten := filled_eq_ok_iff.mp ⟨content, isFilled⟩
    split at isFailure
    next syncFault =>
      exact leftAt_of_abandon removes below emptied (by simp [FailsOpen, syncFault]) isFailure
    next noSync _ =>
      have closes : ¬ FailsOpen faults draft := by simp [FailsOpen, isWritten, noFlush, noSync]
      exact leftAt_of_abandon removes below emptied (by simp [closes]) isFailure
    next noSync _ _ =>
      have closes : ¬ FailsOpen faults draft := by simp [FailsOpen, isWritten, noFlush, noSync]
      exact leftAt_of_abandon removes below emptied (by simp [closes]) isFailure
    next noSync _ _ =>
      have closes : ¬ FailsOpen faults draft := by simp [FailsOpen, isWritten, noFlush, noSync]
      dsimp only at isFailure
      split at isFailure
      · simp at isFailure
      · exact leftAt_of_abandon removes below emptied (by simp [closes]) isFailure

/-! ## Both outcomes -/

/-- A write that ends well does the same when no call is to fail. -/
theorem atomicWrite_none_of_ok {faults : WriteFaults} {here : Location} {path : Path}
    {draft : Draft} {tree after : FileTree}
    (isOk : tree.atomicWrite faults here path draft = (.ok (), after)) :
    tree.atomicWrite WriteFaults.none here path draft = (.ok (), after) := by
  obtain ⟨made, temporary, created, isMade, isCreated, isFilled⟩ := exists_of_atomicWrite isOk
  have noFault : ∀ call, call ≠ .closeAgain ∧ call ≠ .removeTemporary → faults call = none :=
    fun _ => faults_eq_none_of_atomicWrite isOk
  have sameContent : filled WriteFaults.none draft = filled faults draft := by
    rw [filled, filled, noFault .write (by decide), WriteFaults.none]
  simp only [atomicWrite, isMade, isCreated, WriteFaults.none]
  rw [fillAndMove] at isFilled ⊢
  rw [sameContent]
  cases isContent : filled faults draft with
  | error error =>
      rw [isContent] at isFilled
      exact absurd isFilled (abandon_ne_ok _ _ _ _ _ _)
  | ok content =>
      simp only [isContent, noFault .flush (by decide), noFault .sync (by decide),
        noFault .close (by decide), noFault .replace (by decide)] at isFilled
      simp only [WriteFaults.none]
      split at isFilled
      · exact isFilled
      · exact absurd isFilled (abandon_ne_ok _ _ _ _ _ _)

/-- What stands at a location is what stood there, or a new directory on the way to a
path. -/
def SparedAt (here : Location) (path : Path) (tree after : FileTree) (location : Location) :
    Prop :=
  after.at? location = tree.at? location ∨
    (tree.at? location = none ∧ after.at? location = some .directory ∧
      location ∈ wayOf here path.parent)

/-- A tree after a write to a path failed, with the temporary file if it was left. -/
structure Spared (here : Location) (path : Path) (left : Prop) (tree after : FileTree) :
    Prop where
  target : SparedAt here path tree after (destination here path)
  gone : ¬ left → ∀ location, SparedAt here path tree after location
  stays : left → ∃ temporary content, IsTemporary here path temporary ∧
    tree.at? temporary = none ∧ after.at? temporary = some (.file content) ∧
    ∀ location, location ≠ temporary → SparedAt here path tree after location

theorem spared_of_madeAt {here : Location} {path : Path} {left : Prop} {tree after : FileTree}
    (noLeft : ¬ left) (madeAt : MadeAt (wayOf here path.parent) tree after) :
    Spared here path left tree after :=
  ⟨madeAt _, fun _ => madeAt, fun isLeft => absurd isLeft noLeft⟩

/-- A temporary file on a way that was made is all that a write can leave besides. -/
theorem LeftAt.spared {here temporary : Location} {path : Path} {left : Prop}
    {tree made after : FileTree} (isTemporary : IsTemporary here path temporary)
    (isFree : made.at? temporary = none) (madeAt : MadeAt (wayOf here path.parent) tree made)
    (leftAt : LeftAt temporary left made after) : Spared here path left tree after := by
  have elsewhere (location : Location) (apart : location ≠ temporary) :
      SparedAt here path tree after location := by
    rw [SparedAt, leftAt.elsewhere location apart]
    exact madeAt location
  have wasFree : tree.at? temporary = none := by
    rcases madeAt temporary with same | ⟨absent, -⟩
    · rw [← same, isFree]
    · exact absent
  refine ⟨elsewhere _ isTemporary.ne_destination.symm, fun noLeft location => ?_,
    fun isLeft => ?_⟩
  · by_cases isHere : location = temporary
    · subst isHere
      exact .inl ((leftAt.gone noLeft).trans wasFree.symm)
    · exact elsewhere location isHere
  · obtain ⟨content, holds⟩ := leftAt.stays isLeft
    exact ⟨temporary, content, isTemporary, wasFree, holds, elsewhere⟩

/-- A write that fails changes nothing but the way to its path, unless it fails while its
temporary file is open and that file cannot be closed. -/
theorem WellFormed.spared_of_atomicWrite {tree after : FileTree} (wellFormed : tree.WellFormed)
    {faults : WriteFaults} (removes : faults .removeTemporary = none) {here : Location}
    (isHere : tree.at? here = some .directory) {path : Path} {draft : Draft} {error : FileError}
    (isFailure : tree.atomicWrite faults here path draft = (.error error, after)) :
    Spared here path (LeavesTemporary faults here path draft tree) tree after := by
  have madeAt := madeAt_makeDirectories here path.parent tree
  rw [atomicWrite] at isFailure
  split at isFailure
  next makeFault =>
    obtain ⟨-, rfl⟩ := Prod.mk.inj isFailure
    refine spared_of_madeAt ?_ fun _ => .inl rfl
    rintro ⟨⟨makes, -⟩, -⟩
    rw [makes] at makeFault
    contradiction
  next makes =>
    split at isFailure
    next isMade =>
      obtain ⟨-, rfl⟩ := Prod.mk.inj isFailure
      rw [isMade] at madeAt
      refine spared_of_madeAt ?_ madeAt
      rintro ⟨⟨-, -, made, temporary, created, isMadeWell, -⟩, -⟩
      rw [isMade] at isMadeWell
      simp at isMadeWell
    next made isMade =>
      rw [isMade] at madeAt
      split at isFailure
      next createFault =>
        obtain ⟨-, rfl⟩ := Prod.mk.inj isFailure
        refine spared_of_madeAt ?_ madeAt
        rintro ⟨⟨-, creates, -⟩, -⟩
        rw [creates] at createFault
        contradiction
      next notCreated =>
        obtain ⟨-, rfl⟩ := Prod.mk.inj isFailure
        refine spared_of_madeAt ?_ madeAt
        rintro ⟨⟨-, -, other, temporary, created, isMadeWell, isCreated⟩, -⟩
        rw [isMade] at isMadeWell
        obtain ⟨-, rfl⟩ := Prod.mk.inj isMadeWell
        rw [isCreated] at notCreated
        contradiction
      next temporary created creates isCreated =>
        obtain ⟨madeFormed, -, reached⟩ := wellFormed.reached_of_makeDirectories isHere isMade
        have makesTemporary : MakesTemporary faults here path tree :=
          ⟨makes, creates, made, temporary, created, isMade, isCreated⟩
        obtain ⟨isTemporary, isFree, rfl⟩ := madeFormed.of_createTemporary reached isCreated
        have below : temporary ≠ [] := by
          rintro rfl
          simp at isFree
        have leftAt := leftAt_of_fillAndMove removes below isFailure
        have isLeft : LeavesTemporary faults here path draft tree ↔
            FailsOpen faults draft ∧ faults .closeAgain ≠ none :=
          and_iff_right makesTemporary
        rw [isLeft]
        exact leftAt.spared isTemporary isFree madeAt

/-- A write whose temporary file can be removed lands where its path leads, or fails and
spares what was there. -/
theorem WellFormed.landed_or_spared_of_atomicWrite {tree after : FileTree}
    (wellFormed : tree.WellFormed) {faults : WriteFaults}
    (removes : faults .removeTemporary = none) {here : Location}
    (isHere : tree.at? here = some .directory) {path : Path} {draft : Draft}
    {outcome : Except FileError Unit}
    (isWritten : tree.atomicWrite faults here path draft = (outcome, after)) :
    (outcome = .ok () ∧ Landed here path draft tree after) ∨
      ∃ error, outcome = .error error ∧
        Spared here path (LeavesTemporary faults here path draft tree) tree after := by
  cases outcome with
  | ok _ =>
      exact .inl ⟨rfl, wellFormed.landed_of_atomicWrite WriteFaults.allOrNothing_none isHere
        (atomicWrite_none_of_ok isWritten)⟩
  | error error =>
      exact .inr ⟨error, rfl, wellFormed.spared_of_atomicWrite removes isHere isWritten⟩

/-! ## A disk that is full -/

namespace FullDisk

def noSpace : FileError := .failed "No space left on device"

/-- The text is buffered, and neither flushing it nor closing the file brings it out. -/
def faults : WriteFaults := fun call =>
  if call = .flush ∨ call = .closeAgain then some noSpace else none

def path : Path := ⟨.relative, [[.char 'a']]⟩

def draft : Draft := ⟨['n', 'e', 'w'], true⟩

def tree : FileTree := [(["a"], .file (.text ['o', 'l', 'd']))]

def after : FileTree :=
  [(["a"], .file (.text ['o', 'l', 'd'])), ([".a.00000000.tmp"], .file (.text []))]

theorem wellFormed : tree.WellFormed :=
  wellFormed_of_entries (by decide)

theorem isWritten : tree.atomicWrite faults [] path draft = (.error noSpace, after) :=
  rfl

theorem leavesTemporary : LeavesTemporary faults [] path draft tree :=
  ⟨⟨rfl, rfl, tree, _, _, rfl, rfl⟩, .inr (.inr (.inl (by decide))), by decide⟩

end FullDisk

theorem landed_or_spared_of_fullDisk :
    FullDisk.tree.WellFormed ∧ FullDisk.faults .removeTemporary = none ∧
      FullDisk.tree.at? [] = some .directory ∧
      ∃ temporary content, IsTemporary [] FullDisk.path temporary ∧
        FullDisk.tree.at? temporary = none ∧
        FullDisk.after.at? temporary = some (.file content) := by
  refine ⟨FullDisk.wellFormed, rfl, rfl, ?_⟩
  rcases FullDisk.wellFormed.landed_or_spared_of_atomicWrite rfl rfl FullDisk.isWritten with
    ⟨isOk, -⟩ | ⟨-, -, spared⟩
  · contradiction
  · obtain ⟨temporary, content, isTemporary, wasFree, holds, -⟩ :=
      spared.stays FullDisk.leavesTemporary
    exact ⟨temporary, content, isTemporary, wasFree, holds⟩

/-- A write that fails leaves its temporary file on a full disk.  Without any fault, one
to a path through a directory of its own name, which was missing, finds it in its place. -/
theorem atomicWrite_leaves_temporary :
    FullDisk.faults .removeTemporary = none ∧
      FullDisk.tree.atomicWrite FullDisk.faults [] FullDisk.path FullDisk.draft =
        (.error FullDisk.noSpace, FullDisk.after) ∧
      FullDisk.after.at? [".a.00000000.tmp"] = some (.file (.text [])) ∧
      FileTree.atomicWrite .none [] (Path.ofString "x/../x") FullDisk.draft [] =
        (.error .isDirectory, [(["x"], .directory)]) :=
  ⟨rfl, rfl, rfl, rfl⟩

end FileTree

end ApiWorkshop

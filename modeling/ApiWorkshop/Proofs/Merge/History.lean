import ApiWorkshop.Merge.Snapshot
import ApiWorkshop.Proofs.Files.Temporary
import ApiWorkshop.Proofs.Files.Writes
import ApiWorkshop.Proofs.Merge.Planned

/-!
# The history of a run

A snapshot of paths that name places notes what stands at these places.  It cannot be
taken if nothing can be looked up under one of the paths because it is too long.

A run writes drafts one after the other.  Its history tells for each write
whether it put its text in place or failed.  From the history follows what every
file holds in the end: files whose writes went well hold their texts, and all
others hold what they held before.  A draft that has no bytes can stop the run; then
the drafts in front of it have such a history.
-/

namespace ApiWorkshop

/-! ## What a snapshot captures -/

/-- Paths below a project directory that name different places. -/
structure Places (tree : FileTree) (here : Location) (root : Path) (paths : List LooseText)
    (place : LooseText → Location) : Prop where
  nodup : paths.Nodup
  named : ∀ path ∈ paths, tree.Names here (root.join (Path.ofText path)) (place path)
  apart : ∀ path ∈ paths, ∀ other ∈ paths, place path = place other → path = other

theorem Places.of_directories {tree other : FileTree} {here : Location} {root : Path}
    {paths : List LooseText} {place : LooseText → Location}
    (places : Places tree here root paths place)
    (keeps : ∀ location, tree.at? location = some .directory →
      other.at? location = some .directory) : Places other here root paths place :=
  ⟨places.nodup, fun path member => (places.named path member).of_directories keeps,
    places.apart⟩

namespace Snapshot

/-- What a snapshot has of a file, if it can be read: its text, if it is there. -/
def contentOf? : Option Node → Option (Option Text)
  | none => some none
  | some (.file (.text text)) => some (some text)
  | some _ => none

/-- The failure that a snapshot has of a file that cannot be read. -/
def failureOf? (file : Path) (node : Option Node) : Option Failure :=
  if (contentOf? node).isSome then none else some (.unreadable file)

/-- The snapshot of paths that notes a node for each of them. -/
def ofNodes (root : Path) (paths : List LooseText) (node : LooseText → Option Node) : Snapshot where
  contents := paths.filterMap fun path => (contentOf? (node path)).map fun found => (path, found)
  unreadable := paths.filterMap fun path =>
    (failureOf? (root.join (Path.ofText path)) (node path)).map fun found => (path, found)

theorem text?_ofNodes {root : Path} {paths : List LooseText} {node : LooseText → Option Node}
    {path : LooseText} (member : path ∈ paths) :
    (ofNodes root paths node).text? path = (contentOf? (node path)).join := by
  rw [text?, ofNodes, Entries.get?_filterMap, if_pos member]

theorem isUnreadable_ofNodes {root : Path} {paths : List LooseText}
    {node : LooseText → Option Node} {path : LooseText} (member : path ∈ paths) :
    (ofNodes root paths node).isUnreadable path = (contentOf? (node path)).isNone := by
  rw [isUnreadable, Entries.hasKey, ofNodes, Entries.get?_filterMap, if_pos member, failureOf?]
  cases contentOf? (node path) <;> rfl

/-- A snapshot has a text where a file with this text stands. -/
theorem text?_ofNodes_eq_some_iff {tree : FileTree} {root : Path} {paths : List LooseText}
    {place : LooseText → Location} {path : LooseText} (member : path ∈ paths) {text : Text} :
    (ofNodes root paths fun path => tree.at? (place path)).text? path = some text ↔
      tree.fileAt? (place path) = some (.text text) := by
  rw [text?_ofNodes member, FileTree.fileAt?]
  cases tree.at? (place path) with
  | none => simp [contentOf?]
  | some node => rcases node with (found | bytes) | _ <;> simp [contentOf?]

theorem isUnreadable_of_fileAt? {tree : FileTree} {root : Path} {paths : List LooseText}
    {place : LooseText → Location} {path : LooseText} (member : path ∈ paths) {text : Text}
    (found : tree.fileAt? (place path) = some (.text text)) :
    (ofNodes root paths fun path => tree.at? (place path)).isUnreadable path = false := by
  rw [isUnreadable_ofNodes member]
  rw [FileTree.fileAt?] at found
  cases isNode : tree.at? (place path) with
  | none => simp [isNode] at found
  | some node => rcases node with (text | bytes) | _ <;> simp_all [contentOf?]

/-- One snapshot with the entries of another one after its own. -/
def append (first second : Snapshot) : Snapshot :=
  ⟨first.contents ++ second.contents, first.unreadable ++ second.unreadable⟩

theorem append_assoc (first second third : Snapshot) :
    (first.append second).append third = first.append (second.append third) := by
  simp [append]

theorem ofNodes_cons (root : Path) (path : LooseText) (paths : List LooseText)
    (node : LooseText → Option Node) :
    ofNodes root (path :: paths) node =
      (ofNodes root [path] node).append (ofNodes root paths node) := by
  simp [ofNodes, append, ← List.filterMap_append]

/-- Adding a path notes the node at its place. -/
theorem add_cases {tree : FileTree} (wellFormed : tree.WellFormed) {here place : Location}
    {root : Path} {path : LooseText}
    (names : tree.Names here (root.join (Path.ofText path)) place) (snapshot : Snapshot) :
    (add tree here root path snapshot =
        .ok (snapshot.append (ofNodes root [path] fun _ => tree.at? place)) ∧
      (tree.at? place = none ∨ FileTree.IsShort (root.join (Path.ofText path)))) ∨
      (¬ FileTree.IsShort (root.join (Path.ofText path)) ∧
        ∃ error, add tree here root path snapshot = .error error) := by
  rcases wellFormed.locate_cases names with
    ⟨located, short⟩ | ⟨missing, absent⟩ | ⟨tooLong, notShort⟩
  · refine .inl ⟨?_, .inr short⟩
    cases found : tree.at? place with
    | none =>
        simp [add, append, ofNodes, contentOf?, failureOf?, FileTree.pathExists, FileTree.holds,
          FileTree.node, located, found, Bind.bind, Except.bind]
    | some node =>
        rcases node with (text | bytes) | _ <;>
          simp [add, append, ofNodes, contentOf?, failureOf?, FileTree.pathExists,
            FileTree.holds, FileTree.readText, FileTree.node, located, found, Bind.bind,
            Except.bind]
  · refine .inl ⟨?_, .inl absent⟩
    rcases missing with located | located <;>
      simp [add, append, ofNodes, contentOf?, failureOf?, FileTree.pathExists, FileTree.holds,
        FileTree.node, located, absent, Bind.bind, Except.bind]
  · right
    refine ⟨notShort, .nameTooLong, ?_⟩
    simp [add, FileTree.pathExists, FileTree.holds, FileTree.node, tooLong,
      FileError.isFromSystem, Bind.bind, Except.bind]

/-- A snapshot notes what stands at the places that its paths name. -/
theorem capture_cases {tree : FileTree} (wellFormed : tree.WellFormed) {here : Location}
    {root : Path} {paths : List LooseText} {place : LooseText → Location}
    (places : Places tree here root paths place) :
    (capture tree here root paths = .ok (ofNodes root paths fun path => tree.at? (place path)) ∧
      ∀ path ∈ paths, tree.at? (place path) = none ∨
        FileTree.IsShort (root.join (Path.ofText path))) ∨
      ((∃ path ∈ paths, ¬ FileTree.IsShort (root.join (Path.ofText path))) ∧
        ∃ error, capture tree here root paths = .error error) := by
  have named := places.named
  rw [capture, Entries.eraseDups_of_nodup places.nodup]
  clear places
  suffices ∀ snapshot : Snapshot,
      (paths.foldlM (fun snapshot path => add tree here root path snapshot) snapshot =
          .ok (snapshot.append (ofNodes root paths fun path => tree.at? (place path))) ∧
        ∀ path ∈ paths, tree.at? (place path) = none ∨
          FileTree.IsShort (root.join (Path.ofText path))) ∨
        ((∃ path ∈ paths, ¬ FileTree.IsShort (root.join (Path.ofText path))) ∧
          ∃ error, paths.foldlM (fun snapshot path => add tree here root path snapshot) snapshot =
            .error error) by
    simpa [append] using this {}
  induction paths with
  | nil => exact fun snapshot => .inl ⟨by simp [ofNodes, append, pure, Except.pure], by simp⟩
  | cons path paths ih =>
      intro snapshot
      have rest := ih fun other member => named other (List.mem_cons_of_mem path member)
      rcases add_cases wellFormed (named path (by simp)) snapshot with
        ⟨added, isShort⟩ | ⟨notShort, error, failed⟩
      · rcases rest (snapshot.append (ofNodes root [path] fun _ => tree.at? (place path))) with
          ⟨isOk, areShort⟩ | ⟨⟨other, member, notShort⟩, error, failed⟩
        · refine .inl ⟨?_, List.forall_mem_cons.mpr ⟨isShort, areShort⟩⟩
          rw [List.foldlM_cons, added, ofNodes_cons root path paths, ← append_assoc]
          exact isOk
        · refine .inr ⟨⟨other, List.mem_cons_of_mem path member, notShort⟩, error, ?_⟩
          rw [List.foldlM_cons, added]
          exact failed
      · refine .inr ⟨⟨path, by simp, notShort⟩, error, ?_⟩
        rw [List.foldlM_cons, failed]
        rfl

theorem eq_ofNodes_of_capture {tree : FileTree} (wellFormed : tree.WellFormed) {here : Location}
    {root : Path} {paths : List LooseText} {place : LooseText → Location}
    (places : Places tree here root paths place) {snapshot : Snapshot}
    (captured : capture tree here root paths = .ok snapshot) :
    snapshot = ofNodes root paths fun path => tree.at? (place path) := by
  rcases capture_cases wellFormed places with ⟨isOk, -⟩ | ⟨-, error, isError⟩
  · exact Except.ok.inj (captured.symm.trans isOk)
  · rw [isError] at captured
    contradiction

end Snapshot

namespace Apply

/-- The drafts that are planned for some files. -/
def writes (snapshot : Snapshot) (files : Entries LooseText (List FileOperation)) :
    Entries LooseText Draft :=
  files.filterMap fun file =>
    (plannedDraft snapshot file.1 file.2).map fun draft => (file.1, draft)

/-- The paths of the files that cannot be written in a run. -/
def failedPaths (faults : LooseText → WriteFaults) (here : Location) (root : Path)
    (snapshot : Snapshot) : List (LooseText × List FileOperation) → FileTree → List LooseText
  | [], _ => []
  | (path, operations) :: groups, tree =>
      match writeFile faults here root snapshot path operations tree with
      | (.ok _, tree) => failedPaths faults here root snapshot groups tree
      | (.error _, tree) => path :: failedPaths faults here root snapshot groups tree

/-- Writes made one after the other, with the paths of those that failed. -/
inductive History (root : Path) (place : LooseText → Location) :
    Entries LooseText Draft → List LooseText → FileTree → FileTree → Prop
  | done {tree : FileTree} : History root place [] [] tree tree
  | wrote {path : LooseText} {draft : Draft} {writes : Entries LooseText Draft}
      {failed : List LooseText} {tree next after : FileTree}
      (whole : draft.whole = true) (short : FileTree.IsShort (root.join (Path.ofText path)))
      (written : FileTree.Written (place path) draft.text tree next)
      (rest : History root place writes failed next after) :
      History root place ((path, draft) :: writes) failed tree after
  | failed {path : LooseText} {draft : Draft} {writes : Entries LooseText Draft}
      {failed : List LooseText} {tree next after : FileTree}
      (grown : FileTree.Grown tree next)
      (rest : History root place writes failed next after) :
      History root place ((path, draft) :: writes) (path :: failed) tree after

namespace History

variable {root : Path} {place : LooseText → Location} {writes : Entries LooseText Draft}
  {failed : List LooseText} {tree after : FileTree}

theorem failed_subset (history : History root place writes failed tree after) :
    failed ⊆ Entries.keys writes := by
  induction history with
  | done => simp
  | wrote _ _ _ _ ih => exact fun path member => List.mem_cons_of_mem _ (ih member)
  | failed _ _ ih =>
      intro path member
      rcases List.mem_cons.mp member with rfl | inRest
      · simp [Entries.keys]
      · exact List.mem_cons_of_mem _ (ih inRest)

theorem keeps (history : History root place writes failed tree after) {location : Location}
    (isDirectory : tree.at? location = some .directory) :
    after.at? location = some .directory := by
  induction history with
  | done => exact isDirectory
  | wrote _ _ written _ ih => exact ih (written.keeps isDirectory)
  | failed grown _ ih => exact ih (grown.keeps isDirectory)

/-- A file that no write puts a text in holds what it held. -/
theorem fileAt?_of_apart (history : History root place writes failed tree after)
    (distinct : (Entries.keys writes).Nodup) {location : Location}
    (apart : ∀ write ∈ writes, write.1 ∉ failed → place write.1 ≠ location) :
    after.fileAt? location = tree.fileAt? location := by
  induction history with
  | done => rfl
  | wrote _ _ written rest ih =>
      obtain ⟨isNew, restDistinct⟩ := List.nodup_cons.mp distinct
      have here := apart _ (by simp) fun inFailed => isNew (rest.failed_subset inFailed)
      rw [ih restDistinct fun write member => apart write (List.mem_cons_of_mem _ member),
        written.fileAt?_eq, if_neg (Ne.symm here)]
  | failed grown _ ih =>
      obtain ⟨isNew, restDistinct⟩ := List.nodup_cons.mp distinct
      rw [ih restDistinct, grown.fileAt?_eq]
      intro write member notFailed
      refine apart write (List.mem_cons_of_mem _ member) fun inFailed => ?_
      rcases List.mem_cons.mp inFailed with samePath | inRest
      · exact isNew (List.mem_map.mpr ⟨write, member, samePath⟩)
      · exact notFailed inRest

/-- A file whose write went well holds the text that was written. -/
theorem fileAt?_of_mem (history : History root place writes failed tree after)
    (distinct : (Entries.keys writes).Nodup)
    (apart : ∀ path ∈ Entries.keys writes, ∀ other ∈ Entries.keys writes,
      place path = place other → path = other)
    {write : LooseText × Draft} (member : write ∈ writes) (notFailed : write.1 ∉ failed) :
    after.fileAt? (place write.1) = some (.text write.2.text) := by
  induction history with
  | done => simp at member
  | wrote _ _ written rest ih =>
      obtain ⟨isNew, restDistinct⟩ := List.nodup_cons.mp distinct
      rcases List.mem_cons.mp member with rfl | inRest
      · rw [rest.fileAt?_of_apart restDistinct, written.fileAt?_eq, if_pos rfl]
        intro other inOthers _ samePlace
        have inKeys : other.1 ∈ Entries.keys _ := List.mem_map_of_mem inOthers
        have samePath := apart _ (List.mem_cons_of_mem _ inKeys) _ (List.mem_cons_self ..) samePlace
        exact isNew (samePath ▸ inKeys)
      · exact ih restDistinct
          (fun path inKeys other inOthers =>
            apart path (List.mem_cons_of_mem _ inKeys) other (List.mem_cons_of_mem _ inOthers))
          inRest notFailed
  | failed _ _ ih =>
      obtain ⟨-, restDistinct⟩ := List.nodup_cons.mp distinct
      rcases List.mem_cons.mp member with rfl | inRest
      · simp at notFailed
      · exact ih restDistinct
          (fun path inKeys other inOthers =>
            apart path (List.mem_cons_of_mem _ inKeys) other (List.mem_cons_of_mem _ inOthers))
          inRest fun inFailed => notFailed (List.mem_cons_of_mem _ inFailed)

/-- Only drafts that have bytes are written, and only to short paths. -/
theorem whole_and_isShort_of_mem (history : History root place writes failed tree after)
    {write : LooseText × Draft} (member : write ∈ writes) (notFailed : write.1 ∉ failed) :
    write.2.whole = true ∧ FileTree.IsShort (root.join (Path.ofText write.1)) := by
  induction history with
  | done => simp at member
  | wrote whole short _ _ ih =>
      rcases List.mem_cons.mp member with rfl | inRest
      · exact ⟨whole, short⟩
      · exact ih inRest notFailed
  | failed _ _ ih =>
      rcases List.mem_cons.mp member with rfl | inRest
      · simp at notFailed
      · exact ih inRest fun inFailed => notFailed (List.mem_cons_of_mem _ inFailed)

/-- When no write fails, nothing changes but on the way to a place. -/
theorem at?_of_notPrefix (history : History root place writes [] tree after)
    {location : Location} (apart : ∀ write ∈ writes, ¬ location <+: place write.1) :
    after.at? location = tree.at? location := by
  generalize noneFailed : ([] : List LooseText) = failed at history
  induction history with
  | done => rfl
  | @wrote path draft _ _ _ _ _ _ _ written _ ih =>
      have offWay := apart (path, draft) (by simp)
      rw [ih (fun write member => apart write (List.mem_cons_of_mem _ member)) noneFailed]
      have different : location ≠ place path := by
        rintro rfl
        exact offWay List.prefix_rfl
      rcases written.elsewhere location different with same | ⟨-, -, onWay⟩
      · exact same
      · exact absurd onWay offWay
  | failed => contradiction

end History

/-- The files after some writes: those whose writes did not fail hold what was written, and
all others hold what they held. -/
structure Filled (place : LooseText → Location) (writes : Entries LooseText Draft)
    (failed : List LooseText) (tree after : FileTree) : Prop where
  written : ∀ write ∈ writes, write.1 ∉ failed →
    after.fileAt? (place write.1) = some (.text write.2.text)
  elsewhere : ∀ location, (∀ write ∈ writes, write.1 ∉ failed → place write.1 ≠ location) →
    after.fileAt? location = tree.fileAt? location

/-- Writes made one after the other until a draft without bytes stops them, with the paths
of those that fail. -/
inductive Stopped (root : Path) (place : LooseText → Location) :
    Entries LooseText Draft → List LooseText → FileTree → FileTree → Prop
  | ended {path : LooseText} {draft : Draft} {writes : Entries LooseText Draft}
      {failed : List LooseText} {tree after : FileTree}
      (notWhole : draft.whole = false) (grown : FileTree.Grown tree after) :
      Stopped root place ((path, draft) :: writes) (path :: failed) tree after
  | wrote {path : LooseText} {draft : Draft} {writes : Entries LooseText Draft}
      {failed : List LooseText} {tree next after : FileTree}
      (whole : draft.whole = true) (short : FileTree.IsShort (root.join (Path.ofText path)))
      (written : FileTree.Written (place path) draft.text tree next)
      (rest : Stopped root place writes failed next after) :
      Stopped root place ((path, draft) :: writes) failed tree after
  | failed {path : LooseText} {draft : Draft} {writes : Entries LooseText Draft}
      {failed : List LooseText} {tree next after : FileTree}
      (grown : FileTree.Grown tree next)
      (rest : Stopped root place writes failed next after) :
      Stopped root place ((path, draft) :: writes) (path :: failed) tree after

namespace Stopped

variable {root : Path} {place : LooseText → Location} {writes : Entries LooseText Draft}
  {failed : List LooseText} {tree after : FileTree}

/-- The writes in front of the draft that stops a run have a history. -/
theorem exists_history (stopped : Stopped root place writes failed tree after) :
    ∃ before path draft rest earlier later last,
      writes = before ++ (path, draft) :: rest ∧ draft.whole = false ∧
      failed = earlier ++ path :: later ∧
      History root place before earlier tree last ∧ FileTree.Grown last after := by
  induction stopped with
  | @ended path draft writes failed tree _ notWhole grown =>
      exact ⟨[], path, draft, writes, [], failed, tree, rfl, notWhole, rfl, .done, grown⟩
  | @wrote first content _ _ _ _ _ whole short written _ ih =>
      obtain ⟨before, path, draft, rest, earlier, later, last, rfl, notWhole, rfl, history, grown⟩ :=
        ih
      exact ⟨(first, content) :: before, path, draft, rest, earlier, later, last, rfl, notWhole, rfl,
        .wrote whole short written history, grown⟩
  | @failed first content _ _ _ _ _ firstGrown _ ih =>
      obtain ⟨before, path, draft, rest, earlier, later, last, rfl, notWhole, rfl, history, grown⟩ :=
        ih
      exact ⟨(first, content) :: before, path, draft, rest, first :: earlier, later, last, rfl,
        notWhole, rfl, .failed firstGrown history, grown⟩

/-- The writes in front of the draft that stops a run fill their files. -/
theorem exists_filled (stopped : Stopped root place writes failed tree after)
    (distinct : (Entries.keys writes).Nodup)
    (apart : ∀ path ∈ Entries.keys writes, ∀ other ∈ Entries.keys writes,
      place path = place other → path = other) :
    ∃ before path draft rest earlier later,
      writes = before ++ (path, draft) :: rest ∧ draft.whole = false ∧
      failed = earlier ++ path :: later ∧ Filled place before earlier tree after := by
  obtain ⟨before, path, draft, rest, earlier, later, last, rfl, notWhole, rfl, history, grown⟩ :=
    stopped.exists_history
  have keysBefore : (Entries.keys before).Sublist (Entries.keys (before ++ (path, draft) :: rest)) :=
    (List.sublist_append_left before _).map Prod.fst
  have beforeDistinct := keysBefore.nodup distinct
  refine ⟨before, path, draft, rest, earlier, later, rfl, notWhole, rfl,
    fun write member notFailed => ?_, fun location apart => ?_⟩
  · rw [grown.fileAt?_eq]
    exact history.fileAt?_of_mem beforeDistinct
      (fun first inFirst second inSecond =>
        apart first (keysBefore.subset inFirst) second (keysBefore.subset inSecond))
      member notFailed
  · rw [grown.fileAt?_eq]
    exact history.fileAt?_of_apart beforeDistinct apart

theorem exists_notWhole (stopped : Stopped root place writes failed tree after) :
    ∃ write ∈ writes, write.2.whole = false := by
  obtain ⟨before, path, draft, rest, -, -, -, rfl, notWhole, -⟩ := stopped.exists_history
  exact ⟨(path, draft), by simp, notWhole⟩

end Stopped

/-! ## From a run to its history -/

theorem writes_cons_of_none {snapshot : Snapshot} {path : LooseText}
    {operations : List FileOperation} (groups : Entries LooseText (List FileOperation))
    (noDraft : plannedDraft snapshot path operations = none) :
    writes snapshot ((path, operations) :: groups) = writes snapshot groups := by
  simp [writes, noDraft]

theorem writes_cons_of_some {snapshot : Snapshot} {path : LooseText}
    {operations : List FileOperation} {draft : Draft}
    (groups : Entries LooseText (List FileOperation))
    (isDraft : plannedDraft snapshot path operations = some draft) :
    writes snapshot ((path, operations) :: groups) = (path, draft) :: writes snapshot groups := by
  simp [writes, isDraft]

/-- Writing a file where its merge succeeds leaves the tree alone, puts the draft
in place, or fails. -/
theorem writeFile_cases {faults : LooseText → WriteFaults} {path : LooseText}
    (allOrNothing : (faults path).AllOrNothing) {here : Location} {root : Path}
    {snapshot : Snapshot} {place : LooseText → Location} {tree : FileTree}
    (wellFormed : tree.WellFormed) (isHere : tree.at? here = some .directory)
    {operations : List FileOperation}
    (names : tree.Names here (root.join (Path.ofText path)) (place path))
    (merged : mergedDraft tree here root snapshot path operations =
      .ok (plannedDraft snapshot path operations)) :
    let outcome := writeFile faults here root snapshot path operations tree
    outcome.2.WellFormed ∧
      ((plannedDraft snapshot path operations = none ∧ outcome = (.ok (), tree)) ∨
        ∃ draft, plannedDraft snapshot path operations = some draft ∧
          ((outcome.1 = .ok () ∧ draft.whole = true ∧
              FileTree.IsShort (root.join (Path.ofText path)) ∧
              FileTree.Written (place path) draft.text tree outcome.2) ∨
            ∃ error, outcome.1 = .error (.file error) ∧
              (draft.whole = true → error.isFromSystem = true) ∧
              FileTree.Grown tree outcome.2)) := by
  rw [writeFile, merged]
  cases isDraft : plannedDraft snapshot path operations with
  | none => exact ⟨wellFormed, .inl ⟨rfl, rfl⟩⟩
  | some draft =>
      have effect := wellFormed.atomicWrite_cases allOrNothing isHere names draft
      dsimp only
      split
      next next isWrite =>
        rw [isWrite] at effect
        obtain ⟨nextFormed, ⟨-, whole, short, -, written⟩ | ⟨error, isError, -⟩⟩ := effect
        · exact ⟨nextFormed, .inr ⟨draft, rfl, .inl ⟨rfl, whole, short, written⟩⟩⟩
        · contradiction
      next error next isWrite =>
        rw [isWrite] at effect
        obtain ⟨nextFormed, ⟨isOk, -⟩ | ⟨found, isError, fromSystem, grown⟩⟩ := effect
        · contradiction
        · obtain rfl := Except.error.inj isError
          exact ⟨nextFormed, .inr ⟨draft, rfl, .inr ⟨error, rfl, fromSystem, grown⟩⟩⟩

/-- The paths still to come are not among those whose failures are noted. -/
theorem notMem_keys_put {path : LooseText} {groups : Entries LooseText (List FileOperation)}
    {failures : Entries LooseText Failure} (failure : Failure)
    (pathNew : path ∉ Entries.keys failures) (notAgain : path ∉ Entries.keys groups)
    (isNew : ∀ group ∈ groups, group.1 ∉ Entries.keys failures) :
    ∀ group ∈ groups, group.1 ∉ Entries.keys (Entries.put path failure failures) := by
  intro group member inKeys
  rw [Entries.keys_put_of_not_mem failure pathNew] at inKeys
  rcases List.mem_append.mp inKeys with inFailures | isPath
  · exact isNew group member inFailures
  · exact notAgain (List.mem_map.mpr ⟨group, member, List.mem_singleton.mp isPath⟩)

/-- A run writes all that is planned and notes the paths whose writes failed.
Only a draft that has no bytes stops it before. -/
theorem writeAll_cases {faults : LooseText → WriteFaults}
    (allOrNothing : ∀ path, (faults path).AllOrNothing) {here : Location} {root : Path}
    {snapshot : Snapshot} {place : LooseText → Location} {tree : FileTree}
    (wellFormed : tree.WellFormed) (isHere : tree.at? here = some .directory)
    {groups : Entries LooseText (List FileOperation)} (distinct : (Entries.keys groups).Nodup)
    (named : ∀ group ∈ groups, tree.Names here (root.join (Path.ofText group.1)) (place group.1))
    (merged : ∀ group ∈ groups, ∀ tree,
      mergedDraft tree here root snapshot group.1 group.2 =
        .ok (plannedDraft snapshot group.1 group.2))
    (failures : Entries LooseText Failure)
    (isNew : ∀ group ∈ groups, group.1 ∉ Entries.keys failures) :
    let outcome := writeAll faults here root snapshot groups failures tree
    let failed := failedPaths faults here root snapshot groups tree
    (∃ noted, outcome.1 = .ok noted ∧ Entries.keys noted = Entries.keys failures ++ failed ∧
        outcome.2.WellFormed ∧
        History root place (writes snapshot groups) failed tree outcome.2) ∨
      (∃ error, outcome.1 = .error error) ∧
        Stopped root place (writes snapshot groups) failed tree outcome.2 := by
  induction groups generalizing failures tree with
  | nil => exact .inl ⟨failures, rfl, by simp [failedPaths], wellFormed, .done⟩
  | cons group groups ih =>
      obtain ⟨path, operations⟩ := group
      obtain ⟨pathNew, restDistinct⟩ := List.nodup_cons.mp distinct
      have restMerged := fun other member => merged other (List.mem_cons_of_mem _ member)
      have restNamed := fun other member => named other (List.mem_cons_of_mem _ member)
      have restNew := fun other member => isNew other (List.mem_cons_of_mem _ member)
      have effect := writeFile_cases (allOrNothing path) wellFormed isHere
        (named (path, operations) List.mem_cons_self)
        (merged (path, operations) List.mem_cons_self tree)
      simp only [writeAll, failedPaths]
      generalize writeFile faults here root snapshot path operations tree = outcome at effect
      obtain ⟨nextFormed, ⟨isDraft, rfl⟩ | ⟨draft, isDraft, wrote | failure⟩⟩ := effect
      -- The run goes on from the tree after this file: the same one, one with the draft
      -- in place, or one that only has more directories.
      · rw [writes_cons_of_none groups isDraft]
        exact ih wellFormed isHere restDistinct restNamed restMerged failures restNew
      · obtain ⟨result, next⟩ := outcome
        obtain ⟨rfl, whole, short, written⟩ := wrote
        rw [writes_cons_of_some groups isDraft]
        rcases ih nextFormed (written.keeps isHere) restDistinct
          (fun other member => (restNamed other member).of_directories fun _ => written.keeps)
          restMerged failures restNew with
          ⟨noted, isOk, keysNoted, lastFormed, history⟩ | ⟨isError, stopped⟩
        · exact .inl ⟨noted, isOk, keysNoted, lastFormed, .wrote whole short written history⟩
        · exact .inr ⟨isError, .wrote whole short written stopped⟩
      · obtain ⟨result, next⟩ := outcome
        obtain ⟨error, rfl, fromSystem, grown⟩ := failure
        rw [writes_cons_of_some groups isDraft]
        -- An error of the file system is noted; any other one comes from a draft without
        -- bytes and ends the run here.
        cases isSystem : error.isFromSystem with
        | false =>
            simp only [failure?, isSystem, Bool.false_eq_true, if_false]
            exact .inr ⟨⟨.file error, rfl⟩, .ended (by simpa [isSystem] using fromSystem) grown⟩
        | true =>
            have pathKey := isNew (path, operations) List.mem_cons_self
            have putKeys := Entries.keys_put_of_not_mem (.unwritten error) pathKey
            have putNew := notMem_keys_put (.unwritten error) pathKey pathNew restNew
            simp only [failure?, isSystem, if_true]
            rcases ih nextFormed (grown.keeps isHere) restDistinct
              (fun other member => (restNamed other member).of_directories fun _ => grown.keeps)
              restMerged (Entries.put path (.unwritten error) failures) putNew
              with ⟨noted, isOk, keysNoted, lastFormed, history⟩ | ⟨isError, stopped⟩
            · refine .inl ⟨noted, isOk, ?_, lastFormed, .failed grown history⟩
              rw [keysNoted, putKeys, List.append_assoc]
              rfl
            · exact .inr ⟨isError, .failed grown stopped⟩

/-- Only a file or a draft can end a run early where every merge succeeds. -/
theorem writeAll_ne_conflict (faults : LooseText → WriteFaults) {here : Location} {root : Path}
    {snapshot : Snapshot} {groups : Entries LooseText (List FileOperation)}
    (merged : ∀ group ∈ groups, ∀ tree, ∃ draft,
      mergedDraft tree here root snapshot group.1 group.2 = .ok draft)
    (failures : Entries LooseText Failure) (tree : FileTree) (conflict : Conflict) :
    (writeAll faults here root snapshot groups failures tree).1 ≠ .error (.conflict conflict) := by
  induction groups generalizing failures tree with
  | nil => simp [writeAll]
  | cons group groups ih =>
      obtain ⟨path, operations⟩ := group
      have rest := ih fun other member => merged other (List.mem_cons_of_mem _ member)
      obtain ⟨draft, isMerged⟩ := merged (path, operations) (by simp) tree
      have ofFile : (∃ next, writeFile faults here root snapshot path operations tree =
          (.ok (), next)) ∨ ∃ error next, writeFile faults here root snapshot path operations tree =
            (.error (.file error), next) := by
        rw [writeFile, isMerged]
        cases draft with
        | none => exact .inl ⟨tree, rfl⟩
        | some draft =>
            dsimp only
            split
            next next isOk => exact .inl ⟨next, rfl⟩
            next error next isError => exact .inr ⟨error, next, rfl⟩
      rcases ofFile with ⟨next, isOk⟩ | ⟨error, next, isError⟩
      · simpa only [writeAll, isOk] using rest failures next
      · simp only [writeAll, isError]
        split
        next failure _ => exact rest (Entries.put path failure failures) next
        next => simp

end Apply

end ApiWorkshop

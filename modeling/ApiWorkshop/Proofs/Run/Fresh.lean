import ApiWorkshop.Proofs.Files.Kept
import ApiWorkshop.Proofs.Merge.Convergence
import ApiWorkshop.Proofs.Merge.Effect

/-!
# Runs on a fresh tree

Where none of the outputs of a run is there, all of them are created.  If no
write fails, every output stands in the end where its path leads, with the text
that was made for it, and everything else is kept but for directories on the
ways.
-/

namespace ApiWorkshop

open FileTree

/-- The place where a path below a root leads. -/
def outputPlace (here : Location) (root : Path) (path : LooseText) : Location :=
  destination here (root.join (Path.ofText path))

/-! ## Nothing to see -/

namespace Snapshot

/-- A snapshot that has no file. -/
structure IsBlank (snapshot : Snapshot) : Prop where
  noText : ∀ path, snapshot.text? path = none
  allReadable : snapshot.unreadable = []

theorem IsBlank.readable {snapshot : Snapshot} (isBlank : snapshot.IsBlank) (path : LooseText) :
    snapshot.isUnreadable path = false := by
  rw [isUnreadable, isBlank.allReadable]
  rfl

theorem isBlank_of_contents {snapshot : Snapshot}
    (noContent : ∀ entry ∈ snapshot.contents, entry.2 = none)
    (allReadable : snapshot.unreadable = []) : snapshot.IsBlank := by
  refine ⟨fun path => ?_, allReadable⟩
  rw [text?]
  cases found : Entries.get? path snapshot.contents with
  | none => rfl
  | some content =>
      obtain rfl : content = none := noContent _ (Entries.mem_of_get? found)
      rfl

/-- A path that leads to nothing is noted as missing. -/
theorem add_of_absent {tree : FileTree} {here : Location} {root : Path} {path : LooseText}
    (absent : tree.at? (outputPlace here root path) = none) {snapshot added : Snapshot}
    (isAdded : add tree here root path snapshot = .ok added) :
    added = { snapshot with contents := snapshot.contents ++ [(path, none)] } := by
  rw [add] at isAdded
  cases present : tree.pathExists here (root.join (Path.ofText path)) with
  | error error => simp [present, Bind.bind, Except.bind] at isAdded
  | ok isThere =>
      cases isThere with
      | false =>
          simp only [present, Bind.bind, Except.bind] at isAdded
          exact (Except.ok.inj isAdded).symm
      | true =>
          obtain ⟨node, found, -⟩ := exists_node_of_holds present
          obtain ⟨place, located, isThere⟩ := node_eq_ok_iff.mp found
          rw [← (names_of_locate located).destination_eq] at isThere
          rw [outputPlace, isThere] at absent
          contradiction

/-- A snapshot of paths that lead to nothing has no file. -/
theorem isBlank_of_capture {tree : FileTree} {here : Location} {root : Path}
    {paths : List LooseText} (absent : ∀ path ∈ paths, tree.at? (outputPlace here root path) = none)
    {snapshot : Snapshot} (captured : capture tree here root paths = .ok snapshot) :
    snapshot.IsBlank := by
  have rest {names : List LooseText} (subset : names ⊆ paths) {before after : Snapshot}
      (noContent : ∀ entry ∈ before.contents, entry.2 = none)
      (allReadable : before.unreadable = [])
      (isAfter : names.foldlM (fun snapshot path => add tree here root path snapshot) before =
        .ok after) : after.IsBlank := by
    induction names generalizing before with
    | nil =>
        obtain rfl := Except.ok.inj isAfter
        exact isBlank_of_contents noContent allReadable
    | cons path names ih =>
        rw [List.foldlM_cons] at isAfter
        cases isAdded : add tree here root path before with
        | error error => simp [isAdded, Bind.bind, Except.bind] at isAfter
        | ok added =>
            rw [isAdded] at isAfter
            obtain ⟨isPath, areNames⟩ := List.cons_subset.mp subset
            have isNext := add_of_absent (absent path isPath) isAdded
            refine ih areNames ?_ ?_ isAfter
            · rw [isNext]
              simpa [or_imp, forall_and] using noContent
            · rw [isNext, allReadable]
  exact rest (fun path member => List.mem_eraseDups.mp member) (by simp) rfl captured

end Snapshot

/-! ## Writes that all end well -/

/-- Drafts written one after the other to their paths below a root. -/
inductive Laid (here : Location) (root : Path) :
    Entries LooseText Draft → FileTree → FileTree → Prop
  | done {tree : FileTree} : Laid here root [] tree tree
  | wrote {path : LooseText} {draft : Draft} {writes : Entries LooseText Draft}
      {tree next after : FileTree}
      (landed : Landed here (root.join (Path.ofText path)) draft tree next)
      (rest : Laid here root writes next after) : Laid here root ((path, draft) :: writes) tree after

namespace Laid

variable {here location : Location} {root : Path} {writes : Entries LooseText Draft}
  {tree after : FileTree}

theorem keeps (laid : Laid here root writes tree after)
    (isDirectory : tree.at? location = some .directory) :
    after.at? location = some .directory := by
  induction laid with
  | done => exact isDirectory
  | wrote landed _ ih => exact ih (landed.keeps isDirectory)

/-- Away from the places of the paths only directories on the ways are new. -/
theorem elsewhere (laid : Laid here root writes tree after)
    (apart : ∀ write ∈ writes, location ≠ outputPlace here root write.1) :
    after.at? location = tree.at? location ∨
      (tree.at? location = none ∧ after.at? location = some .directory ∧
        ∃ write ∈ writes, location ∈ wayOf here (root.join (Path.ofText write.1))) := by
  induction laid with
  | done => exact .inl rfl
  | wrote landed _ ih =>
      have atNext := landed.elsewhere location (apart _ List.mem_cons_self)
      rcases ih fun write member => apart write (List.mem_cons_of_mem _ member) with
        same | ⟨absent, isDirectory, write, member, onWay⟩
      · rw [same]
        exact atNext.imp_right fun ⟨absent, isDirectory, onWay⟩ =>
          ⟨absent, isDirectory, _, List.mem_cons_self, onWay⟩
      · rcases atNext with same | ⟨-, isThere, -⟩
        · exact .inr ⟨same ▸ absent, isDirectory, write, List.mem_cons_of_mem _ member, onWay⟩
        · rw [absent] at isThere
          contradiction

/-- Every draft stands in the end at the place of its path. -/
theorem of_mem (laid : Laid here root writes tree after)
    (distinct : (writes.map fun write => outputPlace here root write.1).Nodup)
    {write : LooseText × Draft} (member : write ∈ writes) :
    write.2.whole = true ∧ IsShort (root.join (Path.ofText write.1)) ∧
      Names after here (root.join (Path.ofText write.1)) (outputPlace here root write.1) ∧
      after.at? (outputPlace here root write.1) = some (.file (.text write.2.text)) := by
  induction laid with
  | done => simp at member
  | @wrote path draft writes _ next _ landed rest ih =>
      obtain ⟨isNew, restDistinct⟩ := List.nodup_cons.mp distinct
      rcases List.mem_cons.mp member with rfl | inRest
      · refine ⟨landed.whole, landed.short, landed.names.of_directories fun _ => rest.keeps, ?_⟩
        have holds : next.at? (outputPlace here root path) = some (.file (.text draft.text)) :=
          landed.holds
        have apart : ∀ other ∈ writes, outputPlace here root path ≠
            outputPlace here root other.1 :=
          fun other inOthers same => isNew (List.mem_map.mpr ⟨other, inOthers, same.symm⟩)
        rcases rest.elsewhere apart with same | ⟨absent, -⟩
        · exact same.trans holds
        · rw [holds] at absent
          contradiction
      · exact ih restDistinct inRest

/-- Where nothing stood at the places, everything is kept. -/
theorem kept (laid : Laid here root writes tree after)
    (absent : ∀ write ∈ writes, tree.at? (outputPlace here root write.1) = none) :
    Kept tree after := by
  intro location node found
  have apart : ∀ write ∈ writes, location ≠ outputPlace here root write.1 := by
    rintro write member rfl
    rw [absent write member] at found
    contradiction
  rcases laid.elsewhere apart with same | ⟨isNew, -⟩
  · rw [same, found]
  · rw [found] at isNew
    contradiction

end Laid

namespace Apply

variable {faults : LooseText → WriteFaults} {here : Location} {root : Path} {snapshot : Snapshot}

theorem ne_nil_of_writeAll {groups : Entries LooseText (List FileOperation)}
    {failures noted : Entries LooseText Failure} (someFailed : failures ≠ [])
    {tree after : FileTree}
    (isRun : writeAll faults here root snapshot groups failures tree = (.ok noted, after)) :
    noted ≠ [] := by
  induction groups generalizing failures tree with
  | nil =>
      obtain ⟨isNoted, -⟩ := Prod.mk.inj isRun
      rwa [← Except.ok.inj isNoted]
  | cons group groups ih =>
      obtain ⟨path, operations⟩ := group
      rw [writeAll] at isRun
      split at isRun
      · exact ih someFailed isRun
      · split at isRun
        · refine ih ?_ isRun
          cases failures with
          | nil => simp [Entries.put]
          | cons failure failures => rw [Entries.put]; split <;> simp
        · simp at isRun

/-- A run without failures has laid all its drafts. -/
theorem laid_of_writeAll (allOrNothing : ∀ path, (faults path).AllOrNothing) {tree after : FileTree}
    (wellFormed : tree.WellFormed) (distinct : (Entries.keys tree).Nodup)
    (isHere : tree.at? here = some .directory) {groups : Entries LooseText (List FileOperation)}
    (merged : ∀ group ∈ groups, ∀ tree,
      mergedDraft tree here root snapshot group.1 group.2 =
        .ok (plannedDraft snapshot group.1 group.2))
    (isRun : writeAll faults here root snapshot groups [] tree = (.ok [], after)) :
    Laid here root (writes snapshot groups) tree after ∧ after.WellFormed ∧
      (Entries.keys after).Nodup := by
  induction groups generalizing tree with
  | nil =>
      obtain rfl := (Prod.mk.inj isRun).2
      exact ⟨.done, wellFormed, distinct⟩
  | cons group groups ih =>
      obtain ⟨path, operations⟩ := group
      have restMerged := fun other member => merged other (List.mem_cons_of_mem _ member)
      have isMerged := merged (path, operations) List.mem_cons_self tree
      rw [writeAll, writeFile, isMerged] at isRun
      cases isDraft : plannedDraft snapshot path operations with
      | none =>
          rw [writes_cons_of_none groups isDraft]
          simp only [isDraft] at isRun
          exact ih wellFormed distinct isHere restMerged isRun
      | some draft =>
          rw [writes_cons_of_some groups isDraft]
          simp only [isDraft] at isRun
          split at isRun
          next next isWrite =>
            split at isWrite
            next isOk =>
              obtain rfl := (Prod.mk.inj isWrite).2
              have landed := wellFormed.landed_of_atomicWrite (allOrNothing path) isHere isOk
              obtain ⟨laid, afterFormed, afterDistinct⟩ := ih landed.wellFormed
                (nodup_keys_of_atomicWrite distinct isOk) (landed.keeps isHere) restMerged isRun
              exact ⟨.wrote landed laid, afterFormed, afterDistinct⟩
            next => simp at isWrite
          next =>
            split at isRun
            · exact absurd rfl (ne_nil_of_writeAll (by simp [Entries.put]) isRun)
            · simp at isRun

end Apply

/-! ## Plans for a fresh tree -/

namespace Plan

/-- What is to be written for a candidate that is not there. -/
def Candidate.draft : Candidate → Draft
  | .rendered text => text.draft
  | .document content => content

theorem Candidate.isWhole_iff (candidate : Candidate) :
    candidate.IsWhole ↔ candidate.draft.whole = true := by
  cases candidate <;> rfl

variable {here : Location} {root : Path} {rendered : Entries LooseText LooseText}
  {documents : Entries LooseText Draft} {snapshot : Snapshot} {operations : List FileOperation}
  {path : LooseText} {candidate : Candidate}

theorem operationsOn_of_isBlank (isBlank : snapshot.IsBlank) (path : LooseText)
    (candidate : Candidate) :
    operationsOn snapshot path candidate = [.create path candidate.draft] := by
  rw [operationsOn_new (isBlank.readable path) (isBlank.noText path)]
  cases candidate <;> rfl

/-- Without files every candidate is created. -/
theorem plan_of_isBlank (isBlank : snapshot.IsBlank) :
    plan rendered snapshot documents =
      .ok ((candidates rendered documents).map fun entry => .create entry.1 entry.2.draft) := by
  refine plan_eq_ok_iff.mpr ⟨fun file _ => ⟨[.create file.1 file.2.draft], ?_⟩, ?_⟩
  · rw [fileOperations, isBlank.readable, isBlank.noText]
    rfl
  · rw [List.map_eq_flatMap, files, List.flatMap_map]
    simp only [operationsOn_of_isBlank isBlank]

/-- The operations that create documents and rendered files that have bytes. -/
def creations (rendered : Entries LooseText LooseText) (documents : Entries LooseText Draft) :
    List FileOperation :=
  rendered.map (fun file => .create file.1 ⟨file.2.draft.text, true⟩) ++
    documents.map fun document => .create document.1 document.2

theorem plan_eq_creations (isBlank : snapshot.IsBlank)
    (wholeTexts : ∀ file ∈ rendered, file.2.isWhole = true) :
    plan rendered snapshot documents = .ok (creations rendered documents) := by
  rw [plan_of_isBlank isBlank, creations, candidates, List.map_append, List.map_map, List.map_map]
  refine congrArg (fun files => Except.ok (files ++ _)) (List.map_congr_left fun file member => ?_)
  have whole : file.2.draft.whole = true := wholeTexts file member
  exact congrArg (FileOperation.create file.1) (whole ▸ rfl)

/-- Without files there is a draft for every candidate. -/
theorem mem_writes_of_isBlank (isBlank : snapshot.IsBlank)
    (member : (path, candidate) ∈ candidates rendered documents) :
    (path, candidate.draft) ∈ writes rendered snapshot documents := by
  refine mem_writes_iff.mpr ⟨candidate, member, ?_⟩
  rw [operationsOn_of_isBlank isBlank]
  rfl

/-- A run of a plan without failures has laid the drafts that were planned. -/
theorem laid_of_applyOperations {faults : LooseText → WriteFaults}
    (allOrNothing : ∀ path, (faults path).AllOrNothing) {tree after : FileTree}
    (wellFormed : tree.WellFormed) (distinct : (Entries.keys tree).Nodup)
    (isHere : tree.at? here = some .directory)
    (apart : (Entries.keys rendered ++ Entries.keys documents).Nodup)
    (planned : plan rendered snapshot documents = .ok operations)
    (allReadable : snapshot.unreadable = []) {report : Report}
    (isRun : applyOperations faults here root operations snapshot tree = (.ok report, after))
    (noneFailed : report.failures = []) :
    Laid here root (writes rendered snapshot documents) tree after ∧ after.WellFormed ∧
      (Entries.keys after).Nodup := by
  rw [← writes_byPath apart planned]
  rw [applyOperations, allReadable] at isRun
  split at isRun
  next failures next isAll =>
    obtain ⟨isReport, rfl⟩ := Prod.mk.inj isRun
    obtain rfl := Except.ok.inj isReport
    obtain rfl : failures = [] := noneFailed
    refine Apply.laid_of_writeAll allOrNothing wellFormed distinct isHere
      (fun group inGroups tree => ?_) isAll
    rw [byPath_plan apart planned] at inGroups
    exact mergedDraft_of_mem inGroups here root tree
  next => simp at isRun

theorem mem_paths_of_mem_writes {write : LooseText × Draft}
    (member : write ∈ writes rendered snapshot documents) :
    write.1 ∈ Entries.keys rendered ++ Entries.keys documents :=
  (keys_writes_sublist rendered snapshot documents).subset (List.mem_map_of_mem member)

/-- After a run on a fresh tree every path names its place, and every candidate stands
there. -/
theorem held_of_laid {tree after : FileTree} (isBlank : snapshot.IsBlank)
    (apart : ((Entries.keys rendered ++ Entries.keys documents).map
      (outputPlace here root)).Nodup)
    (laid : Laid here root (writes rendered snapshot documents) tree after) :
    Places after here root (Entries.keys rendered ++ Entries.keys documents)
        (outputPlace here root) ∧
      ∀ path candidate, (path, candidate) ∈ candidates rendered documents →
        candidate.draft.whole = true ∧ IsShort (root.join (Path.ofText path)) ∧
          after.at? (outputPlace here root path) = some (.file (.text candidate.draft.text)) := by
  have writesApart : ((writes rendered snapshot documents).map
      fun write => outputPlace here root write.1).Nodup := by
    have placesApart := ((keys_writes_sublist rendered snapshot documents).map
      (outputPlace here root)).nodup apart
    rwa [Entries.keys, List.map_map] at placesApart
  have landed (path : LooseText) (candidate : Candidate)
      (member : (path, candidate) ∈ candidates rendered documents) :=
    laid.of_mem writesApart (mem_writes_of_isBlank isBlank member)
  refine ⟨⟨apart.of_map, fun path member => ?_, fun path isPath other isOther => ?_⟩,
    fun path candidate member => ?_⟩
  · obtain ⟨candidate, inCandidates⟩ := exists_candidate_of_mem_paths member
    exact (landed path candidate inCandidates).2.2.1
  · exact List.inj_on_of_nodup_map apart isPath isOther
  · obtain ⟨whole, short, -, holds⟩ := landed path candidate member
    exact ⟨whole, short, holds⟩

/-- A tree in which every candidate stands at its place is captured. -/
theorem capture_of_held {tree : FileTree} (wellFormed : tree.WellFormed)
    {place : LooseText → Location}
    (places : Places tree here root (Entries.keys rendered ++ Entries.keys documents) place)
    (held : ∀ path candidate, (path, candidate) ∈ candidates rendered documents →
      IsShort (root.join (Path.ofText path))) :
    Snapshot.capture tree here root (Entries.keys rendered ++ Entries.keys documents) =
      .ok (Snapshot.ofNodes root (Entries.keys rendered ++ Entries.keys documents)
        fun path => tree.at? (place path)) := by
  rcases Snapshot.capture_cases wellFormed places with ⟨captured, -⟩ | ⟨⟨path, member, tooLong⟩, -⟩
  · exact captured
  · obtain ⟨candidate, inCandidates⟩ := exists_candidate_of_mem_paths member
    exact absurd (held path candidate inCandidates) tooLong

end Plan

end ApiWorkshop

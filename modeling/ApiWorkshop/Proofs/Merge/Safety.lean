import ApiWorkshop.Proofs.Merge.Run

/-!
# Merging is safe

A file that is there keeps everything but the bodies of the regions that it
shares with the rendered text and that are planned to change.  The plan names
these regions, applying it never meets a conflict, and a file without such
regions keeps its text.
-/

namespace ApiWorkshop

namespace Plan

/-- A plan exists when the markers of all rendered files are in order. -/
theorem exists_plan {rendered : Entries LooseText LooseText} (snapshot : Snapshot)
    (documents : Entries LooseText Draft)
    (wellMarked : ∀ file ∈ rendered, ∃ wanted,
      findRegions file.1.label file.2.shown = .ok wanted) :
    ∃ operations, plan rendered snapshot documents = .ok operations := by
  refine ⟨_, plan_eq_ok_iff.mpr ⟨?_, rfl⟩⟩
  rintro ⟨path, text⟩ member
  obtain ⟨wanted, isWanted⟩ := wellMarked (path, text) member
  simp only [fileOperations]
  split
  · exact ⟨_, rfl⟩
  · split
    · exact ⟨_, rfl⟩
    · exact ⟨_, by simp only [isWanted, Bind.bind, Except.bind]; rfl⟩

/-- Every region that a file shares with the rendered text has a patch. -/
theorem exists_patch {snapshot : Snapshot} {path text : LooseText} {existing : Text}
    (readable : snapshot.isUnreadable path = false)
    (isThere : snapshot.text? path = some existing) {wanted present : List Region}
    (isWanted : findRegions path.label text.shown = .ok wanted)
    (found : findRegions path.label existing = .ok present) {region : Region}
    (inWanted : region ∈ wanted) (inPresent : region.name ∈ present.map Region.name) :
    ∃ changed, FileOperation.patch path region.name (LooseText.draft (region.body text)) changed ∈
      operationsOn snapshot path (.rendered text) := by
  rw [operationsOn_rendered readable isThere isWanted, regionOperations]
  have someWanted : wanted.isEmpty = false := by
    cases wanted with
    | nil => simp at inWanted
    | cons first wanted => rfl
  obtain ⟨shared, isShared⟩ : ∃ shared, present.find? (·.name = region.name) = some shared := by
    cases isFound : present.find? (·.name = region.name) with
    | some shared => exact ⟨shared, rfl⟩
    | none =>
        obtain ⟨other, member, sameName⟩ := List.mem_map.mp inPresent
        have different := List.find?_eq_none.mp isFound other member
        simp [sameName] at different
  rw [someWanted, if_neg (by simp), found]
  refine ⟨changesBody existing shared (LooseText.draft (region.body text)),
    List.mem_map.mpr ⟨region, inWanted, ?_⟩⟩
  simp only [regionOperation, isShared]

end Plan

end ApiWorkshop

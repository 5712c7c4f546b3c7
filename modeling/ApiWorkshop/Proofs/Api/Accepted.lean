import ApiWorkshop.Api.Normalize
import ApiWorkshop.Proofs.Entries

/-!
# Definitions that are accepted

Definitions make an API when the checks find no problem in them.  The API then
has the first declaration under each name, and each of these declarations has
passed its check.
-/

namespace ApiWorkshop

namespace Check

/-! ## First declarations -/

section Splitting

variable {α κ : Type} [DecidableEq κ] (key : α → κ) (seen : Entries κ String)

theorem mem_firsts_iff {split : List (Declared α ⊕ (Declared α × String))}
    {declared : Declared α} : declared ∈ firsts split ↔ .inl declared ∈ split := by
  rw [firsts, List.mem_filterMap]
  constructor
  · rintro ⟨(found | repeated), member, same⟩
    · exact Option.some.inj same ▸ member
    · contradiction
  · exact fun member => ⟨.inl declared, member, rfl⟩

theorem mem_repeats_iff {split : List (Declared α ⊕ (Declared α × String))}
    {repeated : Declared α × String} : repeated ∈ repeats split ↔ .inr repeated ∈ split := by
  rw [repeats, List.mem_filterMap]
  constructor
  · rintro ⟨(declared | found), member, same⟩
    · contradiction
    · exact Option.some.inj same ▸ member
  · exact fun member => ⟨.inr repeated, member, rfl⟩

theorem mem_of_mem_firsts {declarations : List (Declared α)}
    {declared : Declared α} (member : declared ∈ firsts (splitRepeats key seen declarations)) :
    declared ∈ declarations := by
  induction declarations generalizing seen with
  | nil => simp [splitRepeats, firsts] at member
  | cons first declarations ih =>
      rw [mem_firsts_iff, splitRepeats] at member
      split at member
      · rcases List.mem_cons.mp member with same | inRest
        · contradiction
        · exact List.mem_cons_of_mem _ (ih _ (mem_firsts_iff.mpr inRest))
      · rcases List.mem_cons.mp member with same | inRest
        · exact Sum.inl.inj same ▸ List.mem_cons_self
        · exact List.mem_cons_of_mem _ (ih _ (mem_firsts_iff.mpr inRest))

/-- Every declaration has a first one with the same key, unless the key was seen
before. -/
theorem exists_first {declarations : List (Declared α)}
    {declared : Declared α} (member : declared ∈ declarations) :
    key declared.value ∈ Entries.keys seen ∨
      ∃ first ∈ firsts (splitRepeats key seen declarations),
        key first.value = key declared.value := by
  induction declarations generalizing seen with
  | nil => simp at member
  | cons head declarations ih =>
      simp only [mem_firsts_iff, splitRepeats] at ih ⊢
      split
      next source isSeen =>
        rcases List.mem_cons.mp member with rfl | inRest
        · exact .inl (Entries.mem_keys_of_get? isSeen)
        · refine (ih seen inRest).imp_right ?_
          rintro ⟨first, inFirsts, sameKey⟩
          exact ⟨first, List.mem_cons_of_mem _ inFirsts, sameKey⟩
      next =>
        rcases List.mem_cons.mp member with rfl | inRest
        · exact .inr ⟨declared, List.mem_cons_self, rfl⟩
        · rcases ih (seen ++ [(key head.value, head.source)]) inRest with
            isSeen | ⟨first, inFirsts, sameKey⟩
          · rw [Entries.keys_append] at isSeen
            rcases List.mem_append.mp isSeen with inSeen | isHead
            · exact .inl inSeen
            · have sameKey : key declared.value = key head.value := by
                simpa [Entries.keys] using isHead
              exact .inr ⟨head, List.mem_cons_self, sameKey.symm⟩
          · exact .inr ⟨first, List.mem_cons_of_mem _ inFirsts, sameKey⟩

/-- Every declaration is a first one or repeats one. -/
theorem mem_firsts_or_repeats {declarations : List (Declared α)} {declared : Declared α}
    (member : declared ∈ declarations) :
    declared ∈ firsts (splitRepeats key seen declarations) ∨
      ∃ source, (declared, source) ∈ repeats (splitRepeats key seen declarations) := by
  induction declarations generalizing seen with
  | nil => simp at member
  | cons head declarations ih =>
      simp only [mem_firsts_iff, mem_repeats_iff, splitRepeats] at ih ⊢
      split
      next source isSeen =>
        rcases List.mem_cons.mp member with rfl | inRest
        · exact .inr ⟨source, List.mem_cons_self⟩
        · refine (ih seen inRest).imp (List.mem_cons_of_mem _) ?_
          exact fun ⟨source, isRepeat⟩ => ⟨source, List.mem_cons_of_mem _ isRepeat⟩
      next =>
        rcases List.mem_cons.mp member with rfl | inRest
        · exact .inl List.mem_cons_self
        · refine (ih _ inRest).imp (List.mem_cons_of_mem _) ?_
          exact fun ⟨source, isRepeat⟩ => ⟨source, List.mem_cons_of_mem _ isRepeat⟩

/-- The first declarations have distinct keys, none of which was seen before. -/
theorem nodup_firsts (declarations : List (Declared α)) :
    ((firsts (splitRepeats key seen declarations)).map fun first => key first.value).Nodup ∧
      ∀ first ∈ firsts (splitRepeats key seen declarations),
        key first.value ∉ Entries.keys seen := by
  induction declarations generalizing seen with
  | nil => simp [splitRepeats, firsts]
  | cons head declarations ih =>
      rw [splitRepeats]
      split
      next source isSeen => exact ih seen
      next notSeen =>
        obtain ⟨distinct, apart⟩ := ih (seen ++ [(key head.value, head.source)])
        simp only [Entries.keys_append, List.mem_append, not_or] at apart
        have isNew : key head.value ∉ Entries.keys seen := fun member => by
          simpa [notSeen] using Entries.isSome_get?_of_mem_keys member
        refine ⟨List.nodup_cons.mpr ⟨fun member => ?_, distinct⟩, ?_⟩
        · obtain ⟨other, isFirst, sameKey⟩ := List.mem_map.mp member
          exact (apart other isFirst).2 (by simp [Entries.keys, sameKey])
        · exact List.forall_mem_cons.mpr ⟨isNew, fun first isFirst => (apart first isFirst).1⟩

end Splitting

/-! ## Checks that find nothing -/

theorem checkRequired_eq_nil_iff {required fields : List String} {source location : String} :
    checkRequired required fields source location = [] ↔ ∀ name ∈ required, name ∈ fields := by
  simp [checkRequired, List.filter_eq_nil_iff]

theorem schema_mem_of_checkParameter {known : List String} {source location : String}
    {parameter : Parameter} (noProblem : checkParameter known source location parameter = [])
    {schema : String} (isReference : parameter.type = .reference schema) : schema ∈ known := by
  rw [checkParameter, isReference] at noProblem
  simpa using (List.append_eq_nil_iff.mp noProblem).2

theorem schema_mem_of_checkBody {known : List String} {source location : String} {body : Body}
    (noProblem : checkBody known source location (some body) = []) : body.schema ∈ known := by
  simpa [checkBody] using noProblem

/-- Placeholders without problems are different from each other, and the
parameters declared for them have no problems. -/
theorem checkPlaceholders_eq_nil {known : List String} {source location : String}
    {parameters : Entries String Parameter} {seen names : List String}
    (noProblem : checkPlaceholders known source location parameters seen names = []) :
    names.Nodup ∧ (∀ name ∈ names, name ∉ seen) ∧
      ∀ name ∈ names, ∀ parameter, Entries.get? name parameters = some parameter →
        ∃ place, checkParameter known source place parameter = [] := by
  induction names generalizing seen with
  | nil => simp
  | cons name names ih =>
      rw [checkPlaceholders] at noProblem
      split at noProblem
      · contradiction
      next isNew =>
        obtain ⟨noFault, restProblem⟩ := List.append_eq_nil_iff.mp noProblem
        obtain ⟨distinct, apart, declared⟩ := ih restProblem
        refine ⟨List.nodup_cons.mpr ⟨fun inNames => ?_, distinct⟩, ?_, ?_⟩
        · exact apart name inNames List.mem_cons_self
        · refine List.forall_mem_cons.mpr ⟨by simpa using isNew, fun other member inSeen => ?_⟩
          exact apart other member (List.mem_cons_of_mem name inSeen)
        · refine List.forall_mem_cons.mpr ⟨fun parameter isDeclared => ?_, declared⟩
          rw [isDeclared] at noFault
          exact ⟨_, noFault⟩

theorem checkEndpoint_eq_nil {known : List String}
    {split : List (Declared (Nat × Endpoint) ⊕ (Declared (Nat × Endpoint) × String))}
    (noProblem : checkEndpoints known split = []) :
    ∀ declared ∈ firsts split,
      ∃ location, checkEndpoint known declared.source location declared.value.2 = [] := by
  induction split with
  | nil => simp [firsts]
  | cons head split ih =>
      intro declared member
      rw [mem_firsts_iff] at member
      obtain ⟨source, index, endpoint⟩ | ⟨⟨source, index, endpoint⟩, first⟩ := head
      · rw [checkEndpoints] at noProblem
        obtain ⟨noFault, restProblem⟩ := List.append_eq_nil_iff.mp noProblem
        rcases List.mem_cons.mp member with same | inRest
        · obtain rfl := Sum.inl.inj same
          exact ⟨_, noFault⟩
        · exact ih restProblem declared (mem_firsts_iff.mpr inRest)
      · simp [checkEndpoints] at noProblem

end Check

/-- Definitions that make an API have no problems with their structure, and the
API is what they come to together. -/
theorem eq_merge_of_normalize {heading : Heading} {definitions : List Definition} {api : Api}
    (isApi : normalize heading definitions = .ok api) :
    api = Api.merge heading definitions ∧ Check.checkStructure definitions = [] := by
  rw [normalize] at isApi
  split at isApi
  · contradiction
  next noProblems =>
    refine ⟨(Except.ok.inj isApi).symm, ?_⟩
    rw [problems] at noProblems
    split at noProblems
    · cases isChecked : Check.checkTranslations (Check.splitTranslations definitions) with
      | error failure => simp [isChecked, Bind.bind, Except.bind] at noProblems
      | ok found =>
          simp only [isChecked, Bind.bind, Except.bind, Except.ok.injEq,
            List.append_eq_nil_iff] at noProblems
          exact noProblems.1
    · contradiction
  · contradiction

end ApiWorkshop

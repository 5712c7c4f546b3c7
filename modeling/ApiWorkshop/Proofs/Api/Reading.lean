import ApiWorkshop.Api.Read

/-!
# Reading that ends well

Reading goes step by step and ends at the first error.  So when it ends well all
steps did, and what holds of each definition holds of all that were read.
-/

namespace ApiWorkshop

/-- Two steps go well when the first one does and the second one does with its
answer. -/
theorem bind_eq_ok_iff {ε α β : Type} {first : Except ε α} {next : α → Except ε β} {answer : β} :
    first >>= next = .ok answer ↔ ∃ found, first = .ok found ∧ next found = .ok answer := by
  cases first with
  | error error => simp [Bind.bind, Except.bind]
  | ok found => simp [Bind.bind, Except.bind]

theorem ok_bind {ε α β : Type} (found : α) (next : α → Except ε β) :
    (Except.ok found >>= next) = next found :=
  rfl

theorem map_eq_ok_iff {ε α β : Type} {image : α → β} {result : Except ε α} {answer : β} :
    result.map image = .ok answer ↔ ∃ found, result = .ok found ∧ image found = answer := by
  cases result <;> simp [Except.map]

/-- There is an answer if one passes a test. -/
theorem exists_of_any_toOption {ε α : Type} {result : Except ε α} {test : α → Bool}
    (passes : result.toOption.any test = true) :
    ∃ answer, result = .ok answer ∧ test answer = true := by
  cases result with
  | error error => simp [Except.toOption] at passes
  | ok answer => exact ⟨answer, rfl, by simpa [Except.toOption] using passes⟩

namespace Definition

theorem read_eq_ok_iff {file : SourceText} {found : Definition} :
    read file = .ok found ↔ ∃ document, Toml.decode file.name file.text = .ok document ∧
      Extract.definition file.name document = .ok found := by
  rw [read, bind_eq_ok_iff]
  refine exists_congr fun document => and_congr_right fun _ => ?_
  split <;> simp_all

/-- What holds of each definition that is read from a file holds of all of them. -/
theorem forall_mem_of_readAll {holds : Definition → Prop}
    (each : ∀ {file found}, read file = .ok found → holds found) {files : List SourceText}
    {definitions : List Definition} (areRead : readAll files = .ok definitions) :
    ∀ definition ∈ definitions, holds definition := by
  induction files generalizing definitions with
  | nil => simp [← Except.ok.inj areRead]
  | cons file files ih =>
      obtain ⟨first, isFirst, areRead⟩ := bind_eq_ok_iff.mp areRead
      obtain ⟨rest, areRest, areRead⟩ := bind_eq_ok_iff.mp areRead
      rw [← Except.ok.inj areRead]
      exact List.forall_mem_cons.mpr ⟨each isFirst, ih areRest⟩

end Definition

end ApiWorkshop

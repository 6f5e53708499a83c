import Grab.Sequence.Accept

/-!
# What the builder accepts, in the words of a document

`Acceptable` speaks of steps whose ids are assigned.  A document only knows positions: an
entry of `after` is the id that the builder is about to give to a position.
-/

namespace Grab.Kernel.Sequence

open Grab.Sequence Grab.Graph List

/-- `source` is listed in the `after` of the step that gets the id `target`. -/
def ListedBy (steps : List Step) (source target : StepId) : Prop :=
  ∃ position step, steps[position]? = some step ∧ target = StepId.ofIndex position ∧
    source ∈ step.after

/-- A document whose dependencies can be linearized. -/
structure WellFormed (steps : List Step) : Prop where
  small : steps.length ≤ maxSteps
  labels : (labelsOf steps).Nodup
  live : ∀ source target, ListedBy steps source target →
    ∃ position < steps.length, source = StepId.ofIndex position
  noLoop : ∀ id, ¬ListedBy steps id id
  distinct : ∀ step ∈ steps, step.after.Nodup
  acyclic : ∀ id, ¬Relation.TransGen (ListedBy steps) id id

variable {steps : List Step} {pacing : PacingOptions} {sequence : Sequence} {name : String}

/-- The steps with their ids, one for each position. -/
theorem mem_assignIds_iff {assigned : Step} :
    assigned ∈ assignIds steps ↔ ∃ (position : Nat) (step : Step),
      steps[position]? = some step ∧ { step with id := StepId.ofIndex position } = assigned := by
  rw [assignIds, mem_iff_getElem?]
  simp only [getElem?_mapIdx, Option.map_eq_some_iff]
  constructor
  · rintro ⟨position, step, found, rfl⟩
    exact ⟨position, step, found, rfl⟩
  · rintro ⟨position, step, found, rfl⟩
    exact ⟨position, step, found, rfl⟩

theorem labelsOf_assignIds : labelsOf (assignIds steps) = labelsOf steps := by
  have same : (assignIds steps).map Step.label = steps.map Step.label := by
    apply ext_getElem?
    intro position
    simp [assignIds, Function.comp_def]
  rw [labelsOf, same, labelsOf]

theorem dependsIn_assignIds {source target : StepId} :
    DependsIn (assignIds steps) source target ↔ ListedBy steps source target := by
  simp only [DependsIn, mem_assignIds_iff]
  constructor
  · rintro ⟨_, ⟨position, step, found, rfl⟩, rfl, inAfter⟩
    exact ⟨position, step, found, rfl, inAfter⟩
  · rintro ⟨position, step, found, rfl, inAfter⟩
    exact ⟨_, ⟨position, step, found, rfl⟩, rfl, inAfter⟩

/-- The ids the builder gives out are those of the positions. -/
theorem exists_id_iff {id : StepId} : (∃ assigned ∈ assignIds steps, assigned.id = id) ↔
      ∃ position < steps.length, id = StepId.ofIndex position := by
  simp only [mem_assignIds_iff]
  constructor
  · rintro ⟨_, ⟨position, step, found, rfl⟩, rfl⟩
    exact ⟨position, (List.getElem?_eq_some_iff.mp found).1, rfl⟩
  · rintro ⟨position, inside, rfl⟩
    exact ⟨_, ⟨position, _, getElem?_eq_getElem inside, rfl⟩, rfl⟩

theorem acceptable_assignIds_iff : Acceptable (assignIds steps) ↔ WellFormed steps := by
  have relationEq : DependsIn (assignIds steps) = ListedBy steps := by
    funext source target
    exact propext dependsIn_assignIds
  constructor
  · intro acceptable
    constructor
    case small => exact length_assignIds steps ▸ acceptable.small
    case labels => exact labelsOf_assignIds ▸ acceptable.labels
    case live =>
      intro source target listed
      rcases dependsIn_assignIds.mpr listed with ⟨step, member, _, inAfter⟩
      exact exists_id_iff.mp (acceptable.live step member source inAfter)
    case noLoop =>
      intro id listed
      exact acceptable.acyclic id (Relation.TransGen.single (dependsIn_assignIds.mpr listed))
    case distinct =>
      intro step member
      rcases mem_iff_getElem?.mp member with ⟨position, found⟩
      exact acceptable.distinct { step with id := StepId.ofIndex position }
        (mem_assignIds_iff.mpr ⟨position, step, found, rfl⟩)
    case acyclic => exact relationEq ▸ acceptable.acyclic
  · intro wellFormed
    constructor
    case small => exact (length_assignIds steps).symm ▸ wellFormed.small
    case labels => exact labelsOf_assignIds.symm ▸ wellFormed.labels
    case live =>
      intro step member predecessor inAfter
      apply exists_id_iff.mpr
      apply wellFormed.live predecessor step.id
      exact dependsIn_assignIds.mp ⟨step, member, rfl, inAfter⟩
    case distinct =>
      intro assigned member
      rcases mem_assignIds_iff.mp member with ⟨position, step, found, rfl⟩
      exact wellFormed.distinct step (mem_iff_getElem?.mpr ⟨position, found⟩)
    case acyclic => exact relationEq.symm ▸ wellFormed.acyclic

theorem fields_of_build (accepted : build steps pacing name = .ok sequence) :
    sequence.steps = assignIds steps ∧ sequence.pacing = pacing := by
  unfold build at accepted
  split at accepted
  · cases accepted
  dsimp only at accepted
  split at accepted
  · cases accepted
  split at accepted
  · cases accepted
  split at accepted
  · cases accepted
  · cases accepted
    exact ⟨rfl, rfl⟩

/-- The order of a built sequence is a permutation of its steps. -/
theorem order_perm (accepted : build steps pacing name = .ok sequence) :
    sequence.order.Perm (sequence.steps.map Step.id) := by
  have built := built_of_build accepted
  rcases order_of_build accepted with ⟨nodup, complete, _⟩
  rw [perm_ext_iff_of_nodup nodup (ids_nodup_of_positional built.small built.ids)]
  intro id
  rw [complete, mem_map]
  exact Iff.rfl

/-- The builder accepts exactly the well-formed documents: the steps get positional ids,
and every step is ordered once, after the steps it depends on. -/
theorem build_accepts_iff (steps : List Step) (pacing : PacingOptions) (name : String) :
    ((∃ sequence, build steps pacing name = .ok sequence) ↔ WellFormed steps) ∧
      ∀ sequence, build steps pacing name = .ok sequence →
        sequence.steps = assignIds steps ∧
          (∀ position step, sequence.steps[position]? = some step →
            step.id = StepId.ofIndex position) ∧
          sequence.order.Perm (sequence.steps.map Step.id) ∧
          ∀ before id rest, sequence.order = before ++ id :: rest →
            ∀ source, sequence.Depends source id → source ∈ before := by
  constructor
  · rw [← acceptable_assignIds_iff]
    constructor
    · rintro ⟨sequence, accepted⟩
      rw [← (fields_of_build accepted).1]
      exact acceptable_of_build accepted
    · intro acceptable
      rcases build_complete acceptable pacing name with ⟨sequence, accepted, _⟩
      exact ⟨sequence, accepted⟩
  · intro sequence accepted
    refine ⟨(fields_of_build accepted).1, (built_of_build accepted).ids, order_perm accepted, ?_⟩
    exact (order_of_build accepted).2.2

end Grab.Kernel.Sequence

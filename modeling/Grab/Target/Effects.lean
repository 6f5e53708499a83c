import Grab.Target.Consistency

/-!
# What a call does to the aliases

The aliases of every target, the index of the exact and active ones and the next identity, after
a call to a consistent registry.  `Effect` lists what a call can do to them, and the histories of
aliases and identities follow from it alone.
-/

namespace Grab.Kernel.TargetRegistry

open Std Function

/-- The alias edges a target lists. -/
def aliasesOf (registry : TargetRegistry) (id : TargetId) : Option (List AliasEdge) :=
  registry.targets[id]?.map TargetRecord.aliases

/-- The target a call that succeeded was about. -/
def answered (registry : TargetRegistry) : Request → Option TargetId
  | .observe observation => (observe registry observation).2.toOption
  | .attachAlias target edge => (attachAlias registry target edge).2.toOption.map fun _ => target
  | .invalidateAlias authority nativeId =>
    (invalidateAlias registry authority nativeId).2.toOption.bind fun _ =>
      registry.exactActiveAliases[(⟨authority, nativeId⟩ : AliasKey)]?
  | .registerSurface _ _ => none
  | .removeSurface _ _ => none

/-- The edges with one more, unless it is listed. -/
def listed (edges : List AliasEdge) (edge : AliasEdge) : List AliasEdge :=
  if edge ∈ edges then edges else edges ++ [edge]

/-- What a call leaves behind, and the target it was about. -/
inductive Effect (registry next : TargetRegistry) : Request → Option TargetId → Prop where
  | unchanged {request : Request} (lists : next.aliasesOf = registry.aliasesOf)
      (index : ∀ key : AliasKey, next.exactActiveAliases[key]? = registry.exactActiveAliases[key]?)
      (identities : next.nextId = registry.nextId) : Effect registry next request none
  | joined {observation : TargetObservation} {edge : AliasEdge} {id : TargetId}
      {edges : List AliasEdge} (fusing : observation.aliasEdge.filter isFusing = some edge)
      (indexed : registry.exactActiveAliases[edge.key]? = some id)
      (lists : registry.aliasesOf id = some edges)
      (grown : next.aliasesOf =
        Function.update registry.aliasesOf id (some (TargetRegistry.listed edges edge)))
      (index : ∀ key : AliasKey, next.exactActiveAliases[key]? = registry.exactActiveAliases[key]?)
      (identities : next.nextId = registry.nextId) :
      Effect registry next (.observe observation) (some id)
  | created {observation : TargetObservation}
      (free : ∀ edge, observation.aliasEdge.filter isFusing = some edge →
        registry.exactActiveAliases[edge.key]? = none)
      (bounded : registry.nextId ≠ 0xFFFFFFFFFFFFFFFF)
      (grown : next.aliasesOf = Function.update registry.aliasesOf ⟨registry.nextId⟩
        (some observation.aliasEdge.toList))
      (index : ∀ key : AliasKey, next.exactActiveAliases[key]? =
        if observation.aliasEdge.filter isFusing |>.any (·.key = key) then some ⟨registry.nextId⟩
        else registry.exactActiveAliases[key]?)
      (identities : next.nextId = registry.nextId + 1) :
      Effect registry next (.observe observation) (some ⟨registry.nextId⟩)
  | attached {target : TargetId} {edge : AliasEdge} {edges : List AliasEdge}
      (lists : registry.aliasesOf target = some edges)
      (free : isFusing edge = true → ∀ owner,
        registry.exactActiveAliases[edge.key]? = some owner → owner = target)
      (grown : next.aliasesOf =
        Function.update registry.aliasesOf target (some (TargetRegistry.listed edges edge)))
      (index : ∀ key : AliasKey, next.exactActiveAliases[key]? =
        if isFusing edge = true ∧ edge.key = key then some target
        else registry.exactActiveAliases[key]?)
      (identities : next.nextId = registry.nextId) :
      Effect registry next (.attachAlias target edge) (some target)
  | invalidated {authority nativeId : String} {target : TargetId} {edges : List AliasEdge}
      (indexed : registry.exactActiveAliases[(⟨authority, nativeId⟩ : AliasKey)]? = some target)
      (lists : registry.aliasesOf target = some edges)
      (ended : next.aliasesOf = Function.update registry.aliasesOf target
        (some (edges.map (deactivate ⟨authority, nativeId⟩))))
      (index : ∀ key : AliasKey, next.exactActiveAliases[key]? =
        if key = ⟨authority, nativeId⟩ then none else registry.exactActiveAliases[key]?)
      (identities : next.nextId = registry.nextId) :
      Effect registry next (.invalidateAlias authority nativeId) (some target)

section

variable {registry : TargetRegistry} {id : TargetId} {record : TargetRecord}

theorem aliasesOf_setTarget : (setTarget registry id record).aliasesOf =
      Function.update registry.aliasesOf id (some record.aliases) := by
  funext other
  rw [aliasesOf, getElem?_setTarget, update_apply]
  split <;> rfl

theorem aliasesOf_found (found : registry.targets[id]? = some record) :
    registry.aliasesOf id = some record.aliases := by
  rw [aliasesOf, found]
  rfl

/-- A record that lists the same edges. -/
theorem aliasesOf_sameAliases {old : TargetRecord} (found : registry.targets[id]? = some old)
    (same : record.aliases = old.aliases) :
    (setTarget registry id record).aliasesOf = registry.aliasesOf := by
  rw [aliasesOf_setTarget, same, ← aliasesOf_found found, update_eq_self]

theorem Effect.refused {request : Request} : Effect registry registry request none :=
  .unchanged rfl (fun _ => rfl) rfl

variable (consistent : registry.Consistent)

include consistent

theorem observe_effect (observation : TargetObservation) :
    Effect registry (observe registry observation).1 (.observe observation)
      (answered registry (.observe observation)) := by
  have create (free : ∀ edge, observation.aliasEdge.filter isFusing = some edge →
      registry.exactActiveAliases[edge.key]? = none) :
      Effect registry (createTarget registry observation).1 (.observe observation)
        (createTarget registry observation).2.toOption := by
    unfold createTarget
    split
    · exact .refused
    rename_i bounded
    have absent : (⟨registry.nextId⟩ : TargetId) ∉ registry.targets := by
      rw [ExtTreeMap.mem_iff_isSome_getElem?, absent_next consistent]
      simp
    dsimp only
    rw [if_neg absent]
    split
    · rename_i noEdge
      refine .created free bounded aliasesOf_setTarget ?_ rfl
      simp [noEdge, setTarget]
    rename_i edge isEdge
    have notIn : edge.key ∉ registry.exactActiveAliases := by
      rw [ExtTreeMap.mem_iff_isSome_getElem?, free edge isEdge]
      simp
    rw [if_neg notIn]
    refine .created free bounded aliasesOf_setTarget ?_ rfl
    intro key
    rw [ExtTreeMap.getElem?_insert, isEdge]
    simp
  unfold answered
  dsimp only
  unfold observe
  split
  · exact .refused
  split
  · rename_i noEdge
    exact create fun edge isEdge => by rw [noEdge] at isEdge; cases isEdge
  rename_i edge isEdge
  split
  · rename_i id indexed
    rcases (consistent.aliases edge.key id).mp indexed with ⟨record, found, _⟩
    unfold joinTarget
    rw [found]
    dsimp only
    split
    · exact .refused
    · exact .joined isEdge indexed (aliasesOf_found found) aliasesOf_setTarget (fun _ => rfl) rfl
  · rename_i isFree
    apply create
    intro other isOther
    rw [isEdge] at isOther
    rw [← Option.some.inj isOther]
    exact isFree

theorem attachAlias_effect (target : TargetId) (edge : AliasEdge) :
    Effect registry (attachAlias registry target edge).1 (.attachAlias target edge)
      (answered registry (.attachAlias target edge)) := by
  unfold answered
  dsimp only
  unfold attachAlias
  split
  · exact .refused
  split
  · exact .refused
  rename_i record found
  split
  · exact .refused
  rename_i notTaken
  have free : isFusing edge = true → ∀ owner,
      registry.exactActiveAliases[edge.key]? = some owner → owner = target := by
    intro fusing owner indexed
    simpa [takenByOther, fusing, indexed] using notTaken
  split
  · rename_i present
    refine .attached (aliasesOf_found found) free ?_ ?_ rfl
    · rw [listed, if_pos present, ← aliasesOf_found found, update_eq_self]
    intro key
    split
    · rename_i here
      rcases here with ⟨fusing, rfl⟩
      apply (consistent.aliases edge.key target).mpr
      exact ⟨record, found, edge, present, fusing, rfl⟩
    · rfl
  · rename_i absent
    have grown : (setTarget registry target
        { record with aliases := record.aliases ++ [edge] }).aliasesOf =
        Function.update registry.aliasesOf target
          (some (TargetRegistry.listed record.aliases edge)) := by
      rw [aliasesOf_setTarget, listed, if_neg absent]
    split
    · rename_i fusing
      refine .attached (aliasesOf_found found) free grown ?_ rfl
      intro key
      dsimp only
      rw [ExtTreeMap.getElem?_insertIfNew]
      by_cases here : edge.key = key
      · subst here
        cases indexed : registry.exactActiveAliases[edge.key]? with
        | none => simp [ExtTreeMap.mem_iff_isSome_getElem?, indexed, fusing]
        | some owner =>
          rw [free fusing owner indexed]
          simp [fusing]
      · simp [here]
    · rename_i notFusing
      refine .attached (aliasesOf_found found) free grown ?_ rfl
      intro key
      rw [if_neg fun both => notFusing both.1]
      rfl

theorem invalidateAlias_effect (authority nativeId : String) :
    Effect registry (invalidateAlias registry authority nativeId).1
      (.invalidateAlias authority nativeId)
      (answered registry (.invalidateAlias authority nativeId)) := by
  unfold answered
  dsimp only
  unfold invalidateAlias
  dsimp only
  split
  · exact .refused
  split
  · exact .refused
  rename_i target indexed
  rcases (consistent.aliases ⟨authority, nativeId⟩ target).mp indexed with
    ⟨record, found, _⟩
  rw [found]
  dsimp only [Except.toOption, Option.bind]
  rw [indexed]
  refine .invalidated indexed (aliasesOf_found found) aliasesOf_setTarget ?_ rfl
  intro key
  rw [ExtTreeMap.getElem?_erase]
  apply if_congr _ rfl rfl
  rw [LawfulEqCmp.compare_eq_iff_eq]
  exact eq_comm

omit consistent

/-- The calls about surfaces leave the aliases alone. -/
theorem registerSurface_effect (target : TargetId) (surface : SurfaceRecord) :
    Effect registry (registerSurface registry target surface).1
      (.registerSurface target surface) none := by
  unfold registerSurface
  split
  · exact .refused
  split
  · exact .refused
  rename_i record found
  split
  · split
    · exact .refused
    · split
      · exact .refused
      · exact .unchanged (aliasesOf_sameAliases found rfl) (fun _ => rfl) rfl
  · split
    · exact .refused
    · exact .unchanged (aliasesOf_sameAliases found rfl) (fun _ => rfl) rfl

theorem removeSurface_effect (target : TargetId) (surface : SurfaceId) :
    Effect registry (removeSurface registry target surface).1
      (.removeSurface target surface) none := by
  unfold removeSurface
  split
  · exact .refused
  split
  · exact .refused
  rename_i record found
  split
  · exact .refused
  split
  · exact .refused
  · split
    · exact .refused
    · exact .unchanged (aliasesOf_sameAliases found rfl) (fun _ => rfl) rfl

theorem serve_effect (consistent : registry.Consistent) (request : Request) :
    Effect registry (serve registry request).1 request (answered registry request) := by
  cases request with
  | observe observation => exact observe_effect consistent observation
  | attachAlias target edge => exact attachAlias_effect consistent target edge
  | invalidateAlias authority nativeId =>
    exact invalidateAlias_effect consistent authority nativeId
  | registerSurface target surface => exact registerSurface_effect target surface
  | removeSurface target surface => exact removeSurface_effect target surface

end

/-- The state after one more call. -/
theorem serveAll_concat (registry : TargetRegistry) (requests : List Request) (request : Request) :
    serveAll registry (requests ++ [request]) = (serve (serveAll registry requests) request).1 := by
  rw [serveAll, List.foldl_append]
  rfl

end Grab.Kernel.TargetRegistry

import Grab.Query.SnapshotNav
import Grab.Tree.Store

/-!
# Views of the relations

A published snapshot answers its relations as a list, from either end of a relation, and as one
mask for each pair of nodes.  All of them list the same relations.
-/

namespace Grab

open List

/-! ## Related nodes -/

theorem findRelated_cons (bucket : RelationBucket) (rest : List RelationBucket) (node : NodeId)
    (relation : RelationId) :
    findRelated (bucket :: rest) node relation =
      if bucket.node = node ∧ bucket.relation = relation then bucket.relatedNodes
      else findRelated rest node relation := by
  unfold findRelated
  by_cases here : bucket.node = node ∧ bucket.relation = relation
  · simp [here]
  · rw [find?_cons, decide_eq_false here, if_neg here]

theorem findRelated_appendRelated (buckets : List RelationBucket) (node other : NodeId)
    (relation kind : RelationId) (related : NodeId) :
    findRelated (appendRelated node relation related buckets) other kind =
      findRelated buckets other kind ++
        if node = other ∧ relation = kind then [related] else [] := by
  induction buckets with
  | nil =>
    rw [appendRelated, findRelated_cons]
    split <;> rfl
  | cons bucket rest ih =>
    rw [appendRelated]
    by_cases own : bucket.node = node ∧ bucket.relation = relation
    · rcases own with ⟨rfl, rfl⟩
      rw [if_pos ⟨rfl, rfl⟩, findRelated_cons, findRelated_cons]
      by_cases here : bucket.node = other ∧ bucket.relation = kind
      · rw [if_pos here, if_pos here, if_pos here]
      · rw [if_neg here, if_neg here, if_neg here, append_nil]
    rw [if_neg own, findRelated_cons, findRelated_cons, ih]
    by_cases here : bucket.node = other ∧ bucket.relation = kind
    · have apart : ¬(node = other ∧ relation = kind) := by
        rintro ⟨rfl, rfl⟩
        exact own here
      rw [if_pos here, if_pos here, if_neg apart, append_nil]
    · rw [if_neg here, if_neg here]

/-- A bucket holds the other ends of its relations, in order. -/
theorem findRelated_foldl (relations : List UiRelation) (near far : UiRelation → NodeId)
    (node : NodeId) (kind : RelationId) :
    findRelated (relations.foldl (fun buckets record =>
        appendRelated (near record) record.relation (far record) buckets) []) node kind =
      (relations.filter fun record => near record = node ∧ record.relation = kind).map far := by
  induction relations using List.reverseRecOn with
  | nil => rfl
  | append_singleton relations record ih =>
    rw [foldl_append, foldl_cons, foldl_nil, findRelated_appendRelated, ih,
      filter_append, map_append, filter_singleton]
    congr 1
    split
    · rename_i here
      simp [here]
    · rename_i apart
      simp [apart]

variable {source target : NodeId} {snapshot : UiSnapshot} {relation : RelationId}

theorem UiSnapshot.mem_related :
    target ∈ snapshot.related source relation ↔
      ⟨source, target, relation⟩ ∈ snapshot.relations := by
  rw [UiSnapshot.related, UiSnapshot.forward, findRelated_foldl]
  apply Kernel.mem_farEnds ⟨source, target, relation⟩
  rintro ⟨near, far, kind⟩
  simp [and_comm, and_left_comm]

theorem UiSnapshot.mem_relatedReverse :
    source ∈ snapshot.relatedReverse target relation ↔
      ⟨source, target, relation⟩ ∈ snapshot.relations := by
  rw [UiSnapshot.relatedReverse, UiSnapshot.reverse, findRelated_foldl]
  apply Kernel.mem_farEnds ⟨source, target, relation⟩
  rintro ⟨near, far, kind⟩
  simp [and_comm]

end Grab

namespace Grab.Kernel

namespace TreeStore

/-! ## What a store publishes -/

def snapshot (store : TreeStore) : Option UiSnapshot := store.current.map Generation.snapshot

/-- The core relations of an edge of the published generation. -/
def coreRelations (store : TreeStore) (source target : NodeId) : Option RelationSet :=
  match store.current with
  | none => none
  | some generation => generation.relations.edgePayload source target

/-- A mask meets the bit of a relation. -/
theorem and_relationBit_ne_zero {mask : RelationSet} {relation : RelationId}
    (core : relation.value < 32) :
    mask &&& relationBit relation ≠ 0 ↔ mask.getLsbD relation.value.toNat = true := by
  have own := getLsbD_relationBit relation
  constructor
  · intro meets
    by_contra unset
    apply meets
    apply BitVec.eq_of_getLsbD_eq
    intro position _
    rw [BitVec.getLsbD_and, own]
    by_cases here : relation.value.toNat = position
    · subst here
      simp [unset]
    · simp [here]
  · intro isSet zero
    have bit := congrArg (fun mask => mask.getLsbD relation.value.toNat) zero
    simp only [BitVec.getLsbD_and, own, isSet, core] at bit
    simp at bit

/-- What a published generation was built from. -/
structure Viewed (generation : Generation) : Prop where
  indexed : Indexed generation
  permitted : ∀ relation ∈ generation.snapshot.relations,
    relation.relation.value < Relation.coreCount ∨ Relation.coreBitCount ≤ relation.relation.value

theorem Prepares.viewed {staged : Option Generation} {prepared : PreparedUpdate}
    (prepares : Prepares staged prepared) : Viewed prepared.generation := by
  rcases prepares.built with ⟨_, _, _, _, normalized, isNormalized, built⟩
  rcases normalizedSnapshot_ok isNormalized with ⟨rootsOk, normalizedEq⟩
  rcases buildGeneration_ok built with ⟨snapshotEq, indexed⟩
  constructor
  case indexed => exact indexed
  case permitted =>
    rw [snapshotEq, normalizedEq]
    intro relation member
    exact ((wellFormed_of_ok rootsOk).relationsFine relation member).permitted

/-- All views of the relations of a published generation agree: the list, both lookups, and for
core relations the masks.  A mask holds no bit but those of its core relations. -/
theorem relation_views_agree {store : TreeStore} (reachable : store.Reachable)
    {published : UiSnapshot} (isPublished : store.snapshot = some published)
    (source target : NodeId) (relation : RelationId) :
    (⟨source, target, relation⟩ ∈ published.relations ↔
      target ∈ published.related source relation) ∧
    (target ∈ published.related source relation ↔
      source ∈ published.relatedReverse target relation) ∧
    (relation.value < Relation.coreBitCount →
      (⟨source, target, relation⟩ ∈ published.relations ↔
        ∃ mask, store.coreRelations source target = some mask ∧
          mask &&& relationBit relation ≠ 0)) ∧
    (Relation.coreBitCount ≤ relation.value → relationBit relation = 0) ∧
    ∀ mask, store.coreRelations source target = some mask →
      ∀ position, mask.getLsbD position = true →
        ∃ core : RelationId, core.value < Relation.coreCount ∧ core.value.toNat = position ∧
          ⟨source, target, core⟩ ∈ published.relations := by
  rcases Option.map_eq_some_iff.mp isPublished with ⟨generation, isCurrent, rfl⟩
  have viewed := (reachable.holds fun _ _ => Prepares.viewed).current generation isCurrent
  have maskIff := viewed.indexed.core source target
  have coreEq : store.coreRelations source target =
      generation.relations.edgePayload source target := by
    rw [coreRelations, isCurrent]
  rw [UiSnapshot.mem_related, UiSnapshot.mem_relatedReverse, coreEq]
  refine ⟨Iff.rfl, Iff.rfl, ?_, ?_, ?_⟩
  · intro core
    simp only [and_relationBit_ne_zero core, maskIff]
    constructor
    · intro member
      exact ⟨_, member, rfl, rfl, core, rfl⟩
    · rintro ⟨⟨_, _, kind⟩, member, rfl, rfl, _, same⟩
      have kindEq : kind = relation := congrArg RelationId.mk (UInt32.toNat_inj.mp same)
      exact kindEq ▸ member
  · intro extension
    exact if_pos extension
  · intro mask isMask position isSet
    rcases (maskIff position).mp ⟨mask, isMask, isSet⟩ with
      ⟨⟨_, _, kind⟩, member, rfl, rfl, core, same⟩
    refine ⟨kind, ?_, same, member⟩
    rcases viewed.permitted _ member with closed | extension
    · exact closed
    · exact absurd core (UInt32.not_lt.mpr extension)

def snapshotOfTwo : UiSnapshot :=
  ⟨⟨⟨1⟩, 1, ⟨1⟩, 1, true⟩, [plainNode 1, plainNode 2], [⟨1⟩], [⟨⟨1⟩, ⟨2⟩, Relation.contains⟩]⟩

theorem snapshot_drainStep_storeOfTwo : storeOfTwo.drainStep.1.snapshot = some snapshotOfTwo := by
  decide +kernel

theorem relation_views_agree_ofTwo :
    ⟨2⟩ ∈ snapshotOfTwo.related ⟨1⟩ Relation.contains ∧
      ⟨1⟩ ∈ snapshotOfTwo.relatedReverse ⟨2⟩ Relation.contains ∧
      ∃ mask, storeOfTwo.drainStep.1.coreRelations ⟨1⟩ ⟨2⟩ = some mask ∧
        mask &&& relationBit Relation.contains ≠ 0 := by
  have published := reachable_storeOfTwo.drainStep (by decide +kernel)
  rcases relation_views_agree published snapshot_drainStep_storeOfTwo ⟨1⟩ ⟨2⟩
    Relation.contains with ⟨listed, reversed, masked, _⟩
  have isListed : ⟨⟨1⟩, ⟨2⟩, Relation.contains⟩ ∈ snapshotOfTwo.relations := by decide
  exact ⟨listed.mp isListed, reversed.mp (listed.mp isListed), (masked (by decide)).mp isListed⟩

end TreeStore

end Grab.Kernel

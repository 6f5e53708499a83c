import Grab.Target.Effects
import Mathlib.Algebra.Order.BigOperators.Group.Finset

/-!
# When a record lists an alias edge once

An edge is attached when it is not listed in its active form, and invalidation rewrites it to
its inactive form where it stands.  A record lists an edge twice when a key is invalidated that
was invalidated and attached again before.
-/

namespace Grab.Kernel.TargetRegistry

open List

open Std (ExtTreeMap)

/-- No record lists an alias edge twice. -/
def ListsOnce (registry : TargetRegistry) : Prop :=
  ∀ (id : TargetId) (record : TargetRecord),
    registry.targets[id]? = some record → record.aliases.Nodup

/-- The edges list an active edge of a key beside the same edge, inactive. -/
def Beside (key : AliasKey) (edges : List AliasEdge) : Prop :=
  ∃ confidence, ⟨key.authority, key.nativeId, confidence, .active⟩ ∈ edges ∧
    ⟨key.authority, key.nativeId, confidence, .inactive⟩ ∈ edges

/-- The call invalidates the key of a target that lists an active edge of the key beside the same
edge, inactive. -/
def Collides (registry : TargetRegistry) : Request → Prop
  | .invalidateAlias authority nativeId =>
    authority ≠ "" ∧ nativeId ≠ "" ∧
      ∃ (target : TargetId) (record : TargetRecord),
        registry.exactActiveAliases[(⟨authority, nativeId⟩ : AliasKey)]? = some target ∧
          registry.targets[target]? = some record ∧
          Beside ⟨authority, nativeId⟩ record.aliases
  | _ => False

/-! ## Lists of edges -/

variable {edges : List AliasEdge} {key : AliasKey}

theorem nodup_listed (once : edges.Nodup) (edge : AliasEdge) : (listed edges edge).Nodup := by
  unfold listed
  split
  · exact once
  · rename_i absent
    exact nodup_append.mpr ⟨once, nodup_singleton edge, fun other member same isEdge =>
      by rintro rfl; exact absent (mem_singleton.mp isEdge ▸ member)⟩

/-- Two edges fall together only when they differ in their validity. -/
theorem deactivate_eq {first second : AliasEdge}
    (same : deactivate key first = deactivate key second) :
    first = second ∨ ∃ confidence,
      (first = ⟨key.authority, key.nativeId, confidence, .active⟩ ∧
          second = ⟨key.authority, key.nativeId, confidence, .inactive⟩) ∨
        (second = ⟨key.authority, key.nativeId, confidence, .active⟩ ∧
          first = ⟨key.authority, key.nativeId, confidence, .inactive⟩) := by
  rcases first with ⟨firstAuthority, firstId, firstConfidence, firstValidity⟩
  rcases second with ⟨secondAuthority, secondId, secondConfidence, secondValidity⟩
  rcases key with ⟨authority, nativeId⟩
  simp only [deactivate, AliasEdge.key, AliasKey.mk.injEq] at same
  cases firstValidity <;> cases secondValidity <;> grind

theorem nodup_map_deactivate_iff (once : edges.Nodup) :
    (edges.map (deactivate key)).Nodup ↔ ¬Beside key edges := by
  rw [nodup_map_iff_inj_on once]
  constructor
  · rintro injective ⟨confidence, active, inactive⟩
    have same := injective _ active _ inactive (by simp [deactivate, AliasEdge.key])
    cases same
  intro apart first firstIn second secondIn same
  rcases deactivate_eq same with equal | ⟨confidence, ⟨rfl, rfl⟩ | ⟨rfl, rfl⟩⟩
  · exact equal
  · exact absurd ⟨confidence, firstIn, secondIn⟩ apart
  · exact absurd ⟨confidence, secondIn, firstIn⟩ apart

/-- At most four edges have one key. -/
theorem length_le_of_nodup (once : edges.Nodup) :
    edges.length ≤ 4 * (edges.map AliasEdge.key).dedup.length := by
  rw [← toFinset_card_of_nodup once, ← card_toFinset]
  have keysEq : (edges.map AliasEdge.key).toFinset = edges.toFinset.image AliasEdge.key := by
    ext key
    simp
  rw [keysEq]
  apply Finset.card_le_mul_card_image
  intro key _
  have four : ({⟨key.authority, key.nativeId, .candidate, .active⟩,
      ⟨key.authority, key.nativeId, .candidate, .inactive⟩,
      ⟨key.authority, key.nativeId, .exact, .active⟩,
      ⟨key.authority, key.nativeId, .exact, .inactive⟩} : Finset AliasEdge).card ≤ 4 :=
    Finset.card_le_four
  apply (Finset.card_le_card _).trans four
  intro edge member
  rcases Finset.mem_filter.mp member with ⟨_, rfl⟩
  rcases edge with ⟨authority, nativeId, confidence, validity⟩
  cases confidence <;> cases validity <;> simp [AliasEdge.key]

/-! ## One call -/

section

variable {registry next : TargetRegistry}

theorem listsOnce_iff :
    registry.ListsOnce ↔ ∀ id edges, registry.aliasesOf id = some edges → edges.Nodup := by
  simp only [ListsOnce, aliasesOf, Option.map_eq_some_iff]
  constructor
  · rintro once id _ ⟨record, found, rfl⟩
    exact once id record found
  · intro once id record found
    exact once id record.aliases ⟨record, found, rfl⟩

/-- One target's edges are set. -/
theorem listsOnce_update (once : registry.ListsOnce) {id : TargetId}
    (lists : next.aliasesOf = Function.update registry.aliasesOf id (some edges)) :
    next.ListsOnce ↔ edges.Nodup := by
  rw [listsOnce_iff] at once ⊢
  rw [lists]
  constructor
  · intro onceAfter
    exact onceAfter id edges (Function.update_self ..)
  intro nodup other otherEdges found
  rw [Function.update_apply] at found
  split at found
  · rw [← Option.some.inj found]
    exact nodup
  · exact once other otherEdges found

theorem answered_invalidateAlias (consistent : registry.Consistent)
    {authority nativeId : String} {target : TargetId} :
    answered registry (.invalidateAlias authority nativeId) = some target ↔
      authority ≠ "" ∧ nativeId ≠ "" ∧
        registry.exactActiveAliases[(⟨authority, nativeId⟩ : AliasKey)]? = some target := by
  unfold answered
  dsimp only
  unfold invalidateAlias
  dsimp only
  by_cases empty : authority = "" ∨ nativeId = ""
  · rw [if_pos empty]
    rcases empty with isEmpty | isEmpty
    · simp [fail, Except.toOption, isEmpty]
    · simp [fail, Except.toOption, isEmpty]
  rw [if_neg empty]
  rcases not_or.mp empty with ⟨authorityGiven, nativeIdGiven⟩
  cases indexed : registry.exactActiveAliases[(⟨authority, nativeId⟩ : AliasKey)]? with
  | none => simp [fail, Except.toOption]
  | some owner =>
    rcases (consistent.aliases ⟨authority, nativeId⟩ owner).mp indexed with ⟨record, found, _⟩
    simp [found, Except.toOption, authorityGiven, nativeIdGiven]

/-- A call that does not collide keeps the records free of repetitions, and one that does
breaks it. -/
theorem listsOnce_serve (consistent : registry.Consistent) (once : registry.ListsOnce)
    (request : Request) : (serve registry request).1.ListsOnce ↔ ¬Collides registry request := by
  have edgesOnce := listsOnce_iff.mp once
  have effect := serve_effect consistent request
  generalize answerEq : answered registry request = answer at effect
  cases effect with
  | unchanged lists =>
    rw [listsOnce_iff, lists, ← listsOnce_iff]
    apply iff_of_true once
    intro collides
    cases request with
    | invalidateAlias authority nativeId =>
      rcases collides with ⟨authorityGiven, nativeIdGiven, target, _, indexed, _⟩
      rw [(answered_invalidateAlias consistent).mpr
        ⟨authorityGiven, nativeIdGiven, indexed⟩] at answerEq
      cases answerEq
    | observe observation | attachAlias target edge | registerSurface target surface
    | removeSurface target surface => exact collides
  | joined _ _ lists grown | attached lists _ grown =>
    exact iff_of_true ((listsOnce_update once grown).mpr (nodup_listed (edgesOnce _ _ lists) _)) id
  | @created observation _ _ grown =>
    apply iff_of_true ((listsOnce_update once grown).mpr _) id
    cases observation.aliasEdge with
    | none => exact nodup_nil
    | some edge => exact nodup_singleton edge
  | @invalidated authority nativeId target edges indexed lists ended =>
    rw [listsOnce_update once ended, nodup_map_deactivate_iff (edgesOnce _ _ lists), not_iff_not]
    rcases (answered_invalidateAlias consistent).mp answerEq with
      ⟨authorityGiven, nativeIdGiven, _⟩
    rcases Option.map_eq_some_iff.mp lists with ⟨record, found, rfl⟩
    constructor
    · intro beside
      exact ⟨authorityGiven, nativeIdGiven, target, record, indexed, found, beside⟩
    rintro ⟨_, _, other, otherRecord, otherIndexed, otherFound, beside⟩
    rw [indexed] at otherIndexed
    cases otherIndexed
    rw [found] at otherFound
    cases otherFound
    exact beside

end

/-! ## Histories -/

/-- Every record of every state of a history lists each alias edge once exactly when no call of
the history collides, and then a record has at most four edges for each of its keys. -/
theorem listsOnce_iff_no_collision (requests : List Request) :
    ((∀ before, before <+: requests → (serveAll {} before).ListsOnce) ↔
        ∀ before request, before ++ [request] <+: requests →
          ¬Collides (serveAll {} before) request) ∧
      ∀ before, before <+: requests → (serveAll {} before).ListsOnce →
        ∀ (id : TargetId) (record : TargetRecord),
          (serveAll {} before).targets[id]? = some record →
            record.aliases.length ≤ 4 * (record.aliases.map AliasEdge.key).dedup.length := by
  refine ⟨⟨?_, ?_⟩, ?_⟩
  · intro once before request within
    have here := once before ((prefix_append _ _).trans within)
    rw [← listsOnce_serve (consistent_serveAll before) here, ← serveAll_concat]
    exact once _ within
  · intro apart before within
    induction before using List.reverseRecOn with
    | nil =>
      intro id record found
      rw [serveAll, foldl_nil, ExtTreeMap.getElem?_empty] at found
      cases found
    | append_singleton before request ih =>
      have here := ih ((prefix_append _ _).trans within)
      rw [serveAll_concat, listsOnce_serve (consistent_serveAll before) here]
      exact apart before request within
  · intro before _ once id record found
    exact length_le_of_nodup (once id record found)

/-- An exact and active edge of a window. -/
def windowEdge : AliasEdge := ⟨"x11", "7", .exact, .active⟩

/-- A window whose alias is invalidated, attached again and invalidated again. -/
def attachedAgain : List Request :=
  [.observe { aliasEdge := some windowEdge }, .invalidateAlias "x11" "7",
    .attachAlias ⟨1⟩ windowEdge, .invalidateAlias "x11" "7"]

theorem attachedAgain_repeats : ¬(serveAll {} attachedAgain).ListsOnce := by
  have twice : (serveAll {} attachedAgain).targets[(⟨1⟩ : TargetId)]?.map TargetRecord.aliases =
      some [⟨"x11", "7", .exact, .inactive⟩, ⟨"x11", "7", .exact, .inactive⟩] := by
    decide +kernel
  rcases Option.map_eq_some_iff.mp twice with ⟨record, found, edges⟩
  intro once
  have nodup := once ⟨1⟩ record found
  rw [edges] at nodup
  simp at nodup

end Grab.Kernel.TargetRegistry

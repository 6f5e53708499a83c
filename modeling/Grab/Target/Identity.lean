import Grab.Target.Effects
import Mathlib.Data.List.Induction

/-!
# Which observations are of one target

An exact and active alias key is bound to a target by the observation that creates the target or
by an attachment, and stays bound until it is invalidated.  An observation is of the target its
key is bound to; an observation without a bound key is of a target that was never issued before.
-/

namespace Grab.Kernel.TargetRegistry

open Std List Option

/-- The exact and active edge a call brings. -/
def fusingEdge : Request → Option AliasEdge
  | .observe observation => observation.aliasEdge.filter isFusing
  | .attachAlias _ edge => if isFusing edge then some edge else none
  | _ => none

/-- The call succeeds, and the key is bound to the target from then on. -/
def Binds (registry : TargetRegistry) (request : Request) (key : AliasKey) (id : TargetId) :
    Prop :=
  (∃ edge, fusingEdge request = some edge ∧ edge.key = key) ∧ answered registry request = some id

/-- The call invalidates the key. -/
def Ends (registry : TargetRegistry) (request : Request) (key : AliasKey) : Prop :=
  request = .invalidateAlias key.authority key.nativeId ∧ (answered registry request).isSome = true

/-- A call of the history bound the key to the target, and no later call invalidated it. -/
def BoundSince (requests : List Request) (key : AliasKey) (id : TargetId) : Prop :=
  ∃ before request after, requests = before ++ request :: after ∧
    Binds (serveAll {} before) request key id ∧
    ∀ between other rest, after = between ++ other :: rest →
      ¬Ends (serveAll {} (before ++ request :: between)) other key

/-- Some observation of the history was answered with the identity. -/
def Issued (requests : List Request) (id : TargetId) : Prop :=
  ∃ before observation after, requests = before ++ .observe observation :: after ∧
    (observe (serveAll {} before) observation).2 = .ok id

/-! ## The index -/

section

variable {registry : TargetRegistry}

/-- A key is bound after a call when the call binds it, or it was bound and the call does not
invalidate it. -/
theorem index_serve (consistent : registry.Consistent) (request : Request) (key : AliasKey)
    (id : TargetId) : (serve registry request).1.exactActiveAliases[key]? = some id ↔
      Binds registry request key id ∨
        (registry.exactActiveAliases[key]? = some id ∧ ¬Ends registry request key) := by
  have effect := serve_effect consistent request
  unfold Binds Ends
  generalize answered registry request = answer at effect
  cases effect with
  | unchanged lists index => simp [index]
  | @joined observation edge target edges fusing indexed lists grown index =>
    rw [index]
    simp only [fusingEdge, fusing, some.injEq, reduceCtorEq, false_and, not_false_eq_true,
      and_true]
    constructor
    · exact .inr
    · rintro (⟨⟨_, rfl, rfl⟩, rfl⟩ | bound)
      · exact indexed
      · exact bound
  | @created observation free bounded grown index =>
    rw [index]
    simp only [fusingEdge, some.injEq, reduceCtorEq, false_and, not_false_eq_true,
      and_true, Option.any_eq_true, decide_eq_true_eq]
    split
    · rename_i brings
      rcases brings with ⟨edge, fusing, rfl⟩
      rw [free edge fusing]
      simp [fusing]
    rename_i other
    constructor
    · exact .inr
    · rintro (⟨brings, _⟩ | bound)
      · exact absurd brings other
      · exact bound
  | @attached target edge edges lists free grown index =>
    rw [index]
    simp only [fusingEdge, Option.some.injEq, reduceCtorEq, false_and, not_false_eq_true, and_true]
    split
    · rename_i brings
      rcases brings with ⟨fusing, rfl⟩
      rw [if_pos fusing]
      constructor
      · rintro isTarget
        exact .inl ⟨⟨edge, rfl, rfl⟩, some.inj isTarget⟩
      · rintro (⟨_, isTarget⟩ | bound)
        · exact congrArg some isTarget
        · rw [free fusing id bound]
    · rename_i other
      constructor
      · exact .inr
      rintro (⟨⟨_, brings, rfl⟩, _⟩ | bound)
      · split at brings
        · rename_i fusing
          cases brings
          exact absurd ⟨fusing, rfl⟩ other
        · cases brings
      · exact bound
  | @invalidated authority nativeId target edges indexed lists ended index =>
    rw [index]
    simp only [fusingEdge, reduceCtorEq, false_and, exists_false, false_or,
      Request.invalidateAlias.injEq, isSome_some, and_true]
    by_cases here : key = ⟨authority, nativeId⟩
    · subst here
      simp
    rw [if_neg here]
    apply (and_iff_left _).symm
    rintro ⟨rfl, rfl⟩
    exact here rfl

end

/-! ## Histories -/

variable {id : TargetId} {observation : TargetObservation} {requests : List Request}
  {key : AliasKey}

theorem boundSince_nil : ¬BoundSince [] key id := by
  rintro ⟨before, request, after, impossible, _⟩
  simp at impossible

theorem boundSince_concat {request : Request} :
    BoundSince (requests ++ [request]) key id ↔
      Binds (serveAll {} requests) request key id ∨
        (BoundSince requests key id ∧ ¬Ends (serveAll {} requests) request key) := by
  constructor
  · rintro ⟨before, binding, after, split, binds, kept⟩
    rcases eq_nil_or_concat after with rfl | ⟨front, last, rfl⟩
    · rcases append_inj' split rfl with ⟨rfl, same⟩
      cases same
      exact .inl binds
    right
    rw [concat_eq_append, ← cons_append, ← append_assoc] at split
    rcases append_inj' split rfl with ⟨rfl, same⟩
    cases same
    refine ⟨⟨before, binding, front, rfl, binds, ?_⟩, ?_⟩
    · rintro between other rest rfl
      exact kept between other (rest ++ [request]) (by simp)
    · exact kept front request [] (by simp)
  · rintro (binds | ⟨⟨before, binding, after, rfl, binds, kept⟩, open_⟩)
    · refine ⟨requests, request, [], rfl, binds, ?_⟩
      intro between other rest impossible
      simp at impossible
    · refine ⟨before, binding, after ++ [request], by simp, binds, ?_⟩
      intro between other rest split
      rcases eq_nil_or_concat rest with rfl | ⟨front, last, rfl⟩
      · rcases append_inj' split rfl with ⟨rfl, same⟩
        cases same
        exact open_
      · rw [concat_eq_append, ← cons_append, ← append_assoc] at split
        rcases append_inj' split rfl with ⟨rfl, _⟩
        exact kept between other front rfl

/-- The index holds the keys that are bound since some call. -/
theorem index_iff_boundSince (requests : List Request) (key : AliasKey) (id : TargetId) :
    (serveAll {} requests).exactActiveAliases[key]? = some id ↔ BoundSince requests key id := by
  induction requests using List.reverseRecOn generalizing id with
  | nil =>
    apply iff_of_false _ boundSince_nil
    simp [serveAll]
  | append_singleton requests request ih =>
    rw [serveAll_concat, index_serve (consistent_serveAll requests), boundSince_concat, ih]

/-! ## Observations -/

section

variable {registry : TargetRegistry}

/-- An observation is of the target its key is bound to, or of a new one when its key is bound
to none. -/
theorem observe_ok (consistent : registry.Consistent)
    (returned : (observe registry observation).2 = .ok id) :
    (∃ edge, observation.aliasEdge.filter isFusing = some edge ∧
        registry.exactActiveAliases[edge.key]? = some id) ∨
      ((∀ edge, observation.aliasEdge.filter isFusing = some edge →
        registry.exactActiveAliases[edge.key]? = none) ∧ id = ⟨registry.nextId⟩) := by
  have effect := observe_effect consistent observation
  have answer : answered registry (.observe observation) = some id := by
    rw [answered, returned]
    rfl
  rw [answer] at effect
  cases effect with
  | joined fusing indexed => exact .inl ⟨_, fusing, indexed⟩
  | created free => exact .inr ⟨free, rfl⟩

theorem isSome_answered {authority nativeId : String}
    (invalidated : (invalidateAlias registry authority nativeId).2 = .ok ()) :
    (answered registry (.invalidateAlias authority nativeId)).isSome = true := by
  rw [answered, invalidated]
  cases indexed : registry.exactActiveAliases[(⟨authority, nativeId⟩ : AliasKey)]? with
  | some owner => rfl
  | none =>
    unfold invalidateAlias at invalidated
    dsimp only at invalidated
    rw [indexed] at invalidated
    split at invalidated <;> cases invalidated

/-- Identities are issued in ascending order. -/
theorem nextId_serve (consistent : registry.Consistent) (request : Request) :
    registry.nextId ≤ (serve registry request).1.nextId := by
  have effect := serve_effect consistent request
  generalize answered registry request = answer at effect
  cases effect with
  | unchanged _ _ identities | joined _ _ _ _ _ identities | attached _ _ _ _ identities
  | invalidated _ _ _ _ identities => exact identities ▸ UInt64.le_refl _
  | created _ bounded _ _ identities =>
    rw [identities]
    exact UInt64.le_of_lt (lt_add_one bounded)

/-- The target of an observation has an identity below the next one. -/
theorem observe_lt (consistent : registry.Consistent)
    (returned : (observe registry observation).2 = .ok id) :
    id.value < (serve registry (.observe observation)).1.nextId := by
  have effect := observe_effect consistent observation
  have answer : answered registry (.observe observation) = some id := by
    rw [answered, returned]
    rfl
  rw [answer] at effect
  change id.value < (observe registry observation).1.nextId
  cases effect with
  | joined _ indexed _ _ _ identities =>
    rcases (consistent.aliases _ id).mp indexed with ⟨record, found, _⟩
    rw [identities]
    exact (consistent.records id record found).issued
  | created _ bounded _ _ identities =>
    rw [identities]
    exact lt_add_one bounded

end

theorem issued_lt (requests : List Request) (issued : Issued requests id) :
    id.value < (serveAll {} requests).nextId := by
  induction requests using List.reverseRecOn with
  | nil =>
    rcases issued with ⟨before, observation, after, impossible, _⟩
    simp at impossible
  | append_singleton requests request ih =>
    rw [serveAll_concat]
    rcases issued with ⟨before, observation, after, split, returned⟩
    rcases eq_nil_or_concat after with rfl | ⟨front, last, rfl⟩
    · rcases append_inj' split rfl with ⟨rfl, same⟩
      cases same
      exact observe_lt (consistent_serveAll requests) returned
    rw [concat_eq_append, ← cons_append, ← append_assoc] at split
    rcases append_inj' split rfl with ⟨rfl, _⟩
    exact UInt64.lt_of_lt_of_le (ih ⟨before, observation, front, rfl, returned⟩)
      (nextId_serve (consistent_serveAll _) request)

/-- An observation without a bound key is of a target that was never issued. -/
theorem not_issued (free : ∀ edge, observation.aliasEdge.filter isFusing = some edge →
      ∀ other, ¬BoundSince requests edge.key other)
    (returned : (observe (serveAll {} requests) observation).2 = .ok id) : ¬Issued requests id := by
  intro issued
  rcases observe_ok (consistent_serveAll requests) returned with
    ⟨edge, fusing, indexed⟩ | ⟨_, rfl⟩
  · exact free edge fusing id ((index_iff_boundSince requests edge.key id).mp indexed)
  · exact absurd (issued_lt requests issued) (UInt64.lt_irrefl _)

/-- A key that was invalidated is bound to nothing until a call binds it again. -/
theorem not_boundSince_invalidated {front back : List Request}
    (ended : (answered (serveAll {} front)
      (.invalidateAlias key.authority key.nativeId)).isSome = true)
    (unbound : ∀ between request rest id, back = between ++ request :: rest →
      ¬Binds (serveAll {} (front ++ .invalidateAlias key.authority key.nativeId :: between))
        request key id) (id : TargetId) :
    ¬BoundSince (front ++ .invalidateAlias key.authority key.nativeId :: back) key id := by
  induction back using List.reverseRecOn generalizing id with
  | nil =>
    rw [boundSince_concat]
    rintro (⟨⟨_, impossible, _⟩, _⟩ | ⟨_, kept⟩)
    · cases impossible
    · exact kept ⟨rfl, ended⟩
  | append_singleton back request ih =>
    rw [← cons_append, ← append_assoc, boundSince_concat]
    rintro (binds | ⟨bound, _⟩)
    · exact unbound back request [] id rfl binds
    · refine ih ?_ id bound
      rintro between other rest other' rfl
      exact unbound between other (rest ++ [request]) other' (by simp)

/-- Two observations are of one target exactly when the second brings a key that a call bound to
the target of the first and that was not invalidated since.  The key of an alias that was
invalidated and not bound again leads to a target that was never issued. -/
theorem same_target_iff :
    (∀ (earlier middle : List Request) (first second : TargetObservation) (a b : TargetId),
      (observe (serveAll {} earlier) first).2 = .ok a →
      (observe (serveAll {} (earlier ++ .observe first :: middle)) second).2 = .ok b →
      (a = b ↔ ∃ edge, second.aliasEdge.filter isFusing = some edge ∧
        BoundSince (earlier ++ .observe first :: middle) edge.key a)) ∧
      ∀ (front back : List Request) (edge : AliasEdge) (observation : TargetObservation)
        (id : TargetId),
        (invalidateAlias (serveAll {} front) edge.authority edge.nativeId).2 = .ok () →
        (∀ between request rest other, back = between ++ request :: rest →
          ¬Binds
            (serveAll {} (front ++ .invalidateAlias edge.authority edge.nativeId :: between))
            request edge.key other) →
        observation.aliasEdge = some edge → isFusing edge = true →
        (observe
            (serveAll {} (front ++ .invalidateAlias edge.authority edge.nativeId :: back))
            observation).2 = .ok id →
        ¬Issued (front ++ .invalidateAlias edge.authority edge.nativeId :: back) id := by
  constructor
  · intro earlier middle first second a b firstOk secondOk
    have issued : Issued (earlier ++ .observe first :: middle) a :=
      ⟨earlier, first, middle, rfl, firstOk⟩
    constructor
    · rintro rfl
      rcases observe_ok (consistent_serveAll _) secondOk with ⟨edge, fusing, indexed⟩ | ⟨_, fresh⟩
      · exact ⟨edge, fusing, (index_iff_boundSince _ _ _).mp indexed⟩
      · have below := issued_lt _ issued
        rw [fresh] at below
        exact absurd below (UInt64.lt_irrefl _)
    rintro ⟨edge, fusing, bound⟩
    have indexed := (index_iff_boundSince _ _ _).mpr bound
    rcases observe_ok (consistent_serveAll _) secondOk with ⟨other, isOther, found⟩ | ⟨free, _⟩
    · rw [fusing] at isOther
      cases isOther
      rw [indexed] at found
      exact some.inj found
    · rw [free edge fusing] at indexed
      cases indexed
  · intro front back edge observation id invalidated unbound brings fusing returned
    apply not_issued _ returned
    intro other isOther
    rw [brings, filter_some, if_pos fusing] at isOther
    cases isOther
    exact not_boundSince_invalidated (isSome_answered invalidated) unbound

/-- A window under an exact and active alias. -/
def window : TargetObservation := { aliasEdge := some ⟨"x11", "7", .exact, .active⟩ }

/-- An alias that was invalidated and attached again leads to the target it led to, although it
was not active all the time. -/
theorem same_target_after_invalidation :
    ¬∀ (earlier middle : List Request) (first second : TargetObservation) (a b : TargetId),
      (observe (serveAll {} earlier) first).2 = .ok a →
      (observe (serveAll {} (earlier ++ .observe first :: middle)) second).2 = .ok b →
      (a = b ↔ ∃ edge, second.aliasEdge.filter isFusing = some edge ∧
        ∀ between, between <+: middle →
          (serveAll {} (earlier ++ .observe first :: between)).exactActiveAliases[edge.key]? =
            some a) := by
  intro claimed
  have same := (claimed []
    [.invalidateAlias "x11" "7", .attachAlias ⟨1⟩ ⟨"x11", "7", .exact, .active⟩]
    window window ⟨1⟩ ⟨1⟩ (by rfl) (by rfl)).mp rfl
  rcases same with ⟨edge, fusing, active⟩
  cases fusing
  have ended := active [.invalidateAlias "x11" "7"] (prefix_iff_eq_take.mpr rfl)
  have inactive : (serveAll {} ([] ++ .observe window :: [.invalidateAlias "x11" "7"])
      ).exactActiveAliases[(⟨"x11", "7"⟩ : AliasKey)]? = none := by
    decide +kernel
  rw [show (⟨"x11", "7", .exact, .active⟩ : AliasEdge).key = ⟨"x11", "7"⟩ from rfl, inactive]
    at ended
  cases ended

end Grab.Kernel.TargetRegistry

import Grab.Target.Registry
import Mathlib.Data.List.InsertIdx
import Mathlib.Data.List.Nodup

/-!
# The registry's indexes mirror its records

One lemma for each operation says that it keeps the indexes, that an error leaves
the registry as it was, and that no error is an internal fault; the history of a
registry follows by induction.
-/

namespace Grab.Kernel.TargetRegistry

open Std Grab.Lib List

/-- A record holds a key as exact and active. -/
def recordHolds (record : TargetRecord) (key : AliasKey) : Prop :=
  ∃ edge ∈ record.aliases, isFusing edge = true ∧ edge.key = key

def recordShows (record : TargetRecord) (surface : SurfaceId) : Prop :=
  ∃ shown ∈ record.surfaces, shown.id = surface

def HoldsAlias (registry : TargetRegistry) (target : TargetId) (key : AliasKey) : Prop :=
  ∃ record, registry.targets[target]? = some record ∧ recordHolds record key

def OwnsSurface (registry : TargetRegistry) (target : TargetId) (surface : SurfaceId) : Prop :=
  ∃ record, registry.targets[target]? = some record ∧ recordShows record surface

/-- A record under its id, issued below a limit, that lists each surface once. -/
structure RecordOk (limit : UInt64) (id : TargetId) (record : TargetRecord) : Prop where
  identity : record.id = id
  issued : id.value < limit
  surfacesOnce : (record.surfaces.map SurfaceRecord.id).Nodup

structure Consistent (registry : TargetRegistry) : Prop where
  aliases : Mirrors (fun key => registry.exactActiveAliases[key]?) registry.HoldsAlias
  surfaces : Mirrors (fun surface => registry.surfaceOwners[surface]?) registry.OwnsSurface
  records : ∀ id record, registry.targets[id]? = some record → RecordOk registry.nextId id record

/-- A reply keeps the indexes, and an error in it is no internal fault and comes
with the registry unchanged. -/
structure Keeps {α : Type} (registry : TargetRegistry) (reply : Reply α) : Prop where
  consistent : reply.1.Consistent
  unchanged : ∀ error, reply.2 = .error error → reply.1 = registry ∧ error.code ≠ .internalFault

section

variable {registry next : TargetRegistry} {id : TargetId} {record : TargetRecord} {α : Type}

theorem keeps_fail (consistent : registry.Consistent) {code : ErrorCode}
    (other : code ≠ .internalFault) (message : String) :
    Keeps registry (fail registry code message : Reply α) := by
  refine ⟨consistent, ?_⟩
  intro error isError
  refine ⟨rfl, ?_⟩
  rw [← Except.error.inj isError]
  exact other

theorem keeps_ok {value : α} (consistent : next.Consistent) : Keeps registry (next, .ok value) :=
  ⟨consistent, fun _ impossible => by cases impossible⟩

theorem getElem?_setTarget (registry : TargetRegistry) (id : TargetId) (record : TargetRecord)
    (other : TargetId) : (setTarget registry id record).targets[other]? =
      if other = id then some record else registry.targets[other]? := by
  rw [setTarget, ExtTreeMap.getElem?_insert]
  by_cases same : other = id
  · subst same
    simp
  · have apart : ¬compare id other = .eq := fun equal => same (LawfulEqCmp.eq_of_compare equal).symm
    rw [if_neg apart, if_neg same]

variable {who : TargetId} {surface : SurfaceId} {old : TargetRecord} {edge : AliasEdge}
  {observation : TargetObservation} {key : AliasKey} {position : Nat}

theorem holdsAlias_setTarget : (setTarget registry id record).HoldsAlias who key ↔
      (who = id ∧ recordHolds record key) ∨ (who ≠ id ∧ registry.HoldsAlias who key) := by
  unfold HoldsAlias
  rw [getElem?_setTarget]
  by_cases same : who = id <;> simp [same]

theorem ownsSurface_setTarget : (setTarget registry id record).OwnsSurface who surface ↔
      (who = id ∧ recordShows record surface) ∨ (who ≠ id ∧ registry.OwnsSurface who surface) := by
  unfold OwnsSurface
  rw [getElem?_setTarget]
  by_cases same : who = id <;> simp [same]

/-- Replacing a record that was there changes what is held as it changes the record. -/
theorem holdsAlias_replace (found : registry.targets[id]? = some old) :
    registry.HoldsAlias who key ↔
      (who = id ∧ recordHolds old key) ∨ (who ≠ id ∧ registry.HoldsAlias who key) := by
  unfold HoldsAlias
  by_cases same : who = id
  · subst same
    simp [found]
  · simp [same]

theorem ownsSurface_replace (found : registry.targets[id]? = some old) :
    registry.OwnsSurface who surface ↔
      (who = id ∧ recordShows old surface) ∨ (who ≠ id ∧ registry.OwnsSurface who surface) := by
  unfold OwnsSurface
  by_cases same : who = id
  · subst same
    simp [found]
  · simp [same]

/-- A record that holds what the old one held. -/
theorem sameAliases (found : registry.targets[id]? = some old)
    (same : ∀ key, recordHolds record key ↔ recordHolds old key) (who : TargetId) (key : AliasKey) :
    (setTarget registry id record).HoldsAlias who key ↔ registry.HoldsAlias who key := by
  rw [holdsAlias_setTarget, same]
  exact (holdsAlias_replace found).symm

theorem sameSurfaces {old : TargetRecord} (found : registry.targets[id]? = some old)
    (same : ∀ surface, recordShows record surface ↔ recordShows old surface) (who : TargetId)
    (surface : SurfaceId) :
    (setTarget registry id record).OwnsSurface who surface ↔ registry.OwnsSurface who surface := by
  rw [ownsSurface_setTarget, same]
  exact (ownsSurface_replace found).symm

/-- The records after one of them was set. -/
theorem records_setTarget (consistent : registry.Consistent) {limit : UInt64}
    (grows : registry.nextId ≤ limit) (ok : RecordOk limit id record) (other : TargetId)
    (otherRecord : TargetRecord)
    (found : (setTarget registry id record).targets[other]? = some otherRecord) :
    RecordOk limit other otherRecord := by
  rw [getElem?_setTarget] at found
  split at found
  · rename_i same
    rw [same, ← Option.some.inj found]
    exact ok
  · have old := consistent.records other otherRecord found
    exact ⟨old.identity, UInt64.lt_of_lt_of_le old.issued grows, old.surfacesOnce⟩

/-! ## Aliases -/

theorem recordHolds_append :
    recordHolds { record with aliases := record.aliases ++ [edge] } key ↔
      recordHolds record key ∨ (isFusing edge = true ∧ edge.key = key) := by
  simp only [recordHolds, mem_append, mem_singleton]
  constructor
  · rintro ⟨other, member | rfl, holds⟩
    · exact .inl ⟨other, member, holds⟩
    · exact .inr holds
  · rintro (⟨other, member, holds⟩ | holds)
    · exact ⟨other, .inl member, holds⟩
    · exact ⟨edge, .inr rfl, holds⟩

theorem keeps_joinTarget (consistent : registry.Consistent)
    (indexed : registry.exactActiveAliases[edge.key]? = some id) :
    Keeps registry (joinTarget registry id edge observation) := by
  have holds : registry.HoldsAlias id edge.key := (consistent.aliases edge.key id).mp indexed
  rcases holds with ⟨record, found, holds⟩
  have ok := consistent.records id record found
  unfold joinTarget
  rw [found]
  dsimp only
  split
  · exact keeps_fail consistent (by decide) _
  apply keeps_ok
  have sameHolds : ∀ key, recordHolds
      { record with
        aliases := if edge ∈ record.aliases then record.aliases else record.aliases ++ [edge]
        observations := record.observations ++ [observation] } key ↔
      recordHolds record key := by
    intro key
    by_cases listed : edge ∈ record.aliases
    · simp [recordHolds, listed]
    simp only [if_neg listed]
    refine recordHolds_append.trans (or_iff_left_of_imp ?_)
    rintro ⟨_, rfl⟩
    exact holds
  constructor
  case aliases =>
    exact consistent.aliases.of_iff (fun _ => rfl) (sameAliases found sameHolds)
  case surfaces =>
    exact consistent.surfaces.of_iff (fun _ => rfl) (sameSurfaces found fun _ => Iff.rfl)
  case records =>
    exact records_setTarget consistent (UInt64.le_refl _) ⟨ok.identity, ok.issued, ok.surfacesOnce⟩

theorem absent_next (consistent : registry.Consistent) :
    registry.targets[(⟨registry.nextId⟩ : TargetId)]? = none := by
  cases found : registry.targets[(⟨registry.nextId⟩ : TargetId)]? with
  | none => rfl
  | some record =>
    exact absurd (consistent.records _ record found).issued (UInt64.lt_irrefl _)

theorem lt_add_one {value : UInt64} (bounded : value ≠ 0xFFFFFFFFFFFFFFFF) : value < value + 1 := by
  rw [UInt64.lt_iff_toNat_lt, UInt64.toNat_add]
  have small := value.toNat_lt
  have differs : value.toNat ≠ 0xFFFFFFFFFFFFFFFF := by
    intro same
    apply bounded
    rw [← UInt64.toNat_inj, same]
    rfl
  have one : (1 : UInt64).toNat = 1 := rfl
  omega

/-- A new target holds the alias it was observed under and no surface. -/
theorem keeps_createTarget (consistent : registry.Consistent)
    (free : ∀ edge, observation.aliasEdge.filter isFusing = some edge →
      registry.exactActiveAliases[edge.key]? = none) :
    Keeps registry (createTarget registry observation) := by
  unfold createTarget
  split
  · exact keeps_fail consistent (by decide) _
  rename_i bounded
  have grows := lt_add_one bounded
  have absent := absent_next consistent
  dsimp only
  split
  · rename_i present
    rw [ExtTreeMap.mem_iff_isSome_getElem?, absent] at present
    cases present
  generalize recordEq : (⟨⟨registry.nextId⟩, observation.grade,
    observation.aliasEdge.toList, [observation], []⟩ : TargetRecord) = record
  have nobodyOwns : ∀ surface, ¬recordShows record surface := by
    rintro surface ⟨shown, member, _⟩
    rw [← recordEq] at member
    cases member
  have noSurfaces : ∀ who surface,
      (setTarget registry ⟨registry.nextId⟩ record).OwnsSurface who surface ↔
        registry.OwnsSurface who surface := by
    intro who surface
    rw [ownsSurface_setTarget]
    constructor
    · rintro (⟨_, shows⟩ | ⟨_, owns⟩)
      · exact absurd shows (nobodyOwns surface)
      · exact owns
    intro owns
    right
    refine ⟨?_, owns⟩
    rintro rfl
    rcases owns with ⟨old, found, _⟩
    rw [absent] at found
    cases found
  have holdsIff : ∀ who key,
      (setTarget registry ⟨registry.nextId⟩ record).HoldsAlias who key ↔
        registry.HoldsAlias who key ∨ (who = ⟨registry.nextId⟩ ∧ recordHolds record key) := by
    intro who key
    rw [holdsAlias_setTarget]
    constructor
    · rintro (new | ⟨_, old⟩)
      · exact .inr new
      · exact .inl old
    rintro (old | new)
    · right
      refine ⟨?_, old⟩
      rintro rfl
      rcases old with ⟨record, found, _⟩
      rw [absent] at found
      cases found
    · exact .inl new
  have recordsOk := records_setTarget consistent (UInt64.le_of_lt grows)
    (⟨by rw [← recordEq], grows, by rw [← recordEq]; exact nodup_nil⟩ :
      RecordOk (registry.nextId + 1) ⟨registry.nextId⟩ record)
  have recordHoldsIff : ∀ key, recordHolds record key ↔
      ∃ edge, observation.aliasEdge.filter isFusing = some edge ∧ edge.key = key := by
    intro key
    rw [← recordEq, recordHolds]
    constructor
    · rintro ⟨edge, member, fusing, rfl⟩
      rw [Option.mem_toList] at member
      exact ⟨edge, Option.filter_eq_some_iff.mpr ⟨member, fusing⟩, rfl⟩
    · rintro ⟨edge, filtered, rfl⟩
      rcases Option.filter_eq_some_iff.mp filtered with ⟨isEdge, fusing⟩
      exact ⟨edge, Option.mem_toList.mpr isEdge, fusing, rfl⟩
  split
  · rename_i noEdge
    apply keeps_ok
    constructor
    case aliases =>
      refine consistent.aliases.of_iff (fun _ => rfl) fun who key => ?_
      refine (holdsIff who key).trans (or_iff_left ?_)
      rintro ⟨_, holds⟩
      rcases (recordHoldsIff key).mp holds with ⟨edge, filtered, _⟩
      rw [noEdge] at filtered
      cases filtered
    case surfaces => exact consistent.surfaces.of_iff (fun _ => rfl) noSurfaces
    case records => exact recordsOk
  · rename_i edge isEdge
    have isFree := free edge isEdge
    split
    · rename_i taken
      rw [ExtTreeMap.mem_iff_isSome_getElem?, isFree] at taken
      cases taken
    apply keeps_ok
    constructor
    case aliases =>
      apply consistent.aliases.enter (.inl isFree)
      · exact ExtTreeMap.getElem?_insert_self
      · intro other different
        simp [ExtTreeMap.getElem?_insert, Ne.symm different]
      intro who what
      refine (holdsIff who what).trans (or_congr Iff.rfl (and_congr Iff.rfl ?_))
      rw [recordHoldsIff, isEdge]
      simp [eq_comm]
    case surfaces => exact consistent.surfaces.of_iff (fun _ => rfl) noSurfaces
    case records => exact recordsOk

theorem keeps_observe (consistent : registry.Consistent) (observation : TargetObservation) :
    Keeps registry (observe registry observation) := by
  unfold observe
  split
  · rename_i error invalid
    refine ⟨consistent, ?_⟩
    intro other isError
    refine ⟨rfl, ?_⟩
    rw [← Except.error.inj isError]
    unfold validateObservation validateAlias at invalid
    repeat' split at invalid
    all_goals first
      | (rw [← Except.error.inj invalid]; decide)
      | cases invalid
  · split
    · rename_i noEdge
      apply keeps_createTarget consistent
      intro edge isEdge
      rw [noEdge] at isEdge
      cases isEdge
    · rename_i edge isEdge
      split
      · rename_i id indexed
        exact keeps_joinTarget consistent indexed
      rename_i isFree
      apply keeps_createTarget consistent
      intro other isOther
      rw [isEdge] at isOther
      rw [← Option.some.inj isOther]
      exact isFree

theorem code_of_validateAlias {error : Error} (invalid : validateAlias edge = .error error) :
    error.code = .invalidArgument := by
  unfold validateAlias at invalid
  split at invalid
  · rw [← Except.error.inj invalid]
  · split at invalid
    · rw [← Except.error.inj invalid]
    · cases invalid

theorem keeps_attachAlias (consistent : registry.Consistent) (target : TargetId)
    (edge : AliasEdge) : Keeps registry (attachAlias registry target edge) := by
  unfold attachAlias
  split
  · rename_i error invalid
    refine ⟨consistent, ?_⟩
    intro other isError
    refine ⟨rfl, ?_⟩
    rw [← Except.error.inj isError, code_of_validateAlias invalid]
    decide
  split
  · exact keeps_fail consistent (by decide) _
  rename_i record found
  have ok := consistent.records target record found
  split
  · exact keeps_fail consistent (by decide) _
  rename_i notTaken
  split
  · exact keeps_ok consistent
  have recordsOk := records_setTarget consistent (UInt64.le_refl _)
    (⟨ok.identity, ok.issued, ok.surfacesOnce⟩ : RecordOk registry.nextId target
      { record with aliases := record.aliases ++ [edge] })
  have surfacesSame := consistent.surfaces.of_iff (fun _ => rfl)
    (@sameSurfaces registry target { record with aliases := record.aliases ++ [edge] }
      record found fun _ => Iff.rfl)
  split
  · rename_i fusing
    apply keeps_ok
    constructor
    case aliases =>
      have free : registry.exactActiveAliases[edge.key]? = none ∨
          registry.exactActiveAliases[edge.key]? = some target := by
        cases indexed : registry.exactActiveAliases[edge.key]? with
        | none => exact .inl rfl
        | some owner =>
          right
          simp only [takenByOther, fusing, indexed, Bool.true_and, bne_iff_ne,
            not_not] at notTaken
          rw [notTaken]
      apply consistent.aliases.enter free
      · dsimp only
        rw [ExtTreeMap.getElem?_insertIfNew]
        rcases free with isFree | isMine
        · have absent : edge.key ∉ registry.exactActiveAliases := by
            rw [ExtTreeMap.mem_iff_isSome_getElem?, isFree]
            simp
          rw [if_pos ⟨ReflCmp.compare_self, absent⟩]
        have present : edge.key ∈ registry.exactActiveAliases := by
          rw [ExtTreeMap.mem_iff_isSome_getElem?, isMine]
          rfl
        rw [if_neg fun both => both.2 present]
        exact isMine
      · intro other different
        simp [ExtTreeMap.getElem?_insertIfNew, Ne.symm different]
      · intro who what
        refine holdsAlias_setTarget.trans
          (Iff.trans ?_ (or_congr (holdsAlias_replace found).symm Iff.rfl))
        rw [recordHolds_append]
        simp only [fusing, true_and]
        constructor
        · rintro (⟨rfl, old | rfl⟩ | other)
          · exact .inl (.inl ⟨rfl, old⟩)
          · exact .inr ⟨rfl, rfl⟩
          · exact .inl (.inr other)
        rintro ((⟨rfl, old⟩ | other) | ⟨rfl, rfl⟩)
        · exact .inl ⟨rfl, .inl old⟩
        · exact .inr other
        · exact .inl ⟨rfl, .inr rfl⟩
    case surfaces => exact surfacesSame
    case records => exact recordsOk
  · rename_i notFusing
    apply keeps_ok
    constructor
    case aliases =>
      apply consistent.aliases.of_iff (fun _ => rfl)
      apply sameAliases found
      intro key
      rw [recordHolds_append]
      exact or_iff_left fun holds => notFusing holds.1
    case surfaces => exact surfacesSame
    case records => exact recordsOk

theorem recordHolds_deactivate {key what : AliasKey} :
    recordHolds { record with aliases := record.aliases.map (deactivate key) } what ↔
      recordHolds record what ∧ what ≠ key := by
  simp only [recordHolds, mem_map, exists_exists_and_eq_and]
  constructor
  · rintro ⟨edge, member, fusing, rfl⟩
    unfold deactivate at fusing ⊢
    split at fusing
    · simp [isFusing] at fusing
    rename_i kept
    rw [if_neg kept]
    refine ⟨⟨edge, member, fusing, rfl⟩, ?_⟩
    intro same
    have active : edge.validity = .active := by
      simp only [isFusing, Bool.and_eq_true, beq_iff_eq] at fusing
      exact fusing.2
    exact kept ⟨same, active⟩
  · rintro ⟨⟨edge, member, fusing, rfl⟩, different⟩
    have kept : deactivate key edge = edge := if_neg fun both => different both.1
    exact ⟨edge, member, by rw [kept]; exact fusing, by rw [kept]⟩

theorem keeps_invalidateAlias (consistent : registry.Consistent) (authority nativeId : String) :
    Keeps registry (invalidateAlias registry authority nativeId) := by
  unfold invalidateAlias
  dsimp only
  split
  · exact keeps_fail consistent (by decide) _
  split
  · exact keeps_fail consistent (by decide) _
  rename_i target indexed
  rcases (consistent.aliases ⟨authority, nativeId⟩ target).mp indexed with
    ⟨record, found, holds⟩
  have ok := consistent.records target record found
  rw [found]
  apply keeps_ok
  constructor
  case aliases =>
    apply consistent.aliases.drop_owner ⟨record, found, holds⟩
    · exact ExtTreeMap.getElem?_erase_self
    · intro other different
      simp [ExtTreeMap.getElem?_erase, Ne.symm different]
    intro who what
    refine holdsAlias_setTarget.trans
      (Iff.trans ?_ (and_congr_left' (holdsAlias_replace found).symm))
    rw [recordHolds_deactivate]
    tauto
  case surfaces =>
    apply consistent.surfaces.of_iff (fun _ => rfl)
    exact sameSurfaces found fun _ => Iff.rfl
  case records =>
    exact records_setTarget consistent (UInt64.le_refl _)
      ⟨ok.identity, ok.issued, ok.surfacesOnce⟩

/-! ## Surfaces -/

theorem findSurface_eq_some (found : findSurface record surface = some position) :
    ∃ inside : position < record.surfaces.length, record.surfaces[position].id = surface := by
  rcases findIdx?_eq_some_iff_getElem.mp found with ⟨inside, same, _⟩
  exact ⟨inside, beq_iff_eq.mp same⟩

theorem findSurface_eq_none (missing : findSurface record surface = none) :
    ¬recordShows record surface := by
  rintro ⟨shown, member, same⟩
  have differs := findIdx?_eq_none_iff.mp missing shown member
  simp [same] at differs

/-- Overwriting a surface by one with its id keeps the ids. -/
theorem map_id_set {surfaces : List SurfaceRecord} {surface : SurfaceRecord}
    (inside : position < surfaces.length) (same : surfaces[position].id = surface.id) :
    (surfaces.set position surface).map SurfaceRecord.id = surfaces.map SurfaceRecord.id := by
  rw [map_set, ← same]
  apply ext_getElem
  · simp
  intro index _ _
  rw [getElem_set]
  split
  · rename_i here
    subst here
    rw [getElem_map]
  · rfl

theorem recordShows_iff :
    recordShows record surface ↔ surface ∈ record.surfaces.map SurfaceRecord.id := by
  rw [recordShows, mem_map]

theorem keeps_registerSurface (consistent : registry.Consistent) (target : TargetId)
    (surface : SurfaceRecord) : Keeps registry (registerSurface registry target surface) := by
  unfold registerSurface
  split
  · exact keeps_fail consistent (by decide) _
  split
  · exact keeps_fail consistent (by decide) _
  rename_i record found
  have ok := consistent.records target record found
  split
  · rename_i owner owned
    split
    · exact keeps_fail consistent (by decide) _
    rename_i isOwner
    rw [not_not] at isOwner
    subst isOwner
    rcases (consistent.surfaces surface.id owner).mp owned with ⟨other, otherFound, shows⟩
    obtain rfl : record = other := Option.some.inj (found.symm.trans otherFound)
    split
    · rename_i missing
      exact absurd shows (findSurface_eq_none missing)
    rename_i position isAt
    rcases findSurface_eq_some isAt with ⟨inside, same⟩
    have ids := map_id_set inside same
    apply keeps_ok
    constructor
    case aliases =>
      apply consistent.aliases.of_iff (fun _ => rfl)
      exact sameAliases found fun _ => Iff.rfl
    case surfaces =>
      apply consistent.surfaces.of_iff (fun _ => rfl)
      apply sameSurfaces found
      intro shown
      rw [recordShows_iff, recordShows_iff, ids]
    case records =>
      exact records_setTarget consistent (UInt64.le_refl _)
        ⟨ok.identity, ok.issued, by rw [ids]; exact ok.surfacesOnce⟩
  · rename_i free
    have nobody : ∀ who, ¬registry.OwnsSurface who surface.id := by
      intro who owns
      have owned : registry.surfaceOwners[surface.id]? = some who :=
        (consistent.surfaces surface.id who).mpr owns
      rw [free] at owned
      cases owned
    have notShown : surface.id ∉ record.surfaces.map SurfaceRecord.id := by
      rw [← recordShows_iff]
      exact fun shows => nobody target ⟨record, found, shows⟩
    split
    · rename_i position isAt
      rcases findSurface_eq_some isAt with ⟨inside, same⟩
      exact absurd ⟨record, found, ⟨_, getElem_mem inside, same⟩⟩ (nobody target)
    apply keeps_ok
    constructor
    case aliases =>
      apply consistent.aliases.of_iff (fun _ => rfl)
      exact sameAliases found fun _ => Iff.rfl
    case surfaces =>
      apply consistent.surfaces.enter (.inl free)
      · exact ExtTreeMap.getElem?_insert_self
      · intro other different
        simp [ExtTreeMap.getElem?_insert, Ne.symm different]
      intro who what
      refine ownsSurface_setTarget.trans
        (Iff.trans ?_ (or_congr (ownsSurface_replace found).symm Iff.rfl))
      rw [recordShows_iff, recordShows_iff, map_append, mem_append, map_singleton, mem_singleton]
      tauto
    case records =>
      refine records_setTarget consistent (UInt64.le_refl _) ⟨ok.identity, ok.issued, ?_⟩
      rw [map_append, map_singleton]
      apply ok.surfacesOnce.append (nodup_singleton _)
      intro shown old new
      rw [mem_singleton.mp new] at old
      exact notShown old

theorem keeps_removeSurface (consistent : registry.Consistent) (target : TargetId)
    (surface : SurfaceId) : Keeps registry (removeSurface registry target surface) := by
  unfold removeSurface
  split
  · exact keeps_fail consistent (by decide) _
  split
  · exact keeps_fail consistent (by decide) _
  rename_i record found
  have ok := consistent.records target record found
  split
  · exact keeps_fail consistent (by decide) _
  rename_i owner owned
  split
  · exact keeps_fail consistent (by decide) _
  rename_i isOwner
  rw [not_not] at isOwner
  subst isOwner
  rcases (consistent.surfaces surface owner).mp owned with ⟨other, otherFound, shows⟩
  obtain rfl : record = other := Option.some.inj (found.symm.trans otherFound)
  split
  · rename_i missing
    exact absurd shows (findSurface_eq_none missing)
  rename_i position isAt
  rcases findSurface_eq_some isAt with ⟨inside, same⟩
  have ids : (record.surfaces.eraseIdx position).map SurfaceRecord.id =
      (record.surfaces.map SurfaceRecord.id).eraseIdx position :=
    (eraseIdx_map ..).symm
  have kept : ∀ shown,
      shown ∈ (record.surfaces.map SurfaceRecord.id).eraseIdx position ↔
        shown ∈ record.surfaces.map SurfaceRecord.id ∧ shown ≠ surface := by
    intro shown
    have bounded : position < (record.surfaces.map SurfaceRecord.id).length := by
      simpa using inside
    have isSurface : (record.surfaces.map SurfaceRecord.id)[position] = surface := by
      rw [getElem_map, same]
    rw [← isSurface, ← ok.surfacesOnce.erase_getElem position bounded,
      ok.surfacesOnce.mem_erase_iff, and_comm]
  apply keeps_ok
  constructor
  case aliases =>
    apply consistent.aliases.of_iff (fun _ => rfl)
    exact sameAliases found fun _ => Iff.rfl
  case surfaces =>
    apply consistent.surfaces.drop_owner ⟨record, found, shows⟩
    · exact ExtTreeMap.getElem?_erase_self
    · intro other different
      simp [ExtTreeMap.getElem?_erase, Ne.symm different]
    intro who what
    refine ownsSurface_setTarget.trans
      (Iff.trans ?_ (and_congr_left' (ownsSurface_replace found).symm))
    rw [recordShows_iff]
    rw [ids, kept, ← recordShows_iff]
    tauto
  case records =>
    refine records_setTarget consistent (UInt64.le_refl _) ⟨ok.identity, ok.issued, ?_⟩
    rw [ids]
    exact ok.surfacesOnce.sublist (eraseIdx_sublist _ _)

end

/-! ## Histories -/

inductive Request where
  | observe (observation : TargetObservation)
  | attachAlias (target : TargetId) (edge : AliasEdge)
  | invalidateAlias (authority nativeId : String)
  | registerSurface (target : TargetId) (surface : SurfaceRecord)
  | removeSurface (target : TargetId) (surface : SurfaceId)
  deriving DecidableEq

/-- The registry after a call, and the error it answered, if it did. -/
def serve (registry : TargetRegistry) (request : Request) : TargetRegistry × Option Error :=
  let answer {α : Type} (reply : Reply α) : TargetRegistry × Option Error :=
    (reply.1, match reply.2 with
      | .ok _ => none
      | .error error => some error)
  match request with
  | .observe observation => answer (observe registry observation)
  | .attachAlias target edge => answer (attachAlias registry target edge)
  | .invalidateAlias authority nativeId => answer (invalidateAlias registry authority nativeId)
  | .registerSurface target surface => answer (registerSurface registry target surface)
  | .removeSurface target surface => answer (removeSurface registry target surface)

def serveAll (registry : TargetRegistry) (requests : List Request) : TargetRegistry :=
  requests.foldl (fun state request => (serve state request).1) registry

variable {registry : TargetRegistry}

theorem Keeps.answer {α : Type} {reply : Reply α} (keeps : Keeps registry reply) {error : Error}
    (answered : (match reply.2 with | .ok _ => none | .error error => some error) = some error) :
    reply.1 = registry ∧ error.code ≠ .internalFault := by
  cases result : reply.2 with
  | ok value =>
    rw [result] at answered
    cases answered
  | error other =>
    rw [result] at answered
    rw [← Option.some.inj answered]
    exact keeps.unchanged other result

theorem serve_keeps (consistent : registry.Consistent) (request : Request) :
    (serve registry request).1.Consistent ∧
      ∀ error, (serve registry request).2 = some error →
        (serve registry request).1 = registry ∧ error.code ≠ .internalFault := by
  cases request with
  | observe observation =>
    have keeps := keeps_observe consistent observation
    exact ⟨keeps.consistent, fun error answered => keeps.answer answered⟩
  | attachAlias target edge =>
    have keeps := keeps_attachAlias consistent target edge
    exact ⟨keeps.consistent, fun error answered => keeps.answer answered⟩
  | invalidateAlias authority nativeId =>
    have keeps := keeps_invalidateAlias consistent authority nativeId
    exact ⟨keeps.consistent, fun error answered => keeps.answer answered⟩
  | registerSurface target surface =>
    have keeps := keeps_registerSurface consistent target surface
    exact ⟨keeps.consistent, fun error answered => keeps.answer answered⟩
  | removeSurface target surface =>
    have keeps := keeps_removeSurface consistent target surface
    exact ⟨keeps.consistent, fun error answered => keeps.answer answered⟩

theorem consistent_empty : ({} : TargetRegistry).Consistent := by
  constructor
  case aliases =>
    intro key owner
    simp [HoldsAlias]
  case surfaces =>
    intro surface owner
    simp [OwnsSurface]
  case records =>
    intro id record found
    simp at found

theorem consistent_serveAll (requests : List Request) : (serveAll {} requests).Consistent := by
  have general : ∀ registry : TargetRegistry, registry.Consistent →
      (serveAll registry requests).Consistent := by
    induction requests with
    | nil => exact fun _ consistent => consistent
    | cons request rest ih =>
      intro registry consistent
      exact ih _ (serve_keeps consistent request).1
  exact general {} consistent_empty

/-- After any calls the alias index finds a target exactly when its record holds
the key as exact and active, the surface index finds a target exactly when its
record lists the surface, which it does once; keys and surfaces have one owner and
every record stands under its own id.  The next call keeps all this, and an error
it answers is no internal fault and leaves the registry unchanged. -/
theorem registry_consistent (requests : List Request) (request : Request) :
    let registry := serveAll {} requests
    (∀ (key : AliasKey) (target : TargetId),
      registry.exactActiveAliases[key]? = some target ↔
        ∃ record : TargetRecord, registry.targets[target]? = some record ∧
          ∃ edge ∈ record.aliases, edge.confidence = .exact ∧ edge.validity = .active ∧
            (⟨edge.authority, edge.nativeId⟩ : AliasKey) = key) ∧
      (∀ (surface : SurfaceId) (target : TargetId),
        registry.surfaceOwners[surface]? = some target ↔
        ∃ record : TargetRecord, registry.targets[target]? = some record ∧
          (record.surfaces.map SurfaceRecord.id).count surface = 1) ∧
      (∀ first second key, registry.HoldsAlias first key → registry.HoldsAlias second key →
        first = second) ∧
      (∀ first second surface, registry.OwnsSurface first surface →
        registry.OwnsSurface second surface → first = second) ∧
      (∀ (target : TargetId) (record : TargetRecord),
        registry.targets[target]? = some record → record.id = target) ∧
      ∀ error, (serve registry request).2 = some error →
        (serve registry request).1 = registry ∧ error.code ≠ .internalFault := by
  intro registry
  have consistent : registry.Consistent := consistent_serveAll requests
  refine ⟨?_, ?_, ?_, ?_, ?_, (serve_keeps consistent request).2⟩
  · intro key target
    refine (consistent.aliases key target).trans ?_
    simp only [HoldsAlias, recordHolds, isFusing, Bool.and_eq_true, beq_iff_eq, and_assoc,
      AliasEdge.key]
  · intro surface target
    refine (consistent.surfaces surface target).trans ?_
    constructor
    · rintro ⟨record, found, shows⟩
      have once := (consistent.records target record found).surfacesOnce
      exact ⟨record, found, count_eq_one_of_mem once (recordShows_iff.mp shows)⟩
    rintro ⟨record, found, counted⟩
    refine ⟨record, found, recordShows_iff.mpr ?_⟩
    rw [← count_pos_iff, counted]
    exact Nat.one_pos
  · exact fun first second key => consistent.aliases.unique
  · exact fun first second surface => consistent.surfaces.unique
  · exact fun target record found => (consistent.records target record found).identity

end Grab.Kernel.TargetRegistry

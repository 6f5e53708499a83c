import Mathlib.Data.List.TakeWhile
import Grab.Semantic.Atspi

/-!
# What a node number stands for

A walk gives the next number to the first object that was reported and has none.  The number is the
only thing that tells two nodes apart, since epoch and generation never change.  So a number stands
for one object exactly as long as every walk comes to the same object in the same place; a target
that was bound to it stands for the object of the first walk.
-/

namespace Grab.Semantic

open Grab.Kernel List Function

/-! ## The order of discovery -/

def reported (bus : Bus) (place : Nat) : List ObjectRef := (bus.children place).getD []

/-- Everything that was reported before the next object is asked. -/
def reportedSoFar (bus : Bus) (known : List ObjectRef) : List ObjectRef :=
  (List.range (known.length + 1)).flatMap (reported bus)

def isNew (known : List ObjectRef) (object : ObjectRef) : Bool :=
  !known.any fun other => other.key == object.key

/-- The known objects and the first one that was reported and is not known. -/
def discoverNext (bus : Bus) (known : List ObjectRef) : List ObjectRef :=
  known ++ ((reportedSoFar bus known).find? (isNew known)).toList

/-- The objects of the bus in the order in which they are first reported. -/
def discovered (options : EnumeratorOptions) (bus : Bus) : List ObjectRef :=
  if bus.connected then (discoverNext bus)^[options.maxNodes.toNat] [] else []

theorem reportedSoFar_concat (bus : Bus) (known : List ObjectRef) (object : ObjectRef) :
    reportedSoFar bus (known ++ [object]) =
      reportedSoFar bus known ++ reported bus (known.length + 1) := by
  unfold reportedSoFar
  rw [length_append, length_singleton, range_succ, flatMap_append, flatMap_singleton]

/-! ## The walk -/

section Walk

variable {bus : Bus} {nodes : List AtspiAccessible} {frontier : List Pending}

theorem assigned_eq (nodes : List AtspiAccessible) (pending : Pending) :
    assigned nodes pending = !isNew (nodes.map AtspiAccessible.object) pending.object := by
  unfold assigned isNew
  rw [Bool.not_not, any_map]
  rfl

theorem pendingOf_objects (parent : Option NodeId) (bus : Bus) (place : Nat) :
    (pendingOf parent (bus.children place)).map Pending.object = reported bus place := by
  unfold pendingOf reported
  rw [map_map]
  exact map_id _

/-- What was reported: first what the walk is through with, then its frontier. -/
def Covers (bus : Bus) (nodes : List AtspiAccessible) (frontier : List Pending) : Prop :=
  ∃ done, reportedSoFar bus (nodes.map AtspiAccessible.object) =
      done ++ frontier.map Pending.object ∧
    ∀ object ∈ done, isNew (nodes.map AtspiAccessible.object) object = false

theorem isNew_concat {known : List ObjectRef} {object : ObjectRef}
    (old : isNew known object = false) (next : ObjectRef) :
    isNew (known ++ [next]) object = false := by
  unfold isNew at old ⊢
  rw [Bool.not_eq_false'] at old ⊢
  rw [any_append, old, Bool.true_or]

theorem isNew_self (known : List ObjectRef) (object : ObjectRef) :
    isNew (known ++ [object]) object = false := by
  unfold isNew
  rw [any_append, any_cons, beq_self_eq_true, Bool.true_or, Bool.or_true, Bool.not_true]

/-- The first object of the frontier without a number is the next to be discovered. -/
theorem Covers.find? (covers : Covers bus nodes frontier) :
    (reportedSoFar bus (nodes.map AtspiAccessible.object)).find?
        (isNew (nodes.map AtspiAccessible.object)) =
      (frontier.dropWhile (assigned nodes)).head?.map Pending.object := by
  rcases covers with ⟨done, parts, old⟩
  have skipped : done.find? (isNew (nodes.map AtspiAccessible.object)) = none := by
    rw [find?_eq_none]
    intro object member isNew_
    rw [old object member] at isNew_
    cases isNew_
  rw [parts, find?_append, skipped, Option.none_or, find?_map]
  congr 1
  clear parts
  induction frontier with
  | nil => rfl
  | cons pending rest later =>
    have known := assigned_eq nodes pending
    cases new : isNew (nodes.map AtspiAccessible.object) pending.object with
    | true =>
      rw [new] at known
      rw [find?_cons_of_pos (by exact new),
        dropWhile_cons_of_neg (by rw [known]; exact Bool.false_ne_true), head?_cons]
    | false =>
      rw [new] at known
      rw [find?_cons_of_neg (by
        change ¬isNew (nodes.map AtspiAccessible.object) pending.object = true
        rw [new]
        exact Bool.false_ne_true), dropWhile_cons_of_pos (by rw [known]; rfl), later]

theorem Covers.step (covers : Covers bus nodes frontier) {pending : Pending} {rest : List Pending}
    (next : frontier.dropWhile (assigned nodes) = pending :: rest) (parent : Option NodeId) :
    Covers bus (nodes ++ [buildAccessible (bus.attributes nodes.length) pending.object nodes.length
        pending.parent])
      (rest ++ pendingOf parent (bus.children (nodes.length + 1))) := by
  rcases covers with ⟨done, parts, old⟩
  have split := takeWhile_append_dropWhile (p := assigned nodes) (l := frontier)
  rw [next] at split
  refine ⟨done ++ (frontier.takeWhile (assigned nodes)).map Pending.object ++ [pending.object],
    ?_, ?_⟩
  · rw [map_append, map_singleton]
    change reportedSoFar bus (_ ++ [pending.object]) = _
    rw [reportedSoFar_concat, parts, map_append, pendingOf_objects, length_map]
    conv => lhs; rw [← split]
    simp only [map_append, map_cons, append_assoc, cons_append, nil_append]
  rw [map_append, map_singleton]
  change ∀ object ∈ _, isNew (_ ++ [pending.object]) object = false
  intro object member
  rcases mem_append.mp member with earlier | last
  · apply isNew_concat
    rcases mem_append.mp earlier with isDone | isSkipped
    · exact old object isDone
    rcases mem_map.mp isSkipped with ⟨skipped, isTaken, rfl⟩
    have known := mem_takeWhile_imp isTaken
    rw [assigned_eq, Bool.not_eq_true'] at known
    exact known
  · rw [mem_singleton.mp last]
    exact isNew_self _ _

/-- A walk finds the objects in the order of their discovery. -/
theorem visit_objects (rounds : Nat) (frontier : List Pending) (nodes : List AtspiAccessible)
    (covers : Covers bus nodes frontier) :
    (visit bus rounds frontier nodes).map AtspiAccessible.object =
      (discoverNext bus)^[rounds] (nodes.map AtspiAccessible.object) := by
  induction rounds generalizing frontier nodes with
  | zero => rfl
  | succ rounds later =>
    have found := covers.find?
    unfold visit
    split
    · rename_i nothing
      rw [nothing, head?_nil, Option.map_none] at found
      have fixed : discoverNext bus (nodes.map AtspiAccessible.object) =
          nodes.map AtspiAccessible.object := by
        unfold discoverNext
        rw [found, Option.toList_none, append_nil]
      rw [iterate_fixed fixed]
    · rename_i pending rest next
      rw [next, head?_cons, Option.map_some] at found
      rw [later _ _ (covers.step next _), iterate_succ_apply, map_append, map_singleton]
      congr 1
      unfold discoverNext
      rw [found, Option.toList_some]
      rfl

/-- The nodes of a walk are numbered by their places. -/
theorem visit_nodes (bus : Bus) (rounds : Nat) (frontier : List Pending)
    (nodes : List AtspiAccessible) (numbered : ∀ place accessible, nodes[place]? = some accessible →
      accessible.node = nodeAt place ∧ accessible.generation = ⟨1⟩) :
    (visit bus rounds frontier nodes).length ≤ nodes.length + rounds ∧
      ∀ place accessible, (visit bus rounds frontier nodes)[place]? = some accessible →
        accessible.node = nodeAt place ∧ accessible.generation = ⟨1⟩ := by
  induction rounds generalizing frontier nodes with
  | zero => exact ⟨le_rfl, numbered⟩
  | succ rounds later =>
    unfold visit
    split
    · exact ⟨Nat.le_add_right _ _, numbered⟩
    rename_i pending rest _
    have added := later (rest ++ pendingOf (some (nodeAt nodes.length))
      (bus.children (nodes.length + 1))) (nodes ++ [buildAccessible
        (bus.attributes nodes.length) pending.object nodes.length pending.parent]) (by
      intro place accessible found
      rw [getElem?_append] at found
      split at found
      · exact numbered place accessible found
      rename_i beyond
      have last : place = nodes.length := by
        have inside := (List.getElem?_eq_some_iff.mp found).1
        rw [length_singleton] at inside
        omega
      rw [last, Nat.sub_self, getElem?_cons_zero, Option.some.injEq] at found
      rw [← found, last]
      exact ⟨rfl, rfl⟩)
    rw [length_append, length_singleton] at added
    exact ⟨added.1.trans (by omega), added.2⟩

theorem nodeAt_injective {first second : Nat} (firstFits : first < 2 ^ 64 - 1)
    (secondFits : second < 2 ^ 64 - 1) (same : nodeAt first = nodeAt second) : first = second := by
  have words := congrArg (fun node : NodeId => node.value.toNat) same
  change (UInt64.ofNat (first + 1)).toNat = (UInt64.ofNat (second + 1)).toNat at words
  rw [UInt64.toNat_ofNat', UInt64.toNat_ofNat', Nat.mod_eq_of_lt (by omega),
    Nat.mod_eq_of_lt (by omega)] at words
  omega

end Walk

variable {options : EnumeratorOptions} {bus : Bus}

theorem walk_objects (options : EnumeratorOptions) (bus : Bus) :
    (walk options bus).map AtspiAccessible.object = discovered options bus := by
  unfold walk discovered
  split
  · split
    · rename_i silent
      have fixed : discoverNext bus [] = [] := by
        unfold discoverNext reportedSoFar
        have nothing : reported bus 0 = [] := by
          unfold reported
          rw [silent]
          rfl
        simp [nothing]
      rw [iterate_fixed fixed]
      rfl
    · rename_i roots answered
      apply visit_objects
      refine ⟨[], ?_, forall_mem_nil _⟩
      rw [← answered, pendingOf_objects]
      exact append_nil _
  · rfl

theorem walk_nodes (options : EnumeratorOptions) (bus : Bus) :
    (walk options bus).length ≤ options.maxNodes.toNat ∧
      ∀ place accessible, (walk options bus)[place]? = some accessible →
        accessible.node = nodeAt place ∧ accessible.generation = ⟨1⟩ := by
  have none_ : ([] : List AtspiAccessible).length ≤ options.maxNodes.toNat ∧
      ∀ place accessible, ([] : List AtspiAccessible)[place]? = some accessible →
        accessible.node = nodeAt place ∧ accessible.generation = ⟨1⟩ :=
    ⟨Nat.zero_le _, fun _ _ impossible => nomatch impossible⟩
  unfold walk
  split
  · split
    · exact none_
    · rename_i roots _
      have ⟨length, numbered⟩ := visit_nodes bus options.maxNodes.toNat
        (pendingOf none (some roots)) [] none_.2
      rw [length_nil, Nat.zero_add] at length
      exact ⟨length, numbered⟩
  · exact none_

/-- Nodes of two walks with one number stand in one place. -/
theorem place_of_node {other : Bus} {first second : AtspiAccessible}
    (isFirst : first ∈ walk options bus) (isSecond : second ∈ walk options other)
    (same : first.node = second.node) :
    ∃ place : Nat, (walk options bus)[place]? = some first ∧
      (walk options other)[place]? = some second := by
  have limit := options.maxNodes.toNat_lt
  rcases mem_iff_getElem?.mp isFirst with ⟨place, foundFirst⟩
  rcases mem_iff_getElem?.mp isSecond with ⟨otherPlace, foundSecond⟩
  have ⟨firstLength, firstNodes⟩ := walk_nodes options bus
  have ⟨secondLength, secondNodes⟩ := walk_nodes options other
  have firstInside := (List.getElem?_eq_some_iff.mp foundFirst).1
  have secondInside := (List.getElem?_eq_some_iff.mp foundSecond).1
  have places : place = otherPlace := by
    apply nodeAt_injective (by omega) (by omega)
    rw [← (firstNodes place first foundFirst).1, same,
      (secondNodes otherPlace second foundSecond).1]
  exact ⟨place, foundFirst, places ▸ foundSecond⟩

/-! ## Histories -/

/-- A call of `snapshot`: its arguments and what it finds. -/
structure Attempt where
  tree : UInt32 := AtspiTreeSource.firstTree
  checked : Except Error Unit := .ok ()
  bus : Bus
  registry : TargetRegistry

/-- A snapshot with the bus it was taken of and the accessibles its nodes were built from. -/
structure Taken where
  snapshot : UiSnapshot
  bus : Bus
  accessibles : List AtspiAccessible

structure History where
  source : AtspiTreeSource
  taken : List Taken := []

namespace History

variable (options : EnumeratorOptions)

def step (history : History) (attempt : Attempt) : History :=
  match history.source.snapshot options attempt.tree attempt.checked attempt.bus
      attempt.registry with
  | (source, _, .error _) => { history with source }
  | (source, _, .ok snapshot) =>
    { source
      taken := history.taken ++
        [{ snapshot, bus := attempt.bus, accessibles := walk options attempt.bus }] }

def run (history : History) (attempts : List Attempt) : History :=
  attempts.foldl (step options) history

end History

/-- Two nodes that nothing tells apart. -/
structure SameIdentity (first second : Taken) (accessible other : AtspiAccessible) : Prop where
  runtime : first.snapshot.metadata.runtime = second.snapshot.metadata.runtime
  tree : first.snapshot.metadata.tree = second.snapshot.metadata.tree
  epoch : first.snapshot.metadata.epoch = second.snapshot.metadata.epoch
  node : accessible.node = other.node
  generation : accessible.generation = other.generation

/-- In any two snapshots, nodes that nothing tells apart were built from the same object. -/
def NodesStable (history : History) : Prop :=
  ∀ first ∈ history.taken, ∀ second ∈ history.taken, ∀ accessible ∈ first.accessibles,
    ∀ other ∈ second.accessibles, SameIdentity first second accessible other →
      accessible.object = other.object

/-- The target bound to the number of a node was observed of the object of the node. -/
def TargetsStable (history : History) : Prop :=
  ∀ taken ∈ history.taken, ∀ accessible ∈ taken.accessibles,
    ∃ binding, history.source.binding accessible.node = some binding ∧
      binding.object = accessible.object

/-- Two walks come to the same object in every place that both reach. -/
def Agree (options : EnumeratorOptions) (first second : Bus) : Prop :=
  ∀ (place : Nat) object other, (discovered options first)[place]? = some object →
    (discovered options second)[place]? = some other → object = other

/-! ## Bindings -/

namespace AtspiTreeSource

variable {source : AtspiTreeSource}

/-- What binding targets does: it keeps the bindings there are, adds some of the accessibles it is
given, and all of them when it succeeds. -/
structure Binds (before after : AtspiTreeSource) (accessibles : List AtspiAccessible)
    (succeeded : Bool) : Prop where
  runtime : after.runtime = before.runtime
  kept : ∀ node binding, before.binding node = some binding → after.binding node = some binding
  added : ∀ node binding, after.binding node = some binding → before.binding node = some binding ∨
    ∃ accessible ∈ accessibles, accessible.node = node ∧ binding.object = accessible.object
  bound : succeeded = true → ∀ accessible ∈ accessibles,
    ∃ binding, after.binding accessible.node = some binding

theorem bindTargets_binds (accessibles : List AtspiAccessible) (source : AtspiTreeSource)
    (registry : TargetRegistry) :
    Binds source (source.bindTargets accessibles registry).1 accessibles
      (source.bindTargets accessibles registry).2.2.toBool := by
  induction accessibles generalizing source registry with
  | nil =>
    exact ⟨rfl, fun _ _ known => known, fun _ _ known => .inl known,
      fun _ _ impossible => absurd impossible not_mem_nil⟩
  | cons accessible rest later =>
    unfold bindTargets
    split
    · rename_i binding isBound
      have binds := later source registry
      refine ⟨binds.runtime, binds.kept, fun node other known => ?_,
        fun succeeded other member => ?_⟩
      · refine (binds.added node other known).imp_right ?_
        rintro ⟨found, isRest, parts⟩
        exact ⟨found, mem_cons_of_mem _ isRest, parts⟩
      · rcases mem_cons.mp member with rfl | isRest
        · exact ⟨binding, binds.kept _ _ isBound⟩
        · exact binds.bound succeeded other isRest
    · rename_i unbound
      split
      · refine ⟨rfl, fun _ _ known => known, fun _ _ known => .inl known, ?_⟩
        exact nofun
      rename_i observed target _
      have binds := later { source with
        targetBindings := source.targetBindings ++
          [(accessible.node, { target, object := accessible.object })] } observed
      have isNew : { source with
          targetBindings := source.targetBindings ++
            [(accessible.node, { target, object := accessible.object })] :
            AtspiTreeSource }.binding accessible.node =
          some { target, object := accessible.object } := by
        unfold AtspiTreeSource.binding at unbound ⊢
        rw [lookup_append, unbound, Option.none_or, lookup_cons_self]
      refine ⟨binds.runtime, fun node binding known => ?_, fun node binding known => ?_,
        fun succeeded other member => ?_⟩
      · apply binds.kept
        unfold AtspiTreeSource.binding at known ⊢
        rw [lookup_append, known]
        rfl
      · rcases binds.added node binding known with before | ⟨found, isRest, parts⟩
        · unfold AtspiTreeSource.binding at before ⊢
          rw [lookup_append, Option.or_eq_some_iff] at before
          rcases before with old | ⟨_, new⟩
          · exact .inl old
          right
          rw [List.lookup_cons] at new
          split at new
          · rename_i same
            cases new
            exact ⟨accessible, mem_cons_self, (beq_iff_eq.mp same).symm, rfl⟩
          · cases new
        · exact .inr ⟨found, mem_cons_of_mem _ isRest, parts⟩
      · rcases mem_cons.mp member with rfl | isRest
        · exact ⟨_, binds.kept _ _ isNew⟩
        · exact binds.bound succeeded other isRest

/-- A call of `snapshot` fails, perhaps after it bound some targets, or it binds all of its walk. -/
theorem snapshot_cases (source : AtspiTreeSource) (options : EnumeratorOptions) (tree : UInt32)
    (checked : Except Error Unit) (bus : Bus) (registry : TargetRegistry) :
    (∃ error, (source.snapshot options tree checked bus registry).2.2 = .error error ∧
        Binds source (source.snapshot options tree checked bus registry).1 (walk options bus)
          false) ∨
      (source.snapshot options tree checked bus registry).2.2 =
          .ok (snapshotOf source.runtime (source.revision + 1) (walk options bus)) ∧
        Binds source (source.snapshot options tree checked bus registry).1 (walk options bus)
          true := by
  have nothing : Binds source source (walk options bus) false :=
    ⟨rfl, fun _ _ known => known, fun _ _ known => .inl known, nofun⟩
  unfold snapshot
  split
  · exact .inl ⟨_, rfl, nothing⟩
  split
  · exact .inl ⟨_, rfl, nothing⟩
  split
  · exact .inl ⟨_, rfl, nothing⟩
  dsimp only
  split
  · exact .inl ⟨_, rfl, nothing⟩
  have binds := bindTargets_binds (walk options bus) source registry
  split
  · rename_i bound observed error result
    rw [result] at binds
    exact .inl ⟨error, rfl, binds⟩
  · rename_i bound observed result
    rw [result] at binds
    exact .inr ⟨rfl, binds.runtime, binds.kept, binds.added, binds.bound⟩

end AtspiTreeSource

/-! ## What every history keeps -/

/-- A history after some attempts. -/
structure Sound (options : EnumeratorOptions) (runtime : RuntimeId) (attempts : List Attempt)
    (history : History) : Prop where
  owner : history.source.runtime = runtime
  taken : ∀ taken ∈ history.taken, taken.accessibles = walk options taken.bus ∧
    (∃ attempt ∈ attempts, attempt.bus = taken.bus) ∧
    ∃ revision, taken.snapshot =
      AtspiTreeSource.snapshotOf runtime revision (walk options taken.bus)
  bound : ∀ taken ∈ history.taken, ∀ accessible ∈ taken.accessibles,
    ∃ binding, history.source.binding accessible.node = some binding
  observed : ∀ node binding, history.source.binding node = some binding →
    ∃ attempt ∈ attempts, ∃ accessible ∈ walk options attempt.bus,
      accessible.node = node ∧ binding.object = accessible.object

namespace Sound

variable {runtime : RuntimeId} {attempts : List Attempt} {history : History}
  (sound : Sound options runtime attempts history)

include sound

/-- A binding of a later state: it was there, or the walk of the attempt has the object. -/
theorem observed_step {attempt : Attempt} {after : AtspiTreeSource} {succeeded : Bool}
    (binds : AtspiTreeSource.Binds history.source after (walk options attempt.bus) succeeded)
    (node : NodeId) (binding : TargetBinding) (isBound : after.binding node = some binding) :
    ∃ other ∈ attempts ++ [attempt], ∃ accessible ∈ walk options other.bus,
      accessible.node = node ∧ binding.object = accessible.object := by
  rcases binds.added node binding isBound with before | new
  · rcases sound.observed node binding before with ⟨other, member, found⟩
    exact ⟨other, mem_append_left _ member, found⟩
  · exact ⟨attempt, mem_append_right _ (mem_singleton_self _), new⟩

theorem step (attempt : Attempt) :
    Sound options runtime (attempts ++ [attempt]) (history.step options attempt) := by
  have widen : ∀ {taken : Taken}, (∃ other ∈ attempts, other.bus = taken.bus) →
      ∃ other ∈ attempts ++ [attempt], other.bus = taken.bus := by
    rintro taken ⟨other, member, same⟩
    exact ⟨other, mem_append_left _ member, same⟩
  have cases := history.source.snapshot_cases options attempt.tree attempt.checked attempt.bus
    attempt.registry
  unfold History.step
  split
  · rename_i source registry error result
    rw [result] at cases
    rcases cases with ⟨_, _, binds⟩ | ⟨impossible, _⟩
    · constructor
      case owner => exact binds.runtime.trans sound.owner
      case taken =>
        intro taken member
        have ⟨same, known, stamp⟩ := sound.taken taken member
        exact ⟨same, widen known, stamp⟩
      case bound =>
        intro taken member accessible isNode
        rcases sound.bound taken member accessible isNode with ⟨binding, isBound⟩
        exact ⟨binding, binds.kept _ _ isBound⟩
      case observed => exact sound.observed_step binds
    · cases impossible
  · rename_i source registry snapshot result
    rw [result] at cases
    rcases cases with ⟨_, impossible, _⟩ | ⟨isSnapshot, binds⟩
    · cases impossible
    cases isSnapshot
    constructor
    case owner => exact binds.runtime.trans sound.owner
    case taken =>
      intro taken member
      rcases mem_append.mp member with old | new
      · have ⟨same, known, stamp⟩ := sound.taken taken old
        exact ⟨same, widen known, stamp⟩
      rw [mem_singleton.mp new]
      refine ⟨rfl, ⟨attempt, mem_append_right _ (mem_singleton_self _), rfl⟩,
        history.source.revision + 1, ?_⟩
      rw [sound.owner]
    case bound =>
      intro taken member accessible isNode
      rcases mem_append.mp member with old | new
      · rcases sound.bound taken old accessible isNode with ⟨binding, isBound⟩
        exact ⟨binding, binds.kept _ _ isBound⟩
      · rw [mem_singleton.mp new] at isNode
        exact binds.bound rfl accessible isNode
    case observed => exact sound.observed_step binds

omit sound in
theorem run (later : List Attempt) (sound : Sound options runtime attempts history) :
    Sound options runtime (attempts ++ later) (history.run options later) := by
  induction later generalizing attempts history with
  | nil =>
    rw [append_nil]
    exact sound
  | cons attempt rest next =>
    have stepped := next (sound.step attempt)
    rw [append_assoc, singleton_append] at stepped
    exact stepped

/-- Nodes keep standing for their objects exactly when the walks of the snapshots agree. -/
theorem nodesStable_iff :
    NodesStable history ↔
      ∀ first ∈ history.taken, ∀ second ∈ history.taken, Agree options first.bus second.bus := by
  constructor
  · intro stable first isFirst second isSecond place object other atFirst atSecond
    have ⟨firstNodes, _, _, firstStamp⟩ := sound.taken first isFirst
    have ⟨secondNodes, _, _, secondStamp⟩ := sound.taken second isSecond
    rw [← walk_objects, getElem?_map, Option.map_eq_some_iff] at atFirst atSecond
    rcases atFirst with ⟨accessible, foundFirst, rfl⟩
    rcases atSecond with ⟨another, foundSecond, rfl⟩
    have firstIdentity := (walk_nodes options first.bus).2 place accessible foundFirst
    have secondIdentity := (walk_nodes options second.bus).2 place another foundSecond
    apply stable first isFirst second isSecond accessible
      (firstNodes ▸ mem_of_getElem? foundFirst) another
      (secondNodes ▸ mem_of_getElem? foundSecond)
    constructor
    case runtime => rw [firstStamp, secondStamp]; rfl
    case tree => rw [firstStamp, secondStamp]; rfl
    case epoch => rw [firstStamp, secondStamp]; rfl
    case node => rw [firstIdentity.1, secondIdentity.1]
    case generation => rw [firstIdentity.2, secondIdentity.2]
  · intro agree first isFirst second isSecond accessible isNode other isOther same
    rw [(sound.taken first isFirst).1] at isNode
    rw [(sound.taken second isSecond).1] at isOther
    rcases place_of_node isNode isOther same.node with ⟨place, foundFirst, foundSecond⟩
    apply agree first isFirst second isSecond place
    · rw [← walk_objects, getElem?_map, foundFirst]
      rfl
    · rw [← walk_objects, getElem?_map, foundSecond]
      rfl

theorem targetsStable
    (agree : ∀ first ∈ attempts, ∀ second ∈ attempts, Agree options first.bus second.bus) :
    TargetsStable history := by
  intro taken member accessible isNode
  rcases sound.bound taken member accessible isNode with ⟨binding, isBound⟩
  refine ⟨binding, isBound, ?_⟩
  have ⟨nodes, ⟨attempt, isAttempt, bus⟩, _⟩ := sound.taken taken member
  rcases sound.observed _ _ isBound with ⟨earlier, isEarlier, other, isOther, sameNode, object⟩
  rw [nodes, ← bus] at isNode
  rcases place_of_node isOther isNode sameNode with ⟨place, foundFirst, foundSecond⟩
  rw [object]
  apply agree earlier isEarlier attempt isAttempt place
  · rw [← walk_objects, getElem?_map, foundFirst]
    rfl
  · rw [← walk_objects, getElem?_map, foundSecond]
    rfl

end Sound

/-- For every history of the bus: a node of one snapshot and a node of another that nothing tells
apart are the same object if and only if the walks of the two agree on the places of objects; and
the targets bound to their numbers stand for these objects when all walks agree. -/
theorem node_identity_iff (options : EnumeratorOptions) (runtime : RuntimeId)
    (x11AliasAuthority : Option String) (attempts : List Attempt) :
    let history := History.run options { source := { runtime, x11AliasAuthority } } attempts
    (NodesStable history ↔
        ∀ first ∈ history.taken, ∀ second ∈ history.taken, Agree options first.bus second.bus) ∧
      ((∀ first ∈ attempts, ∀ second ∈ attempts, Agree options first.bus second.bus) →
        TargetsStable history) := by
  intro history
  have fresh : Sound options runtime [] { source := { runtime, x11AliasAuthority } } :=
    ⟨rfl, forall_mem_nil _,
      forall_mem_nil _,
      fun _ _ impossible => nomatch impossible⟩
  have sound := fresh.run attempts
  rw [nil_append] at sound
  exact ⟨sound.nodesStable_iff, sound.targetsStable⟩

/-! ## A window that closes -/

/-- A bus on which some applications answer, without children. -/
def applications (names : List String) : Bus where
  children := fun place =>
    if place = 0 then some (names.map fun busName => { busName, path := "/root" }) else some []
  attributes := fun _ => { role := .application }

def attemptOf (names : List String) : Attempt where
  bus := applications names
  registry := {}

/-- Few nodes. -/
def fewNodes : EnumeratorOptions where
  maxNodes := 4

theorem agree_refl (options : EnumeratorOptions) (bus : Bus) : Agree options bus bus :=
  fun _ _ _ first second => Option.some.inj (first.symm.trans second)

/-- A window that opens last leaves the numbers as they are. -/
theorem node_identity_opened :
    TargetsStable (History.run fewNodes { source := { runtime := ⟨3⟩, x11AliasAuthority := none } }
      [attemptOf [":1.7"], attemptOf [":1.7", ":1.9"]]) := by
  apply (node_identity_iff fewNodes ⟨3⟩ none [attemptOf [":1.7"], attemptOf [":1.7", ":1.9"]]).2
  have one : discovered fewNodes (applications [":1.7"]) = [⟨":1.7", "/root"⟩] := by decide +kernel
  have two : discovered fewNodes (applications [":1.7", ":1.9"]) =
      [⟨":1.7", "/root"⟩, ⟨":1.9", "/root"⟩] := by decide +kernel
  have agree : Agree fewNodes (applications [":1.7"]) (applications [":1.7", ":1.9"]) := by
    intro place object other first second
    rw [one] at first
    rw [two] at second
    cases place with
    | zero => exact Option.some.inj (first.symm.trans second)
    | succ place => cases first
  intro first isFirst second isSecond
  simp only [mem_cons, not_mem_nil, or_false] at isFirst isSecond
  rcases isFirst with rfl | rfl <;> rcases isSecond with rfl | rfl
  · exact agree_refl _ _
  · exact agree
  · exact fun place object other first second => (agree place other object second first).symm
  · exact agree_refl _ _

/-- Two applications, and the first of them closes. -/
def closing : History :=
  History.run {} { source := { runtime := ⟨3⟩ } } [attemptOf [":1.7", ":1.9"], attemptOf [":1.9"]]

/-- Node 1 was the first application and is the second now. -/
theorem node_identity_closed : ¬NodesStable closing := by
  intro stable
  have same := stable _ (get_mem closing.taken ⟨0, by decide +kernel⟩) _
    (get_mem closing.taken ⟨1, by decide +kernel⟩) _
    (get_mem _ ⟨0, by decide +kernel⟩) _ (get_mem _ ⟨0, by decide +kernel⟩)
    ⟨by decide +kernel, by decide +kernel, by decide +kernel, by decide +kernel, by decide +kernel⟩
  revert same
  decide +kernel

end Grab.Semantic

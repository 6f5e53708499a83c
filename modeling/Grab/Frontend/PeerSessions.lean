import Grab.Lib.Hex
import Grab.Lib.Holdings
import Grab.Frontend.Admission

/-!
# Peer sessions

`PeerSessionRegistry` keeps the session of every peer with the resources that were added to it.  A
session is torn down when it is closed, and a scope that ends takes what was added since it was
opened.  Each part that holds the mutex is one step; `open` closes in one step and inserts in
another one, so that a second `open` of the same peer may come between.

The additions carry a number of their own, and what becomes of them is written down.
-/

namespace Grab.Frontend

open Grab.Lib List Option

abbrev Peer := String

abbrev SessionName := String

abbrev ResourceName := String

/-- A process that the daemon owns. -/
abbrev OwnedProcess := ℕ

/-- A resource, with the number of its addition. -/
structure Resource where
  process : Option OwnedProcess
  serial : ℕ
deriving DecidableEq, Repr

abbrev Catalog := List (ResourceName × Resource)

structure PeerSession where
  token : String
  peer : Peer
  resources : Catalog := []
deriving DecidableEq, Repr

/-- What `random_device` comes up with for one value. -/
structure Entropy where
  first : ℕ
  second : ℕ
deriving DecidableEq, Repr

def hex (number : ℕ) : String := String.ofList (Nat.toDigits 16 number)

def makeSessionValue (kind : String) (sequence : ℕ) (entropy : Entropy) : String :=
  kind ++ "-" ++ hex sequence ++ "-" ++ hex entropy.first ++ "-" ++ hex entropy.second

/-- The comparison of `token_matches` looks at all of both texts and then says if they are one. -/
def tokenMatches (expected supplied : String) : Bool := expected == supplied

structure PeerSessionRegistry where
  sessions : List (SessionName × PeerSession) := []
  activePeers : List (Peer × SessionName) := []
  nextSession : ℕ := 1
  closeCount : ℕ := 0
deriving DecidableEq, Repr

namespace PeerSessionRegistry

/-- The session a peer has now, with its name. -/
def active (registry : PeerSessionRegistry) (peer : Peer) : Option (SessionName × PeerSession) :=
  (Assoc.find registry.activePeers peer).bind fun name =>
    (Assoc.find registry.sessions name).map fun session => (name, session)

/-- The part of `close` under the lock; what it took, if the peer had a session. -/
def close (registry : PeerSessionRegistry) (peer : Peer) :
    Option (SessionName × Catalog) × PeerSessionRegistry :=
  match Assoc.find registry.activePeers peer with
  | none => (none, registry)
  | some name =>
    (some (name, ((Assoc.find registry.sessions name).map PeerSession.resources).getD []),
      { registry with
        sessions := Assoc.erase registry.sessions name
        activePeers := Assoc.erase registry.activePeers peer
        closeCount := registry.closeCount + 1 })

/-- The rest of `open`; `emplace` leaves an entry that is there. -/
def insert (registry : PeerSessionRegistry) (peer : Peer) (session token : Entropy) :
    PeerSessionRegistry :=
  let name := makeSessionValue "session" registry.nextSession session
  let entry : PeerSession :=
    { token := makeSessionValue "token" registry.nextSession token, peer }
  { registry with
    sessions :=
      match Assoc.find registry.sessions name with
      | some _ => registry.sessions
      | none => Assoc.put name entry registry.sessions
    activePeers := Assoc.put peer name registry.activePeers
    nextSession := registry.nextSession + 1 }

def adopt (registry : PeerSessionRegistry) (peer : Peer) (name : SessionName) (token : String) :
    Status × PeerSessionRegistry :=
  match Assoc.find registry.sessions name with
  | none =>
    ({ code := .unauthenticated,
       message := "session adoption rejected: invalid credentials" }, registry)
  | some session =>
    if ¬tokenMatches session.token token then
      ({ code := .unauthenticated,
         message := "session adoption rejected: invalid credentials" }, registry)
    else if (Assoc.find registry.activePeers peer).any (· ≠ name) then
      ({ code := .failedPrecondition, message := "peer already owns another session" }, registry)
    else
      let freed :=
        if Assoc.find registry.activePeers session.peer = some name then
          Assoc.erase registry.activePeers session.peer
        else registry.activePeers
      (.ok,
        { registry with
          sessions := Assoc.put name { session with peer } registry.sessions
          activePeers := Assoc.put peer name freed })

/-- `add_resource` and `add_process`; where the resource went. -/
def add (registry : PeerSessionRegistry) (peer : Peer) (resource : ResourceName)
    (entry : Resource) : Status × Option SessionName × PeerSessionRegistry :=
  match Assoc.find registry.activePeers peer with
  | none =>
    ({ code := .notFound, message := "peer has no active session" }, none, registry)
  | some name =>
    match Assoc.find registry.sessions name with
    | none =>
      ({ code := .internal, message := "active peer session is missing" }, none, registry)
    | some session =>
      (.ok, some name,
        { registry with
          sessions := Assoc.put name
            { session with resources := Assoc.put resource entry session.resources }
            registry.sessions })

def catalogSnapshot (registry : PeerSessionRegistry) (peer : Peer) : List ResourceName :=
  match registry.active peer with
  | none => []
  | some (_, session) => session.resources.map Prod.fst

/-- The part of `reap_diff` under the lock; what it took from which session. -/
def reapDiff (registry : PeerSessionRegistry) (peer : Peer) (snapshot : List ResourceName) :
    Option (SessionName × Catalog) × PeerSessionRegistry :=
  match registry.active peer with
  | none => (none, registry)
  | some (name, session) =>
    let gone := session.resources.filter fun entry => entry.1 ∉ snapshot
    let kept := session.resources.filter fun entry => entry.1 ∈ snapshot
    (some (name, gone),
      { registry with
        sessions := Assoc.put name { session with resources := kept } registry.sessions })

end PeerSessionRegistry

/-! ## The registry among its callers -/

/-- A resource that was added: its number, the session it went to and its process. -/
structure Addition where
  serial : ℕ
  session : SessionName
  process : Option OwnedProcess
deriving DecidableEq, Repr

/-- Who took a resource away: a close, or the end of a scope, of which is told the session it was
opened on and how many additions there were before it. -/
inductive Cause where
  | close
  | scope (openedOn : Option SessionName) (born : ℕ)
deriving DecidableEq, Repr

structure Removal where
  addition : Addition
  cause : Cause
deriving DecidableEq, Repr

structure CatalogScope where
  peer : Peer
  snapshot : List ResourceName
  openedOn : Option SessionName
  born : ℕ
deriving DecidableEq, Repr

/-- The registry, the callers of `open` that have closed and not yet inserted, the open scopes,
and what was added, removed, terminated and reported so far. -/
structure PeerSessions where
  registry : PeerSessionRegistry := {}
  opening : List Peer := []
  scopes : List CatalogScope := []
  added : List Addition := []
  removed : List Removal := []
  terminated : List OwnedProcess := []
  teardowns : List (Peer × List ResourceName) := []
deriving DecidableEq, Repr

namespace PeerSessions

inductive Step where
  /-- The close that `open` begins with. -/
  | openCloses (peer : Peer)
  | openInserts (peer : Peer) (session token : Entropy)
  | adopt (peer : Peer) (session : SessionName) (token : String)
  | add (peer : Peer) (resource : ResourceName) (process : Option OwnedProcess)
  | scope (peer : Peer)
  | finish (index : ℕ)
  | close (peer : Peer)
deriving DecidableEq, Repr

/-- An entry of a catalogue as the addition it is. -/
def additionOf (session : SessionName) (entry : ResourceName × Resource) : Addition where
  serial := entry.2.serial
  session := session
  process := entry.2.process

/-- `terminate_owned` and the teardown of what was taken from a session. -/
def teardown (world : PeerSessions) (peer : Peer) (cause : Cause) (session : SessionName)
    (taken : Catalog) : PeerSessions :=
  { world with
    removed := world.removed ++ taken.map fun entry => ⟨additionOf session entry, cause⟩
    terminated := world.terminated ++ taken.filterMap fun entry => entry.2.process
    teardowns := world.teardowns ++ [(peer, taken.map Prod.fst)] }

def close (world : PeerSessions) (peer : Peer) : PeerSessions :=
  match world.registry.close peer with
  | (none, _) => world
  | (some (session, taken), registry) =>
    { world.teardown peer .close session taken with registry }

/-- A scope ends: `reap_diff`; an empty difference is not reported. -/
def endScope (world : PeerSessions) (scope : CatalogScope) : PeerSessions :=
  match world.registry.reapDiff scope.peer scope.snapshot with
  | (none, _) => world
  | (some (session, taken), registry) =>
    let reaped := world.teardown scope.peer (.scope scope.openedOn scope.born) session taken
    { reaped with
      registry
      teardowns := if taken = [] then world.teardowns else reaped.teardowns }

/-- A step that has nobody to take it leaves everything as it is. -/
def step (world : PeerSessions) : Step → PeerSessions
  | .openCloses peer => { world.close peer with opening := peer :: world.opening }
  | .openInserts peer session token =>
    if peer ∈ world.opening then
      { world with
        registry := world.registry.insert peer session token
        opening := world.opening.erase peer }
    else world
  | .adopt peer session token =>
    { world with registry := (world.registry.adopt peer session token).2 }
  | .add peer resource process =>
    match world.registry.add peer resource { process, serial := world.added.length } with
    | (_, none, _) => world
    | (_, some session, registry) =>
      { world with
        registry
        added := world.added ++ [{ serial := world.added.length, session, process }] }
  | .scope peer =>
    { world with
      scopes := world.scopes ++
        [{ peer
           snapshot := world.registry.catalogSnapshot peer
           openedOn := Assoc.find world.registry.activePeers peer
           born := world.added.length }] }
  | .finish index =>
    match world.scopes[index]? with
    | none => world
    | some scope => { world.endScope scope with scopes := world.scopes.eraseIdx index }
  | .close peer => world.close peer

def run (world : PeerSessions) : List Step → PeerSessions
  | [] => world
  | first :: rest => (world.step first).run rest

/-- The destructor: it closes one active peer after the other, in whatever order the map has
them, until there is none. -/
inductive Destroyed : PeerSessions → PeerSessions → Prop where
  | done {world : PeerSessions} (none : world.registry.activePeers = []) : Destroyed world world
  | next {world final : PeerSessions} {peer : Peer}
      (active : peer ∈ world.registry.activePeers.map Prod.fst)
      (rest : Destroyed (world.close peer) final) : Destroyed world final

/-! ## Exactly once -/

/-- The additions that are in the catalogues. -/
def held (registry : PeerSessionRegistry) : List Addition :=
  Assoc.holdings (fun name session => session.resources.map (additionOf name)) registry.sessions

/-- Every session is active for the peer it records and for nobody else, every addition is in the
catalogue of its session or was removed, once in all, and a scope removed only what came after it
to the session it was opened on; what was removed was terminated. -/
structure Accounted (world : PeerSessions) : Prop where
  missing : ∀ {peer name}, Assoc.find world.registry.activePeers peer = some name →
    ∃ session, Assoc.find world.registry.sessions name = some session
  recorded : ∀ {name session}, Assoc.find world.registry.sessions name = some session →
    ∀ peer, Assoc.find world.registry.activePeers peer = some name ↔ peer = session.peer
  numbered : world.added.map Addition.serial = List.range world.added.length
  once : (held world.registry ++ world.removed.map Removal.addition).Perm world.added
  rightly : ∀ removal ∈ world.removed, ∀ openedOn born, removal.cause = .scope openedOn born →
    openedOn = some removal.addition.session ∧ born ≤ removal.addition.serial
  terminated : world.terminated = world.removed.filterMap fun removal => removal.addition.process

/-- Nothing is left. -/
structure Cleared (world : PeerSessions) : Prop where
  sessions : world.registry.sessions = []
  removed : (world.removed.map Removal.addition).Perm world.added
  terminated : world.terminated.Perm (world.added.filterMap Addition.process)

/-- A step that `open` does not lead into a session that is there, that adds no name twice, and
that ends no scope on the resources of another session. -/
def Careful (world : PeerSessions) : Step → Prop
  | .openInserts peer _ _ =>
    peer ∈ world.opening → Assoc.find world.registry.activePeers peer = none
  | .add peer resource _ =>
    ∀ name session, world.registry.active peer = some (name, session) →
      Assoc.find session.resources resource = none
  | .finish index =>
    ∀ scope name session, world.scopes[index]? = some scope →
      world.registry.active scope.peer = some (name, session) →
      scope.openedOn = some name ∨ ∀ entry ∈ session.resources, entry.1 ∈ scope.snapshot
  | _ => True

/-- Every step of a run is careful. -/
def RunsCarefully : PeerSessions → List Step → Prop
  | _, [] => True
  | world, first :: rest => world.Careful first ∧ RunsCarefully (world.step first) rest

/-- What holds besides, as long as all is well. -/
structure Kept (world : PeerSessions) : Prop extends Accounted world where
  sessions : Assoc.Distinct world.registry.sessions
  peers : Assoc.Distinct world.registry.activePeers
  /-- The names of the sessions are spent. -/
  named : ∀ name ∈ world.registry.sessions.map Prod.fst, ∃ sequence entropy,
    sequence < world.registry.nextSession ∧ name = makeSessionValue "session" sequence entropy
  catalogs : ∀ {name session}, Assoc.find world.registry.sessions name = some session →
    Assoc.Distinct session.resources
  born : ∀ scope ∈ world.scopes, scope.born ≤ world.added.length
  /-- A scope knows the names of what was there before it. -/
  known : ∀ scope ∈ world.scopes, ∀ {name session}, scope.openedOn = some name →
    Assoc.find world.registry.sessions name = some session →
    ∀ entry ∈ session.resources, entry.1 ∉ scope.snapshot → scope.born ≤ entry.2.serial

section

variable {world : PeerSessions} {registry : PeerSessionRegistry} {peer other : Peer}
  {name : SessionName} {session : PeerSession} {resource : ResourceName}
  {process : Option OwnedProcess} {after : PeerSessions}

theorem active_eq_some : registry.active peer = some (name, session) ↔
    Assoc.find registry.activePeers peer = some name ∧
      Assoc.find registry.sessions name = some session := by
  unfold PeerSessionRegistry.active
  simp only [bind_eq_some_iff, map_eq_some_iff, Prod.mk.injEq]
  constructor
  · intro found
    rcases found with ⟨own, active, entry, there, rfl, rfl⟩
    exact ⟨active, there⟩
  · intro found
    exact ⟨name, found.1, session, found.2, rfl, rfl⟩

theorem Accounted.active (accounted : Accounted world)
    (found : Assoc.find world.registry.activePeers peer = some name) :
    ∃ session, Assoc.find world.registry.sessions name = some session ∧ session.peer = peer := by
  rcases accounted.missing found with ⟨session, there⟩
  exact ⟨session, there, ((accounted.recorded there peer).mp found).symm⟩

theorem teardown_additions (cause : Cause) (taken : Catalog) :
    (world.teardown peer cause name taken).removed.map Removal.addition =
      world.removed.map Removal.addition ++ taken.map (additionOf name) := by
  simp [teardown, Function.comp_def]

/-- What is taken out of the catalogues goes to what was removed. -/
theorem Accounted.once_of_taken (accounted : Accounted world) {rest taken : List Addition}
    (loses : (rest ++ taken).Perm (held world.registry)) :
    (rest ++ (world.removed.map Removal.addition ++ taken)).Perm world.added :=
  calc
    rest ++ (world.removed.map Removal.addition ++ taken)
      |>.Perm (rest ++ (taken ++ world.removed.map Removal.addition)) :=
        perm_append_comm.append_left _
    _ = rest ++ taken ++ world.removed.map Removal.addition := (append_assoc _ _ _).symm
    _ |>.Perm (held world.registry ++ world.removed.map Removal.addition) := loses.append_right _
    _ |>.Perm world.added := accounted.once

theorem Accounted.teardown_terminated (accounted : Accounted world) (peer : Peer) (cause : Cause)
    (taken : Catalog) : (world.teardown peer cause name taken).terminated =
      (world.teardown peer cause name taken).removed.filterMap fun removal =>
        removal.addition.process := by
  simp only [teardown, filterMap_append, filterMap_map, accounted.terminated]
  rfl

/-! ## Closing -/

theorem close_of_active (active : Assoc.find world.registry.activePeers peer = some name)
    (there : Assoc.find world.registry.sessions name = some session) :
    world.close peer =
      { world.teardown peer .close name session.resources with
        registry :=
          { world.registry with
            sessions := Assoc.erase world.registry.sessions name
            activePeers := Assoc.erase world.registry.activePeers peer
            closeCount := world.registry.closeCount + 1 } } := by
  simp only [close, PeerSessionRegistry.close, active, there, map_some, getD_some]

theorem close_of_inactive (inactive : Assoc.find world.registry.activePeers peer = none) :
    world.close peer = world := by
  simp only [close, PeerSessionRegistry.close, inactive]

theorem Kept.close (kept : Kept world) (peer : Peer) : Kept (world.close peer) := by
  cases active : Assoc.find world.registry.activePeers peer with
  | none =>
    rw [close_of_inactive active]
    exact kept
  | some name =>
    rcases kept.active active with ⟨session, there, own⟩
    rw [close_of_active active there]
    constructor
    case toAccounted =>
      constructor
      case missing =>
        intro one own found
        rcases Assoc.find_erase_some kept.peers found with ⟨differs, stays⟩
        rcases kept.active stays with ⟨entry, present, holder⟩
        refine ⟨entry, ?_⟩
        rw [Assoc.find_erase kept.sessions, if_neg]
        · exact present
        intro same
        subst same
        exact differs ((kept.recorded there one).mp stays |>.trans
          ((kept.recorded there peer).mp active).symm)
      case recorded =>
        intro one entry found other
        rcases Assoc.find_erase_some kept.sessions found with ⟨differs, present⟩
        rw [Assoc.find_erase kept.peers]
        split
        · next same =>
            subst same
            constructor
            · intro impossible
              cases impossible
            intro holder
            have holds := (kept.recorded present other).mpr holder
            rw [active] at holds
            exact absurd (some.inj holds).symm differs
        · exact kept.recorded present other
      case numbered => exact kept.numbered
      case once =>
        have loses : (held { world.registry with
            sessions := Assoc.erase world.registry.sessions name } ++
              session.resources.map (additionOf name)).Perm (held world.registry) :=
          Assoc.holdings_erase_perm there
        show (held _ ++ (world.teardown peer .close name session.resources).removed.map
          Removal.addition).Perm _
        rw [teardown_additions]
        exact kept.once_of_taken loses
      case rightly =>
        intro removal present openedOn born cause
        rcases mem_append.mp present with old | new
        · exact kept.rightly removal old openedOn born cause
        · rcases mem_map.mp new with ⟨entry, -, rfl⟩
          cases cause
      case terminated => exact kept.teardown_terminated peer _ _
    case sessions => exact kept.sessions.erase name
    case peers => exact kept.peers.erase peer
    case named =>
      intro one present
      exact kept.named one ((eraseP_sublist.map Prod.fst).subset present)
    case catalogs =>
      exact fun found => kept.catalogs (Assoc.find_erase_some kept.sessions found).2
    case born => exact kept.born
    case known =>
      intro scope open_ one entry opened found
      exact kept.known scope open_ opened (Assoc.find_erase_some kept.sessions found).2

/-! ## Opening and adopting -/

theorem makeSessionValue_injective {kind : String} {first second : ℕ}
    {firstEntropy secondEntropy : Entropy} (same : makeSessionValue kind first firstEntropy =
      makeSessionValue kind second secondEntropy) : first = second := by
  have texts := congrArg String.toList same
  simp only [makeSessionValue, hex, String.toList_append, String.toList_ofList,
    append_assoc] at texts
  have dashed := append_cancel_left (append_cancel_left texts)
  exact Hex.number_of_dashed dashed

theorem Kept.fresh (kept : Kept world) (entropy : Entropy) :
    Assoc.find world.registry.sessions
      (makeSessionValue "session" world.registry.nextSession entropy) = none := by
  apply Assoc.find_eq_none
  intro spent
  rcases kept.named _ spent with ⟨sequence, other, before, same⟩
  exact Nat.lt_irrefl _ (makeSessionValue_injective same ▸ before)

/-- A peer without a session gets one. -/
theorem Kept.insert (kept : Kept world)
    (free : Assoc.find world.registry.activePeers peer = none) (entropy token : Entropy)
    (opening : List Peer) :
    Kept { world with
      registry := world.registry.insert peer entropy token
      opening } := by
  have absent := kept.fresh entropy
  set name := makeSessionValue "session" world.registry.nextSession entropy with isName
  set entry : PeerSession :=
    { token := makeSessionValue "token" world.registry.nextSession token, peer } with isEntry
  have inserted : world.registry.insert peer entropy token =
      { world.registry with
        sessions := Assoc.put name entry world.registry.sessions
        activePeers := Assoc.put peer name world.registry.activePeers
        nextSession := world.registry.nextSession + 1 } := by
    simp only [PeerSessionRegistry.insert, ← isName, absent, ← isEntry]
  rw [inserted]
  constructor
  case toAccounted =>
    refine { kept with missing := ?missing, recorded := ?recorded, once := ?once }
    case missing =>
      intro one own found
      show ∃ session, Assoc.find (Assoc.put name entry world.registry.sessions) own = some session
      rw [Assoc.find_put]
      split
      · exact ⟨entry, rfl⟩
      next differs =>
        rw [Assoc.find_put] at found
        split at found
        · exact absurd (some.inj found).symm differs
        · exact kept.missing found
    case recorded =>
      intro one session found other
      show Assoc.find (Assoc.put peer name world.registry.activePeers) other = some one ↔ _
      rw [Assoc.find_put]
      rcases Assoc.find_put_some found with ⟨rfl, rfl⟩ | ⟨differs, present⟩
      · split
        · next same => exact iff_of_true rfl same
        · next apart =>
            apply iff_of_false _ apart
            intro active
            rcases kept.missing active with ⟨session, there⟩
            rw [absent] at there
            cases there
      · split
        · next same =>
            apply iff_of_false
            · exact fun equal => differs (some.inj equal).symm
            intro holder
            have active := (kept.recorded present other).mpr holder
            rw [same, free] at active
            cases active
        · exact kept.recorded present other
    case once =>
      have same : held { world.registry with
          sessions := Assoc.put name entry world.registry.sessions } = held world.registry := by
        refine (Assoc.holdings_put_none absent).trans ?_
        exact append_nil _
      show (held { world.registry with
          sessions := Assoc.put name entry world.registry.sessions } ++ _).Perm _
      rw [same]
      exact kept.once
  case sessions => exact kept.sessions.put name entry
  case peers => exact kept.peers.put peer name
  case named =>
    intro one present
    show ∃ sequence other, sequence < world.registry.nextSession + 1 ∧ _
    rcases Assoc.mem_put_keys present with new | old
    · exact ⟨_, entropy, Nat.lt_succ_self _, new.trans isName⟩
    · rcases kept.named one old with ⟨sequence, other, before, same⟩
      exact ⟨sequence, other, Nat.lt_succ_of_lt before, same⟩
  case catalogs =>
    intro one session found
    rcases Assoc.find_put_some found with ⟨-, rfl⟩ | ⟨-, present⟩
    · exact nodup_nil
    · exact kept.catalogs present
  case born => exact kept.born
  case known =>
    intro scope open_ one session opened found
    rcases Assoc.find_put_some found with ⟨-, rfl⟩ | ⟨-, present⟩
    · exact forall_mem_nil _
    · exact kept.known scope open_ opened present

/-- What adoption does when it goes through. -/
def adopted (registry : PeerSessionRegistry) (peer : Peer) (name : SessionName)
    (session : PeerSession) : PeerSessionRegistry :=
  { registry with
    sessions := Assoc.put name { session with peer } registry.sessions
    activePeers := Assoc.put peer name (Assoc.erase registry.activePeers session.peer) }

theorem Accounted.adopt_cases (accounted : Accounted world) (peer : Peer) (name : SessionName)
    (token : String) : (world.registry.adopt peer name token).2 = world.registry ∨
      ∃ session, Assoc.find world.registry.sessions name = some session ∧
        (∀ own, Assoc.find world.registry.activePeers peer = some own → own = name) ∧
        (world.registry.adopt peer name token).2 = adopted world.registry peer name session := by
  unfold PeerSessionRegistry.adopt
  split
  · exact .inl rfl
  next session there =>
    have active := (accounted.recorded there session.peer).mpr rfl
    split
    · exact .inl rfl
    split
    · exact .inl rfl
    next fits =>
      refine .inr ⟨session, there, ?_, ?_⟩
      · intro own found
        by_contra differs
        exact fits (by simp [found, differs])
      · rfl

/-- A peer takes over a session. -/
theorem Kept.adopted (kept : Kept world)
    (there : Assoc.find world.registry.sessions name = some session)
    (fits : ∀ own, Assoc.find world.registry.activePeers peer = some own → own = name) :
    Kept { world with registry := adopted world.registry peer name session } := by
  have activeOf : ∀ other, Assoc.find
      (Assoc.put peer name (Assoc.erase world.registry.activePeers session.peer)) other =
        if other = peer then some name else if other = session.peer then none
          else Assoc.find world.registry.activePeers other := by
    intro other
    rw [Assoc.find_put, Assoc.find_erase kept.peers]
  constructor
  case toAccounted =>
    refine { kept with missing := ?missing, recorded := ?recorded, once := ?once }
    case missing =>
      intro one own found
      show ∃ entry, Assoc.find
        (Assoc.put name { session with peer } world.registry.sessions) own = some entry
      rw [Assoc.find_put]
      split
      · exact ⟨_, rfl⟩
      next differs =>
        have active := (activeOf one).symm.trans found
        split_ifs at active
        · exact absurd (some.inj active).symm differs
        · exact kept.missing active
    case recorded =>
      intro one entry found other
      refine Iff.trans (Eq.congr_left (activeOf other)) ?_
      rcases Assoc.find_put_some found with ⟨rfl, rfl⟩ | ⟨differs, present⟩
      · split_ifs with isPeer isOld
        · exact iff_of_true rfl isPeer
        · exact iff_of_false (fun absurdity => by cases absurdity) isPeer
        · apply iff_of_false _ isPeer
          exact fun active => isOld ((kept.recorded there other).mp active)
      split_ifs with isPeer isOld
      · apply iff_of_false
        · exact fun same => differs (some.inj same).symm
        · intro holder
          have active := (kept.recorded present other).mpr holder
          exact differs (fits one (isPeer ▸ active))
      · apply iff_of_false
        · exact fun absurdity => by cases absurdity
        · intro holder
          have active := (kept.recorded present other).mpr holder
          rw [(kept.recorded there other).mpr isOld] at active
          exact differs (some.inj active).symm
      · exact kept.recorded present other
    case once =>
      have swaps : (held (PeerSessions.adopted world.registry peer name session) ++
          session.resources.map (additionOf name)).Perm
            (held world.registry ++ session.resources.map (additionOf name)) :=
        Assoc.holdings_put_perm there
      have same := (perm_append_right_iff _).mp swaps
      exact (same.append_right _).trans kept.once
  case sessions => exact kept.sessions.put name _
  case peers => exact (kept.peers.erase _).put peer name
  case named =>
    intro one present
    rcases Assoc.mem_put_keys present with new | old
    · exact kept.named one (new ▸ mem_map_of_mem (Assoc.mem_of_find there))
    · exact kept.named one old
  case catalogs =>
    intro one entry found
    rcases Assoc.find_put_some found with ⟨-, rfl⟩ | ⟨-, present⟩
    · have same := kept.catalogs there
      exact same
    · exact kept.catalogs present
  case born => exact kept.born
  case known =>
    intro scope open_ one entry opened found
    rcases Assoc.find_put_some found with ⟨rfl, rfl⟩ | ⟨-, present⟩
    · have same := kept.known scope open_ opened there
      exact same
    · exact kept.known scope open_ opened present

theorem Kept.adopt (kept : Kept world) (peer : Peer) (name : SessionName) (token : String) :
    Kept { world with registry := (world.registry.adopt peer name token).2 } := by
  rcases kept.adopt_cases peer name token with same | ⟨session, there, fits, outcome⟩
  · rw [same]
    exact kept
  · rw [outcome]
    exact kept.adopted there fits

/-! ## Adding and reaping -/

theorem add_of_inactive (inactive : world.registry.active peer = none) :
    world.step (.add peer resource process) = world := by
  unfold PeerSessionRegistry.active at inactive
  simp only [step, PeerSessionRegistry.add]
  cases found : Assoc.find world.registry.activePeers peer with
  | none => rfl
  | some name =>
    rw [found, bind_some, map_eq_none_iff] at inactive
    simp only [inactive]

/-- What an addition does that goes through. -/
theorem add_of_active (active : world.registry.active peer = some (name, session)) :
    world.step (.add peer resource process) =
      { world with
        registry :=
          { world.registry with
            sessions := Assoc.put name
              { session with
                resources := Assoc.put resource { process, serial := world.added.length }
                  session.resources }
              world.registry.sessions }
        added := world.added ++ [{ serial := world.added.length, session := name, process }] } := by
  rcases active_eq_some.mp active with ⟨found, there⟩
  simp only [step, PeerSessionRegistry.add, found, there]

/-- Another catalogue of a session, with what else depends on it. -/
theorem Kept.recatalogue (kept : Kept world)
    (there : Assoc.find world.registry.sessions name = some session) (catalog : Catalog)
    (registry : after.registry =
      { world.registry with
        sessions := Assoc.put name { session with resources := catalog } world.registry.sessions })
    (numbered : after.added.map Addition.serial = List.range after.added.length)
    (once : (held after.registry ++ after.removed.map Removal.addition).Perm after.added)
    (rightly : ∀ removal ∈ after.removed, ∀ openedOn born, removal.cause = .scope openedOn born →
      openedOn = some removal.addition.session ∧ born ≤ removal.addition.serial)
    (terminated : after.terminated =
      after.removed.filterMap fun removal => removal.addition.process)
    (distinct : Assoc.Distinct catalog)
    (scopes : ∀ scope ∈ after.scopes, scope ∈ world.scopes)
    (grown : world.added.length ≤ after.added.length)
    (knows : ∀ scope ∈ world.scopes, scope.openedOn = some name → ∀ entry ∈ catalog,
      entry.1 ∉ scope.snapshot → scope.born ≤ entry.2.serial) : Kept after := by
  have known : ∀ {one found}, Assoc.find after.registry.sessions one = some found →
      (one = name ∧ found = { session with resources := catalog }) ∨
        (one ≠ name ∧ Assoc.find world.registry.sessions one = some found) := by
    intro one found present
    rw [registry] at present
    exact Assoc.find_put_some present
  have actives : after.registry.activePeers = world.registry.activePeers := by rw [registry]
  constructor
  case toAccounted =>
    constructor
    case missing =>
      intro one own found
      rw [actives] at found
      rw [registry, Assoc.find_put]
      split
      · exact ⟨_, rfl⟩
      · exact kept.missing found
    case recorded =>
      intro one entry found other
      rw [actives]
      rcases known found with ⟨rfl, rfl⟩ | ⟨-, present⟩
      · have same := kept.recorded there other
        exact same
      · exact kept.recorded present other
    case numbered => exact numbered
    case once => exact once
    case rightly => exact rightly
    case terminated => exact terminated
  case sessions =>
    rw [registry]
    exact kept.sessions.put name _
  case peers =>
    rw [actives]
    exact kept.peers
  case named =>
    intro one present
    rw [registry] at present ⊢
    rcases Assoc.mem_put_keys present with new | old
    · exact kept.named one (new ▸ mem_map_of_mem (Assoc.mem_of_find there))
    · exact kept.named one old
  case catalogs =>
    intro one entry found
    rcases known found with ⟨-, rfl⟩ | ⟨-, present⟩
    · exact distinct
    · exact kept.catalogs present
  case born => exact fun scope open_ => (kept.born scope (scopes scope open_)).trans grown
  case known =>
    intro scope open_ one entry opened found
    rcases known found with ⟨rfl, rfl⟩ | ⟨-, present⟩
    · exact knows scope (scopes scope open_) opened
    · exact kept.known scope (scopes scope open_) opened present

/-- A catalogue gains or loses what its session gains or loses. -/
theorem held_recatalogue (there : Assoc.find registry.sessions name = some session)
    (catalog : Catalog) : (held { registry with
        sessions := Assoc.put name { session with resources := catalog } registry.sessions } ++
      session.resources.map (additionOf name)).Perm
        (held registry ++ catalog.map (additionOf name)) :=
  Assoc.holdings_put_perm there

theorem Kept.add (kept : Kept world) (process : Option OwnedProcess)
    (careful : world.Careful (.add peer resource process)) :
    Kept (world.step (.add peer resource process)) := by
  cases active : world.registry.active peer with
  | none =>
    rw [add_of_inactive active]
    exact kept
  | some found =>
    rcases found with ⟨name, session⟩
    have fresh := careful name session active
    rcases active_eq_some.mp active with ⟨-, there⟩
    rw [add_of_active active]
    apply kept.recatalogue there _ rfl
    case numbered =>
      show (world.added ++ [_]).map Addition.serial = List.range (world.added ++ [_]).length
      rw [map_append, length_append, length_singleton, range_succ, kept.numbered]
      rfl
    case once =>
      have swaps := held_recatalogue there
        (Assoc.put resource { process, serial := world.added.length } session.resources)
      rw [Assoc.put_of_find_none fresh, map_append] at swaps
      have moved := swaps.trans (perm_append_comm.append_left _)
      rw [← append_assoc] at moved
      have gains := (perm_append_right_iff _).mp moved
      rw [← Assoc.put_of_find_none fresh] at gains
      calc
        held _ ++ world.removed.map Removal.addition
          |>.Perm (held world.registry ++
              List.map (additionOf name) [(resource, ⟨process, world.added.length⟩)] ++
                world.removed.map Removal.addition) := gains.append_right _
        _ = held world.registry ++
              (List.map (additionOf name) [(resource, ⟨process, world.added.length⟩)] ++
                world.removed.map Removal.addition) := append_assoc _ _ _
        _ |>.Perm (held world.registry ++ (world.removed.map Removal.addition ++
              List.map (additionOf name) [(resource, ⟨process, world.added.length⟩)])) :=
            perm_append_comm.append_left _
        _ = held world.registry ++ world.removed.map Removal.addition ++
              List.map (additionOf name) [(resource, ⟨process, world.added.length⟩)] :=
            (append_assoc _ _ _).symm
        _ |>.Perm (world.added ++ [⟨world.added.length, name, process⟩]) := kept.once.append_right _
    case rightly => exact kept.rightly
    case terminated => exact kept.terminated
    case distinct => exact (kept.catalogs there).put resource _
    case scopes => exact fun _ open_ => open_
    case grown =>
      show world.added.length ≤ (world.added ++ [_]).length
      rw [length_append]
      exact Nat.le_add_right _ _
    case knows =>
      intro scope open_ opened entry present unknown
      rw [Assoc.put_of_find_none fresh] at present
      rcases mem_append.mp present with old | new
      · exact kept.known scope open_ opened there entry old unknown
      · rw [mem_singleton.mp new]
        exact kept.born scope open_

/-- What the end of a scope finds to take away, and what it leaves. -/
def gone (scope : CatalogScope) (session : PeerSession) : Catalog :=
  session.resources.filter fun entry => entry.1 ∉ scope.snapshot

def left (scope : CatalogScope) (session : PeerSession) : Catalog :=
  session.resources.filter fun entry => entry.1 ∈ scope.snapshot

theorem endScope_of_active {scope : CatalogScope}
    (active : world.registry.active scope.peer = some (name, session)) :
    world.endScope scope =
      { world.teardown scope.peer (.scope scope.openedOn scope.born) name (gone scope session) with
        registry :=
          { world.registry with
            sessions := Assoc.put name { session with resources := left scope session }
              world.registry.sessions }
        teardowns := if gone scope session = [] then world.teardowns
          else world.teardowns ++ [(scope.peer, (gone scope session).map Prod.fst)] } := by
  simp only [endScope, PeerSessionRegistry.reapDiff, active]
  rfl

theorem left_gone_perm (scope : CatalogScope) (session : PeerSession) :
    (left scope session ++ gone scope session).Perm session.resources := by
  have split := filter_append_perm (fun entry : ResourceName × Resource =>
    decide (entry.1 ∈ scope.snapshot)) session.resources
  have same : gone scope session = session.resources.filter
      fun entry => !decide (entry.1 ∈ scope.snapshot) := by
    unfold gone
    simp only [decide_not]
  rw [same]
  exact split

theorem endScope_scopes (scope : CatalogScope) : (world.endScope scope).scopes = world.scopes := by
  unfold endScope
  split <;> rfl

variable (kept : Kept world)

include kept

theorem Kept.endScope {scope : CatalogScope} (open_ : scope ∈ world.scopes)
    (careful : ∀ name session, world.registry.active scope.peer = some (name, session) →
      scope.openedOn = some name ∨ ∀ entry ∈ session.resources, entry.1 ∈ scope.snapshot) :
    Kept (world.endScope scope) := by
  cases active : world.registry.active scope.peer with
  | none =>
    simpa only [PeerSessions.endScope, PeerSessionRegistry.reapDiff, active] using kept
  | some found =>
    rcases found with ⟨name, session⟩
    rcases active_eq_some.mp active with ⟨-, there⟩
    rw [endScope_of_active active]
    apply kept.recatalogue there _ rfl
    case numbered => exact kept.numbered
    case once =>
      have parts := (left_gone_perm scope session).map (additionOf name)
      rw [map_append] at parts
      have swaps := held_recatalogue there (left scope session)
      have moved := ((perm_append_comm.trans parts).append_left _).trans swaps
      rw [← append_assoc] at moved
      have loses := (perm_append_right_iff _).mp moved
      show (held _ ++ (world.teardown scope.peer _ name (gone scope session)).removed.map
        Removal.addition).Perm _
      rw [teardown_additions]
      exact kept.once_of_taken loses
    case rightly =>
      intro removal present openedOn born cause
      rcases mem_append.mp present with old | new
      · exact kept.rightly removal old openedOn born cause
      rcases mem_map.mp new with ⟨entry, taken, rfl⟩
      rcases mem_filter.mp taken with ⟨inside, unknown⟩
      have outside : entry.1 ∉ scope.snapshot := of_decide_eq_true unknown
      cases cause
      rcases careful name session active with same | none
      · exact ⟨same, kept.known scope open_ same there entry inside outside⟩
      · exact absurd (none entry inside) outside
    case terminated => exact kept.teardown_terminated scope.peer _ _
    case distinct =>
      exact (kept.catalogs there).sublist (filter_sublist.map Prod.fst)
    case scopes => exact fun _ stays => stays
    case grown => exact Nat.le_refl _
    case knows =>
      intro other stays opened entry present unknown
      exact kept.known other stays opened there entry (mem_of_mem_filter present) unknown

/-- Fewer scopes or more callers of `open` change nothing. -/
theorem Kept.of_eq (registry : after.registry = world.registry) (added : after.added = world.added)
    (removed : after.removed = world.removed) (terminated : after.terminated = world.terminated)
    (scopes : ∀ scope ∈ after.scopes, scope ∈ world.scopes) : Kept after := by
  rcases world with ⟨wRegistry, wOpening, wScopes, wAdded, wRemoved, wTerminated, wTeardowns⟩
  rcases after with ⟨aRegistry, aOpening, aScopes, aAdded, aRemoved, aTerminated, aTeardowns⟩
  cases registry
  cases added
  cases removed
  cases terminated
  exact
    { missing := kept.missing
      recorded := kept.recorded
      numbered := kept.numbered
      once := kept.once
      rightly := kept.rightly
      terminated := kept.terminated
      sessions := kept.sessions
      peers := kept.peers
      named := kept.named
      catalogs := kept.catalogs
      born := fun scope open_ => kept.born scope (scopes scope open_)
      known := fun scope open_ => kept.known scope (scopes scope open_) }

/-- A new scope knows all that is in the catalogue. -/
theorem Kept.scope (peer : Peer) : Kept (world.step (.scope peer)) := by
  refine { kept with toAccounted := ?toAccounted, born := ?born, known := ?known }
  case toAccounted =>
    exact
      { missing := kept.missing
        recorded := kept.recorded
        numbered := kept.numbered
        once := kept.once
        rightly := kept.rightly
        terminated := kept.terminated }
  case born =>
    intro scope open_
    rcases mem_append.mp open_ with old | new
    · exact kept.born scope old
    · rw [mem_singleton.mp new]
      exact Nat.le_refl _
  case known =>
    intro scope open_ name session opened there entry present unknown
    rcases mem_append.mp open_ with old | new
    · exact kept.known scope old opened there entry present unknown
    rw [mem_singleton.mp new] at opened unknown
    have active : world.registry.active peer = some (name, session) :=
      active_eq_some.mpr ⟨opened, there⟩
    apply absurd _ unknown
    simp only [PeerSessionRegistry.catalogSnapshot, active]
    exact mem_map_of_mem present

/-- A careful step keeps the account. -/
theorem Kept.step (step : Step) (careful : world.Careful step) : Kept (world.step step) := by
  cases step with
  | openCloses peer =>
    exact (kept.close peer).of_eq rfl rfl rfl rfl fun _ open_ => open_
  | openInserts peer entropy token =>
    simp only [PeerSessions.step]
    split
    · next opening => exact kept.insert (careful opening) entropy token _
    · exact kept
  | adopt peer name token => exact kept.adopt peer name token
  | add peer resource process => exact kept.add process careful
  | scope peer => exact kept.scope peer
  | finish index =>
    simp only [PeerSessions.step]
    split
    · exact kept
    next scope found =>
      have ended := kept.endScope (mem_of_getElem? found)
        fun name session active => careful scope name session found active
      have fewer : ∀ other ∈ world.scopes.eraseIdx index,
          other ∈ (world.endScope scope).scopes := by
        intro other stays
        rw [endScope_scopes]
        exact mem_of_mem_eraseIdx stays
      exact ended.of_eq rfl rfl rfl rfl fewer
  | close peer => exact kept.close peer

theorem Kept.run (steps : List Step) (careful : world.RunsCarefully steps) :
    Kept (world.run steps) := by
  induction steps generalizing world with
  | nil => exact kept
  | cons first rest ih => exact ih (kept.step first careful.1) careful.2

omit kept

theorem Kept.initial : Kept {} where
  missing found := by cases found
  recorded found := by cases found
  numbered := rfl
  once := Perm.refl _
  rightly _ present := absurd present not_mem_nil
  terminated := rfl
  sessions := nodup_nil
  peers := nodup_nil
  named _ present := absurd present not_mem_nil
  catalogs found := by cases found
  born _ present := absurd present not_mem_nil
  known _ present := absurd present not_mem_nil

/-! ## Destruction -/

include kept

theorem Kept.cleared (none : world.registry.activePeers = []) : Cleared world := by
  have empty : world.registry.sessions = [] := by
    rcases shape : world.registry.sessions with _ | ⟨⟨name, session⟩, rest⟩
    · rfl
    have there : Assoc.find world.registry.sessions name = some session :=
      Assoc.find_of_mem kept.sessions (shape ▸ mem_cons_self)
    have active := (kept.recorded there session.peer).mpr rfl
    rw [none] at active
    cases active
  have removed : (world.removed.map Removal.addition).Perm world.added := by
    have once := kept.once
    rw [held, empty] at once
    exact once
  constructor
  case sessions => exact empty
  case removed => exact removed
  case terminated =>
    rw [kept.terminated]
    have processes := removed.filterMap Addition.process
    rw [filterMap_map] at processes
    exact processes

theorem Kept.destroyed {final : PeerSessions} (destroyed : Destroyed world final) :
    Kept final ∧ final.registry.activePeers = [] := by
  induction destroyed with
  | done none => exact ⟨kept, none⟩
  | next active rest ih => exact ih (kept.close _)

/-- The loop of the destructor ends. -/
theorem Kept.destroyed_exists : ∃ final, Destroyed world final := by
  induction count : world.registry.activePeers.length generalizing world with
  | zero => exact ⟨world, Destroyed.done (eq_nil_of_length_eq_zero count)⟩
  | succ number ih =>
    rcases shape : world.registry.activePeers with _ | ⟨⟨peer, name⟩, rest⟩
    · rw [shape] at count
      cases count
    have member : (peer, name) ∈ world.registry.activePeers := shape ▸ mem_cons_self
    have active := Assoc.find_of_mem kept.peers member
    rcases kept.active active with ⟨session, there, -⟩
    have shorter : (world.close peer).registry.activePeers.length = number := by
      rw [close_of_active active there]
      show (Assoc.erase world.registry.activePeers peer).length = number
      have first : Assoc.erase world.registry.activePeers peer = rest := by
        rw [shape, Assoc.erase, eraseP_cons_of_pos (by simp)]
      rw [first]
      rw [shape, length_cons] at count
      exact Nat.succ.inj count
    rcases ih (kept.close peer) shorter with ⟨final, ends⟩
    exact ⟨final, Destroyed.next (mem_map_of_mem member) ends⟩

/-! ## Every run -/

/-- A step that is not careful breaks the account. -/
theorem Kept.careful_of_accounted (step : Step) (accounted : Accounted (world.step step)) :
    world.Careful step := by
  cases step with
  | openInserts peer entropy token =>
    intro opening
    cases active : Assoc.find world.registry.activePeers peer with
    | none => rfl
    | some old =>
      -- The session that was there is of a peer that is active elsewhere now.
      rcases kept.active active with ⟨session, there, own⟩
      have absent := kept.fresh entropy
      simp only [PeerSessions.step, if_pos opening] at accounted
      have differs : old ≠ makeSessionValue "session" world.registry.nextSession entropy := by
        intro same
        rw [same, absent] at there
        cases there
      have still : Assoc.find (world.registry.insert peer entropy token).sessions old =
          some session := by
        simp only [PeerSessionRegistry.insert, absent]
        rw [Assoc.find_put, if_neg differs]
        exact there
      have actives := (accounted.recorded still peer).mpr own.symm
      simp only [PeerSessionRegistry.insert, Assoc.find_put, if_pos] at actives
      exact absurd (some.inj actives).symm differs
  | add peer resource process =>
    intro name session active
    cases fresh : Assoc.find session.resources resource with
    | none => rfl
    | some old =>
      -- One addition more, and no entry more.
      rcases active_eq_some.mp active with ⟨-, there⟩
      rw [add_of_active active] at accounted
      have before := kept.once.length_eq
      have after := accounted.once.length_eq
      have swaps := (held_recatalogue there
        (Assoc.put resource { process, serial := world.added.length } session.resources)).length_eq
      rw [length_append, length_append, length_map, length_map, Assoc.length_put fresh] at swaps
      rw [length_append, length_append, length_singleton] at after
      rw [length_append] at before
      dsimp only at after swaps
      omega
  | finish index =>
    intro scope name session found active
    by_cases same : scope.openedOn = some name
    · exact .inl same
    refine .inr fun entry present => ?_
    by_contra unknown
    have taken : entry ∈ gone scope session := mem_filter.mpr ⟨present, decide_eq_true unknown⟩
    simp only [PeerSessions.step, found] at accounted
    rw [endScope_of_active active] at accounted
    have removal : (⟨additionOf name entry, .scope scope.openedOn scope.born⟩ : Removal) ∈
        world.removed ++ (gone scope session).map fun entry =>
          ⟨additionOf name entry, .scope scope.openedOn scope.born⟩ :=
      mem_append_right _ (mem_map_of_mem taken)
    exact same (accounted.rightly _ removal _ _ rfl).1
  | _ => exact trivial

omit kept

/-- All is well after every step of a run. -/
def AlwaysAccounted : PeerSessions → List Step → Prop
  | world, [] => Accounted world
  | world, first :: rest => Accounted world ∧ AlwaysAccounted (world.step first) rest

theorem AlwaysAccounted.head {steps : List Step} (always : AlwaysAccounted world steps) :
    Accounted world := by
  cases steps with
  | nil => exact always
  | cons first rest => exact always.1

theorem Kept.always_iff (kept : Kept world) (steps : List Step) :
    AlwaysAccounted world steps ↔ world.RunsCarefully steps := by
  induction steps generalizing world with
  | nil => exact iff_of_true kept.toAccounted trivial
  | cons first rest ih =>
    constructor
    · intro always
      have careful := kept.careful_of_accounted first always.2.head
      exact ⟨careful, (ih (kept.step first careful)).mp always.2⟩
    · intro runs
      exact ⟨kept.toAccounted, (ih (kept.step first runs.1)).mpr runs.2⟩

end

/-- The resources and processes of every session are torn down exactly once, by the close of the
session or by a scope of the same session that is older than they are, and the destructor leaves
nothing, exactly when every step of the run is careful. -/
theorem torn_down_once_iff (steps : List Step) :
    (AlwaysAccounted {} steps ∧ (∃ final, Destroyed (run {} steps) final) ∧
      ∀ final, Destroyed (run {} steps) final → Cleared final) ↔ RunsCarefully {} steps := by
  have initial := Kept.initial
  constructor
  · intro always
    exact (initial.always_iff steps).mp always.1
  intro careful
  have kept := initial.run steps careful
  refine ⟨(initial.always_iff steps).mpr careful, kept.destroyed_exists, ?_⟩
  intro final destroyed
  rcases kept.destroyed destroyed with ⟨still, none⟩
  exact still.cleared none

/-- Two callers open a session for one peer and a resource is added between. -/
def openedTwice : List Step :=
  [.openCloses "peer", .openCloses "peer", .openInserts "peer" ⟨1, 2⟩ ⟨3, 4⟩,
    .add "peer" "child" (some 7), .openInserts "peer" ⟨5, 6⟩ ⟨7, 8⟩]

/-- The first session of a peer that is opened twice at once outlives the registry. -/
theorem opened_twice_leaves :
    ¬∀ steps : List Step, AlwaysAccounted {} steps ∧ (∃ final, Destroyed (run {} steps) final) ∧
      ∀ final, Destroyed (run {} steps) final → Cleared final := by
  intro always
  have ends : Destroyed (run {} openedTwice) ((run {} openedTwice).close "peer") :=
    Destroyed.next (by decide +kernel) (Destroyed.done (by decide +kernel))
  have cleared := (always openedTwice).2.2 _ ends
  have left : ((run {} openedTwice).close "peer").registry.sessions ≠ [] := by decide +kernel
  exact left cleared.sessions

end PeerSessions

end Grab.Frontend

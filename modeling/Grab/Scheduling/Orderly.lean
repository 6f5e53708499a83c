import Mathlib.Data.List.Perm.Subperm
import Grab.Scheduling.Reactor

/-!
# Every operation once and in order

What holds of the reactor in every interleaving of its loop with calls from outside and from
callbacks.
-/

namespace Grab.Scheduling

open List

/-! ## What happened -/

/-- No callback runs behind the removal of its descriptor. -/
def Silent : List Happened → Prop
  | [] => True
  | .called token :: older => .removed token ∉ older ∧ Silent older
  | _ :: older => Silent older

/-- No timer fires before its deadline. -/
def Punctual (history : List Happened) : Prop :=
  ∀ (timer : TimerRegistration) (now : Nat), .fired timer now ∈ history → timer.deadline ≤ now

/-- Timers fire in the order of their deadlines. -/
def InOrder : List Happened → Prop
  | [] => True
  | .fired timer _ :: older =>
    (∀ other now, .fired other now ∈ older → other.deadline ≤ timer.deadline) ∧ InOrder older
  | _ :: older => InOrder older

/-- No timer is set for a time that has passed. -/
def Forward (ops : List PendingOp) : Prop := ∀ token delay, .addTimer token delay ∈ ops → 0 ≤ delay

/-- The tokens of descriptors that are added. -/
def addedTokens (ops : List PendingOp) : List Token :=
  ops.filterMap fun op =>
    match op with
    | .addFd token _ => some token
    | _ => none

namespace Reactor

/-! ## The invariant -/

/-- The operations that the loop has taken and not executed yet. -/
def running (reactor : Reactor) : List PendingOp :=
  match reactor.loop with
  | .operations rest => rest
  | _ => []

/-- Operations that arrive are heard of: the wake descriptor is readable, or a call is about to
write to it. -/
def Heard (reactor : Reactor) : Prop :=
  reactor.pendingOps ≠ [] → 0 < reactor.wakeFd ∨ 0 < reactor.signals

/-- The timer descriptor is set for no later than any timer. -/
def Covers (reactor : Reactor) : Prop :=
  ∀ timer ∈ reactor.timers, ∃ time, reactor.timerFd = some time ∧ time ≤ timer.deadline

/-- What is known of the reactor where the loop stands. -/
def Stands (reactor : Reactor) : Loop → Prop
  | .operations _ => reactor.Heard
  | .timers now => reactor.Heard ∧ now ≤ reactor.clock
  | .arm => reactor.Heard ∧ ∀ timer ∈ reactor.timers, 0 < timer.deadline
  | .wait timeout => reactor.Heard ∧ (timeout = none → reactor.Covers)
  | _ => True

structure Kept (reactor : Reactor) : Prop where
  once : reactor.loop ≠ .returned →
    reactor.enqueued = reactor.executed ++ reactor.running ++ reactor.pendingOps
  tokens : (reactor.taken ++ addedTokens reactor.enqueued).Nodup
  bounded : ∀ token ∈ reactor.taken ++ addedTokens reactor.enqueued, token < reactor.nextToken
  registered : (reactor.fds.map FdRegistration.token).Nodup ∧
    ∀ registration ∈ reactor.fds, registration.token ∈ addedTokens reactor.executed
  removed : ∀ token, .removed token ∈ reactor.history →
    token ∉ reactor.fds.map FdRegistration.token ∧
      (token ∈ reactor.cancelledTokens ∨ token ∈ addedTokens reactor.executed)
  silent : Silent reactor.history
  punctual : Punctual reactor.history
  past : ∀ timer now, .fired timer now ∈ reactor.history → now ≤ reactor.clock
  inOrder : Forward reactor.enqueued → InOrder reactor.history ∧
    ∀ timer now, .fired timer now ∈ reactor.history →
      ∀ other ∈ reactor.timers, timer.deadline ≤ other.deadline
  stands : reactor.Stands reactor.loop

variable {reactor : Reactor}

theorem kept_start (clock : Nat) (precise : Bool) : Kept { clock, precise } where
  once _ := rfl
  tokens := nodup_nil
  bounded _ member := absurd member not_mem_nil
  registered := ⟨nodup_nil, forall_mem_nil _⟩
  removed _ member := absurd member not_mem_nil
  silent := trivial
  punctual _ _ member := absurd member not_mem_nil
  past _ _ member := absurd member not_mem_nil
  inOrder _ := ⟨trivial, fun _ _ member => absurd member not_mem_nil⟩
  stands := trivial

/-! ## Calls -/

theorem Kept.takeToken (kept : reactor.Kept) : reactor.takeToken.Kept :=
  { kept with
    tokens := by
      refine nodup_cons.mpr ⟨?_, kept.tokens⟩
      exact fun member => Nat.lt_irrefl _ (kept.bounded _ member)
    bounded := by
      intro token member
      rcases mem_cons.mp member with rfl | older
      · exact Nat.lt_succ_self _
      · exact Nat.lt_succ_of_lt (kept.bounded token older) }

variable {loop : Loop} {rest : List PendingOp} {token : Token} {timer : TimerRegistration}

/-- What is known where the loop stands survives what leaves the timers alone. -/
theorem Stands.mono {before after : Reactor} (stands : before.Stands loop)
    (timers : after.timers = before.timers) (timerFd : after.timerFd = before.timerFd)
    (clock : before.clock ≤ after.clock) (heard : before.Heard → after.Heard) :
    after.Stands loop := by
  cases loop with
  | operations rest => exact heard stands
  | timers now => exact ⟨heard stands.1, Nat.le_trans stands.2 clock⟩
  | arm => exact ⟨heard stands.1, timers ▸ stands.2⟩
  | wait timeout =>
    refine ⟨heard stands.1, fun blocked => ?_⟩
    unfold Covers
    rw [timers, timerFd]
    exact stands.2 blocked
  | swap | dispatch ready | returned => trivial

theorem addedTokens_append (front back : List PendingOp) :
    addedTokens (front ++ back) = addedTokens front ++ addedTokens back :=
  filterMap_append

variable (kept : reactor.Kept) {timers : List TimerRegistration} {op : PendingOp} {fd : Nat}

include kept

/-- An operation is enqueued; a token that comes with it was taken. -/
theorem Kept.push {taken : List Token} (moved : (addedTokens [op] ++ taken).Subperm reactor.taken) :
    ({ reactor with taken := taken }.push op).Kept := by
  have perm : (taken ++ addedTokens (reactor.enqueued ++ [op])).Perm
      (addedTokens [op] ++ taken ++ addedTokens reactor.enqueued) := by
    rw [addedTokens_append, ← append_assoc]
    refine perm_append_comm.trans ?_
    rw [append_assoc]
  have sub : (addedTokens [op] ++ taken ++ addedTokens reactor.enqueued).Subperm
      (reactor.taken ++ addedTokens reactor.enqueued) :=
    (subperm_append_right _).mpr moved
  exact
    { kept with
      once := by
        intro running
        change reactor.enqueued ++ [op] = reactor.executed ++ reactor.running ++
          (reactor.pendingOps ++ [op])
        rw [kept.once running, append_assoc _ reactor.pendingOps]
      tokens := by
        rcases sub with ⟨part, isPart, within⟩
        exact (isPart.trans perm.symm).nodup_iff.mp (within.nodup kept.tokens)
      bounded := fun token member => kept.bounded token (sub.subset (perm.mem_iff.mp member))
      inOrder := fun forward => kept.inOrder fun token delay member =>
        forward token delay (mem_append_left [op] member)
      stands := kept.stands.mono rfl rfl (Nat.le_refl _) fun _ _ => .inr (Nat.succ_pos _) }

theorem Kept.enqueue (op : PendingOp) : (reactor.enqueue op).Kept := by
  cases op with
  | addFd token fd =>
    unfold Reactor.enqueue
    dsimp only
    split
    · rename_i member
      exact kept.push (perm_cons_erase member).symm.subperm
    · exact kept
  | addTimer token delay =>
    unfold Reactor.enqueue
    dsimp only
    split
    · exact kept.push erase_sublist.subperm
    · exact kept
  | removeFd token | task number => exact kept.push (Subperm.refl _)

theorem Kept.stop : reactor.stop.Kept := by
  unfold Reactor.stop
  split
  · exact kept
  · exact
      { kept with
        stands := kept.stands.mono rfl rfl (Nat.le_refl _) fun _ _ => .inr (Nat.succ_pos _) }

theorem Kept.wake : reactor.wake.Kept := by
  unfold Reactor.wake
  split
  · exact kept
  · exact
      { kept with
        stands := kept.stands.mono rfl rfl (Nat.le_refl _) fun _ _ => .inl (Nat.succ_pos _) }

theorem Kept.tick (elapsed : Nat) : Kept { reactor with clock := reactor.clock + elapsed } :=
  { kept with
    past := fun timer now member => 
      Nat.le_trans (kept.past timer now member) (Nat.le_add_right _ _)
    stands := kept.stands.mono rfl rfl (Nat.le_add_right _ _) id }

/-! ## Operations -/

/-- An operation that is executed now was not executed before. -/
theorem Kept.fresh (here : reactor.loop = .operations (.addFd token fd :: rest)) :
    token ∉ addedTokens reactor.executed := by
  intro before
  have once := kept.once fun returned => by
    rw [here] at returned
    cases returned
  have tokens := kept.tokens
  rw [once, running, here, addedTokens_append, addedTokens_append] at tokens
  have both := (nodup_append.mp (nodup_append.mp (nodup_append.mp tokens).2.1).1)
  exact both.2.2 token before token mem_cons_self rfl

/-- The operation in front of the others goes over to those that were executed. -/
theorem Kept.executed (here : reactor.loop = .operations (op :: rest))
    (next : loop = .returned ∨ loop = .operations rest) :
    Kept { reactor with executed := reactor.executed ++ [op], loop := loop } := by
  have more : ∀ token, token ∈ addedTokens reactor.executed →
      token ∈ addedTokens (reactor.executed ++ [op]) := by
    intro token member
    rw [addedTokens_append]
    exact mem_append_left _ member
  exact
    { kept with
      once := by
        intro continues
        rcases next with rfl | rfl
        · exact absurd rfl continues
        have once := kept.once fun returned => by
          rw [here] at returned
          cases returned
        rw [running, here] at once
        rw [once]
        simp [running]
      registered := ⟨kept.registered.1, fun registration member =>
        more _ (kept.registered.2 registration member)⟩
      removed := fun token member =>
        ⟨(kept.removed token member).1, (kept.removed token member).2.imp_right (more token)⟩
      stands := by
        have stands := kept.stands
        rw [here] at stands
        rcases next with rfl | rfl
        · trivial
        · exact stands }

omit kept in
theorem mem_of_mem_cons {event seen : Happened} {history : List Happened}
    (member : event ∈ seen :: history) (other : event ≠ seen) : event ∈ history :=
  (mem_cons.mp member).resolve_left other

omit kept in
theorem token_not_mem_eraseP {fds : List FdRegistration}
    (once : (fds.map FdRegistration.token).Nodup) :
    token ∉ (fds.eraseP fun registration => registration.token == token).map
      FdRegistration.token := by
  induction fds with
  | nil => exact not_mem_nil
  | cons first rest ih =>
    rw [map_cons, nodup_cons] at once
    by_cases same : first.token = token
    · rw [eraseP_cons_of_pos (by simpa using same), ← same]
      exact once.1
    · rw [eraseP_cons_of_neg (by simpa using same), map_cons, mem_cons, not_or]
      exact ⟨fun equal => same equal.symm, ih once.2⟩

/-- A descriptor is registered, unless its removal came first or the set refuses it. -/
theorem Kept.addFd (fresh : token ∉ reactor.fds.map FdRegistration.token)
    (added : token ∈ addedTokens reactor.executed)
    (known : .removed token ∈ reactor.history → token ∈ reactor.cancelledTokens)
    (control : ControlReply) : (reactor.addFdOnReactor token fd control).Kept := by
  unfold addFdOnReactor
  split
  · exact
      { kept with
        removed := by
          intro other member
          refine ⟨(kept.removed other member).1, ?_⟩
          by_cases same : other = token
          · exact .inr (same ▸ added)
          · exact (kept.removed other member).2.imp_left (mem_erase_of_ne same).mpr }
  · rename_i notCancelled
    split
    · exact
        { kept with
          registered := by
            constructor
            · change ((reactor.fds ++ [_]).map FdRegistration.token).Nodup
              rw [map_append, nodup_append]
              refine ⟨kept.registered.1, pairwise_singleton _ _, ?_⟩
              rintro other old _ new rfl
              rw [mem_singleton.mp new] at old
              exact fresh old
            intro registration member
            rcases mem_append.mp member with old | new
            · exact kept.registered.2 registration old
            · rw [mem_singleton.mp new]
              exact added
          removed := by
            intro other member
            refine ⟨?_, (kept.removed other member).2⟩
            change other ∉ (reactor.fds ++ [_]).map FdRegistration.token
            rw [map_append, mem_append, not_or]
            refine ⟨(kept.removed other member).1, ?_⟩
            intro new
            rw [mem_singleton.mp new] at member
            exact notCancelled (known member) }
    · exact kept

/-- Something other than a timer goes into the history. -/
theorem Kept.record {event : Happened} (other : ∀ timer now, .fired timer now ≠ event)
    (silent : Silent (event :: reactor.history))
    (inOrder : InOrder reactor.history → InOrder (event :: reactor.history))
    (removed : ∀ token, .removed token = event →
      token ∉ reactor.fds.map FdRegistration.token ∧
        (token ∈ reactor.cancelledTokens ∨ token ∈ addedTokens reactor.executed)) :
    Kept { reactor with history := event :: reactor.history } :=
  { kept with
    removed := fun token member =>
      (mem_cons.mp member).elim (removed token) (kept.removed token)
    silent := silent
    punctual := fun timer now member =>
      kept.punctual timer now (mem_of_mem_cons member (other timer now))
    past := fun timer now member => kept.past timer now (mem_of_mem_cons member (other timer now))
    inOrder := fun forward =>
      ⟨inOrder (kept.inOrder forward).1, fun timer now member =>
        (kept.inOrder forward).2 timer now (mem_of_mem_cons member (other timer now))⟩ }

theorem Kept.recordRemoved (unregistered : token ∉ reactor.fds.map FdRegistration.token)
    (known : token ∈ reactor.cancelledTokens ∨ token ∈ addedTokens reactor.executed) :
    Kept { reactor with history := .removed token :: reactor.history } := by
  apply kept.record
  case other => exact fun _ _ => Happened.noConfusion
  case silent => exact kept.silent
  case inOrder => exact id
  case removed =>
    intro other same
    cases same
    exact ⟨unregistered, known⟩

theorem Kept.removeFd (token : Token) (control : ControlReply) :
    (reactor.removeFdOnReactor token control).Kept := by
  unfold removeFdOnReactor
  split
  · rename_i unregistered
    have remembered : Kept { reactor with
        cancelledTokens := reactor.cancelledTokens ++ [token] } :=
      { kept with
        removed := fun other member => ⟨(kept.removed other member).1,
          (kept.removed other member).2.imp_left (mem_append_left _)⟩ }
    apply remembered.recordRemoved
    · intro member
      rcases mem_map.mp member with ⟨registration, inside, same⟩
      have apart := all_eq_true.mp unregistered registration inside
      rw [same, bne_self_eq_false] at apart
      cases apart
    · exact .inl (mem_append_right _ (mem_singleton_self token))
  · rename_i registered
    split
    · exact kept
    have sublist : (reactor.fds.eraseP fun registration => registration.token == token).Sublist
        reactor.fds := eraseP_sublist
    have erased : Kept { reactor with
        fds := reactor.fds.eraseP fun registration => registration.token == token } :=
      { kept with
        registered := ⟨kept.registered.1.sublist (sublist.map _), fun registration member =>
          kept.registered.2 registration (sublist.subset member)⟩
        removed := fun other member =>
          ⟨fun inside => (kept.removed other member).1 ((sublist.map _).subset inside),
            (kept.removed other member).2⟩ }
    apply erased.recordRemoved
    · exact token_not_mem_eraseP kept.registered.1
    right
    rw [all_eq_true] at registered
    push Not at registered
    rcases registered with ⟨registration, inside, same⟩
    rw [← show registration.token = token by simpa using same]
    exact kept.registered.2 registration inside

/-- A timer that is not set for the past comes behind those that have fired. -/
theorem Kept.addTimer {delay : Int}
    (here : reactor.loop = .returned ∨ reactor.loop = .operations rest)
    (asked : .addTimer token delay ∈ reactor.enqueued) :
    (reactor.addTimerOnReactor token delay).Kept :=
  { kept with
    inOrder := by
      intro forward
      refine ⟨(kept.inOrder forward).1, ?_⟩
      intro timer now member other inside
      rcases mem_append.mp inside with old | new
      · exact (kept.inOrder forward).2 timer now member other old
      rw [mem_singleton.mp new]
      have early := kept.punctual timer now member
      have past := kept.past timer now member
      have ahead := forward token delay asked
      change timer.deadline ≤ (reactor.clock : Int) + delay
      omega
    stands := by
      have stands := kept.stands
      change Stands _ reactor.loop
      rcases here with returned | operations
      · rw [returned]
        trivial
      · rw [operations] at stands ⊢
        exact stands }

omit kept in
theorem execute_loop (reactor : Reactor) (op : PendingOp) (control : ControlReply) (loop : Loop) :
    { reactor.execute op control with loop := loop } =
      { reactor with loop := loop }.execute op control := by
  cases op with
  | addFd token fd =>
    simp only [execute, addFdOnReactor]
    split
    · rfl
    · split <;> rfl
  | removeFd token =>
    simp only [execute, removeFdOnReactor]
    split
    · rfl
    · split <;> rfl
  | addTimer token delay | task number => rfl

theorem Kept.execute (here : reactor.loop = .operations (op :: rest))
    (next : loop = .returned ∨ loop = .operations rest) (control : ControlReply) :
    Kept { reactor.execute op control with loop := loop } := by
  have executed := kept.executed here next
  rw [execute_loop]
  cases op with
  | addFd token fd =>
    have fresh := kept.fresh here
    apply executed.addFd
    · intro member
      rcases mem_map.mp member with ⟨registration, inside, rfl⟩
      exact fresh (kept.registered.2 registration inside)
    · rw [addedTokens_append]
      exact mem_append_right _ mem_cons_self
    · exact fun member => (kept.removed token member).2.resolve_right fresh
  | removeFd token => exact executed.removeFd token control
  | addTimer token delay =>
    apply executed.addTimer next
    have once := kept.once fun returned => by
      rw [here] at returned
      cases returned
    rw [running, here] at once
    change _ ∈ reactor.enqueued
    rw [once]
    exact mem_append_left _ (mem_append_right _ mem_cons_self)
  | task number => exact executed

/-! ## Timers -/

omit kept in
theorem mem_earliest :
    timer ∈ earliest timers ↔
      timer ∈ timers ∧ ∀ other ∈ timers, timer.deadline ≤ other.deadline := by
  rw [earliest, mem_filter, all_eq_true]
  simp only [decide_eq_true_eq]

/-- A timer that is due fires when no other one is due earlier. -/
theorem Kept.fire {now : Nat} (here : reactor.loop = .timers now)
    (first : timer ∈ earliest reactor.timers) (due : timer.deadline ≤ now)
    (next : loop = .returned ∨ loop = .timers now) :
    Kept { reactor with
      timers := reactor.timers.erase timer
      history := .fired timer now :: reactor.history
      loop := loop } := by
  rcases mem_earliest.mp first with ⟨inside, least⟩
  have stands := kept.stands
  rw [here] at stands
  exact
    { kept with
      once := by
        intro continues
        have once := kept.once fun returned => by
          rw [here] at returned
          cases returned
        rw [running, here] at once
        rcases next with rfl | rfl
        · exact absurd rfl continues
        · exact once
      removed := fun token member =>
        kept.removed token (mem_of_mem_cons member Happened.noConfusion)
      punctual := by
        intro other time member
        rcases mem_cons.mp member with same | older
        · cases same
          exact due
        · exact kept.punctual other time older
      past := by
        intro other time member
        rcases mem_cons.mp member with same | older
        · cases same
          exact stands.2
        · exact kept.past other time older
      inOrder := by
        intro forward
        rcases kept.inOrder forward with ⟨ordered, behind⟩
        refine ⟨⟨fun other time member => behind other time member timer inside, ordered⟩, ?_⟩
        intro fired time member other left
        have waiting := mem_of_mem_erase left
        rcases mem_cons.mp member with same | older
        · cases same
          exact least other waiting
        · exact behind fired time older other waiting
      stands := by
        rcases next with rfl | rfl
        · trivial
        · exact stands }

/-- No operation is under way. -/
def settled : Loop → Bool
  | .operations (_ :: _) | .returned => false
  | _ => true

/-- The loop goes on to where nothing runs. -/
theorem Kept.goes {origin target : Loop} (here : reactor.loop = origin)
    (isSettled : settled origin = true) (quiet : running { reactor with loop := target } = [])
    (stands : reactor.Stands target) : Kept { reactor with loop := target } :=
  { kept with
    once := by
      intro _
      have continues : reactor.loop ≠ .returned := by
        rintro returned
        rw [← here, returned] at isSettled
        cases isSettled
      have idle : reactor.running = [] := by
        unfold running
        split
        · rename_i rest operations
          rw [← here, operations] at isSettled
          cases rest with
          | nil => rfl
          | cons op rest => cases isSettled
        · rfl
      have once := kept.once continues
      rw [idle] at once
      rw [quiet]
      exact once
    stands := by
      change Stands _ target
      exact stands.mono rfl rfl (Nat.le_refl _) id }

omit kept in
theorem min?_le (inside : timer ∈ timers) :
    ∃ least, (timers.map TimerRegistration.deadline).min? = some least ∧ least ≤ timer.deadline ∧
      least ∈ timers.map TimerRegistration.deadline := by
  cases found : (timers.map TimerRegistration.deadline).min? with
  | none =>
    rw [min?_eq_none_iff, map_eq_nil_iff] at found
    rw [found] at inside
    cases inside
  | some least =>
    rcases min?_eq_some_iff.mp found with ⟨member, bound⟩
    exact ⟨least, rfl, bound _ (mem_map_of_mem inside), member⟩

/-- The loop blocks without a timeout only when the timer descriptor covers every timer. -/
theorem Kept.arm (here : reactor.loop = .arm) (arms : Bool) :
    Kept (if reactor.precise && arms then { reactor.armTimerFd with loop := .wait none }
      else { reactor with loop := .wait reactor.epollTimeout }) := by
  have stands := kept.stands
  rw [here] at stands
  split
  · have armed : reactor.armTimerFd.Kept := by
      refine { kept with stands := ?_ }
      change Stands _ reactor.loop
      rw [here]
      exact stands
    apply armed.goes here rfl rfl
    refine ⟨stands.1, fun _ timer inside => ?_⟩
    rcases min?_le inside with ⟨least, found, early, member⟩
    rcases mem_map.mp member with ⟨front, isFront, rfl⟩
    refine ⟨armedFor front.deadline, ?_, ?_⟩
    · exact congrArg (Option.map armedFor) found
    · rw [armedFor, if_neg (Int.ne_of_gt (stands.2 front isFront))]
      exact early
  · apply kept.goes here rfl rfl
    refine ⟨stands.1, fun blocked timer inside => ?_⟩
    rcases min?_le inside with ⟨least, found, _⟩
    rw [epollTimeout, found] at blocked
    cases blocked

/-! ## Runs -/

omit kept in
theorem dispatch_loop (reactor : Reactor) (event : Ready) :
    (reactor.dispatchReadyEvent event).loop = reactor.loop := by
  unfold dispatchReadyEvent
  cases event with
  | wake => rfl
  | timer | fd token =>
    dsimp only
    split <;> rfl

theorem Kept.dispatch {ready : List Ready} (here : reactor.loop = .dispatch ready) (event : Ready) :
    (reactor.dispatchReadyEvent event).Kept := by
  have anywhere : ∀ other : Reactor, other.loop = reactor.loop → other.Stands other.loop := by
    intro other same
    rw [same, here]
    trivial
  have loop := anywhere _ (dispatch_loop reactor event)
  unfold dispatchReadyEvent at loop ⊢
  cases event with
  | wake => exact { kept with stands := loop }
  | timer =>
    dsimp only at loop ⊢
    split
    · rename_i passed
      rw [if_pos passed] at loop
      exact { kept with stands := loop }
    · exact kept
  | fd token =>
    dsimp only at loop ⊢
    split
    · rename_i registered
      have inside : token ∈ reactor.fds.map FdRegistration.token := by
        rcases any_eq_true.mp registered with ⟨registration, member, same⟩
        exact mem_map.mpr ⟨registration, member, beq_iff_eq.mp same⟩
      exact kept.record (fun _ _ => Happened.noConfusion)
        ⟨fun removed => (kept.removed token removed).1 inside, kept.silent⟩ id
        fun _ => Happened.noConfusion
    · exact kept

theorem Kept.work (answer : Answer) : (reactor.work answer).Kept := by
  unfold Reactor.work
  have stands := kept.stands
  split
  · rename_i here
    have once := kept.once fun returned => by
      rw [here] at returned
      cases returned
    rw [running, here, append_nil] at once
    exact
      { kept with
        once := fun _ => by
          rw [once]
          exact (append_nil _).symm
        stands := fun some => absurd rfl some }
  · rename_i op rest here
    apply kept.execute here
    split
    · exact .inl rfl
    · exact .inr rfl
  · rename_i here
    rw [here] at stands
    split
    · exact kept.goes here rfl rfl trivial
    · exact kept.goes here rfl rfl ⟨stands, Nat.le_refl _⟩
  · rename_i now here
    rw [here] at stands
    split
    · rename_i waiting
      split
      · exact kept.goes here rfl rfl trivial
      refine kept.goes here rfl rfl ⟨stands.1, fun timer inside => ?_⟩
      have later := all_eq_true.mp waiting timer inside
      rw [decide_eq_true_eq] at later
      omega
    · rename_i expired
      split
      · exact kept
      rename_i timer found
      have first := mem_of_getElem? found
      apply kept.fire here first
      · rw [all_eq_true] at expired
        push Not at expired
        rcases expired with ⟨other, inside, due⟩
        have least := (mem_earliest.mp first).2 other inside
        have passed := of_decide_eq_false (Bool.eq_false_iff.mpr due)
        omega
      · split
        · exact .inl rfl
        · exact .inr rfl
  · rename_i here
    exact kept.arm here answer.arms
  · rename_i timeout here
    split <;> exact kept.goes here rfl rfl trivial
  · rename_i event rest here
    have dispatched := kept.dispatch here event
    have same := (dispatch_loop reactor event).trans here
    split <;> exact dispatched.goes same rfl rfl trivial
  · rename_i here
    exact kept.goes here rfl rfl trivial
  · exact kept

theorem Kept.step (step : Step) : (reactor.step step).Kept := by
  cases step with
  | takeToken => exact kept.takeToken
  | enqueue op => exact kept.enqueue op
  | stop => exact kept.stop
  | wake => exact kept.wake
  | work answer => exact kept.work answer
  | tick elapsed => exact kept.tick elapsed

omit kept

theorem kept_run (clock : Nat) (precise : Bool) (steps : List Step) :
    (run clock precise steps).Kept := by
  have folded : ∀ start : Reactor, start.Kept → (steps.foldl Reactor.step start).Kept := by
    induction steps with
    | nil => exact fun _ => id
    | cons step rest ih => exact fun start kept => ih (start.step step) (kept.step step)
  exact folded _ (kept_start clock precise)

/-- What the reactor promises. -/
structure Orderly (reactor : Reactor) : Prop where
  once : reactor.loop ≠ .returned →
    reactor.enqueued = reactor.executed ++ reactor.running ++ reactor.pendingOps
  silent : Silent reactor.history
  punctual : Punctual reactor.history
  inOrder : Forward reactor.enqueued → InOrder reactor.history
  heard : reactor.loop = .wait none → reactor.Heard
  covers : reactor.loop = .wait none → reactor.Covers

/-- In every interleaving: operations are executed once and in the order they were enqueued in, no
callback runs behind a removal that went through, no timer fires early, timers that are not set for
the past fire in order, and the loop never sleeps through an operation or a timer. -/
theorem run_orderly (clock : Nat) (precise : Bool) (steps : List Step) :
    (run clock precise steps).Orderly := by
  have kept := kept_run clock precise steps
  refine ⟨kept.once, kept.silent, kept.punctual, fun forward => (kept.inOrder forward).1, ?_, ?_⟩
  · intro blocked
    have stands := kept.stands
    rw [blocked] at stands
    exact stands.1
  intro blocked
  have stands := kept.stands
  rw [blocked] at stands
  exact stands.2 rfl

/-- The loop up to where it is blocked, with nothing to do. -/
def idleTurn : List Step := [.work {}, .work {}, .work {}, .work {}]

/-- A removal that the set refuses, and an event for the descriptor behind it. -/
def refusedRemoval : List Step :=
  [.takeToken, .enqueue (.addFd 1 7), .enqueue (.removeFd 1), .work {}, .work {},
    .work { control := .refused }, .work {}, .work {}, .work {},
    .work { wait := .ready [.fd 1] }, .work {}]

/-- A timer that is set for the past when a later one has fired. -/
def timerForThePast : List Step :=
  [.takeToken, .enqueue (.addTimer 1 0), .work {}, .work {}, .work {}, .work {},
    .takeToken, .enqueue (.addTimer 2 (-1)), .work {}, .work {},
    .work { wait := .interrupted }, .work {}, .work {}, .work {}, .work {}]

/-- Between the two halves of a call the loop is blocked with an operation, a callback runs behind
the removal that failed, and a timer set for the past fires behind a later one. -/
theorem blocked_between_enqueue_and_wake :
    ((run 5 true (idleTurn ++ [.enqueue (.task 0)])).loop = .wait none ∧
      (run 5 true (idleTurn ++ [.enqueue (.task 0)])).pendingOps = [.task 0] ∧
      (run 5 true (idleTurn ++ [.enqueue (.task 0)])).wakeFd = 0) ∧
    (.removeFd 1 ∈ (run 5 true refusedRemoval).executed ∧
      (run 5 true refusedRemoval).history = [.called 1]) ∧
    (run 5 true timerForThePast).history = [.fired ⟨2, 4⟩ 5, .fired ⟨1, 5⟩ 5] := by
  decide

end Reactor

end Grab.Scheduling

import Mathlib.Data.List.Nodup
import Grab.Scheduling.TimerThread

/-!
# Every deadline once and no wake-up lost

What callers see of the timer thread in every interleaving of its steps with theirs, and that
the worker never sleeps past a deadline whose `arm` has returned.
-/

namespace Grab.Scheduling

open List

/-! ## What callers may rely on -/

def Issued (history : List Seen) (token : Token) : Prop :=
  ∃ deadline, .armed token deadline ∈ history

def Drained (history : List Seen) (token : Token) : Prop :=
  ∃ tokens time, .drained tokens time ∈ history ∧ token ∈ tokens

/-- A token that `arm` had returned was cancelled. -/
def Cancelled : List Seen → Token → Prop
  | [], _ => False
  | .cancelled other :: older, token => other = token ∧ Issued older token ∨ Cancelled older token
  | .armed _ _ :: older, token => Cancelled older token
  | .drained _ _ :: older, token => Cancelled older token

/-- A history in which tokens are new, and `drain` returns each token at most once, not before
its deadline and not after it was cancelled. -/
def Faithful : List Seen → Prop
  | [] => True
  | .armed token _ :: older => ¬Issued older token ∧ Faithful older
  | .cancelled _ :: older => Faithful older
  | .drained tokens time :: older =>
    tokens.Nodup ∧
      (∀ token ∈ tokens, (∃ deadline : Int, .armed token deadline ∈ older ∧ deadline ≤ time) ∧
        ¬Drained older token ∧ ¬Cancelled older token) ∧
      Faithful older

variable {history : List Seen} {token : Token}

theorem Issued.cons (issued : Issued history token) (seen : Seen) :
    Issued (seen :: history) token := by
  rcases issued with ⟨deadline, member⟩
  exact ⟨deadline, mem_cons_of_mem _ member⟩

theorem issued_of_drained (faithful : Faithful history) (drained : Drained history token) :
    Issued history token := by
  induction history with
  | nil =>
    rcases drained with ⟨_, _, member, _⟩
    cases member
  | cons seen older later =>
    rcases drained with ⟨tokens, time, member, inTokens⟩
    have issuedBefore : ∀ {rest}, Faithful older →
        Seen.drained tokens time ∈ older → Issued (rest :: older) token := fun kept here =>
      (later kept ⟨tokens, time, here, inTokens⟩).cons _
    cases seen with
    | armed other deadline =>
      rcases mem_cons.mp member with same | here
      · cases same
      · exact issuedBefore faithful.2 here
    | cancelled other =>
      rcases mem_cons.mp member with same | here
      · cases same
      · exact issuedBefore faithful here
    | drained others when =>
      rcases mem_cons.mp member with same | here
      · cases same
        rcases faithful.2.1 token inTokens with ⟨⟨deadline, armed, _⟩, _⟩
        exact ⟨deadline, mem_cons_of_mem _ armed⟩
      · exact issuedBefore faithful.2.2 here

theorem issued_of_cancelled (cancelled : Cancelled history token) : Issued history token := by
  induction history with
  | nil => exact cancelled.elim
  | cons seen older later =>
    cases seen with
    | armed other deadline | drained tokens time => exact (later cancelled).cons _
    | cancelled other =>
      rcases cancelled with ⟨_, issued⟩ | before
      · exact issued.cons _
      · exact (later before).cons _

theorem drained_cons (seen : Seen) (other : ∀ tokens time, seen ≠ .drained tokens time) :
    Drained (seen :: history) token ↔ Drained history token := by
  constructor
  · rintro ⟨tokens, time, member, inTokens⟩
    rcases mem_cons.mp member with same | here
    · exact absurd same.symm (other tokens time)
    · exact ⟨tokens, time, here, inTokens⟩
  · rintro ⟨tokens, time, member, inTokens⟩
    exact ⟨tokens, time, mem_cons_of_mem _ member, inTokens⟩

namespace Timers

/-! ## The invariant -/

/-- The worker wakes by a time for every deadline, or because it has been told to look again, or
is about to be told. -/
def Covered (timers : Timers) (time : Option Int) : Prop :=
  ∀ entry ∈ timers.armed, (∃ bound, time = some bound ∧ bound ≤ entry.deadline) ∨
    0 < timers.controlFd ∨ .arm entry.token ∈ timers.signals

/-- What the worker relies on between two looks at the deadlines. -/
def Waits (timers : Timers) : Worker → Prop
  | .armTimer next => timers.Covered next ∧ ∀ bound, next = some bound → 1 ≤ bound
  | .poll => timers.Covered (timers.timerFd.map fun time : Nat => (time : Int))
  | _ => True

structure Kept (timers : Timers) : Prop where
  faithful : Faithful timers.history
  issued : ∀ token, Issued timers.history token → token < timers.nextToken
  armed : ∀ entry ∈ timers.armed, .armed entry.token entry.deadline ∈ timers.history ∧
    entry.token ∉ timers.due ∧ ¬Drained timers.history entry.token ∧
    ¬Cancelled timers.history entry.token
  armedOnce : (timers.armed.map Entry.token).Nodup
  due : ∀ token ∈ timers.due,
    (∃ deadline : Int, .armed token deadline ∈ timers.history ∧ deadline ≤ timers.clock) ∧
    ¬Drained timers.history token ∧ ¬Cancelled timers.history token
  dueOnce : timers.due.Nodup
  wake : timers.due ≠ [] → 0 < timers.wakeFd
  waits : timers.Waits timers.worker

theorem kept_start (clock : Nat) : Kept { clock := clock } where
  faithful := trivial
  issued token issued := by
    rcases issued with ⟨_, member⟩
    cases member
  armed _ member := absurd member not_mem_nil
  armedOnce := nodup_nil
  due _ member := absurd member not_mem_nil
  dueOnce := nodup_nil
  wake some := absurd rfl some
  waits := trivial

/-- What the worker relies on survives what leaves its deadlines covered. -/
theorem Waits.mono {before after : Timers} {worker : Worker} (waits : before.Waits worker)
    (timerFd : after.timerFd = before.timerFd)
    (covered : ∀ time, before.Covered time → after.Covered time) : after.Waits worker := by
  cases worker with
  | armTimer next => exact ⟨covered next waits.1, waits.2⟩
  | poll =>
    change after.Covered _
    rw [timerFd]
    exact covered _ waits
  | collect | drainTimer control | drainControl | ended => trivial

variable {timers : Timers} (kept : timers.Kept)

include kept

theorem Kept.not_issued_next : ¬Issued timers.history timers.nextToken :=
  fun issued => Nat.lt_irrefl _ (kept.issued _ issued)

/-- A token not handed out yet has no past. -/
theorem Kept.next_fresh :
    ¬Drained timers.history timers.nextToken ∧ ¬Cancelled timers.history timers.nextToken ∧
      timers.nextToken ∉ timers.due ∧
      timers.nextToken ∉ timers.armed.map Entry.token := by
  have notIssued := kept.not_issued_next
  refine ⟨?_, ?_, ?_, ?_⟩
  · exact fun drained => notIssued (issued_of_drained kept.faithful drained)
  · exact fun cancelled => notIssued (issued_of_cancelled cancelled)
  · intro due
    rcases (kept.due _ due).1 with ⟨deadline, armed, _⟩
    exact notIssued ⟨deadline, armed⟩
  intro member
  rcases mem_map.mp member with ⟨entry, armed, same⟩
  apply notIssued
  rw [← same]
  exact ⟨entry.deadline, (kept.armed entry armed).1⟩

/-! ## Calls -/

/-- `arm` hands out the next token. -/
theorem Kept.issue (deadline : Int) :
    Kept { timers with
      nextToken := timers.nextToken + 1
      history := .armed timers.nextToken deadline :: timers.history } := by
  have sameDrained : ∀ token, Drained (.armed timers.nextToken deadline :: timers.history) token ↔
      Drained timers.history token := fun _ => drained_cons _ fun _ _ => Seen.noConfusion
  constructor
  case faithful => exact ⟨kept.not_issued_next, kept.faithful⟩
  case issued =>
    rintro token ⟨other, member⟩
    change token < timers.nextToken + 1
    rcases mem_cons.mp member with same | before
    · cases same
      exact Nat.lt_succ_self _
    · exact Nat.lt_succ_of_lt (kept.issued token ⟨other, before⟩)
  case armed =>
    intro entry member
    rcases kept.armed entry member with ⟨known, notDue, notDrained, notCancelled⟩
    exact ⟨mem_cons_of_mem _ known, notDue, mt (sameDrained _).mp notDrained, notCancelled⟩
  case armedOnce => exact kept.armedOnce
  case due =>
    intro token member
    rcases kept.due token member with ⟨⟨passed, known, early⟩, notDrained, notCancelled⟩
    exact ⟨⟨passed, mem_cons_of_mem _ known, early⟩, mt (sameDrained _).mp notDrained, notCancelled⟩
  case dueOnce => exact kept.dueOnce
  case wake => exact kept.wake
  case waits => exact kept.waits.mono rfl fun _ covered => covered

theorem Kept.arm (deadline : Int) : (timers.arm deadline).Kept := by
  have issued := kept.issue deadline
  rcases kept.next_fresh with ⟨notDrained, notCancelled, notDue, notArmed⟩
  unfold Timers.arm
  split
  · exact issued
  refine { issued with armed := ?armed, armedOnce := ?armedOnce, waits := ?waits }
  case armed =>
    intro entry member
    rcases mem_append.mp member with old | new
    · exact issued.armed entry old
    rw [mem_singleton.mp new]
    refine ⟨mem_cons_self, notDue, ?_, notCancelled⟩
    rw [drained_cons _ fun _ _ => Seen.noConfusion]
    exact notDrained
  case armedOnce =>
    rw [map_append, nodup_append]
    refine ⟨kept.armedOnce, pairwise_singleton _ _, ?_⟩
    rintro token old _ new rfl
    rw [mem_singleton.mp new] at old
    exact notArmed old
  case waits =>
    refine kept.waits.mono rfl ?_
    intro time covered entry member
    rcases mem_append.mp member with old | new
    · rcases covered entry old with bound | readable | pending
      · exact .inl bound
      · exact .inr (.inl readable)
      · exact .inr (.inr (mem_cons_of_mem _ pending))
    · rw [mem_singleton.mp new]
      exact .inr (.inr mem_cons_self)

theorem Kept.cancel (token : Token) : (timers.cancel token).Kept := by
  have sameDrained : ∀ other, Drained (.cancelled token :: timers.history) other ↔
      Drained timers.history other := fun _ => drained_cons _ fun _ _ => Seen.noConfusion
  have stillLive : ∀ other, other ≠ token → ¬Cancelled timers.history other →
      ¬Cancelled (.cancelled token :: timers.history) other := by
    rintro other different live (⟨same, _⟩ | before)
    · exact different same.symm
    · exact live before
  constructor
  case faithful => exact kept.faithful
  case issued =>
    rintro other ⟨deadline, member⟩
    rcases mem_cons.mp member with same | before
    · cases same
    · exact kept.issued other ⟨deadline, before⟩
  case armed =>
    intro entry member
    rcases mem_filter.mp member with ⟨old, different⟩
    rw [bne_iff_ne] at different
    rcases kept.armed entry old with ⟨known, notDue, notDrained, notCancelled⟩
    refine ⟨mem_cons_of_mem _ known, ?_, mt (sameDrained _).mp notDrained,
      stillLive _ different notCancelled⟩
    exact fun due => notDue (mem_filter.mp due).1
  case armedOnce => exact kept.armedOnce.sublist (filter_sublist.map _)
  case due =>
    intro other member
    rcases mem_filter.mp member with ⟨old, different⟩
    rw [bne_iff_ne] at different
    rcases kept.due other old with ⟨⟨deadline, known, passed⟩, notDrained, notCancelled⟩
    exact ⟨⟨deadline, mem_cons_of_mem _ known, passed⟩, mt (sameDrained _).mp notDrained,
      stillLive _ different notCancelled⟩
  case dueOnce => exact kept.dueOnce.filter _
  case wake =>
    intro some
    apply kept.wake
    intro none
    apply some
    change timers.due.filter _ = []
    rw [none]
    rfl
  case waits =>
    refine kept.waits.mono rfl ?_
    intro time covered entry member
    rcases covered entry (mem_filter.mp member).1 with bound | readable | pending
    · exact .inl bound
    · exact .inr (.inl readable)
    · exact .inr (.inr (mem_cons_of_mem _ pending))

theorem Kept.stop : timers.stop.Kept := by
  refine { kept with waits := ?waits }
  case waits =>
    refine kept.waits.mono rfl ?_
    intro time covered entry member
    rcases covered entry member with bound | readable | pending
    · exact .inl bound
    · exact .inr (.inl readable)
    · exact .inr (.inr (mem_cons_of_mem _ pending))

/-- A call that signals leaves the control descriptor readable. -/
theorem Kept.signal (signal : Signal) : (timers.signal signal).Kept := by
  unfold Timers.signal
  split
  · refine { kept with waits := ?waits }
    case waits =>
      refine kept.waits.mono rfl ?_
      intro time covered entry member
      exact .inr (.inl (Nat.succ_pos _))
  · exact kept

theorem Kept.drain : timers.drain.1.Kept := by
  constructor
  case faithful =>
    exact ⟨kept.dueOnce, kept.due, kept.faithful⟩
  case issued =>
    rintro token ⟨deadline, member⟩
    rcases mem_cons.mp member with same | before
    · cases same
    · exact kept.issued token ⟨deadline, before⟩
  case armed =>
    intro entry member
    rcases kept.armed entry member with ⟨known, notDue, notDrained, notCancelled⟩
    refine ⟨mem_cons_of_mem _ known, not_mem_nil, ?_, notCancelled⟩
    rintro ⟨tokens, time, member, inTokens⟩
    rcases mem_cons.mp member with same | before
    · cases same
      exact notDue inTokens
    · exact notDrained ⟨tokens, time, before, inTokens⟩
  case armedOnce => exact kept.armedOnce
  case due => exact forall_mem_nil _
  case dueOnce => exact nodup_nil
  case wake => exact fun some => absurd rfl some
  case waits => exact kept.waits.mono rfl fun _ covered => covered

theorem Kept.tick (elapsed : Nat) : Kept { timers with clock := timers.clock + elapsed } := by
  refine { kept with due := ?due, waits := ?waits }
  case due =>
    intro token member
    rcases kept.due token member with ⟨⟨deadline, known, passed⟩, rest⟩
    refine ⟨⟨deadline, known, Int.le_trans passed ?_⟩, rest⟩
    exact Int.ofNat_le.mpr (Nat.le_add_right _ _)
  case waits => exact kept.waits.mono rfl fun _ covered => covered

/-! ## The worker -/

/-- Looking at the deadlines moves the expired ones and leaves a time no later than any other. -/
theorem Kept.collect :
    Kept { timers.collectDueLocked.1 with worker := .armTimer timers.collectDueLocked.2 } := by
  unfold collectDueLocked
  dsimp only
  have inWaiting : ∀ {entry}, entry ∈ timers.armed.filter (fun entry =>
      (timers.clock : Int) < entry.deadline) →
      entry ∈ timers.armed ∧ (timers.clock : Int) < entry.deadline := by
    intro entry member
    simpa using mem_filter.mp member
  have inExpired : ∀ {token}, token ∈ (timers.armed.filter (fun entry =>
      entry.deadline ≤ (timers.clock : Int))).map Entry.token →
      ∃ entry ∈ timers.armed, entry.token = token ∧ entry.deadline ≤ (timers.clock : Int) := by
    intro token member
    rcases mem_map.mp member with ⟨entry, filtered, same⟩
    rcases mem_filter.mp filtered with ⟨armed, early⟩
    exact ⟨entry, armed, same, by simpa using early⟩
  -- An entry is found by its token.
  have unique : ∀ {first second : Entry}, first ∈ timers.armed → second ∈ timers.armed →
      first.token = second.token → first = second := by
    intro first second inFirst inSecond same
    exact inj_on_of_nodup_map kept.armedOnce inFirst inSecond same
  constructor
  case faithful => exact kept.faithful
  case issued => exact kept.issued
  case armed =>
    intro entry member
    rcases inWaiting member with ⟨old, later⟩
    rcases kept.armed entry old with ⟨known, notDue, rest⟩
    refine ⟨known, ?_, rest⟩
    intro due
    rcases mem_append.mp due with before | new
    · exact notDue before
    · rcases inExpired new with ⟨other, inArmed, same, early⟩
      cases unique inArmed old same
      omega
  case armedOnce => exact kept.armedOnce.sublist (filter_sublist.map _)
  case due =>
    intro token member
    rcases mem_append.mp member with before | new
    · exact kept.due token before
    · rcases inExpired new with ⟨entry, inArmed, rfl, early⟩
      rcases kept.armed entry inArmed with ⟨known, _, rest⟩
      exact ⟨⟨entry.deadline, known, early⟩, rest⟩
  case dueOnce =>
    rw [nodup_append]
    refine ⟨kept.dueOnce, kept.armedOnce.sublist (filter_sublist.map _), ?_⟩
    rintro token before _ new rfl
    rcases inExpired new with ⟨entry, inArmed, rfl, _⟩
    exact (kept.armed entry inArmed).2.1 before
  case wake =>
    intro some
    split
    · rename_i none
      rw [none, map_nil, append_nil] at some
      exact kept.wake some
    · exact Nat.succ_pos _
  case waits =>
    constructor
    · intro entry member
      have listed : entry.deadline ∈ (timers.armed.filter (fun entry =>
          (timers.clock : Int) < entry.deadline)).map Entry.deadline := mem_map_of_mem member
      cases earliest : ((timers.armed.filter (fun entry =>
          (timers.clock : Int) < entry.deadline)).map Entry.deadline).min? with
      | none =>
        rw [min?_eq_none_iff] at earliest
        rw [earliest] at listed
        cases listed
      | some bound =>
        exact .inl ⟨bound, rfl, (min?_eq_some_iff.mp earliest).2 _ listed⟩
    · intro bound earliest
      rcases mem_map.mp (min?_eq_some_iff.mp earliest).1 with ⟨entry, member, rfl⟩
      have later := (inWaiting member).2
      omega

omit kept in
/-- Setting the timer: a deadline that is still ahead is not moved. -/
theorem Covered.armTimer {next : Option Int} (covered : timers.Covered next)
    (ahead : ∀ bound, next = some bound → 1 ≤ bound) :
    Covered { timers.armTimer next with worker := .poll }
      ((timers.armTimer next).timerFd.map fun time : Nat => (time : Int)) := by
  intro entry member
  rcases covered entry member with ⟨bound, rfl, early⟩ | rest
  · refine .inl ⟨(absoluteSpec bound : Int), rfl, ?_⟩
    have positive := ahead bound rfl
    unfold absoluteSpec
    omega
  · exact .inr rest

/-- A worker that goes on to look at the deadlines, or ends, relies on nothing. -/
theorem Kept.goOn {after : Timers} (same : { timers with
      controlFd := after.controlFd, timerFd := after.timerFd, worker := after.worker } = after)
    (waits : after.Waits after.worker) : after.Kept := by
  rw [← same] at waits ⊢
  exact ⟨kept.faithful, kept.issued, kept.armed, kept.armedOnce, kept.due, kept.dueOnce,
    kept.wake, waits⟩

theorem Kept.work (reply : PollReply) : (timers.work reply).Kept := by
  have waits := kept.waits
  unfold Timers.work
  cases here : timers.worker with
  | collect =>
    dsimp only
    split
    · exact kept.goOn rfl trivial
    · exact kept.collect
  | armTimer next =>
    rw [here] at waits
    exact kept.goOn rfl (waits.1.armTimer waits.2)
  | poll =>
    rw [here] at waits
    cases reply with
    | interrupted | failed => exact kept.goOn rfl trivial
    | ready =>
      dsimp only
      split
      · exact kept.goOn rfl trivial
      · split
        · exact kept.goOn rfl trivial
        · exact kept
  | drainTimer control =>
    dsimp only
    cases control with
    | true | false => exact kept.goOn rfl trivial
  | drainControl =>
    dsimp only
    split <;> exact kept.goOn rfl trivial
  | ended => exact kept

/-! ## Every run -/

theorem Kept.step (step : Step) : (timers.step step).Kept := by
  cases step with
  | arm deadline => exact kept.arm deadline
  | cancel token => exact kept.cancel token
  | stop => exact kept.stop
  | signal signal => exact kept.signal signal
  | drain => exact kept.drain
  | work reply => exact kept.work reply
  | tick elapsed => exact kept.tick elapsed

omit kept in
theorem kept_run (clock : Nat) (steps : List Step) : (run clock steps).Kept := by
  unfold run
  have start := kept_start clock
  generalize ({ clock := clock } : Timers) = timers at start ⊢
  induction steps generalizing timers with
  | nil => exact start
  | cons step rest later => exact later _ (start.step step)

/-- The armed deadlines whose `arm` is past its signal. -/
def signalled (timers : Timers) : List Entry :=
  timers.armed.filter fun entry => .arm entry.token ∉ timers.signals

/-- The worker in `poll` does not sleep past a deadline. -/
theorem Kept.polling (polling : timers.worker = .poll) (nonEmpty : timers.signalled ≠ []) :
    (∃ time : Nat, timers.timerFd = some time ∧
      ∀ entry ∈ timers.signalled, (time : Int) ≤ entry.deadline) ∨ 0 < timers.controlFd := by
  have waits := kept.waits
  rw [polling] at waits
  by_cases readable : 0 < timers.controlFd
  · exact .inr readable
  have bounded : ∀ entry ∈ timers.signalled, ∃ time : Nat, timers.timerFd = some time ∧
      (time : Int) ≤ entry.deadline := by
    intro entry member
    rcases mem_filter.mp member with ⟨armed, signalled⟩
    rcases waits entry armed with ⟨bound, set, early⟩ | isReadable | pending
    · rcases Option.map_eq_some_iff.mp set with ⟨time, timer, rfl⟩
      exact ⟨time, timer, early⟩
    · exact absurd isReadable readable
    · exact absurd pending (of_decide_eq_true signalled)
  rcases exists_mem_of_ne_nil _ nonEmpty with ⟨first, inSignalled⟩
  rcases bounded first inSignalled with ⟨time, timer, _⟩
  refine .inl ⟨time, timer, ?_⟩
  intro entry member
  rcases bounded entry member with ⟨other, otherTimer, early⟩
  rw [timer] at otherTimer
  cases otherTimer
  exact early

omit kept

/-- In every interleaving, each token is returned by `drain` at most once, not before its
deadline and not after it was cancelled; the wake descriptor is readable while tokens are due;
and while the worker is in `poll` with a deadline armed, the timer is set to a time no later
than the earliest one or the control descriptor is readable. -/
theorem timers_exact (clock : Nat) (steps : List Step) :
    Faithful (run clock steps).history ∧
      ((run clock steps).due ≠ [] → 0 < (run clock steps).wakeFd) ∧
      ((run clock steps).worker = .poll → (run clock steps).signalled ≠ [] →
        (∃ time : Nat, (run clock steps).timerFd = some time ∧
          ∀ entry ∈ (run clock steps).signalled, (time : Int) ≤ entry.deadline) ∨
        0 < (run clock steps).controlFd) := by
  have kept := kept_run clock steps
  exact ⟨kept.faithful, kept.wake, kept.polling⟩

example : (run 0 [.arm 5, .signal (.arm 1), .work .ready, .work .ready, .work .ready,
    .work .ready, .work .ready, .work .ready, .work .ready, .tick 6, .work .ready, .work .ready,
    .work .ready, .drain]).history = [.drained [1] 6, .armed 1 5] := by
  decide +kernel

end Timers

end Grab.Scheduling

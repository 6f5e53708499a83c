import Grab.Sequence.Player.Run
import Grab.Sequence.Seat.Book

/-!
# Who answers for a hold

The invariant of a seat runner under any legal conversation.  A hold whose press
has no release behind it is in the book or belongs to an open step that will be
exited on the unwind path; a hold in the book has a step that the unwind will
ask; a hold that a step of the document lifted has neither.
-/

namespace Grab.Kernel

open Grab.Sequence SeatRunner List Function Option

/-! ## No unwind on a retired hold -/

/-- No unwind ever releases a hold that a step of the document has lifted. -/
def Sober (log : List Record) : Prop :=
  ∀ hold before record after, log = before ++ record :: after →
    retiredIn hold before = true → ¬record.Unwinds hold

variable {log records : List Record}

theorem Sober.append (sober : Sober log)
    (fresh : ∀ front record back, records = front ++ record :: back →
      ∀ hold, retiredIn hold (log ++ front) = true → ¬record.Unwinds hold) :
    Sober (log ++ records) := by
  intro hold before record after split retired
  rcases append_eq_append_iff.mp split with ⟨front, rfl, recordsEq⟩ | ⟨back, logEq, rest⟩
  · exact fresh front record after recordsEq hold retired
  cases back with
  | nil =>
    rw [append_nil] at logEq
    refine fresh [] record after rest.symm hold ?_
    rw [append_nil, logEq]
    exact retired
  | cons first back =>
    obtain ⟨rfl, _⟩ := cons.inj rest
    exact sober hold before record back logEq retired

/-- Records that unwind nothing. -/
theorem Sober.append_of_not_unwinds (sober : Sober log)
    (quiet : ∀ record ∈ records, ∀ hold, ¬record.Unwinds hold) : Sober (log ++ records) := by
  apply sober.append
  intro front record back recordsEq hold _
  exact quiet record (by simp [recordsEq]) hold

/-- Calls that unwind only holds which are not retired when they start. -/
theorem Sober.append_of_calls (sober : Sober log) (calls : ∀ record ∈ records, record.origin ≠ none)
    (unwinds : ∀ record ∈ records, ∀ hold, record.Unwinds hold → retiredIn hold log = false) :
    Sober (log ++ records) := by
  apply sober.append
  intro front record back recordsEq hold retired isUnwind
  have earlier : ∀ other ∈ front, other.origin ≠ none :=
    fun other member => calls other (by simp [recordsEq, member])
  have active := unwinds record (by simp [recordsEq]) hold isUnwind
  cases active.symm.trans (retiredIn_calls earlier retired).1

/-! ## The invariant -/

section

variable {σ : Type} (sequence : Sequence) (seat : Seat σ)

/-- The scratch of a step between its entry and its exit. -/
structure OpenEntry (command : Command) (entry : Entry) : Prop where
  used : entry.used = true
  entered : entry.state.entered = true
  exited : entry.exited = false
  lone : ∀ hold, holdOf command = some hold →
    Lone hold entry.state ∧ entry.state.interrupted = false

/-- The flags of a scratch mean what they say. -/
structure Scratch (command : Command) (entry : Entry) : Prop where
  grabbed : entry.state.overlayGrabHeld = true → holdOf command = some .capture
  capable : ∀ hold, entryHolds command entry.state hold →
    capabilityAvailable seat (kindOf command) = true

/-- A step the unwind will ask about a hold of the book. -/
structure Owner (trace : List Event) (runner : SeatState σ) (hold : Hold) (id : StepId)
    (step : Step) : Prop where
  found : sequence.find id = some step
  isHold : holdOf step.command = some hold
  used : (runner.entries id.index).used = true
  entered : (runner.entries id.index).state.entered = true
  flag : (runner.entries id.index).state.flag hold = true
  seen : id ∈ firstEntered trace

/-- An open step that will lift a hold when it is exited. -/
structure Keeper (protocol : Protocol) (runner : SeatState σ) (hold : Hold) (id : StepId)
    (step : Step) : Prop where
  found : sequence.find id = some step
  isOpen : protocol.isOpen id = true
  unwinding : (runner.entries id.index).lastStatus ≠ .success ∨ isTimed step.command = true
  holds : entryHolds step.command (runner.entries id.index).state hold

structure Accounted (trace : List Event) (protocol : Protocol) (runner : SeatState σ) :
    Prop where
  opened : ∀ id, protocol.isOpen id = true →
    ∃ step, sequence.find id = some step ∧ OpenEntry step.command (runner.entries id.index)
  due : ∀ id, protocol.due = some id → protocol.isOpen id = true
  waiting : ∀ id step, protocol.isOpen id = true → protocol.due ≠ some id →
    sequence.find id = some step → isTimed step.command = true
  scratch : ∀ id step, sequence.find id = some step →
    Scratch seat step.command (runner.entries id.index)
  owned : ∀ hold, Outstanding hold runner → ∃ id step, Owner sequence trace runner hold id step
  covered : Clean runner.wire.log → ∀ hold, pendingIn hold runner.wire.log = true →
    Outstanding hold runner ∨ ∃ id step, Keeper sequence protocol runner hold id step
  retired : ∀ hold, retiredIn hold runner.wire.log = true → ¬Outstanding hold runner ∧
    ∀ id step, protocol.due = some id → sequence.find id = some step →
      holdOf step.command = some hold →
      (runner.entries id.index).state.flag hold = true →
      (runner.entries id.index).lastStatus = .success
  sober : Sober runner.wire.log

end

section

variable {σ : Type} {sequence : Sequence} {seat : Seat σ} {trace : List Event}
  {protocol : Protocol} {before after : SeatState σ} {id : StepId} {step : Step} {next : Protocol}
  {status : Status} {event : Event} {hold : Hold} {start : σ}

theorem accounted_fresh (state : σ) :
    Accounted sequence seat [] Protocol.initial (SeatState.fresh state) where
  opened id impossible := by cases impossible
  due id impossible := by cases impossible
  waiting id step impossible := by cases impossible
  scratch id step found := by
    refine ⟨?_, fun hold holds => ?_⟩
    · nofun
    · exact absurd holds (CommandState.Idle.not_holds ⟨rfl, rfl, rfl⟩ _ hold)
  owned hold impossible := by
    cases hold with
    | capture => cases impossible
    | _ => cases impossible
  covered _ hold impossible := by cases impossible
  retired hold impossible := by cases impossible
  sober := by
    intro hold front record back split
    simp [SeatState.fresh] at split

/-- What a call on one step leaves alone. -/
theorem entries_elsewhere (built : sequence.Built) (found : sequence.find id = some step)
    (elsewhere : ∀ index, index ≠ step.id.index → after.entries index = before.entries index) :
    step.id = id ∧ ∀ {other otherStep}, sequence.find other = some otherStep →
      other ≠ step.id → after.entries other.index = before.entries other.index := by
  obtain rfl : step.id = id := (Sequence.Built.mem_of_find found).2
  refine ⟨rfl, fun {other _} otherFound different => elsewhere _ fun same => ?_⟩
  exact different (built.live_eq (Sequence.Built.live_of_find otherFound)
    (Sequence.Built.live_of_find found) same)

/-- What holds of every entry still does when it holds of the one that changes. -/
theorem entries_single (built : sequence.Built) (found : sequence.find step.id = some step)
    (elsewhere : ∀ index, index ≠ step.id.index → after.entries index = before.entries index)
    {holds : Command → Entry → Prop} (here : holds step.command (after.entries step.id.index))
    (earlier : ∀ id other, sequence.find id = some other →
      holds other.command (before.entries id.index)) :
    ∀ id other, sequence.find id = some other → holds other.command (after.entries id.index) := by
  intro id other otherFound
  by_cases same : id = step.id
  · rw [same] at otherFound ⊢
    rw [← some.inj (found.symm.trans otherFound)]
    exact here
  · rw [(entries_elsewhere built found elsewhere).2 otherFound same]
    exact earlier id other otherFound

theorem dueAfter_eq {other : StepId} (isDue : Protocol.dueAfter id status = some other) :
    other = id := by
  rw [Protocol.dueAfter] at isDue
  split at isDue
  · cases isDue
  · exact (some.inj isDue).symm

/-- An owner whose scratch is left alone. -/
theorem Owner.transport {more : List Event} (owner : Owner sequence trace before hold id step)
    (same : after.entries id.index = before.entries id.index) (seen : id ∈ firstEntered more) :
    Owner sequence more after hold id step where
  found := owner.found
  isHold := owner.isHold
  used := by rw [same, owner.used]
  entered := by rw [same, owner.entered]
  flag := by rw [same, owner.flag]
  seen := seen

/-- A keeper whose scratch is left alone. -/
theorem Keeper.transport (keeper : Keeper sequence protocol before hold id step)
    (same : after.entries id.index = before.entries id.index) (isOpen : next.isOpen id = true) :
    Keeper sequence next after hold id step where
  found := keeper.found
  isOpen := isOpen
  unwinding := by
    rw [same]
    exact keeper.unwinding
  holds := by
    rw [same]
    exact keeper.holds

/-- Only a drag holds what it does not leave down on purpose. -/
theorem timed_of_entryHolds {command : Command} {state : CommandState}
    (holds : entryHolds command state hold) (notKept : holdOf command ≠ some hold) :
    isTimed command = true := by
  cases command with
  | drag _ _ _ _ => rfl
  | _ => exact absurd holds.1 notKept

/-! ## Entering a step -/

theorem accounted_enter (built : sequence.Built)
    (accounted : Accounted sequence seat trace protocol before)
    (found : sequence.find id = some step) (idle : protocol.due = none)
    (isClosed : protocol.isOpen id = false) (spec : Entered seat step before after status)
    (now : TimePoint) (statuses : Nat → StepStatus) :
    Accounted sequence seat (trace ++ [.enter id now status statuses])
      ⟨Function.update protocol.isOpen id true, Protocol.dueAfter id status⟩ after := by
  obtain ⟨rfl, elsewhere⟩ := entries_elsewhere built found spec.elsewhere
  have openOld : ∀ {other}, other ≠ step.id →
      Function.update protocol.isOpen step.id true other = protocol.isOpen other :=
    fun different => update_of_ne different _ _
  have seen : ∀ other ∈ firstEntered trace,
      other ∈ firstEntered (trace ++ [.enter step.id now status statuses]) := by
    intro other member
    rw [firstEntered_append]
    dsimp only
    split
    · exact member
    · exact mem_append_left _ member
  have seenSelf : step.id ∈ firstEntered (trace ++ [.enter step.id now status statuses]) := by
    rw [firstEntered_append]
    dsimp only
    split
    · rename_i member
      exact member
    · exact mem_append_right _ (mem_singleton_self _)
  obtain ⟨records, logEq, quiet⟩ := spec.log
  constructor
  case opened =>
    intro other isOpen
    by_cases same : other = step.id
    · subst same
      exact ⟨step, found, spec.used, spec.entered, spec.exited, spec.lone⟩
    dsimp only at isOpen
    rw [openOld same] at isOpen
    obtain ⟨otherStep, otherFound, entry⟩ := accounted.opened other isOpen
    rw [elsewhere otherFound same]
    exact ⟨otherStep, otherFound, entry⟩
  case due =>
    intro other isDue
    rw [dueAfter_eq isDue]
    exact update_self _ _ _
  case waiting =>
    intro other otherStep isOpen notDue otherFound
    by_cases same : other = step.id
    · subst same
      rw [found, some.injEq] at otherFound
      subst otherFound
      apply spec.waiting
      by_contra answered
      exact notDue (if_neg answered)
    · dsimp only at isOpen
      rw [openOld same] at isOpen
      exact accounted.waiting other otherStep isOpen (by simp [idle]) otherFound
  case scratch =>
    exact entries_single built found spec.elsewhere ⟨spec.grabbed, spec.capable⟩ accounted.scratch
  case owned =>
    intro hold outstanding
    rcases spec.gains hold outstanding with ⟨isHold, flag⟩ | ⟨older, _⟩
    · exact ⟨step.id, step, found, isHold, spec.used, spec.entered, flag, seenSelf⟩
    obtain ⟨other, otherStep, owner⟩ := accounted.owned hold older
    by_cases same : other = step.id
    · -- the owner is entered again: the seat has not lost the capability it had
      subst same
      obtain rfl : step = otherStep := some.inj (found.symm.trans owner.found)
      have capable := (accounted.scratch _ _ found).capable hold
        ((entryHolds_iff owner.isHold).mpr ⟨rfl, owner.flag⟩)
      exact ⟨step.id, step, found, owner.isHold, spec.used, spec.entered,
        spec.raised hold owner.isHold capable, seenSelf⟩
    · exact ⟨other, otherStep, owner.transport (elsewhere owner.found same) (seen other owner.seen)⟩
  case covered =>
    intro clean hold isPending
    have cleanBefore : Clean before.wire.log := by
      rw [logEq] at clean
      exact clean.append_left
    rcases spec.pending clean hold isPending with older | holds
    · rcases accounted.covered cleanBefore hold older with outstanding | ⟨other, otherStep, keeper⟩
      · rcases spec.keeps hold outstanding with still | lifted
        · exact .inl still
        · cases lifted.symm.trans isPending
      · have same : other ≠ step.id := by
          rintro rfl
          cases isClosed.symm.trans keeper.isOpen
        exact .inr ⟨other, otherStep, keeper.transport (elsewhere keeper.found same)
          ((openOld same).trans keeper.isOpen)⟩
    · by_cases succeeded : status = .success ∧ holdOf step.command = some hold
      · exact .inl (spec.remembers succeeded.1 hold succeeded.2)
      · refine .inr ⟨step.id, step, found, update_self _ _ _, ?_, holds⟩
        rw [spec.lastStatus]
        by_cases isSuccess : status = .success
        · right
          exact timed_of_entryHolds holds fun isHold => succeeded ⟨isSuccess, isHold⟩
        · exact .inl isSuccess
  case retired =>
    intro hold retired
    rcases spec.retired hold retired with ⟨succeeded, lifts⟩ | ⟨older, untaken⟩
    · have noHold : holdOf step.command ≠ some hold := by
        cases commandIs : step.command <;> rw [commandIs] at lifts <;> simp [holdOf] <;> cases lifts
      refine ⟨fun outstanding => ?_, fun other otherStep isDue otherFound isHold _ => ?_⟩
      · rcases spec.gains hold outstanding with ⟨isHold, _⟩ | ⟨_, notLifted⟩
        · exact noHold isHold
        · exact notLifted ⟨succeeded, lifts⟩
      · rw [dueAfter_eq isDue, found, some.injEq] at otherFound
        exact absurd (otherFound ▸ isHold) noHold
    · obtain ⟨notOutstanding, _⟩ := accounted.retired hold older
      refine ⟨fun outstanding => ?_, fun other otherStep isDue otherFound isHold flag => ?_⟩
      · rcases spec.gains hold outstanding with taken | ⟨stillOld, _⟩
        · exact untaken taken
        · exact notOutstanding stillOld
      have same := dueAfter_eq isDue
      subst same
      rw [found, some.injEq] at otherFound
      subst otherFound
      exact absurd ⟨isHold, flag⟩ untaken
  case sober =>
    rw [logEq]
    exact accounted.sober.append_of_not_unwinds quiet

/-! ## Calls that take nothing -/

/-- The entry of an open step. -/
theorem Accounted.entry (accounted : Accounted sequence seat trace protocol before)
    (found : sequence.find id = some step) (isOpen : protocol.isOpen id = true) :
    OpenEntry step.command (before.entries id.index) := by
  rcases accounted.opened id isOpen with ⟨other, otherFound, entry⟩
  obtain rfl : step = other := some.inj (found.symm.trans otherFound)
  exact entry

variable (built : sequence.Built)

include built

/-- A call on one step that takes no hold: it says what becomes of that step as an open one, as an
owner and as a keeper, and every other step is left alone. -/
theorem Accounted.lessens (accounted : Accounted sequence seat trace protocol before)
    (found : sequence.find step.id = some step)
    (elsewhere : ∀ index, index ≠ step.id.index → after.entries index = before.entries index)
    (quiet : event.isEntry = false)
    (others : ∀ other, other ≠ step.id → next.isOpen other = protocol.isOpen other)
    (here : next.isOpen step.id = true →
      OpenEntry step.command (after.entries step.id.index) ∧ isTimed step.command = true)
    (turn : ∀ other, protocol.due = some other → other = step.id)
    (due : ∀ other, next.due = some other → other = step.id ∧ next.isOpen step.id = true)
    (grabs : (after.entries step.id.index).state.overlayGrabHeld = true →
      (before.entries step.id.index).state.overlayGrabHeld = true)
    (only : ∀ hold, entryHolds step.command (after.entries step.id.index).state hold →
      entryHolds step.command (before.entries step.id.index).state hold)
    (shrinks : ∀ hold, Outstanding hold after → Outstanding hold before)
    (owner : ∀ hold, Outstanding hold after → Owner sequence trace before hold step.id step →
      Owner sequence trace after hold step.id step) {records : List Record}
    (log : after.wire.log = before.wire.log ++ records)
    (pending : Clean after.wire.log → ∀ hold, pendingIn hold after.wire.log = true →
      pendingIn hold before.wire.log = true ∧ (Outstanding hold before → Outstanding hold after) ∧
        (Keeper sequence protocol before hold step.id step →
          Keeper sequence next after hold step.id step))
    (retired : ∀ hold, retiredIn hold after.wire.log = true → retiredIn hold before.wire.log = true)
    (sober : Sober after.wire.log) : Accounted sequence seat (trace ++ [event]) next after := by
  obtain ⟨_, same⟩ := entries_elsewhere built found elsewhere
  constructor
  case opened =>
    intro other isOpen
    by_cases self : other = step.id
    · subst self
      exact ⟨step, found, (here isOpen).1⟩
    obtain ⟨otherStep, otherFound, entry⟩ := accounted.opened other (others other self ▸ isOpen)
    rw [same otherFound self]
    exact ⟨otherStep, otherFound, entry⟩
  case due =>
    intro other isDue
    obtain ⟨rfl, isOpen⟩ := due other isDue
    exact isOpen
  case waiting =>
    intro other otherStep isOpen _ otherFound
    by_cases self : other = step.id
    · subst self
      rw [← some.inj (found.symm.trans otherFound)]
      exact (here isOpen).2
    · exact accounted.waiting other otherStep (others other self ▸ isOpen)
        (fun isDue => self (turn other isDue)) otherFound
  case scratch =>
    have older := accounted.scratch step.id step found
    exact entries_single built found elsewhere ⟨fun held => older.grabbed (grabs held),
      fun hold holds => older.capable hold (only hold holds)⟩ accounted.scratch
  case owned =>
    intro hold outstanding
    obtain ⟨other, otherStep, owned⟩ := accounted.owned hold (shrinks hold outstanding)
    have seen : firstEntered (trace ++ [event]) = firstEntered trace := firstEntered_quiet quiet
    by_cases self : other = step.id
    · subst self
      obtain rfl : step = otherStep := some.inj (found.symm.trans owned.found)
      exact ⟨step.id, step, (owner hold outstanding owned).transport rfl (seen ▸ owned.seen)⟩
    · exact ⟨other, otherStep, owned.transport (same owned.found self) (seen ▸ owned.seen)⟩
  case covered =>
    intro isClean hold isPending
    obtain ⟨older, keeps, keeper⟩ := pending isClean hold isPending
    rw [log] at isClean
    rcases accounted.covered isClean.append_left hold older with
      outstanding | ⟨other, otherStep, kept⟩
    · exact .inl (keeps outstanding)
    by_cases self : other = step.id
    · subst self
      obtain rfl : step = otherStep := some.inj (found.symm.trans kept.found)
      exact .inr ⟨step.id, step, keeper kept⟩
    · exact .inr ⟨other, otherStep, kept.transport (same kept.found self)
        ((others other self).trans kept.isOpen)⟩
  case retired =>
    intro hold isRetired
    refine ⟨fun outstanding => (accounted.retired hold (retired hold isRetired)).1
      (shrinks hold outstanding), fun other otherStep isDue otherFound isHold _ => ?_⟩
    obtain ⟨rfl, isOpen⟩ := due other isDue
    rw [← some.inj (found.symm.trans otherFound), (timed_facts (here isOpen).2).1] at isHold
    cases isHold
  case sober => exact sober

/-! ## Ticking a step -/

theorem accounted_tick (accounted : Accounted sequence seat trace protocol before)
    (found : sequence.find id = some step) (idle : protocol.due = none)
    (isOpen : protocol.isOpen id = true) (spec : Ticked step before after status) (now : TimePoint)
    :
    Accounted sequence seat (trace ++ [.tick id now status])
      ⟨protocol.isOpen, Protocol.dueAfter id status⟩ after := by
  obtain ⟨rfl, _⟩ := entries_elsewhere built found spec.elsewhere
  have timed : isTimed step.command = true :=
    accounted.waiting step.id step isOpen (by simp [idle]) found
  have noHold : holdOf step.command = none := (timed_facts timed).1
  have entry : OpenEntry step.command (after.entries step.id.index) := by
    refine ⟨spec.used, spec.entered, spec.exited.trans (accounted.entry found isOpen).exited, ?_⟩
    simp [noHold]
  obtain ⟨records, logEq, quiet⟩ := spec.log
  refine accounted.lessens built found spec.elsewhere rfl (fun _ _ => rfl) (fun _ => ⟨entry, timed⟩)
    (by simp [idle]) (fun other isDue => ⟨dueAfter_eq isDue, isOpen⟩)
    (fun held => spec.overlayGrabHeld.symm.trans held) spec.only
    (fun hold => (spec.book hold).mp) ?_ logEq ?_ spec.retired ?_
  case refine_1 =>
    intro hold _ owner
    cases noHold.symm.trans owner.isHold
  case refine_2 =>
    intro clean hold isPending
    obtain ⟨older, keeps⟩ := spec.pending clean hold isPending
    exact ⟨older, (spec.book hold).mpr, fun keeper =>
      ⟨found, isOpen, .inr timed, keeps keeper.holds⟩⟩
  case refine_3 =>
    rw [logEq]
    exact accounted.sober.append_of_not_unwinds quiet

/-! ## Exiting a step -/

theorem accounted_exit (accounted : Accounted sequence seat trace protocol before)
    (found : sequence.find id = some step) (turn : protocol.due = none ∨ protocol.due = some id)
    (isOpen : protocol.isOpen id = true) (spec : Exited step before after) (now : TimePoint)
    (outcome : NeutralizationOutcome) :
    Accounted sequence seat (trace ++ [.exit id now outcome])
      ⟨Function.update protocol.isOpen id false, none⟩ after := by
  obtain ⟨rfl, _⟩ := entries_elsewhere built found spec.elsewhere
  obtain ⟨records, logEq, calls⟩ := spec.log
  refine accounted.lessens built found spec.elsewhere rfl
    (fun other different => update_of_ne different _ _) (by simp) ?_ (by simp) spec.grabs spec.only
    spec.shrinks ?_ logEq ?_ spec.retired ?_
  case refine_1 =>
    intro other isDue
    rcases turn with none | self
    · cases none.symm.trans isDue
    · exact some.inj (isDue.symm.trans self)
  case refine_2 =>
    exact fun hold outstanding owner => ⟨found, owner.isHold, spec.used, spec.entered,
      spec.owned hold outstanding owner.isHold owner.flag, owner.seen⟩
  case refine_3 =>
    intro clean hold isPending
    obtain ⟨older, keeps, lifted⟩ := spec.pending clean hold isPending
    exact ⟨older, keeps, fun keeper => absurd keeper.unwinding (lifted keeper.holds)⟩
  case refine_4 =>
    rw [logEq]
    refine accounted.sober.append_of_calls (fun record member => (calls record member).1) ?_
    intro record member hold isUnwind
    obtain ⟨flag, failed, isHold⟩ := (calls record member).2 hold isUnwind
    by_contra retired
    rw [Bool.not_eq_false] at retired
    -- a step that keeps a hold is never still running, so it is due
    have isDue : protocol.due = some step.id := by
      by_contra notDue
      have timed := accounted.waiting step.id step isOpen notDue found
      rw [(timed_facts timed).1] at isHold
      cases isHold
    exact failed ((accounted.retired hold retired).2 step.id step isDue found isHold flag)

/-! ## Lifting what a closed step left down -/

theorem accounted_releaseHolds (accounted : Accounted sequence seat trace protocol before)
    (found : sequence.find id = some step) (idle : protocol.due = none)
    (isClosed : protocol.isOpen id = false) (spec : Relieved step before after)
    (outcome : NeutralizationOutcome) :
    Accounted sequence seat (trace ++ [.releaseHolds id outcome]) protocol after := by
  obtain ⟨rfl, _⟩ := entries_elsewhere built found spec.elsewhere
  obtain ⟨records, logEq, calls⟩ := spec.log
  refine accounted.lessens built found spec.elsewhere rfl (fun _ _ => rfl) (by simp [isClosed])
    (by simp [idle]) (by simp [idle]) spec.grabs spec.only spec.shrinks ?_ logEq ?_ spec.retired ?_
  case refine_1 =>
    exact fun hold outstanding owner => absurd outstanding
      (spec.gone hold owner.isHold owner.used owner.entered owner.flag)
  case refine_2 =>
    intro clean hold isPending
    obtain ⟨older, keeps⟩ := spec.pending clean hold isPending
    exact ⟨older, keeps, fun keeper => absurd keeper.isOpen (by simp [isClosed])⟩
  case refine_3 =>
    rw [logEq]
    refine accounted.sober.append_of_calls (fun record member => (calls record member).1) ?_
    intro record member hold isUnwind
    by_contra retired
    rw [Bool.not_eq_false] at retired
    exact (accounted.retired hold retired).1 ((calls record member).2 hold isUnwind)

/-! ## Any conversation -/

omit built

/-- A legal request to the runner, its answer, and what they leave. -/
inductive Exchange (sequence : Sequence) (seat : Seat σ) (protocol : Protocol)
    (before : SeatState σ) : Event → Protocol → SeatState σ → Prop
  | enter {step : Step} {now : TimePoint} {statuses : Nat → StepStatus}
      (found : sequence.find step.id = some step) (idle : protocol.due = none)
      (isClosed : protocol.isOpen step.id = false) :
      Exchange sequence seat protocol before
        (.enter step.id now (enter seat step now before).1 statuses)
        ⟨Function.update protocol.isOpen step.id true,
          Protocol.dueAfter step.id (enter seat step now before).1⟩
        (enter seat step now before).2
  | tick {step : Step} {now : TimePoint} (found : sequence.find step.id = some step)
      (idle : protocol.due = none) (isOpen : protocol.isOpen step.id = true) :
      Exchange sequence seat protocol before (.tick step.id now (tick seat step now before).1)
        ⟨protocol.isOpen, Protocol.dueAfter step.id (tick seat step now before).1⟩
        (tick seat step now before).2
  | join {id : StepId} : Exchange sequence seat protocol before (.join id) protocol before
  | exit {step : Step} {now : TimePoint} (found : sequence.find step.id = some step)
      (isOpen : protocol.isOpen step.id = true)
      (turn : protocol.due = none ∨ protocol.due = some step.id) :
      Exchange sequence seat protocol before (.exit step.id now (exit seat step now before).1)
        ⟨Function.update protocol.isOpen step.id false, none⟩ (exit seat step now before).2
  | releaseHolds {step : Step} (found : sequence.find step.id = some step)
      (idle : protocol.due = none) (isClosed : protocol.isOpen step.id = false) :
      Exchange sequence seat protocol before
        (.releaseHolds step.id (releaseHolds seat step before).1) protocol
        (releaseHolds seat step before).2
  | jump {target : StepId} {refused : Option JumpError} :
      Exchange sequence seat protocol before (.jump target refused) protocol before

theorem Answers.exchange (answers : Answers sequence (seatRunner seat) before event after)
    (legal : protocol.next event = some next) :
    Exchange sequence seat protocol before event next after := by
  cases event with
    simp only [Protocol.next, ite_none_right_eq_some, some.injEq] at legal
  | enter id now status statuses =>
    rcases legal with ⟨⟨idle, isClosed⟩, rfl⟩
    rcases answers with ⟨step, found, answered⟩
    obtain rfl : step.id = id := (Sequence.Built.mem_of_find found).2
    rcases Prod.mk.inj answered with ⟨rfl, rfl⟩
    exact .enter found idle isClosed
  | tick id now status =>
    rcases legal with ⟨⟨idle, isOpen⟩, rfl⟩
    rcases answers with ⟨step, found, answered⟩
    obtain rfl : step.id = id := (Sequence.Built.mem_of_find found).2
    rcases Prod.mk.inj answered with ⟨rfl, rfl⟩
    exact .tick found idle isOpen
  | join id =>
    rcases legal with ⟨_, rfl⟩
    rcases answers with ⟨_, _, rfl⟩
    exact .join
  | exit id now outcome =>
    rcases legal with ⟨⟨isOpen, turn⟩, rfl⟩
    rcases answers with ⟨step, found, answered⟩
    obtain rfl : step.id = id := (Sequence.Built.mem_of_find found).2
    rcases Prod.mk.inj answered with ⟨rfl, rfl⟩
    exact .exit found isOpen turn
  | releaseHolds id outcome =>
    rcases legal with ⟨⟨idle, isClosed⟩, rfl⟩
    rcases answers with ⟨step, found, answered⟩
    obtain rfl : step.id = id := (Sequence.Built.mem_of_find found).2
    rcases Prod.mk.inj answered with ⟨rfl, rfl⟩
    exact .releaseHolds found idle isClosed
  | jump target refused =>
    rcases legal with ⟨_, rfl⟩
    rw [show after = before from answers]
    exact .jump

section

variable (accounted : Accounted sequence seat trace protocol before)

include accounted

variable (found : sequence.find id = some step)

include found

/-- A step that is open while nothing is due runs on. -/
theorem Accounted.timed (idle : protocol.due = none) (isOpen : protocol.isOpen id = true) :
    isTimed step.command = true :=
  accounted.waiting id step isOpen (by simp [idle]) found

/-- What the specifications of exit and of the unwind ask of the scratch. -/
theorem Accounted.exited (isOpen : protocol.isOpen id = true) (now : TimePoint) :
    Exited step before (exit seat step now before).2 := by
  obtain rfl : step.id = id := (Sequence.Built.mem_of_find found).2
  have entry := accounted.entry found isOpen
  exact exit_exited seat now entry.used entry.entered entry.exited entry.lone
    (accounted.scratch step.id step found).capable

theorem Accounted.relieved : Relieved step before (releaseHolds seat step before).2 := by
  obtain rfl : step.id = id := (Sequence.Built.mem_of_find found).2
  have scratch := accounted.scratch step.id step found
  exact releaseHolds_relieved seat scratch.grabbed scratch.capable

omit found

/-- An event that leaves runner and protocol alone. -/
theorem Accounted.quiet {event : Event} (quiet : event.isEntry = false) :
    Accounted sequence seat (trace ++ [event]) protocol before := by
  refine ⟨accounted.opened, accounted.due, accounted.waiting, accounted.scratch, ?_,
    accounted.covered, accounted.retired, accounted.sober⟩
  intro hold outstanding
  obtain ⟨other, otherStep, owner⟩ := accounted.owned hold outstanding
  refine ⟨other, otherStep, owner.transport rfl ?_⟩
  rw [firstEntered_quiet quiet]
  exact owner.seen

end

include built

theorem accounted_step (accounted : Accounted sequence seat trace protocol before)
    (legal : protocol.next event = some next)
    (answers : Answers sequence (seatRunner seat) before event after) :
    Accounted sequence seat (trace ++ [event]) next after := by
  cases answers.exchange legal with
  | @enter step now statuses found idle isClosed =>
    exact accounted_enter built accounted found idle isClosed (enter_entered seat step now before)
      now statuses
  | @tick step now found idle isOpen =>
    have entry := accounted.entry found isOpen
    have spec := tick_ticked seat (accounted.timed found idle isOpen) now entry.used entry.entered
    exact accounted_tick built accounted found idle isOpen spec now
  | join | jump => exact accounted.quiet rfl
  | @exit step now found isOpen turn =>
    exact accounted_exit built accounted found turn isOpen (accounted.exited found isOpen now) now _
  | releaseHolds found idle isClosed =>
    exact accounted_releaseHolds built accounted found idle isClosed (accounted.relieved found) _

theorem Conversation.accounted
    (conversation : Conversation sequence (seatRunner seat) (SeatState.fresh start) trace
      protocol before) : Accounted sequence seat trace protocol before := by
  induction conversation with
  | start => exact accounted_fresh start
  | step _ legal answers ih => exact accounted_step built ih legal answers

/-! ## A complete teardown empties the book -/

/-- While a run is torn down, what is still in the book belongs to a step that
has not been asked yet. -/
theorem Conversation.unasked_owner {teardown : List Event} {entrance : Protocol}
    (reached : Protocol.after trace = some entrance) (idle : entrance.due = none)
    (onlyTeardown : ∀ event ∈ teardown, event.isTeardown = true)
    (conversation : Conversation sequence (seatRunner seat) (SeatState.fresh start)
      (trace ++ teardown) protocol before) :
    protocol.due = none ∧ ∀ hold, Outstanding hold before →
      ∃ id step, Owner sequence trace before hold id step ∧
        ∀ event ∈ teardown, event.isReleaseOf id = false := by
  induction teardown using List.reverseRecOn generalizing protocol before with
  | nil =>
    rw [append_nil] at conversation
    have same : protocol = entrance := some.inj (conversation.after.symm.trans reached)
    refine ⟨same ▸ idle, fun hold outstanding => ?_⟩
    obtain ⟨id, step, owner⟩ := (conversation.accounted built).owned hold outstanding
    exact ⟨id, step, owner, by simp⟩
  | append_singleton earlier event ih =>
    rw [← append_assoc] at conversation
    obtain ⟨middle, runner, front, legal, answers⟩ := conversation.last
    have accounted := front.accounted built
    obtain ⟨noneDue, owners⟩ := ih
      (fun event member => onlyTeardown event (mem_append_left _ member)) front
    have isTeardown := onlyTeardown event (mem_append_right _ (mem_singleton_self _))
    -- an owner that the last event does not ask stays one
    have carry : ∀ {hold id step}, Owner sequence trace runner hold id step →
        (∀ event ∈ earlier, event.isReleaseOf id = false) →
        before.entries id.index = runner.entries id.index → event.isReleaseOf id = false →
        ∃ id step, Owner sequence trace before hold id step ∧
          ∀ request ∈ earlier ++ [event], request.isReleaseOf id = false := by
      intro hold id step owner unasked same notAsked
      refine ⟨id, step, owner.transport same owner.seen, ?_⟩
      rw [forall_mem_append]
      exact ⟨unasked, by simpa using notAsked⟩
    cases answers.exchange legal with
    | enter | tick => cases isTeardown
    | join | jump =>
      refine ⟨noneDue, fun hold outstanding => ?_⟩
      obtain ⟨id, step, owner, unasked⟩ := owners hold outstanding
      exact carry owner unasked rfl rfl
    | @exit otherStep now otherFound isOpen =>
      have spec := accounted.exited otherFound isOpen now
      -- nothing is due, so the exited step runs on and owns nothing
      have timed := accounted.timed otherFound noneDue isOpen
      refine ⟨rfl, fun hold outstanding => ?_⟩
      obtain ⟨id, step, owner, unasked⟩ := owners hold (spec.shrinks hold outstanding)
      have different : id ≠ otherStep.id := by
        rintro rfl
        obtain rfl := some.inj (otherFound.symm.trans owner.found)
        cases (timed_facts timed).1.symm.trans owner.isHold
      exact carry owner unasked
        ((entries_elsewhere built otherFound spec.elsewhere).2 owner.found different)
        (beq_eq_false_iff_ne.mpr (Ne.symm different))
    | @releaseHolds otherStep otherFound =>
      have spec := accounted.relieved otherFound
      refine ⟨noneDue, fun hold outstanding => ?_⟩
      obtain ⟨id, step, owner, unasked⟩ := owners hold (spec.shrinks hold outstanding)
      have different : id ≠ otherStep.id := by
        rintro rfl
        obtain rfl := some.inj (otherFound.symm.trans owner.found)
        exact spec.gone hold owner.isHold owner.used owner.entered owner.flag outstanding
      exact carry owner unasked
        ((entries_elsewhere built otherFound spec.elsewhere).2 owner.found different)
        (beq_eq_false_iff_ne.mpr (Ne.symm different))

/-- After a complete teardown nothing is in the book. -/
theorem not_outstanding_of_reaped (reaped : Reaped trace)
    (conversation : Conversation sequence (seatRunner seat) (SeatState.fresh start) trace
      protocol before) (hold : Hold) : ¬Outstanding hold before := by
  obtain ⟨front, teardown, rfl, ⟨entrance, reached, idle⟩, onlyTeardown, released⟩ := reaped
  intro outstanding
  obtain ⟨id, step, owner, unasked⟩ :=
    (conversation.unasked_owner built reached idle onlyTeardown).2 hold outstanding
  obtain ⟨event, member, asked⟩ := released id owner.seen
  cases (unasked event member).symm.trans asked

end

end Grab.Kernel

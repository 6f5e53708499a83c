import Mathlib.Tactic.SplitIfs
import Grab.Session.Registry

/-!
# Who is live

`is_live` asks by taking the lock itself, `reap_dead` unlinks after it has let go of that lock,
and `flock` locks the file that was opened, whatever the name has become.  As long as no process
runs into one of these three gaps of another one, the liveness lock is exclusive and the answers
about it are right.
-/

namespace Grab.Session

open Function Option

/-! ## The conditions -/

/-- Between the lock of `reap_dead`'s probe and its last `unlink`, or between the two of
`remove`. -/
def Point.Removing : Point → Prop
  | .probeUnlock .reapDead _ => True
  | .removeRecord true => True
  | .removeLock _ => True
  | _ => False

/-- The replies that say somebody is live. -/
def Reply.Taken : Reply → Prop
  | .isLive true => True
  | .reapDead .live => True
  | .acquire (.error .sessionExists) => True
  | _ => False

namespace System

/-- Nobody has the lock that `acquire_liveness_lock` returns. -/
def Unheld (system : System) : Prop := ∀ process, (system.processes process).held = none

/-- No probe has the lock of a file. -/
def Unprobed (system : System) (file : Inode) : Prop :=
  ∀ process asker, (system.processes process).point ≠ .probeUnlock asker file

/-- The system call a process makes next meets no gap of another process. -/
def Careful (system : System) : Action → Prop
  | .next process outcome =>
    match (system.processes process).point with
    | .acquireLock file =>
      system.lock = some file ∧ system.Unprobed file ∧
        ∀ other, ¬(system.processes other).point.Removing
    | .probeLock .isLive file => system.Unprobed file
    | .probeLock .reapDead file =>
      system.lock = some file ∧ system.Unprobed file ∧ (outcome = .failed → system.Unheld)
    | .probeOpen .reapDead => outcome = .failed → system.Unheld
    | .removeRecord false => system.Unheld
    | _ => True
  | _ => True

/-- Every step of a run is careful. -/
def RunsCarefully : System → List Action → Prop
  | _, [] => True
  | system, action :: rest => system.Careful action ∧ RunsCarefully (system.step action) rest

/-- At most one process holds the liveness lock. -/
def Exclusive (system : System) : Prop :=
  ∀ first second, (system.processes first).held.isSome →
    (system.processes second).held.isSome → first = second

/-- What a step promises about the lock: `reap_dead` unlinks nothing of a live session,
`is_live` says yes only of a live one, also inside `reap_dead`, and a process is turned away
only by another one that is live. -/
structure Harmless (system : System) (process : ProcessId) (outcome : Outcome) : Prop where
  reaps : (system.processes process).point = .removeRecord true ∨
    (system.processes process).point = .removeLock true → system.Unheld
  probes : (system.next process outcome).2 = some (.isLive true) ∨
    (system.next process outcome).2 = some (.reapDead .live) →
      ∃ holder, (system.processes holder).held.isSome
  acquires : (system.next process outcome).2 = some (.acquire (.error .sessionExists)) →
    ∃ holder, holder ≠ process ∧ (system.processes holder).held.isSome

end System

/-! ## The invariant -/

/-- The lock of a file is in the hands of a process. -/
def Process.Locks (process : Process) (file : Inode) : Prop :=
  process.held = some file ∨ ∃ asker, process.point = .probeUnlock asker file

/-- Points at which a process neither has a lock in its hands nor waits for one nor removes. -/
def Point.plain : Point → Bool
  | .acquireOpen | .acquireLock _ | .probeUnlock _ _ | .removeRecord true | .removeLock _ => false
  | _ => true

structure System.Kept (system : System) : Prop where
  owned : ∀ file process, system.owner file = some process ↔ (system.processes process).Locks file
  apart : ∀ process asker file, (system.processes process).point = .probeUnlock asker file →
    (system.processes process).held ≠ some file
  /-- A process waits for the lock only while it does not hold it. -/
  waiting : ∀ process file, (system.processes process).point = .acquireOpen ∨
    (system.processes process).point = .acquireLock file → (system.processes process).held = none
  named : ∀ process file, (system.processes process).held = some file → system.lock = some file
  quiet : ∀ process, (system.processes process).point.Removing → system.Unheld

namespace System

section

variable {system : System} {process other : ProcessId} {point : Point} {file : Inode}

@[simp]
theorem put_self (state : Process) : (system.put process state).processes process = state :=
  update_self ..

theorem put_other (state : Process) (different : other ≠ process) :
    (system.put process state).processes other = system.processes other :=
  update_of_ne different ..

variable (kept : system.Kept) {asker : Asker}

include kept

/-- At most one process holds the lock, since the name leads to the file of each. -/
theorem Kept.exclusive : system.Exclusive := by
  intro first second firstHolds secondHolds
  rcases isSome_iff_exists.mp firstHolds with ⟨file, heldFirst⟩
  rcases isSome_iff_exists.mp secondHolds with ⟨otherFile, heldSecond⟩
  have sameFile : some file = some otherFile :=
    (kept.named first file heldFirst).symm.trans (kept.named second otherFile heldSecond)
  cases sameFile
  have ownedFirst := (kept.owned file first).mpr (.inl heldFirst)
  have ownedSecond := (kept.owned file second).mpr (.inl heldSecond)
  rw [ownedFirst] at ownedSecond
  exact some.inj ownedSecond

/-- A file whose lock is free and that has the name is nobody's liveness lock. -/
theorem Kept.unheld_of_free (named : system.lock = some file) (free : system.owner file = none) :
    system.Unheld := by
  intro holder
  cases held : (system.processes holder).held with
  | none => rfl
  | some heldFile =>
    have sameFile := named.symm.trans (kept.named holder heldFile held)
    cases sameFile
    rw [(kept.owned file holder).mpr (.inl held)] at free
    cases free

/-- A file that is locked and not probed is held. -/
theorem Kept.held_of_locked (unprobed : system.Unprobed file)
    (locked : (system.owner file).isSome) :
    ∃ holder, (system.processes holder).held = some file := by
  rcases isSome_iff_exists.mp locked with ⟨holder, owned⟩
  rcases (kept.owned file holder).mp owned with held | ⟨asker, probing⟩
  · exact ⟨holder, held⟩
  · exact absurd probing (unprobed holder asker)

/-! ## What one system call keeps -/

/-- One process changes its state and with it the locks it has. -/
theorem Kept.change {state : Process} {owner : Inode → Option ProcessId}
    (mine : ∀ file, owner file = some process ↔ state.Locks file)
    (others : ∀ file other, other ≠ process →
      (owner file = some other ↔ system.owner file = some other))
    (apart : ∀ asker file, state.point = .probeUnlock asker file → state.held ≠ some file)
    (waiting : ∀ file, state.point = .acquireOpen ∨ state.point = .acquireLock file →
      state.held = none) (named : ∀ file, state.held = some file → system.lock = some file)
    (removing : state.point.Removing → state.held = none ∧ system.Unheld)
    (removed : ∀ other, other ≠ process → (system.processes other).point.Removing →
      state.held = none) : System.Kept { system.put process state with owner := owner } := by
  constructor
  case owned =>
    intro file other
    by_cases same : other = process
    · rw [same]
      change owner file = some process ↔ ((system.put process state).processes process).Locks file
      rw [put_self]
      exact mine file
    · change owner file = some other ↔ ((system.put process state).processes other).Locks file
      rw [put_other state same]
      exact (others file other same).trans (kept.owned file other)
  case apart =>
    intro other asker file
    change ((system.put process state).processes other).point = _ →
      ((system.put process state).processes other).held ≠ _
    by_cases same : other = process
    · rw [same, put_self]
      exact apart asker file
    · rw [put_other state same]
      exact kept.apart other asker file
  case waiting =>
    intro other file
    change ((system.put process state).processes other).point = _ ∨
      ((system.put process state).processes other).point = _ →
        ((system.put process state).processes other).held = none
    by_cases same : other = process
    · rw [same, put_self]
      exact waiting file
    · rw [put_other state same]
      exact kept.waiting other file
  case named =>
    intro other file
    change ((system.put process state).processes other).held = _ → system.lock = some file
    by_cases same : other = process
    · rw [same, put_self]
      exact named file
    · rw [put_other state same]
      exact kept.named other file
  case quiet =>
    intro remover isRemoving
    have unheld : state.held = none ∧ ∀ other, other ≠ process →
        (system.processes other).held = none := by
      change ((system.put process state).processes remover).point.Removing at isRemoving
      by_cases same : remover = process
      · rw [same, put_self] at isRemoving
        exact ⟨(removing isRemoving).1, fun other _ => (removing isRemoving).2 other⟩
      · rw [put_other state same] at isRemoving
        exact ⟨removed remover same isRemoving, fun other _ => kept.quiet remover isRemoving other⟩
    intro other
    change ((system.put process state).processes other).held = none
    by_cases same : other = process
    · rw [same, put_self]
      exact unheld.1
    · rw [put_other state same]
      exact unheld.2 other same

/-- A process goes on to another point without a lock changing hands. -/
theorem Kept.moveTo
    (unlocked : ∀ asker file, (system.processes process).point ≠ .probeUnlock asker file)
    (unlocking : ∀ asker file, point ≠ .probeUnlock asker file)
    (waiting : point = .acquireOpen ∨ (∃ file, point = .acquireLock file) →
      (system.processes process).held = none) (quiet : point.Removing → system.Unheld) :
    (system.moveTo process point).Kept := by
  apply kept.change
  case mine =>
    intro file
    refine (kept.owned file process).trans ?_
    unfold Process.Locks
    simp only [unlocked, unlocking, exists_false, or_false]
  case others => exact fun _ _ _ => Iff.rfl
  case apart => exact fun asker file probing => absurd probing (unlocking asker file)
  case waiting =>
    intro file waits
    exact waiting (waits.imp_right fun locks => ⟨file, locks⟩)
  case named => exact kept.named process
  case removing => exact fun removing => ⟨quiet removing process, quiet removing⟩
  case removed => exact fun other _ removing => kept.quiet other removing process

/-- The lock file is opened, and made where there was none. -/
theorem Kept.openLock : system.openLock.1.Kept := by
  unfold System.openLock
  cases name : system.lock with
  | some file => exact kept
  | none =>
    refine { kept with named := ?named }
    case named =>
      intro holder file held
      rw [kept.named holder file held] at name
      cases name

omit kept in
theorem openLock_processes : system.openLock.1.processes = system.processes := by
  unfold System.openLock
  split <;> rfl

theorem Kept.unlinkRecord : system.unlinkRecord.Kept :=
  ⟨kept.owned, kept.apart, kept.waiting, kept.named, kept.quiet⟩

theorem Kept.createRecord : system.createRecord.Kept :=
  ⟨kept.owned, kept.apart, kept.waiting, kept.named, kept.quiet⟩

/-- The name of the lock file goes while nobody is live. -/
theorem Kept.unlinkLock (unheld : system.Unheld) : system.unlinkLock.Kept := by
  refine { kept with named := ?named }
  case named =>
    intro holder file held
    change (system.processes holder).held = some file at held
    rw [unheld holder] at held
    cases held

omit kept in
/-- The lock of a free file changes hands. -/
theorem owner_lockFile (other : Inode) : (system.lockFile process file).owner other = some process ↔
      system.owner other = some process ∨ other = file := by
  unfold lockFile
  by_cases same : other = file
  · simp [same]
  · simp [same, update_of_ne]

omit kept in
theorem owner_lockFile_other (free : system.owner file = none) {holder : ProcessId}
    (different : holder ≠ process) (other : Inode) :
    (system.lockFile process file).owner other = some holder ↔
      system.owner other = some holder := by
  unfold lockFile
  by_cases same : other = file
  · simp [same, free, Ne.symm different]
  · simp [same, update_of_ne]

/-- `acquire_liveness_lock` gets the lock of the file that has the name. -/
theorem Kept.acquire (here : (system.processes process).point = .acquireLock file)
    (free : system.owner file = none) (named : system.lock = some file)
    (nobody : ∀ other, ¬(system.processes other).point.Removing) :
    ((system.lockFile process file).put process { point := .idle, held := some file }).Kept := by
  have unheld := kept.unheld_of_free named free
  apply kept.change
  case mine =>
    intro other
    rw [owner_lockFile, kept.owned]
    unfold Process.Locks
    rw [unheld process, here]
    simp [eq_comm]
  case others => exact fun other holder different => owner_lockFile_other free different other
  case apart => exact fun _ _ probing => by cases probing
  case waiting => rintro _ (waits | waits) <;> cases waits
  case named =>
    intro other held
    cases held
    exact named
  case removing => exact fun removing => removing.elim
  case removed => exact fun other _ removing => absurd removing (nobody other)

/-- A probe gets the lock; a probe of `reap_dead` gets it on the file that has the name. -/
theorem Kept.probe (here : (system.processes process).point = .probeLock asker file)
    (free : system.owner file = none) (named : asker = .reapDead → system.lock = some file) :
    ((system.lockFile process file).moveTo process (.probeUnlock asker file)).Kept := by
  apply kept.change
  case mine =>
    intro other
    rw [owner_lockFile, kept.owned]
    unfold Process.Locks
    rw [here]
    change _ ↔ (system.processes process).held = some other ∨ _
    simp [eq_comm]
  case others => exact fun other holder different => owner_lockFile_other free different other
  case apart =>
    intro _ _ probing held
    cases probing
    rw [(kept.owned file process).mpr (.inl held)] at free
    cases free
  case waiting => rintro _ (waits | waits) <;> cases waits
  case named => exact kept.named process
  case removing =>
    intro removing
    cases asker with
    | isLive => exact removing.elim
    | reapDead =>
      have unheld := kept.unheld_of_free (named rfl) free
      exact ⟨unheld process, unheld⟩
  case removed => exact fun other _ removing => kept.quiet other removing process

omit kept in
/-- The lock of a file is free, the others are as they were. -/
theorem owner_unlockFile (other : Inode) (holder : ProcessId) :
    (system.unlockFile file).owner other = some holder ↔
      other ≠ file ∧ system.owner other = some holder := by
  unfold unlockFile
  by_cases same : other = file
  · simp [same]
  · simp [same, update_of_ne]

/-- Whoever has the lock of a file, nobody else has. -/
theorem Kept.only_owner (locks : (system.processes process).Locks file) {otherFile : Inode}
    (different : other ≠ process) : (system.unlockFile file).owner otherFile = some other ↔
      system.owner otherFile = some other := by
  rw [owner_unlockFile, and_iff_right_iff_imp]
  rintro owned rfl
  rw [(kept.owned otherFile process).mpr locks] at owned
  exact different (some.inj owned).symm

/-- A probe lets go of the lock. -/
theorem Kept.unprobe (here : (system.processes process).point = .probeUnlock asker file)
    (unlocking : ∀ asker file, point ≠ .probeUnlock asker file)
    (acquiring : point ≠ .acquireOpen ∧ ∀ file, point ≠ .acquireLock file)
    (quiet : point.Removing → asker = .reapDead) :
    ((system.unlockFile file).moveTo process point).Kept := by
  apply kept.change
  case mine =>
    intro other
    rw [owner_unlockFile, kept.owned]
    unfold Process.Locks
    rw [here]
    change _ ↔ (system.processes process).held = some other ∨ ∃ _, point = _
    simp only [unlocking, exists_false, or_false]
    constructor
    · rintro ⟨different, held | ⟨_, same⟩⟩
      · exact held
      · cases same
        exact absurd rfl different
    intro held
    refine ⟨?_, .inl held⟩
    rintro rfl
    exact kept.apart process asker other here held
  case others =>
    exact fun _ _ different => kept.only_owner (.inr ⟨asker, here⟩) different
  case apart => exact fun _ _ probing => absurd probing (unlocking _ _)
  case waiting =>
    rintro other (waits | waits)
    · exact absurd waits acquiring.1
    · exact absurd waits (acquiring.2 other)
  case named => exact kept.named process
  case removing =>
    intro removing
    have reaping : (system.processes process).point.Removing := by
      rw [here, quiet removing]
      trivial
    exact ⟨kept.quiet process reaping process, kept.quiet process reaping⟩
  case removed => exact fun other _ removing => kept.quiet other removing process

/-- The holder lets go of the lock. -/
theorem Kept.release (process : ProcessId) : (system.release process).Kept := by
  unfold System.release
  cases held : (system.processes process).held with
  | none => exact kept
  | some file =>
    apply kept.change
    case mine =>
      intro other
      rw [owner_unlockFile, kept.owned]
      unfold Process.Locks
      rw [held]
      simp only [reduceCtorEq, false_or, some.injEq]
      constructor
      · rintro ⟨different, same | probing⟩
        · exact absurd same.symm different
        · exact probing
      rintro ⟨asker, probing⟩
      refine ⟨?_, .inr ⟨asker, probing⟩⟩
      rintro rfl
      exact kept.apart process asker other probing held
    case others => exact fun _ _ different => kept.only_owner (.inl held) different
    case apart => exact fun _ _ _ none => by cases none
    case waiting => exact fun _ _ => rfl
    case named => exact fun _ none => by cases none
    case removing =>
      intro removing
      exact ⟨rfl, kept.quiet process removing⟩
    case removed => exact fun _ _ _ => rfl

theorem Kept.exit (process : ProcessId) : (system.exit process).Kept := by
  apply kept.change
  case mine =>
    intro file
    unfold Process.Locks
    simp
  case others =>
    intro file other different
    split
    · rename_i owned
      rw [owned]
      simp [Ne.symm different]
    · exact Iff.rfl
  case apart => exact fun _ _ probing => by cases probing
  case waiting => exact fun _ _ => rfl
  case named => exact fun _ none => by cases none
  case removing => exact fun removing => removing.elim
  case removed => exact fun _ _ _ => rfl

theorem Kept.enter (process : ProcessId) (entry : Entry) : (system.enter process entry).Kept := by
  unfold System.enter
  by_cases idle : (system.processes process).point ≠ .idle
  · rw [if_pos idle]
    exact kept
  rw [if_neg idle]
  rw [not_not] at idle
  by_cases again : entry = .acquire ∧ (system.processes process).held.isSome
  · rw [if_pos again]
    exact kept
  rw [if_neg again]
  apply kept.moveTo
  case unlocked =>
    rw [idle]
    exact fun _ _ probing => by cases probing
  case unlocking => cases entry <;> exact fun _ _ probing => by cases probing
  case waiting =>
    intro waits
    cases entry with
    | acquire =>
      rw [← not_isSome_iff_eq_none]
      exact fun held => again ⟨rfl, held⟩
    | create | isLive | remove | reapDead => rcases waits with waits | ⟨_, waits⟩ <;> cases waits
  case quiet => cases entry <;> exact fun removing => removing.elim

variable (unlocked : ∀ asker file, (system.processes process).point ≠ .probeUnlock asker file)

include unlocked

/-- A process goes on to a point that asks for nothing. -/
theorem Kept.moveTo_plain (plain : point.plain = true) : (system.moveTo process point).Kept := by
  apply kept.moveTo unlocked
  case unlocking =>
    rintro asker file rfl
    cases plain
  case waiting =>
    rintro (rfl | ⟨file, rfl⟩) <;> cases plain
  case quiet =>
    intro removing
    unfold Point.Removing at removing
    split at removing <;> first | cases plain | exact removing.elim

/-- `is_live` answers without a lock in its hands; when `reap_dead` is told no, nobody is
live. -/
theorem Kept.answer {live : Bool} (unheld : asker = .reapDead → live = false → system.Unheld) :
    (system.answer process live asker).1.Kept := by
  cases asker with
  | isLive => exact kept.moveTo_plain unlocked rfl
  | reapDead =>
    cases live with
    | true => exact kept.moveTo_plain unlocked rfl
    | false =>
      apply kept.moveTo unlocked
      case unlocking => exact fun _ _ probing => by cases probing
      case waiting => rintro (waits | ⟨_, waits⟩) <;> cases waits
      case quiet => exact fun _ => unheld rfl rfl

end

variable {system : System} {process : ProcessId} {outcome : Outcome}

/-- One careful system call keeps the invariant. -/
theorem Kept.next (kept : system.Kept) (process : ProcessId) (outcome : Outcome)
    (careful : system.Careful (.next process outcome)) : (system.next process outcome).1.Kept := by
  unfold Careful at careful
  unfold System.next
  dsimp only at careful
  have unlocked : ∀ {point : Point}, (system.processes process).point = point →
      (∀ asker file, point ≠ .probeUnlock asker file) →
      ∀ asker file, (system.processes process).point ≠ .probeUnlock asker file := by
    intro point here elsewhere
    rw [here]
    exact elsewhere
  cases here : (system.processes process).point with
  | idle => exact kept
  | createOpen =>
    have unlocked := unlocked here fun _ _ => Point.noConfusion
    dsimp only
    split_ifs
    · exact kept.moveTo_plain unlocked rfl
    · exact kept.moveTo_plain unlocked rfl
    · exact kept.createRecord.moveTo_plain unlocked rfl
  | createWrite | listRead =>
    have unlocked := unlocked here fun _ _ => Point.noConfusion
    cases outcome with
    | done | failed => exact kept.moveTo_plain unlocked rfl
    | partly => exact kept
  | createUnlink =>
    have unlocked := unlocked here fun _ _ => Point.noConfusion
    exact kept.unlinkRecord.moveTo_plain unlocked rfl
  | acquireOpen =>
    have unlocked := unlocked here fun _ _ => Point.noConfusion
    dsimp only
    split_ifs
    · exact kept.moveTo_plain unlocked rfl
    apply kept.openLock.moveTo
    case unlocked =>
      rw [openLock_processes]
      exact unlocked
    case unlocking => exact fun _ _ => Point.noConfusion
    case waiting =>
      intro _
      rw [openLock_processes]
      exact kept.waiting process 0 (.inl here)
    case quiet => exact fun removing => removing.elim
  | acquireLock file =>
    have unlocked := unlocked here fun _ _ => Point.noConfusion
    rw [here] at careful
    dsimp only
    split_ifs with failed locked
    · exact kept.moveTo_plain unlocked rfl
    · exact kept.moveTo_plain unlocked rfl
    · rw [not_isSome_iff_eq_none] at locked
      exact kept.acquire here locked careful.1 careful.2.2
  | probeOpen asker =>
    have unlocked := unlocked here fun _ _ => Point.noConfusion
    rw [here] at careful
    dsimp only
    split_ifs with failed
    · apply kept.answer unlocked
      rintro rfl _
      exact careful failed
    apply kept.openLock.moveTo_plain
    case unlocked =>
      rw [openLock_processes]
      exact unlocked
    case plain => rfl
  | probeLock asker file =>
    have unlocked := unlocked here fun _ _ => Point.noConfusion
    rw [here] at careful
    dsimp only
    split_ifs with failed locked
    · apply kept.answer unlocked
      rintro rfl _
      exact careful.2.2 failed
    · apply kept.answer unlocked
      rintro _ ⟨⟩
    rw [not_isSome_iff_eq_none] at locked
    apply kept.probe here locked
    rintro rfl
    exact careful.1
  | probeUnlock asker file =>
    cases asker with
      (apply kept.unprobe here
       case unlocking => exact fun _ _ => Point.noConfusion
       case acquiring => exact ⟨Point.noConfusion, fun _ => Point.noConfusion⟩)
    | isLive =>
      case quiet => exact fun removing => removing.elim
    | reapDead =>
      case quiet => exact fun _ => rfl
  | listOpen =>
    have unlocked := unlocked here fun _ _ => Point.noConfusion
    dsimp only
    split_ifs <;> exact kept.moveTo_plain unlocked rfl
  | removeRecord reaping =>
    have unlocked := unlocked here fun _ _ => Point.noConfusion
    have unheld : system.Unheld := by
      cases reaping with
      | false =>
        rw [here] at careful
        exact careful
      | true =>
        apply kept.quiet process
        rw [here]
        trivial
    dsimp only
    split_ifs
    · exact kept.moveTo_plain unlocked rfl
    · exact kept.moveTo_plain unlocked rfl
    apply kept.unlinkRecord.moveTo unlocked
    case unlocking => exact fun _ _ => Point.noConfusion
    case waiting => rintro (waits | ⟨_, waits⟩) <;> cases waits
    case quiet => exact fun _ => unheld
  | removeLock reaping =>
    have unlocked := unlocked here fun _ _ => Point.noConfusion
    have unheld : system.Unheld := by
      apply kept.quiet process
      rw [here]
      trivial
    dsimp only
    split_ifs
    · exact kept.moveTo_plain unlocked rfl
    · exact (kept.unlinkLock unheld).moveTo_plain unlocked rfl

theorem kept_start (directory : Directory) : (start directory).Kept := by
  constructor
  case owned =>
    intro file process
    constructor
    · nofun
    · rintro (held | ⟨_, probing⟩)
      · cases held
      · cases probing
  case apart => exact fun _ _ _ probing => by cases probing
  case waiting => exact fun _ _ _ => rfl
  case named => exact fun _ _ held => by cases held
  case quiet => exact fun _ removing => removing.elim

theorem Kept.step {system : System} (kept : system.Kept) (action : Action)
    (careful : system.Careful action) : (system.step action).Kept := by
  cases action with
  | enter process entry => exact kept.enter process entry
  | next process outcome => exact kept.next process outcome careful
  | release process => exact kept.release process
  | exit process => exact kept.exit process

theorem Kept.run (kept : system.Kept) (actions : List Action)
    (careful : system.RunsCarefully actions) : (actions.foldl System.step system).Kept := by
  induction actions generalizing system with
  | nil => exact kept
  | cons action rest later =>
    apply later (kept.step action careful.1)
    exact careful.2

/-- A reply that somebody is live comes from a `flock` on a file whose lock is taken. -/
theorem locked_of_taken {reply : Reply} (replied : (system.next process outcome).2 = some reply)
    (taken : reply.Taken) :
    ∃ file, (system.owner file).isSome ∧
      match reply with
      | .acquire _ => (system.processes process).point = .acquireLock file
      | _ => ∃ asker, (system.processes process).point = .probeLock asker file := by
  unfold System.next at replied
  cases here : (system.processes process).point with
    rw [here] at replied
  | acquireLock file =>
    dsimp only at replied
    split_ifs at replied with failed locked
    · cases replied
      cases taken
    · cases replied
      exact ⟨file, locked, rfl⟩
    · cases replied
      cases taken
  | probeLock asker file =>
    dsimp only at replied
    split_ifs at replied with failed locked
    · cases asker <;> cases replied
      cases taken
    · cases asker <;> cases replied
      · exact ⟨file, locked, _, rfl⟩
      · exact ⟨file, locked, _, rfl⟩
  | probeOpen asker =>
    dsimp only at replied
    split_ifs at replied
    cases asker <;> cases replied
    cases taken
  | probeUnlock asker file =>
    cases asker <;> cases replied
    cases taken
  | removeRecord reaping | removeLock reaping =>
    dsimp only at replied
    split_ifs at replied <;> cases reaping <;> cases replied <;> cases taken
  | idle =>
    cases replied
  | createOpen | acquireOpen | listOpen =>
    dsimp only at replied
    split_ifs at replied <;> cases replied <;> cases taken
  | createWrite | listRead =>
    cases outcome <;> cases replied <;> cases taken
  | createUnlink =>
    cases replied
    cases taken

/-- What a careful system call promises follows from the invariant. -/
theorem Kept.harmless (kept : system.Kept) (careful : system.Careful (.next process outcome)) :
    system.Harmless process outcome := by
  unfold Careful at careful
  dsimp only at careful
  constructor
  case reaps =>
    rintro (here | here) <;> exact kept.quiet process (by rw [here]; trivial)
  case probes =>
    intro replied
    have probed : ∃ file, (system.owner file).isSome ∧
        ∃ asker, (system.processes process).point = .probeLock asker file := by
      rcases replied with replied | replied
      · exact locked_of_taken replied trivial
      · exact locked_of_taken replied trivial
    rcases probed with ⟨file, locked, asker, here⟩
    rw [here] at careful
    have unprobed : system.Unprobed file := by
      cases asker with
      | isLive => exact careful
      | reapDead => exact careful.2.1
    rcases kept.held_of_locked unprobed locked with ⟨holder, held⟩
    exact ⟨holder, isSome_of_eq_some held⟩
  case acquires =>
    intro replied
    rcases locked_of_taken replied trivial with ⟨file, locked, here⟩
    rw [here] at careful
    rcases kept.held_of_locked careful.2.1 locked with ⟨holder, held⟩
    refine ⟨holder, ?_, isSome_of_eq_some held⟩
    rintro rfl
    rw [kept.waiting holder file (.inr here)] at held
    cases held

/-- In every run of careful system calls, from whatever an earlier use left in the directory, at
most one process holds the liveness lock and no call does or says anything wrong about it. -/
theorem liveness_exclusive (directory : Directory) (actions : List Action)
    (careful : (start directory).RunsCarefully actions) :
    (run directory actions).Exclusive ∧
      ∀ process outcome, (run directory actions).Careful (.next process outcome) →
        (run directory actions).Harmless process outcome := by
  have kept : (run directory actions).Kept := (kept_start directory).run actions careful
  exact ⟨kept.exclusive, fun process outcome => kept.harmless⟩

/-- A process goes live, and another one is turned away. -/
def turnedAwayRun : List Action :=
  [ .enter 1 .acquire, .next 1 .done, .next 1 .done, .enter 2 .acquire, .next 2 .done ]

theorem liveness_exclusive_turned_away :
    ((run {} turnedAwayRun).processes 1).held = some 0 ∧
      ((run {} turnedAwayRun).next 2 .done).2 = some (.acquire (.error .sessionExists)) ∧
      (run {} turnedAwayRun).Exclusive ∧
      ∃ holder, holder ≠ 2 ∧ ((run {} turnedAwayRun).processes holder).held.isSome := by
  -- Nobody probes or removes, so only the file under the name is left to see.
  have careful : ∀ (system : System) (process : ProcessId),
      (system.processes process).point = .acquireLock 0 → system.lock = some 0 →
      (∀ other, (system.processes other).point = .acquireLock 0 ∨
        (system.processes other).point = .idle) →
      system.Careful (.next process .done) := by
    intro system process here named calm
    unfold Careful
    dsimp only
    rw [here]
    refine ⟨named, ?_, ?_⟩
    · intro other asker probing
      rcases calm other with point | point <;> rw [point] at probing <;> cases probing
    · intro other removing
      rcases calm other with point | point <;> rw [point] at removing <;> exact removing
  have first : (run {} (turnedAwayRun.take 2)).Careful (.next 1 .done) := by
    apply careful _ _ rfl rfl
    intro other
    match other with
    | 0 => exact .inr rfl
    | 1 => exact .inl rfl
    | _ + 2 => exact .inr rfl
  have second : (run {} turnedAwayRun).Careful (.next 2 .done) := by
    apply careful _ _ rfl rfl
    intro other
    match other with
    | 0 => exact .inr rfl
    | 1 => exact .inr rfl
    | 2 => exact .inl rfl
    | _ + 3 => exact .inr rfl
  rcases liveness_exclusive {} turnedAwayRun
    ⟨trivial, trivial, first, trivial, trivial, trivial⟩ with ⟨exclusive, harmless⟩
  exact ⟨rfl, rfl, exclusive, (harmless 2 .done second).acquires rfl⟩

/-- The directory of a session whose process has ended. -/
def deadSession : Directory := { record := some 0, lock := some 1, nextInode := 2 }

/-- `reap_dead` finds the session dead, and then it goes live. -/
def reapingRun : List Action :=
  [ .enter 1 .reapDead, .next 1 .done, .next 1 .done, .next 1 .done, .next 1 .done, .next 1 .done,
    .enter 2 .acquire, .next 2 .done, .next 2 .done ]

/-- `reap_dead` goes on, and a second process goes live under the same name. -/
def reapedRun : List Action :=
  reapingRun ++ [.next 1 .done, .next 1 .done, .enter 3 .acquire, .next 3 .done, .next 3 .done]

/-- A probe has the lock while a second process probes and a third one wants to go live. -/
def probingRun : List Action :=
  [ .enter 1 .isLive, .next 1 .done, .next 1 .done,
    .enter 2 .isLive, .next 2 .done,
    .enter 3 .acquire, .next 3 .done ]

/-- Two processes are live at once, `reap_dead` unlinks the record and the lock of a live
session, `is_live` says yes though nobody has ever been live, and for the same reason a process
is turned away. -/
theorem liveness_not_exclusive :
    ((run deadSession reapedRun).processes 2).held = some 1 ∧
      ((run deadSession reapedRun).processes 3).held = some 2 ∧
      ((run deadSession reapingRun).processes 1).point = .removeRecord true ∧
      ((run deadSession reapingRun).processes 2).held = some 1 ∧
      ((run {} probingRun).next 2 .done).2 = some (.isLive true) ∧
      ((run {} probingRun).next 3 .done).2 = some (.acquire (.error .sessionExists)) ∧
      (run {} probingRun).Unheld := by
  refine ⟨rfl, rfl, rfl, rfl, rfl, rfl, ?_⟩
  intro process
  match process with
  | 0 => rfl
  | 1 => rfl
  | 2 => rfl
  | 3 => rfl
  | _ + 4 => rfl

end System

end Grab.Session

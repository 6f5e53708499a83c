import Mathlib.Data.List.TakeWhile
import Grab.Overlay.Replay

/-!
# Shape identifiers

The ledger of a scene says which ids were issued and which shapes are alive, in the
terms of the calls and their times only: a call first expires what is due, and what
it stores can be due at once.  The scene keeps the same shapes in entries that are
reused, with one deadline for each shape that expires.
-/

namespace Grab.Overlay

open Grab.Lib List

/-! ## The ledger -/

structure Ledger where
  issued : List ShapeId := []
  alive : List ShapeRecord := []

namespace Ledger

/-- The shapes that are due are gone. -/
def expire (ledger : Ledger) (now : Milliseconds) : Ledger :=
  { ledger with alive := ledger.alive.filter fun record => !deadlineIsDue record now }

/-- A shape with the id is alive. -/
def Holds (ledger : Ledger) (id : ShapeId) : Prop := ∃ record ∈ ledger.alive, record.id = id

def enter (ledger : Ledger) (record : ShapeRecord) : Ledger where
  issued := ledger.issued ++ [record.id]
  alive := ledger.alive ++ [record]

def afterAdd (ledger : Ledger) (now : Milliseconds) (shape : Shape) : Except Error ShapeId → Ledger
  | .ok id => ((ledger.expire now).enter { id := id, shape := shape, startedAt := now }).expire now
  | .error _ => ledger.expire now

/-- A shape that takes the place of another one keeps its start when the lifetime is of the
same kind. -/
def replaced (id : ShapeId) (shape : Shape) (now : Milliseconds) (record : ShapeRecord) :
    ShapeRecord :=
  if record.id = id then
    { id := id
      shape := shape
      startedAt :=
        if sameLifetime record.shape.lifetime shape.lifetime then record.startedAt else now }
  else record

def replace (ledger : Ledger) (id : ShapeId) (shape : Shape) (now : Milliseconds) : Ledger :=
  { ledger with alive := ledger.alive.map (replaced id shape now) }

def erase (ledger : Ledger) (id : ShapeId) : Ledger :=
  { ledger with alive := ledger.alive.filter fun record => record.id ≠ id }

def afterUpdate (ledger : Ledger) (now : Milliseconds) (id : ShapeId) (shape : Shape) :
    Except Error Unit → Ledger
  | .ok _ => ((ledger.expire now).replace id shape now).expire now
  | .error _ => ledger.expire now

def afterRemove (ledger : Ledger) (now : Milliseconds) (id : ShapeId) : Except Error Unit → Ledger
  | .ok _ => (ledger.expire now).erase id
  | .error _ => ledger.expire now

def afterClear (ledger : Ledger) : Ledger := { ledger with alive := [] }

end Ledger

/-- Calls on a scene at any times, in any order, with the ledger of them. -/
inductive Booked : Scene → Ledger → Prop
  | start : Booked {} {}
  | add {scene : Scene} {ledger : Ledger} (earlier : Booked scene ledger) (now : Milliseconds)
      (shape : Shape) :
      Booked (scene.add now shape).1 (ledger.afterAdd now shape (scene.add now shape).2)
  | update {scene : Scene} {ledger : Ledger} (earlier : Booked scene ledger)
      (now : Milliseconds) (id : ShapeId) (shape : Shape) :
      Booked (scene.update now id shape).1
        (ledger.afterUpdate now id shape (scene.update now id shape).2)
  | remove {scene : Scene} {ledger : Ledger} (earlier : Booked scene ledger)
      (now : Milliseconds) (id : ShapeId) :
      Booked (scene.remove now id).1 (ledger.afterRemove now id (scene.remove now id).2)
  | clear {scene : Scene} {ledger : Ledger} (earlier : Booked scene ledger)
      (now : Milliseconds) : Booked (scene.clear now) ledger.afterClear
  | snapshot {scene : Scene} {ledger : Ledger} (earlier : Booked scene ledger)
      (now : Milliseconds) : Booked (scene.snapshot now).1 (ledger.expire now)
  | takeDelta {scene : Scene} {ledger : Ledger} (earlier : Booked scene ledger) :
      Booked scene.takeDelta.1 ledger

namespace Scene

/-! ## Entries, free slots and deadlines -/

/-- A deadline is that of a live entry. -/
def HasDeadline (entries : List (Option ShapeRecord)) (deadline : Deadline) : Prop :=
  ∃ record, entries[deadline.entrySlot]? = some (some record) ∧ deadline.id = record.id ∧
    deadlineFor record = some deadline.expiresAt

/-- Entries and free slots are a sound table and the deadlines are those of the live entries,
each once and in order. -/
structure Filed (deadlines : List Deadline) (scene : Scene) : Prop where
  table : SlotTable ShapeRecord.id scene.entries scene.freeSlots
  complete : SlotTable.Complete scene.entries scene.freeSlots
  exact : ∀ deadline, deadline ∈ deadlines ↔ HasDeadline scene.entries deadline
  once : deadlines.Nodup
  sorted : deadlines.Pairwise fun first second => first.expiresAt ≤ second.expiresAt
  current : ∀ record, some record ∈ scene.entries →
    record.id.epoch = scene.epoch ∧ record.id.slot < scene.nextShapeSlot

/-- Every item a search passes over before it stops satisfies the test, and in an order that
the test respects no later one does. -/
theorem not_of_mem_dropWhile {α : Type} {test : α → Bool} {items : List α}
    (downward : items.Pairwise fun first second => test second = true → test first = true)
    {item : α} (member : item ∈ items.dropWhile test) : test item = false := by
  induction items with
  | nil => cases member
  | cons first rest ih =>
    rcases pairwise_cons.mp downward with ⟨fromFirst, restDownward⟩
    by_cases passes : test first = true
    · rw [dropWhile_cons_of_pos passes] at member
      exact ih restDownward member
    rw [dropWhile_cons_of_neg passes] at member
    rw [← Bool.not_eq_true]
    rcases mem_cons.mp member with rfl | inRest
    · exact passes
    · exact fun later => passes (fromFirst item inRest later)

variable {scene : Scene} {deadline : Deadline} {rest : List Deadline} {now : Milliseconds}

/-- One deadline is taken from the front, and its entry becomes vacant. -/
theorem Filed.expire (filed : Filed (deadline :: rest) scene) :
    Filed rest (scene.expire deadline) ∧
      (∀ record, some record ∈ (scene.expire deadline).entries ↔
        some record ∈ scene.entries ∧ record.id ≠ deadline.id) ∧
      (scene.expire deadline).epoch = scene.epoch ∧
      (scene.expire deadline).nextShapeSlot = scene.nextShapeSlot := by
  rcases (filed.exact deadline).mp mem_cons_self with ⟨record, here, isId, expiry⟩
  rcases nodup_cons.mp filed.once with ⟨absent, restOnce⟩
  have vacated : scene.expire deadline = scene.vacate deadline.entrySlot record.id := by
    unfold Scene.expire
    rw [here]
    exact if_pos isId.symm
  have holds : ∀ other, some other ∈ scene.entries.set deadline.entrySlot none ↔
      some other ∈ scene.entries ∧ other.id ≠ deadline.id := by
    intro other
    rw [isId]
    exact filed.table.mem_vacate here
  rw [vacated]
  refine ⟨?_, holds, rfl, rfl⟩
  constructor
  case table => exact filed.table.vacate here
  case complete => exact filed.complete.vacate
  case exact =>
    intro other
    change other ∈ rest ↔ HasDeadline (scene.entries.set deadline.entrySlot none) other
    constructor
    · intro member
      rcases (filed.exact other).mp (mem_cons_of_mem _ member) with
        ⟨held, there, otherId, otherExpiry⟩
      refine ⟨held, ?_, otherId, otherExpiry⟩
      rw [getElem?_set_ne]
      · exact there
      intro sameSlot
      -- Two deadlines of one entry are the same deadline.
      apply absent
      rw [← sameSlot, here, Option.some.injEq, Option.some.injEq] at there
      subst there
      have same : other = deadline := by
        cases other
        cases deadline
        simp_all
      exact same ▸ member
    · rintro ⟨held, there, otherId, otherExpiry⟩
      have different : deadline.entrySlot ≠ other.entrySlot := by
        intro sameSlot
        rw [← sameSlot, getElem?_set_self (SlotTable.lt_of_getElem? here)] at there
        cases there
      rw [getElem?_set_ne different] at there
      rcases mem_cons.mp ((filed.exact other).mpr ⟨held, there, otherId, otherExpiry⟩) with
        rfl | inRest
      · exact absurd rfl different
      · exact inRest
  case once => exact restOnce
  case sorted => exact (pairwise_cons.mp filed.sorted).2
  case current =>
    intro other member
    exact filed.current other ((holds other).mp member).1

theorem Filed.foldl_expire {expired waiting : List Deadline}
    (filed : Filed (expired ++ waiting) scene) :
    Filed waiting (expired.foldl Scene.expire scene) ∧
      (∀ record, some record ∈ (expired.foldl Scene.expire scene).entries ↔
        some record ∈ scene.entries ∧ ∀ deadline ∈ expired, record.id ≠ deadline.id) ∧
      (expired.foldl Scene.expire scene).epoch = scene.epoch ∧
      (expired.foldl Scene.expire scene).nextShapeSlot = scene.nextShapeSlot := by
  induction expired generalizing scene with
  | nil => exact ⟨filed, by simp, rfl, rfl⟩
  | cons deadline rest ih =>
    rcases filed.expire with ⟨once, holdsOnce, epochOnce, slotOnce⟩
    rcases ih once with ⟨all, holdsAll, epochAll, slotAll⟩
    refine ⟨all, ?_, epochAll.trans epochOnce, slotAll.trans slotOnce⟩
    intro record
    rw [foldl_cons, holdsAll, holdsOnce, forall_mem_cons, and_assoc]

/-- Draining takes exactly the shapes away that are due. -/
theorem Filed.drainExpired (filed : Filed scene.deadlines scene) (now : Milliseconds) :
    Filed (scene.drainExpired now).deadlines (scene.drainExpired now) ∧
      (∀ record, some record ∈ (scene.drainExpired now).entries ↔
        some record ∈ scene.entries ∧ deadlineIsDue record now = false) ∧
      (scene.drainExpired now).epoch = scene.epoch ∧
      (scene.drainExpired now).nextShapeSlot = scene.nextShapeSlot := by
  have split := takeWhile_append_dropWhile (l := scene.deadlines)
    (p := fun deadline => decide (deadline.expiresAt ≤ now))
  have whole := filed
  rw [← split] at whole
  rcases whole.foldl_expire with ⟨drained, holds, sameEpoch, sameSlot⟩
  refine ⟨⟨drained.table, drained.complete, drained.exact, drained.once, drained.sorted,
    drained.current⟩, ?_, sameEpoch, sameSlot⟩
  intro record
  change some record ∈ (List.foldl Scene.expire scene _).entries ↔ _
  rw [holds]
  apply and_congr_right
  intro member
  rcases SlotTable.mem_cells_iff.mp member with ⟨slot, here⟩
  have downward : scene.deadlines.Pairwise fun first second =>
      decide (second.expiresAt ≤ now) = true → decide (first.expiresAt ≤ now) = true := by
    apply filed.sorted.imp
    intro first second ordered
    simp only [decide_eq_true_eq]
    exact fun due => ordered.trans due
  constructor
  · intro spared
    cases expiry : deadlineFor record with
    | none => simp [deadlineIsDue, expiry]
    | some expiresAt =>
      -- A due deadline would be among those that were drained.
      rw [← Bool.not_eq_true]
      intro due
      have isDue : expiresAt ≤ now := by simpa [deadlineIsDue, expiry] using due
      have filedDeadline := (filed.exact ⟨expiresAt, record.id, slot⟩).mpr
        ⟨record, here, rfl, expiry⟩
      rw [← split, mem_append] at filedDeadline
      rcases filedDeadline with drainedNow | waiting
      · exact spared _ drainedNow rfl
      · have late := not_of_mem_dropWhile downward waiting
        simp [isDue] at late
  · intro notDue deadline drainedNow sameId
    have early := mem_takeWhile_imp drainedNow
    rcases (filed.exact deadline).mp ((takeWhile_sublist _).subset drainedNow) with
      ⟨held, there, isId, expiry⟩
    have sameSlot := filed.table.unique here there (sameId.trans isId)
    rw [sameSlot, there, Option.some.injEq, Option.some.injEq] at here
    subst here
    simp only [deadlineIsDue, expiry, decide_eq_false_iff_not] at notDue
    exact notDue (by simpa using early)

/-! ## Storing a record -/

/-- A record stands in an entry and has no deadline yet; the deadlines are those of the others. -/
structure Pending (record : ShapeRecord) (entrySlot : Nat) (scene : Scene) : Prop where
  table : SlotTable ShapeRecord.id scene.entries scene.freeSlots
  complete : SlotTable.Complete scene.entries scene.freeSlots
  here : scene.entries[entrySlot]? = some (some record)
  exact : ∀ deadline, deadline ∈ scene.deadlines ↔
    HasDeadline scene.entries deadline ∧ deadline.id ≠ record.id
  once : scene.deadlines.Nodup
  sorted : scene.deadlines.Pairwise fun first second => first.expiresAt ≤ second.expiresAt
  current : ∀ other, some other ∈ scene.entries →
    other.id.epoch = scene.epoch ∧ other.id.slot < scene.nextShapeSlot

variable {record : ShapeRecord} {entrySlot : Nat}

/-- A live entry has the deadline of its record and no other one. -/
theorem hasDeadline_iff (table : SlotTable ShapeRecord.id scene.entries scene.freeSlots)
    (here : scene.entries[entrySlot]? = some (some record)) (sameId : deadline.id = record.id) :
    HasDeadline scene.entries deadline ↔
      deadline.entrySlot = entrySlot ∧ deadlineFor record = some deadline.expiresAt := by
  constructor
  · rintro ⟨held, there, isId, expiry⟩
    have sameSlot := table.unique there here (isId.symm.trans sameId)
    rw [sameSlot, here, Option.some.injEq, Option.some.injEq] at there
    subst there
    exact ⟨sameSlot, expiry⟩
  · rintro ⟨rfl, expiry⟩
    exact ⟨record, here, sameId, expiry⟩

theorem Pending.insertDeadline (pending : Pending record entrySlot scene) :
    Filed (scene.insertDeadline record entrySlot).deadlines scene := by
  unfold Scene.insertDeadline
  cases expiry : deadlineFor record with
  | none =>
    refine { pending with exact := ?exact }
    case exact =>
      intro deadline
      rw [pending.exact, and_iff_left_iff_imp]
      intro has sameId
      have without := ((hasDeadline_iff pending.table pending.here sameId).mp has).2
      rw [expiry] at without
      cases without
  | some expiresAt =>
    let added : Deadline := { expiresAt, id := record.id, entrySlot }
    have split := takeWhile_append_dropWhile (l := scene.deadlines)
      (p := fun other => deadlineLess other added)
    have mem : ∀ deadline, deadline ∈ scene.deadlines.takeWhile (fun other =>
        deadlineLess other added) ++ added :: scene.deadlines.dropWhile (fun other =>
          deadlineLess other added) ↔ deadline = added ∨ deadline ∈ scene.deadlines := by
      intro deadline
      rw [mem_append, mem_cons, or_left_comm, ← mem_append, split]
    have new : added ∉ scene.deadlines := fun member =>
      ((pending.exact added).mp member).2 rfl
    refine { pending with once := ?once, sorted := ?sorted, exact := ?exact }
    case once =>
      rw [nodup_middle, split, nodup_cons]
      exact ⟨new, pending.once⟩
    case sorted =>
      have parts := pending.sorted
      rw [← split, pairwise_append] at parts
      rcases parts with ⟨lower, upper, across⟩
      have below : ∀ deadline ∈ scene.deadlines.takeWhile (fun other =>
          deadlineLess other added), deadline.expiresAt ≤ expiresAt := by
        intro deadline member
        have less := mem_takeWhile_imp member
        simp only [deadlineLess, added, Bool.or_eq_true, decide_eq_true_eq, Bool.and_eq_true,
          beq_iff_eq] at less
        rcases less with earlier | ⟨atOnce, _⟩
        · exact Int.le_of_lt earlier
        · exact Int.le_of_eq atOnce
      have above : ∀ deadline ∈ scene.deadlines.dropWhile (fun other =>
          deadlineLess other added), expiresAt ≤ deadline.expiresAt := by
        cases rest : scene.deadlines.dropWhile (fun other => deadlineLess other added) with
        | nil => exact forall_mem_nil _
        | cons first later =>
          have notLess := head?_dropWhile_not (fun other => deadlineLess other added)
            scene.deadlines
          rw [rest] at notLess
          simp only [head?_cons, deadlineLess, added, Bool.or_eq_false_iff,
            decide_eq_false_iff_not] at notLess
          have firstAbove : expiresAt ≤ first.expiresAt := Int.not_lt.mp notLess.1
          rw [rest, pairwise_cons] at upper
          intro deadline member
          rcases mem_cons.mp member with rfl | inLater
          · exact firstAbove
          · exact firstAbove.trans (upper.1 deadline inLater)
      rw [pairwise_append, pairwise_cons]
      refine ⟨lower, ⟨above, upper⟩, ?_⟩
      intro first firstMem second secondMem
      rcases mem_cons.mp secondMem with rfl | inUpper
      · exact below first firstMem
      · exact across first firstMem second inUpper
    case exact =>
      intro deadline
      rw [mem, pending.exact]
      constructor
      · rintro (rfl | ⟨has, _⟩)
        · exact ⟨record, pending.here, rfl, expiry⟩
        · exact has
      intro has
      by_cases sameId : deadline.id = record.id
      · rcases (hasDeadline_iff pending.table pending.here sameId).mp has with
          ⟨rfl, ownExpiry⟩
        rw [expiry, Option.some.injEq] at ownExpiry
        apply Or.inl
        cases deadline
        simp_all [added]
      · exact Or.inr ⟨has, sameId⟩

/-- Draining at once changes nothing when the new record is not due. -/
theorem Pending.store (pending : Pending record entrySlot scene) (now : Milliseconds)
    (fresh : ∀ other, some other ∈ scene.entries → other.id ≠ record.id →
      deadlineIsDue other now = false) :
    Filed (scene.store entrySlot record now).deadlines (scene.store entrySlot record now) ∧
      (∀ other, some other ∈ (scene.store entrySlot record now).entries ↔
        some other ∈ scene.entries ∧ deadlineIsDue other now = false) ∧
      (scene.store entrySlot record now).epoch = scene.epoch ∧
      (scene.store entrySlot record now).nextShapeSlot = scene.nextShapeSlot := by
  rcases insertDeadline_eq scene record entrySlot with ⟨deadlines, inserted⟩
  have filed := pending.insertDeadline
  rw [inserted] at filed
  have queued : Filed deadlines
      ({ scene with deadlines := deadlines }.queueChange (.upsert record)) :=
    ⟨filed.table, filed.complete, filed.exact, filed.once, filed.sorted, filed.current⟩
  unfold Scene.store
  rw [inserted]
  split
  · exact queued.drainExpired now
  rename_i notDue
  refine ⟨queued, ?_, rfl, rfl⟩
  intro other
  change some other ∈ scene.entries ↔ _
  rw [iff_self_and]
  intro member
  by_cases sameId : other.id = record.id
  · rcases SlotTable.mem_cells_iff.mp member with ⟨slot, there⟩
    have sameSlot := pending.table.unique there pending.here sameId
    rw [sameSlot, pending.here, Option.some.injEq, Option.some.injEq] at there
    rw [← there]
    simpa using notDue
  · exact fresh other member sameId

/-! ## The scene and its ledger -/

/-- The entries are filed and hold the shapes that are alive, and every id that was issued is
behind the next one. -/
structure Books (scene : Scene) (ledger : Ledger) : Prop where
  filed : Filed scene.deadlines scene
  alive : ∀ record, some record ∈ scene.entries ↔ record ∈ ledger.alive
  once : ledger.issued.Nodup
  numbered : ∀ id ∈ ledger.issued,
    id.epoch < scene.epoch ∨ id.epoch = scene.epoch ∧ id.slot < scene.nextShapeSlot
  issued : ∀ record ∈ ledger.alive, record.id ∈ ledger.issued

variable {ledger : Ledger} {id : ShapeId} {shape : Shape}

theorem mem_expire (other : ShapeRecord) :
    other ∈ (ledger.expire now).alive ↔ other ∈ ledger.alive ∧ deadlineIsDue other now = false := by
  simp [Ledger.expire]

variable (books : Books scene ledger) {old : ShapeRecord}

include books

theorem Books.drainExpired (now : Milliseconds) :
    Books (scene.drainExpired now) (ledger.expire now) ∧
      ∀ record, some record ∈ (scene.drainExpired now).entries →
        deadlineIsDue record now = false := by
  rcases books.filed.drainExpired now with ⟨filed, holds, sameEpoch, sameSlot⟩
  refine ⟨?_, fun record member => ((holds record).mp member).2⟩
  constructor
  case filed => exact filed
  case alive =>
    intro record
    rw [holds, books.alive, mem_expire]
  case once => exact books.once
  case numbered =>
    rw [sameEpoch, sameSlot]
    exact books.numbered
  case issued =>
    intro record member
    exact books.issued record ((mem_expire record).mp member).1

/-- Publishing is no matter of the books. -/
theorem Books.of_eq {other : Scene} (entries : other.entries = scene.entries)
    (freeSlots : other.freeSlots = scene.freeSlots)
    (deadlines : other.deadlines = scene.deadlines) (epoch : other.epoch = scene.epoch)
    (nextShapeSlot : other.nextShapeSlot = scene.nextShapeSlot) : Books other ledger := by
  rcases books with ⟨⟨table, complete, exact', filedOnce, sorted, current⟩, alive, once,
    numbered, issued⟩
  rw [← entries] at alive
  rw [← epoch, ← nextShapeSlot] at numbered
  refine ⟨?_, alive, once, numbered, issued⟩
  constructor
  case table =>
    rw [entries, freeSlots]
    exact table
  case complete =>
    rw [entries, freeSlots]
    exact complete
  case exact =>
    rw [entries, deadlines]
    exact exact'
  case once => exact deadlines ▸ filedOnce
  case sorted => exact deadlines ▸ sorted
  case current =>
    rw [entries, epoch, nextShapeSlot]
    exact current

theorem Books.beginPublication : Books scene.beginPublication ledger := by
  have only := (beginPublication_cases scene).1
  apply books.of_eq
  all_goals rw [only]

omit books in
/-- A record that was put into an entry, with the ledger that has it. -/
theorem books_store (pending : Pending record entrySlot scene)
    (alive : ∀ other, some other ∈ scene.entries ↔ other ∈ ledger.alive)
    (calm : ∀ other, some other ∈ scene.entries → other.id ≠ record.id →
      deadlineIsDue other now = false) (once : ledger.issued.Nodup)
    (numbered : ∀ id ∈ ledger.issued,
      id.epoch < scene.epoch ∨ id.epoch = scene.epoch ∧ id.slot < scene.nextShapeSlot)
    (issued : ∀ other ∈ ledger.alive, other.id ∈ ledger.issued) :
    Books (scene.store entrySlot record now) (ledger.expire now) := by
  rcases pending.store now calm with ⟨filed, holds, sameEpoch, sameSlot⟩
  constructor
  case filed => exact filed
  case alive =>
    intro other
    rw [holds, alive, mem_expire]
  case once => exact once
  case numbered =>
    rw [sameEpoch, sameSlot]
    exact numbered
  case issued =>
    intro other member
    exact issued other ((mem_expire other).mp member).1

/-! ## Adding -/

theorem Books.fresh (shape : Shape) (now : Milliseconds) :
    (scene.newRecord shape now).id ∉ ledger.issued := by
  intro old
  rcases books.numbered _ old with earlier | ⟨_, below⟩
  · exact Nat.lt_irrefl _ earlier
  · exact Nat.lt_irrefl _ below

/-- What the ledger of a scene with a new record knows. -/
theorem Books.entered (shape : Shape) (now : Milliseconds) :
    (ledger.enter (scene.newRecord shape now)).issued.Nodup ∧
      (∀ id ∈ (ledger.enter (scene.newRecord shape now)).issued, id.epoch < scene.epoch ∨
        id.epoch = scene.epoch ∧ id.slot < scene.nextShapeSlot + 1) ∧
      ∀ other ∈ (ledger.enter (scene.newRecord shape now)).alive,
        other.id ∈ (ledger.enter (scene.newRecord shape now)).issued := by
  refine ⟨?_, ?_, ?_⟩
  · apply nodup_append.mpr
    refine ⟨books.once, nodup_singleton _, ?_⟩
    rintro old member _ isNew rfl
    rw [mem_singleton.mp isNew] at member
    exact books.fresh shape now member
  · intro id member
    rcases mem_append.mp member with old | new
    · rcases books.numbered id old with earlier | ⟨sameEpoch, below⟩
      · exact .inl earlier
      · exact .inr ⟨sameEpoch, Nat.lt_succ_of_lt below⟩
    · rw [mem_singleton.mp new]
      exact .inr ⟨rfl, Nat.lt_succ_self _⟩
  · intro other member
    rcases mem_append.mp member with old | new
    · exact mem_append_left _ (books.issued other old)
    · rw [mem_singleton.mp new]
      exact mem_append_right _ mem_cons_self

/-- Deadlines are those of the other entries after a vacant or a new entry was filled. -/
theorem Books.pendingAdd {placed : Scene}
    (table : SlotTable ShapeRecord.id placed.entries placed.freeSlots)
    (complete : SlotTable.Complete placed.entries placed.freeSlots)
    (here : placed.entries[entrySlot]? = some (some (scene.newRecord shape now)))
    (others : ∀ (slot : Nat) (other : ShapeRecord), slot ≠ entrySlot →
      (placed.entries[slot]? = some (some other) ↔ scene.entries[slot]? = some (some other)))
    (unused : ∀ other, scene.entries[entrySlot]? ≠ some (some other))
    (deadlines : placed.deadlines = scene.deadlines) (epoch : placed.epoch = scene.epoch)
    (nextShapeSlot : placed.nextShapeSlot = scene.nextShapeSlot + 1) :
    Pending (scene.newRecord shape now) entrySlot placed := by
  have stood : ∀ {slot : Nat} {other : ShapeRecord}, scene.entries[slot]? = some (some other) →
      slot ≠ entrySlot ∧ other.id ≠ (scene.newRecord shape now).id := by
    intro slot other there
    constructor
    · rintro rfl
      exact unused other there
    intro sameId
    have member := SlotTable.mem_cells_iff.mpr ⟨slot, there⟩
    apply books.fresh shape now
    rw [← sameId]
    exact books.issued other ((books.alive other).mp member)
  constructor
  case table => exact table
  case complete => exact complete
  case here => exact here
  case exact =>
    intro deadline
    rw [deadlines, books.filed.exact]
    constructor
    · rintro ⟨other, there, isId, expiry⟩
      rcases stood there with ⟨elsewhere, different⟩
      exact ⟨⟨other, (others _ other elsewhere).mpr there, isId, expiry⟩, isId ▸ different⟩
    rintro ⟨⟨other, there, isId, expiry⟩, different⟩
    refine ⟨other, (others _ other ?_).mp there, isId, expiry⟩
    intro sameSlot
    rw [sameSlot, here, Option.some.injEq, Option.some.injEq] at there
    exact different (there ▸ isId)
  case once => exact deadlines ▸ books.filed.once
  case sorted => exact deadlines ▸ books.filed.sorted
  case current =>
    intro other member
    rw [epoch, nextShapeSlot]
    rcases SlotTable.mem_cells_iff.mp member with ⟨slot, there⟩
    by_cases atSlot : slot = entrySlot
    · rw [atSlot, here, Option.some.injEq, Option.some.injEq] at there
      rw [← there]
      exact ⟨rfl, Nat.lt_succ_self _⟩
    · have old := SlotTable.mem_cells_iff.mpr ⟨slot, (others slot other atSlot).mp there⟩
      rcases books.filed.current other old with ⟨sameEpoch, below⟩
      exact ⟨sameEpoch, Nat.lt_succ_of_lt below⟩

/-- An error leaves the scene as it is; otherwise the new record is in the books. -/
theorem Books.addEntry (shape : Shape)
    (calm : ∀ record, some record ∈ scene.entries → deadlineIsDue record now = false) :
    (∃ error, scene.addEntry shape now = (scene, .error error)) ∨
    ∃ grown, scene.addEntry shape now = (grown, .ok (scene.newRecord shape now).id) ∧
      Books grown ((ledger.enter (scene.newRecord shape now)).expire now) := by
  rcases books.entered shape now with ⟨once, numbered, issued⟩
  have fresh : ∀ held, some held ∈ scene.entries → held.id ≠ (scene.newRecord shape now).id := by
    intro held member sameId
    apply books.fresh shape now
    rw [← sameId]
    exact books.issued held ((books.alive held).mp member)
  have entered : ∀ other : ShapeRecord,
      (other = scene.newRecord shape now ∨ some other ∈ scene.entries) ↔
        other ∈ (ledger.enter (scene.newRecord shape now)).alive := by
    intro other
    rw [books.alive, Ledger.enter, mem_append, mem_singleton, or_comm]
  unfold Scene.addEntry
  by_cases full : maximumSlot < scene.nextShapeSlot
  · rw [if_pos full]
    exact .inl ⟨_, rfl⟩
  rw [if_neg full]
  cases last : scene.freeSlots.getLast? with
  | some entrySlot =>
    have vacant := books.filed.table.vacant entrySlot (mem_of_getLast? last)
    refine .inr ⟨_, rfl, ?_⟩
    apply books_store _ _ _ once numbered issued
    · apply books.pendingAdd
      · exact books.filed.table.reuse last fresh
      · exact books.filed.complete.reuse last
      · exact getElem?_set_self (SlotTable.lt_of_getElem? vacant)
      · intro slot other elsewhere
        rw [getElem?_set_ne (Ne.symm elsewhere)]
      · intro other there
        rw [vacant] at there
        cases there
      · rfl
      · rfl
      · rfl
    · intro other
      rw [SlotTable.mem_fill vacant, entered]
    · intro other member different
      rcases (SlotTable.mem_fill vacant).mp member with rfl | old
      · exact absurd rfl different
      · exact calm other old
  | none =>
    by_cases crowded : maximumSlot < scene.entries.length
    · rw [if_pos crowded]
      exact .inl ⟨_, rfl⟩
    rw [if_neg crowded]
    have mem : ∀ other : ShapeRecord,
        some other ∈ scene.entries ++ [some (scene.newRecord shape now)] ↔
          other = scene.newRecord shape now ∨ some other ∈ scene.entries := by
      intro other
      rw [mem_append, mem_singleton, Option.some.injEq, or_comm]
    refine .inr ⟨_, rfl, ?_⟩
    apply books_store _ _ _ once numbered issued
    · apply books.pendingAdd
      · exact books.filed.table.append fresh
      · exact books.filed.complete.append
      · exact getElem?_concat_length
      · intro slot other elsewhere
        by_cases inside : slot < scene.entries.length
        · rw [getElem?_append_left inside]
        · rw [getElem?_eq_none (by simp; omega), getElem?_eq_none (by omega)]
      · intro other there
        exact Nat.lt_irrefl _ (SlotTable.lt_of_getElem? there)
      · rfl
      · rfl
      · rfl
    · intro other
      rw [mem, entered]
    · intro other member different
      rcases (mem other).mp member with rfl | old
      · exact absurd rfl different
      · exact calm other old

/-! ## Finding, updating and removing -/

/-- A shape that is alive is found, and nothing else. -/
theorem Books.find_isSome_iff : (scene.find id).isSome = true ↔ ledger.Holds id := by
  constructor
  · intro found
    rcases Option.isSome_iff_exists.mp found with ⟨slot, isSlot⟩
    rcases find_spec isSlot with ⟨record, here, isId⟩
    exact ⟨record, (books.alive record).mp (SlotTable.mem_cells_iff.mpr ⟨slot, here⟩), isId⟩
  rintro ⟨record, member, rfl⟩
  have stands := (books.alive record).mpr member
  rw [find, if_pos (books.filed.current record stands).1, liveEntrySlot,
    findIdx?_isSome, any_eq_true]
  exact ⟨some record, stands, by simp⟩

theorem Books.pendingUpdate (here : scene.entries[entrySlot]? = some (some old))
    (sameId : record.id = old.id) :
    Pending record entrySlot
      { scene.removeDeadline old.id with
        entries := scene.entries.set entrySlot (some record) } := by
  have filed := books.filed
  have inside := SlotTable.lt_of_getElem? here
  constructor
  case table => exact filed.table.replace here sameId
  case complete => exact filed.complete.replace
  case here => exact getElem?_set_self inside
  case exact =>
    intro deadline
    dsimp only [removeDeadline]
    rw [mem_filter, filed.exact, bne_iff_ne, sameId]
    apply and_congr_left
    intro different
    constructor
    · rintro ⟨other, there, isId, expiry⟩
      refine ⟨other, ?_, isId, expiry⟩
      rw [getElem?_set_ne]
      · exact there
      · intro sameSlot
        rw [← sameSlot, here, Option.some.injEq, Option.some.injEq] at there
        exact different (there ▸ isId)
    · rintro ⟨other, there, isId, expiry⟩
      refine ⟨other, ?_, isId, expiry⟩
      rw [getElem?_set_ne] at there
      · exact there
      intro sameSlot
      rw [← sameSlot, getElem?_set_self inside, Option.some.injEq, Option.some.injEq] at there
      rw [← there, sameId] at isId
      exact different isId
  case once => exact filed.once.filter _
  case sorted => exact filed.sorted.filter _
  case current =>
    intro other member
    rcases (filed.table.mem_replace here sameId).mp member with rfl | ⟨stands, _⟩
    · rw [sameId]
      exact filed.current old (SlotTable.mem_cells_iff.mpr ⟨entrySlot, here⟩)
    · exact filed.current other stands

/-- The records after one was replaced: the new one and those with other ids. -/
theorem Books.mem_replace (member : old ∈ ledger.alive) (other : ShapeRecord) :
    other ∈ (ledger.replace old.id shape now).alive ↔
      other = Ledger.replaced old.id shape now old ∨ other ∈ ledger.alive ∧ other.id ≠ old.id := by
  have unique : ∀ third ∈ ledger.alive, third.id = old.id → third = old := by
    intro third inLedger sameId
    rcases SlotTable.mem_cells_iff.mp ((books.alive third).mpr inLedger) with ⟨first, there⟩
    rcases SlotTable.mem_cells_iff.mp ((books.alive old).mpr member) with ⟨second, here⟩
    have sameSlot := books.filed.table.unique there here sameId
    rw [sameSlot, here, Option.some.injEq, Option.some.injEq] at there
    exact there.symm
  rw [Ledger.replace, mem_map]
  constructor
  · rintro ⟨third, inLedger, rfl⟩
    by_cases sameId : third.id = old.id
    · rw [unique third inLedger sameId]
      exact .inl rfl
    · rw [Ledger.replaced, if_neg sameId]
      exact .inr ⟨inLedger, sameId⟩
  · rintro (rfl | ⟨inLedger, different⟩)
    · exact ⟨old, member, rfl⟩
    · exact ⟨other, inLedger, if_neg different⟩

theorem Books.updateEntry (found : scene.find id = some entrySlot) (shape : Shape)
    (calm : ∀ record, some record ∈ scene.entries → deadlineIsDue record now = false) :
    Books (scene.updateEntry entrySlot id shape now)
      ((ledger.replace id shape now).expire now) := by
  rcases find_spec found with ⟨old, here, rfl⟩
  have stands := SlotTable.mem_cells_iff.mpr ⟨entrySlot, here⟩
  have member := (books.alive old).mp stands
  have kept : (Ledger.replaced old.id shape now old).id = old.id := by
    rw [Ledger.replaced, if_pos rfl]
  have stored : scene.updateEntry entrySlot old.id shape now =
      { scene.removeDeadline old.id with
        entries := scene.entries.set entrySlot
          (some (Ledger.replaced old.id shape now old)) }.store entrySlot
        (Ledger.replaced old.id shape now old) now := by
    rw [Scene.updateEntry, here, Ledger.replaced, if_pos rfl]
  have mem : ∀ other, _ := @Books.mem_replace scene now ledger shape books old member
  have once : (ledger.replace old.id shape now).issued.Nodup := books.once
  rw [stored]
  apply books_store (books.pendingUpdate here kept) _ _ once books.numbered
  · intro other inLedger
    rcases (mem other).mp inLedger with rfl | ⟨inOld, _⟩
    · rw [kept]
      exact books.issued old member
    · exact books.issued other inOld
  · intro other
    rw [mem]
    change some other ∈ scene.entries.set entrySlot _ ↔ _
    rw [books.filed.table.mem_replace here kept, books.alive, kept]
  intro other inEntries different
  rcases (books.filed.table.mem_replace here kept).mp inEntries with rfl | ⟨old, _⟩
  · exact absurd rfl different
  · exact calm other old

theorem Books.removeEntry (found : scene.find id = some entrySlot) :
    Books ((scene.removeDeadline id).vacate entrySlot id) (ledger.erase id) := by
  rcases find_spec found with ⟨old, here, rfl⟩
  have filed := books.filed
  have inside := SlotTable.lt_of_getElem? here
  have mem : ∀ other : ShapeRecord, some other ∈ scene.entries.set entrySlot none ↔
      some other ∈ scene.entries ∧ other.id ≠ old.id :=
    fun other => filed.table.mem_vacate here
  have erased : ∀ other, other ∈ (ledger.erase old.id).alive ↔
      other ∈ ledger.alive ∧ other.id ≠ old.id := by
    intro other
    simp [Ledger.erase]
  constructor
  case filed =>
    constructor
    case table => exact filed.table.vacate here
    case complete => exact filed.complete.vacate
    case exact =>
      intro deadline
      change deadline ∈ scene.deadlines.filter _ ↔
        HasDeadline (scene.entries.set entrySlot none) deadline
      rw [mem_filter, filed.exact, bne_iff_ne]
      constructor
      · rintro ⟨⟨other, there, isId, expiry⟩, different⟩
        refine ⟨other, ?_, isId, expiry⟩
        rw [getElem?_set_ne]
        · exact there
        · intro sameSlot
          rw [← sameSlot, here, Option.some.injEq, Option.some.injEq] at there
          exact different (there ▸ isId)
      · rintro ⟨other, there, isId, expiry⟩
        have elsewhere : entrySlot ≠ deadline.entrySlot := by
          intro sameSlot
          rw [← sameSlot, getElem?_set_self inside] at there
          cases there
        rw [getElem?_set_ne elsewhere] at there
        refine ⟨⟨other, there, isId, expiry⟩, ?_⟩
        intro sameId
        exact elsewhere (filed.table.unique here there (sameId.symm.trans isId))
    case once => exact filed.once.filter _
    case sorted => exact filed.sorted.filter _
    case current =>
      intro other member
      exact filed.current other ((mem other).mp member).1
  case alive =>
    intro other
    change some other ∈ scene.entries.set entrySlot none ↔ _
    rw [mem, books.alive, erased]
  case once => exact books.once
  case numbered => exact books.numbered
  case issued =>
    intro other member
    exact books.issued other ((erased other).mp member).1

/-! ## Every call keeps the books -/

omit books in
theorem books_start : Books {} {} where
  filed :=
    { table := SlotTable.nil
      complete := fun _ impossible => by cases impossible
      exact := fun _ => by
        constructor
        · nofun
        · rintro ⟨_, impossible, _⟩
          cases impossible
      once := nodup_nil
      sorted := List.Pairwise.nil
      current := fun _ impossible => by cases impossible }
  alive record := by simp
  once := nodup_nil
  numbered := by simp
  issued := by simp

variable (now : Milliseconds)

theorem Books.add (shape : Shape) :
    Books (scene.add now shape).1 (ledger.afterAdd now shape (scene.add now shape).2) ∧
      ∀ id, (scene.add now shape).2 = .ok id → id ∉ ledger.issued := by
  rcases books.drainExpired now with ⟨drained, calm⟩
  unfold Scene.add
  dsimp only
  by_cases valid : shapeIsValid shape = true
  · rw [if_pos valid]
    rcases drained.addEntry shape calm with ⟨error, failed⟩ | ⟨grown, added, entered⟩
    · rw [failed]
      exact ⟨drained.beginPublication, fun id impossible => by cases impossible⟩
    rw [added]
    refine ⟨entered.beginPublication, ?_⟩
    intro id issued
    cases issued
    exact drained.fresh shape now
  · rw [if_neg valid]
    exact ⟨drained.beginPublication, fun id impossible => by cases impossible⟩

theorem Books.update (id : ShapeId) (shape : Shape) :
    Books (scene.update now id shape).1
        (ledger.afterUpdate now id shape (scene.update now id shape).2) ∧
      ((scene.update now id shape).2 = .ok () ↔
        (ledger.expire now).Holds id ∧ shapeIsValid shape = true) := by
  rcases books.drainExpired now with ⟨drained, calm⟩
  have holds := @Books.find_isSome_iff _ _ id drained
  unfold Scene.update
  dsimp only
  cases found : (scene.drainExpired now).find id with
  | none =>
    rw [found] at holds
    refine ⟨drained.beginPublication, iff_of_false (by simp) ?_⟩
    rintro ⟨alive, _⟩
    cases holds.mpr alive
  | some entrySlot =>
    rw [found] at holds
    dsimp only
    by_cases valid : shapeIsValid shape = true
    · rw [if_pos valid]
      exact ⟨(drained.updateEntry found shape calm).beginPublication,
        iff_of_true rfl ⟨holds.mp rfl, valid⟩⟩
    · rw [if_neg valid]
      exact ⟨drained.beginPublication, iff_of_false (by simp) fun both => valid both.2⟩

theorem Books.remove (id : ShapeId) :
    Books (scene.remove now id).1 (ledger.afterRemove now id (scene.remove now id).2) ∧
      ((scene.remove now id).2 = .ok () ↔ (ledger.expire now).Holds id) := by
  rcases books.drainExpired now with ⟨drained, _⟩
  have holds := @Books.find_isSome_iff _ _ id drained
  unfold Scene.remove
  dsimp only
  cases found : (scene.drainExpired now).find id with
  | none =>
    rw [found] at holds
    refine ⟨drained.beginPublication, iff_of_false (by simp) ?_⟩
    intro alive
    cases holds.mpr alive
  | some entrySlot =>
    rw [found] at holds
    exact ⟨(drained.removeEntry found).beginPublication, iff_of_true rfl (holds.mp rfl)⟩

/-- The ids of the new epoch start again; all old ones are of earlier epochs. -/
theorem Books.clear : Books (scene.clear now) ledger.afterClear := by
  rcases books.drainExpired now with ⟨drained, _⟩
  unfold Scene.clear
  apply Books.beginPublication
  have nothing : ∀ record : ShapeRecord,
      some record ∉ (scene.drainExpired now).entries.map fun _ => (none : Option ShapeRecord) := by
    simp
  constructor
  case filed =>
    constructor
    case table => exact SlotTable.clear _
    case complete => exact SlotTable.Complete.clear _
    case exact =>
      intro deadline
      apply iff_of_false not_mem_nil
      rintro ⟨record, here, _⟩
      exact nothing record (SlotTable.mem_cells_iff.mpr ⟨_, here⟩)
    case once => exact nodup_nil
    case sorted => exact List.Pairwise.nil
    case current => exact fun record member => absurd member (nothing record)
  case alive => exact fun record => iff_of_false (nothing record) not_mem_nil
  case once => exact books.once
  case numbered =>
    intro id member
    apply Or.inl
    change id.epoch < (scene.drainExpired now).epoch + 1
    rcases drained.numbered id member with earlier | ⟨sameEpoch, _⟩
    · exact Nat.lt_succ_of_lt earlier
    · exact sameEpoch ▸ Nat.lt_succ_self _
  case issued => exact fun record member => absurd member not_mem_nil

theorem Books.takeDelta : Books scene.takeDelta.1 ledger := by
  cases found : scene.pendingDeltas[scene.publicationCursor]? with
  | none =>
    rw [takeDelta_none found]
    exact books.of_eq rfl rfl rfl rfl rfl
  | some delta =>
    rw [takeDelta_some found]
    exact books.of_eq rfl rfl rfl rfl rfl

end Scene

open Scene

theorem Booked.books {scene : Scene} {ledger : Ledger} (booked : Booked scene ledger) :
    Books scene ledger := by
  induction booked with
  | start => exact books_start
  | add _ now shape ih => exact (ih.add now shape).1
  | update _ now id shape ih => exact (ih.update now id shape).1
  | remove _ now id ih => exact (ih.remove now id).1
  | clear _ now ih => exact ih.clear now
  | snapshot _ now ih => exact (ih.drainExpired now).1.beginPublication
  | takeDelta _ ih => exact ih.takeDelta

/-- Ids are issued once and are good until their shape is removed, expires or is cleared;
deadlines and free slots are exact. -/
structure Identified (scene : Scene) (ledger : Ledger) : Prop where
  once : ledger.issued.Nodup
  fresh : ∀ now shape id, (scene.add now shape).2 = .ok id → id ∉ ledger.issued
  issued : ∀ id, ledger.Holds id → id ∈ ledger.issued
  removes : ∀ now id, (scene.remove now id).2 = .ok () ↔ (ledger.expire now).Holds id
  updates : ∀ now id shape, (scene.update now id shape).2 = .ok () ↔
    (ledger.expire now).Holds id ∧ shapeIsValid shape = true
  live : ∀ record, some record ∈ scene.entries ↔ record ∈ ledger.alive
  deadlines : ∀ deadline, deadline ∈ scene.deadlines ↔ HasDeadline scene.entries deadline
  oneDeadline : scene.deadlines.Nodup ∧ (scene.deadlines.map Deadline.id).Nodup
  free : scene.freeSlots.Nodup ∧ ∀ slot, slot ∈ scene.freeSlots ↔ scene.entries[slot]? = some none

/-- A filled polygon, and one that nothing paints. -/
def filled : Shape := { geometry := .polygon [], stroke := none, fill := some ⟨⟨255, 0, 0, 255⟩⟩ }

def unpainted : Shape := { geometry := .polygon [], stroke := none, fill := none }

end Grab.Overlay

import Grab.Desktop.InputSeat
import Grab.Lib.RingBuffer

/-!
# The injection ledger

`drivers/desktop/x11/injection_ledger.hpp`: injected events are remembered in a ring of 64
entries for half a second, and each observed event uses up the oldest entry that matches it.
Readings of the clock are whole nanoseconds.
-/

namespace Grab.Desktop

open Grab.Lib List

namespace InjectionLedger

structure Entry where
  kind : InjectionKind := .buttonPress
  detail : UInt32 := 0
  recordedAt : Int := 0
  deriving DecidableEq

def entryLifetime : Int := 500000000

def capacity : Nat := 64

def expired (now : Int) (entry : Entry) : Bool := entry.recordedAt + entryLifetime ≤ now

def suits (kind : InjectionKind) (detail : UInt32) (entry : Entry) : Bool :=
  entry.kind = kind && entry.detail = detail

def initial : RingBuffer Entry := .blank capacity {}

def record (ledger : RingBuffer Entry) (entry : Entry) : RingBuffer Entry :=
  if full : ledger.size = ledger.cells.length then ledger.overwrite entry
  else ledger.push entry (Nat.lt_of_le_of_ne ledger.fits full)

/-- The first loop of `consume_match`, for at most so many rounds. -/
def dropExpired (now : Int) : Nat → RingBuffer Entry → RingBuffer Entry
  | 0, ledger => ledger
  | rounds + 1, ledger =>
    if 0 < ledger.size ∧ ledger.cells[ledger.head]?.any (expired now) = true then
      dropExpired now rounds ledger.advance
    else ledger

/-- The offset at which the second loop of `consume_match` stops. -/
def findMatch (ledger : RingBuffer Entry) (kind : InjectionKind) (detail : UInt32) : Option Nat :=
  (List.range ledger.size).find? fun offset =>
    ledger.cells[ledger.index offset]?.any (suits kind detail)

def consumeMatch (ledger : RingBuffer Entry) (kind : InjectionKind) (detail : UInt32)
    (now : Int) : RingBuffer Entry × Bool :=
  let ledger := dropExpired now ledger.size ledger
  match findMatch ledger kind detail with
  | some offset => (ledger.removeAt offset, true)
  | none => (ledger, false)

/-! ## The plain list -/

/-- The list of entries that the ring stands for. -/
def plainRecord (entries : List Entry) (entry : Entry) : List Entry :=
  if entries.length = capacity then entries.tail ++ [entry] else entries ++ [entry]

def plainConsume (entries : List Entry) (kind : InjectionKind) (detail : UInt32) (now : Int) :
    List Entry × Bool :=
  let live := entries.filter fun entry => !expired now entry
  (live.eraseP (suits kind detail), live.any (suits kind detail))

inductive Call where
  | record (kind : InjectionKind) (detail : UInt32)
  | consumeMatch (kind : InjectionKind) (detail : UInt32)
  deriving DecidableEq

/-- Calls at readings of the clock, with what each was answered. -/
def run {σ : Type} (record : σ → Entry → σ)
    (consume : σ → InjectionKind → UInt32 → Int → σ × Bool) :
    σ → List (Int × Call) → List (Call × Bool)
  | _, [] => []
  | state, (now, .record kind detail) :: rest =>
    (.record kind detail, false) :: run record consume (record state ⟨kind, detail, now⟩) rest
  | state, (now, .consumeMatch kind detail) :: rest =>
    let answer := consume state kind detail now
    (.consumeMatch kind detail, answer.2) :: run record consume answer.1 rest

variable {ledger : RingBuffer Entry} {entries : List Entry} {now : Int}

theorem contents_record (whole : ledger.cells.length = capacity) (entry : Entry) :
    (record ledger entry).contents = plainRecord ledger.contents entry ∧
      (record ledger entry).cells.length = capacity := by
  rw [plainRecord, RingBuffer.length_contents, ← whole, record]
  split
  · rename_i full
    refine ⟨RingBuffer.contents_overwrite ?_ full entry, List.length_set⟩
    rw [full, whole]
    decide
  · exact ⟨RingBuffer.contents_push _, List.length_set⟩

theorem contents_dropExpired {rounds : Nat} (enough : ledger.size ≤ rounds) :
    (dropExpired now rounds ledger).contents = ledger.contents.dropWhile (expired now) ∧
      (dropExpired now rounds ledger).cells.length = ledger.cells.length := by
  induction rounds generalizing ledger with
  | zero =>
    have empty : ledger.contents = [] :=
      List.length_eq_zero_iff.mp (ledger.length_contents.trans (Nat.le_zero.mp enough))
    rw [dropExpired, empty]
    exact ⟨rfl, rfl⟩
  | succ rounds later =>
    rw [dropExpired]
    cases split : ledger.contents with
    | nil =>
      have empty : ¬0 < ledger.size := by
        rw [← RingBuffer.length_contents, split]
        exact Nat.lt_irrefl 0
      rw [if_neg fun both => empty both.1]
      exact ⟨split, rfl⟩
    | cons entry rest =>
      have nonEmpty : 0 < ledger.size := by
        rw [← RingBuffer.length_contents, split]
        exact Nat.succ_pos _
      rw [RingBuffer.cells_head nonEmpty, split, List.head?_cons, Option.any_some]
      by_cases old : expired now entry = true
      · have fewer : ledger.advance.size ≤ rounds := Nat.sub_le_of_le_add enough
        have moved := later fewer
        rw [RingBuffer.contents_advance nonEmpty, split] at moved
        rw [if_pos ⟨nonEmpty, old⟩, List.dropWhile_cons_of_pos old]
        exact moved
      · rw [if_neg fun both => old both.2, List.dropWhile_cons_of_neg old]
        exact ⟨split, rfl⟩

theorem findMatch_eq (kind : InjectionKind) (detail : UInt32) :
    findMatch ledger kind detail = ledger.contents.findIdx? (suits kind detail) := by
  have looked : ∀ place, (inside : place < ledger.contents.length) →
      ledger.cells[ledger.index place]?.any (suits kind detail) =
        suits kind detail ledger.contents[place] := by
    intro place inside
    rw [← RingBuffer.getElem?_contents (inside.trans_eq ledger.length_contents),
      getElem?_eq_getElem inside, Option.any_some]
  ext offset
  rw [findMatch, find?_range_eq_some, findIdx?_eq_some_iff_getElem, mem_range,
    ← RingBuffer.length_contents]
  constructor
  · rintro ⟨suited, inside, before⟩
    refine ⟨inside, (looked offset inside).symm.trans suited, fun place earlier => ?_⟩
    have other := before place earlier
    rw [looked place (earlier.trans inside)] at other
    simpa using other
  rintro ⟨inside, suited, before⟩
  refine ⟨(looked offset inside).trans suited, inside, fun place earlier => ?_⟩
  rw [looked place (earlier.trans inside)]
  simpa using before place earlier

/-- Entries recorded in order expire in order. -/
theorem dropWhile_expired
    (sorted : entries.Pairwise fun first second => first.recordedAt ≤ second.recordedAt) :
    entries.dropWhile (expired now) = entries.filter fun entry => !expired now entry := by
  induction sorted with
  | nil => rfl
  | @cons entry rest later _ remaining =>
    by_cases old : expired now entry = true
    · rw [dropWhile_cons_of_pos old, remaining, filter_cons_of_neg (by simp [old])]
    rw [dropWhile_cons_of_neg old, eq_comm, filter_eq_self]
    intro other member
    have young : ∀ recordedAt, entry.recordedAt ≤ recordedAt →
        ¬recordedAt + entryLifetime ≤ now := by
      intro recordedAt after
      simp only [expired, decide_eq_true_eq] at old
      omega
    rcases mem_cons.mp member with rfl | behind
    · simpa using old
    · simpa [expired] using young _ (later other behind)

theorem contents_consumeMatch (kind : InjectionKind) (detail : UInt32) (now : Int)
    (sorted : ledger.contents.Pairwise fun first second =>
      first.recordedAt ≤ second.recordedAt) : (consumeMatch ledger kind detail now).1.contents =
        (plainConsume ledger.contents kind detail now).1 ∧
      (consumeMatch ledger kind detail now).2 = (plainConsume ledger.contents kind detail now).2 ∧
      (consumeMatch ledger kind detail now).1.cells.length = ledger.cells.length := by
  rcases contents_dropExpired (Nat.le_refl ledger.size) with ⟨live, same⟩
  rw [dropWhile_expired sorted] at live
  rw [consumeMatch, plainConsume, ← live, ← findIdx?_isSome, eraseP_eq_eraseIdx, findMatch_eq]
  cases found : (dropExpired now ledger.size ledger).contents.findIdx? (suits kind detail) with
  | none => exact ⟨rfl, rfl, same⟩
  | some offset =>
    rcases findIdx?_eq_some_iff_getElem.mp found with ⟨inside, _⟩
    rw [RingBuffer.length_contents] at inside
    exact ⟨RingBuffer.contents_removeAt (Nat.zero_lt_of_lt inside) inside, rfl,
      (RingBuffer.length_shifted _ _).trans same⟩

/-- The recorded times, and the times to come, stay in order. -/
theorem run_contents (whole : ledger.cells.length = capacity) {calls : List (Int × Call)}
    (ordered : (ledger.contents.map Entry.recordedAt ++ calls.map Prod.fst).Pairwise (· ≤ ·)) :
    run record consumeMatch ledger calls = run plainRecord plainConsume ledger.contents calls := by
  induction calls generalizing ledger with
  | nil => rfl
  | cons call rest later =>
    rcases call with ⟨now, call⟩
    cases call with
    | record kind detail =>
      rcases contents_record whole ⟨kind, detail, now⟩ with ⟨held, same⟩
      rw [run, run, ← held, later same]
      rw [held, plainRecord]
      rw [map_cons, append_cons] at ordered
      split
      · rw [map_append]
        exact ordered.sublist (((tail_sublist _).map _).append_right _ |>.append_right _)
      · rw [map_append]
        exact ordered
    | consumeMatch kind detail =>
      have sorted := pairwise_map.mp (pairwise_append.mp ordered).1
      rcases contents_consumeMatch kind detail now sorted with ⟨held, found, same⟩
      rw [run, run, found, ← held, later (same.trans whole)]
      rw [held]
      exact ordered.sublist
        (((eraseP_sublist.trans filter_sublist).map _).append (sublist_cons_self _ _))

variable (kind : InjectionKind) (detail : UInt32)

theorem countP_plainRecord (entry : Entry) :
    (plainRecord entries entry).countP (suits kind detail) ≤
      entries.countP (suits kind detail) + if suits kind detail entry then 1 else 0 := by
  have added : (if suits kind detail entry then 1 else 0) = countP (suits kind detail) [entry] := by
    rw [countP_cons, countP_nil, Nat.zero_add]
  rw [plainRecord, added, ← countP_append]
  split
  · exact ((tail_sublist entries).append_right _).countP_le
  · exact Nat.le_refl _

theorem countP_plainConsume (now : Int) :
    (plainConsume entries kind detail now).1.countP (suits kind detail) +
        (if (plainConsume entries kind detail now).2 then 1 else 0) ≤
      entries.countP (suits kind detail) := by
  apply Nat.le_trans _ (filter_sublist (p := fun entry => !expired now entry)).countP_le
  rw [plainConsume]
  split
  · rename_i found
    rcases any_eq_true.mp found with ⟨entry, member, suited⟩
    rcases exists_of_eraseP member suited with ⟨first, before, after, _, suited, split, erased⟩
    rw [erased, split, countP_append, countP_append, countP_cons_of_pos suited, Nat.add_assoc]
  · exact eraseP_sublist.countP_le

/-- An entry answers one observation of its kind and detail. -/
theorem count_consumed (calls : List (Int × Call)) :
    (run plainRecord plainConsume entries calls).count (.consumeMatch kind detail, true) ≤
      entries.countP (suits kind detail) +
        (run plainRecord plainConsume entries calls).count (.record kind detail, false) := by
  induction calls generalizing entries with
  | nil => exact Nat.zero_le _
  | cons call rest later =>
    rcases call with ⟨now, call⟩
    cases call with
    | record other code =>
      have bound := @later (plainRecord entries ⟨other, code, now⟩)
      have held := @countP_plainRecord entries kind detail ⟨other, code, now⟩
      rw [run, count_cons, count_cons]
      simp only [suits, Bool.and_eq_true, decide_eq_true_eq] at held
      simp only [beq_iff_eq, Prod.mk.injEq, Call.record.injEq, and_true, reduceCtorEq, false_and,
        if_false]
      omega
    | consumeMatch other code =>
      have bound := @later (plainConsume entries other code now).1
      rw [run, count_cons, count_cons]
      simp only [beq_iff_eq, Prod.mk.injEq, Call.consumeMatch.injEq, reduceCtorEq, false_and,
        if_false]
      by_cases same : other = kind ∧ code = detail
      · rcases same with ⟨rfl, rfl⟩
        have used := @countP_plainConsume entries other code now
        simp only [true_and]
        omega
      have kept : (plainConsume entries other code now).1 <+ entries :=
        eraseP_sublist.trans filter_sublist
      have fewer := kept.countP_le (p := suits kind detail)
      rw [if_neg fun both => same both.1]
      omega

/-- For calls at readings of the clock that never go back, the ring answers as the plain list,
and every recorded injection is used up by at most one observation of its kind and detail. -/
theorem run_ledger (calls : List (Int × Call)) (ordered : (calls.map Prod.fst).Pairwise (· ≤ ·)) :
    run record consumeMatch initial calls = run plainRecord plainConsume [] calls ∧
      ∀ kind detail, (run record consumeMatch initial calls).count
          (.consumeMatch kind detail, true) ≤
        (run record consumeMatch initial calls).count (.record kind detail, false) := by
  have empty : initial.contents = [] := RingBuffer.contents_blank _ _
  have inOrder : (initial.contents.map Entry.recordedAt ++ calls.map Prod.fst).Pairwise
      (· ≤ ·) := by
    rw [empty]
    exact ordered
  have same := run_contents length_replicate inOrder
  rw [empty] at same
  refine ⟨same, fun kind detail => ?_⟩
  rw [same]
  have bound := @count_consumed [] kind detail calls
  rwa [countP_nil, Nat.zero_add] at bound

theorem run_ledger_key :
    ([0, 1, 2] : List Int).Pairwise (· ≤ ·) ∧
      run record consumeMatch initial
          [(0, .record .keyPress 38), (1, .consumeMatch .keyPress 38),
            (2, .consumeMatch .keyPress 38)] =
        [(.record .keyPress 38, false), (.consumeMatch .keyPress 38, true),
          (.consumeMatch .keyPress 38, false)] := by
  have ordered : ([0, 1, 2] : List Int).Pairwise (· ≤ ·) := by decide
  exact ⟨ordered, (run_ledger [(0, .record .keyPress 38), (1, .consumeMatch .keyPress 38),
    (2, .consumeMatch .keyPress 38)] ordered).1⟩

end InjectionLedger

end Grab.Desktop

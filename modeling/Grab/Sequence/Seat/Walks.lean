import Grab.Sequence.Seat.Waiting

/-!
# Walks

The waypoints of a walk are due one dwell after another.  A tick emits the ones that are due, in
their order and however late it comes, so that a schedule of ticks alone decides what has been
emitted and how late the worst of it was.
-/

namespace Grab.Kernel

open Grab.Sequence Grab.Geometry SeatRunner List

/-! ## Schedules -/

def dwellOf (command : Command) : Milliseconds :=
  match command with
  | .move _ _ options => options.stepDwell
  | .follow _ options => options.stepDwell
  | .drag _ _ _ options => options.stepDwell
  | _ => 0

/-- When a waypoint of a walk is due. -/
def due (started : TimePoint) (dwell : Milliseconds) (index : Nat) : TimePoint :=
  started + nanosecondsOf dwell * (index + 1)

/-- How many of a number of waypoints are due at a time. -/
def dueCount (started : TimePoint) (dwell : Milliseconds) (count : Nat) (time : TimePoint) : Nat :=
  ((List.range count).filter fun index => decide (due started dwell index ≤ time)).length

/-- How late a waypoint comes on a schedule: at the first tick that finds it due. -/
def lateness (times : List TimePoint) (due : TimePoint) : Nanoseconds :=
  match times.find? fun time => decide (due ≤ time) with
  | some time => time - due
  | none => 0

def worstLateness (times : List TimePoint) (started : TimePoint) (dwell : Milliseconds)
    (count : Nat) : Nanoseconds :=
  (List.range count).foldl
    (fun worst index => max worst (lateness times (due started dwell index))) 0

/-- Where a call moved the pointer to. -/
def Record.motion : Record → Option Point
  | .call _ (.movePointerAbsolute x y) _ => some ⟨x, y⟩
  | _ => none

def motions (log : List Record) : List Point := log.filterMap Record.motion

/-- Ticks of one step, for as long as it answers that it runs on. -/
def tickAll {σ : Type} (seat : Seat σ) (step : Step) :
    List TimePoint → SeatState σ → Status × SeatState σ
  | [], runner => (.running, runner)
  | now :: rest, runner =>
    if (tick seat step now runner).1 = .running then
      tickAll seat step rest (tick seat step now runner).2
    else tick seat step now runner

section

variable {started now : TimePoint} {dwell : Milliseconds} {times : List TimePoint}
  {emitted count : Nat}

theorem due_mono (nonnegative : 0 ≤ dwell) {first second : Nat} (isEarlier : first ≤ second) :
    due started dwell first ≤ due started dwell second := by
  have span : 0 ≤ nanosecondsOf dwell := Int.mul_nonneg nonnegative (by decide)
  have factor : (first : Int) + 1 ≤ second + 1 := by omega
  exact Int.add_le_add_left (Int.mul_le_mul_of_nonneg_left factor span) _

theorem filter_due_eq {emitted : Nat} (arrived : ∀ index < emitted, due started dwell index ≤ now) :
    (List.range emitted).filter (fun index => decide (due started dwell index ≤ now)) =
      List.range emitted :=
  filter_eq_self.mpr fun index member =>
    decide_eq_true (arrived index (mem_range.mp member))

theorem dueCount_eq (nonnegative : 0 ≤ dwell) (inside : emitted ≤ count)
    (arrived : ∀ index < emitted, due started dwell index ≤ now)
    (awaited : emitted < count → now < due started dwell emitted) :
    dueCount started dwell count now = emitted := by
  rcases Nat.exists_eq_add_of_le inside with ⟨left, rfl⟩
  have back : ((List.range left).map (emitted + ·)).filter (fun index =>
      decide (due started dwell index ≤ now)) = [] := by
    apply filter_eq_nil_iff.mpr
    intro index member isDue
    rcases mem_map.mp member with ⟨offset, inLeft, rfl⟩
    have early := awaited (by have := mem_range.mp inLeft; omega)
    have later : due started dwell emitted ≤ due started dwell (emitted + offset) :=
      due_mono nonnegative (Nat.le_add_right _ _)
    exact absurd (later.trans (of_decide_eq_true isDue)) (Int.not_le.mpr early)
  rw [dueCount, range_add, filter_append, filter_due_eq arrived, back, append_nil, length_range]

theorem le_dueCount (inside : emitted ≤ count)
    (arrived : ∀ index < emitted, due started dwell index ≤ now) :
    emitted ≤ dueCount started dwell count now := by
  rcases Nat.exists_eq_add_of_le inside with ⟨left, rfl⟩
  rw [dueCount, range_add, filter_append, filter_due_eq arrived, length_append, length_range]
  exact Nat.le_add_right _ _

/-- Later ticks do not change how late a waypoint was. -/
theorem lateness_append {due : TimePoint} (arrived : ∃ time ∈ times, due ≤ time)
    (later : List TimePoint) : lateness (times ++ later) due = lateness times due := by
  have found : (times.find? fun time => decide (due ≤ time)).isSome = true := by
    rcases arrived with ⟨time, member, isDue⟩
    exact find?_isSome.mpr ⟨time, member, decide_eq_true isDue⟩
  rw [lateness, lateness, find?_append]
  cases first : times.find? fun time => decide (due ≤ time) with
  | none =>
    rw [first] at found
    cases found
  | some time => rfl

/-- A waypoint that no tick found due comes with the next that does. -/
theorem lateness_new {due : TimePoint} (awaited : ∀ time ∈ times, time < due)
    (isDue : due ≤ now) : lateness (times ++ [now]) due = now - due := by
  have none : (times.find? fun time => decide (due ≤ time)) = none := by
    apply find?_eq_none.mpr
    intro time member found
    exact absurd (of_decide_eq_true found) (Int.not_le.mpr (awaited time member))
  rw [lateness, find?_append, none]
  simp [isDue]

theorem worstLateness_append {count : Nat}
    (arrived : ∀ index < count, ∃ time ∈ times, due started dwell index ≤ time)
    (later : List TimePoint) :
    worstLateness (times ++ later) started dwell count =
      worstLateness times started dwell count := by
  rw [worstLateness, worstLateness]
  apply foldl_ext
  intro worst index member
  rw [lateness_append (arrived index (mem_range.mp member))]

/-- What a tick adds to the worst of a schedule. -/
theorem worstLateness_tick
    (arrived : ∀ index < emitted, ∃ time ∈ times, due started dwell index ≤ time)
    (awaited : ∀ index < count, ∀ time ∈ times, time < due started dwell (emitted + index))
    (isDue : ∀ index < count, due started dwell (emitted + index) ≤ now) : (List.range count).foldl
        (fun worst index => max worst (now - due started dwell (emitted + index)))
        (worstLateness times started dwell emitted) =
      worstLateness (times ++ [now]) started dwell (emitted + count) := by
  rw [← worstLateness_append arrived [now], worstLateness, worstLateness, range_add,
    foldl_append, foldl_map]
  apply foldl_ext
  intro worst index member
  have inCount := mem_range.mp member
  rw [lateness_new (awaited index inCount) (isDue index inCount)]

end

/-! ## One tick -/

section

variable {σ : Type} {seat : Seat σ} {origin : Origin}

theorem motions_append (first second : List Record) :
    motions (first ++ second) = motions first ++ motions second :=
  filterMap_append

theorem warpTo_motions {point : Point} (reachable : inSeatRange point = true) (wire : Wire σ) :
    ∃ calls, (warpTo seat origin point wire).2.log = wire.log ++ calls ∧
      motions calls = [point] ∧
      ((warpTo seat origin point wire).1 = false → ∃ call ∈ calls, call.failed = true) := by
  rw [warpTo, if_pos reachable, Attempt.andThen]
  split
  · refine ⟨[_, _], append_assoc _ _ _, rfl, fun failed => ?_⟩
    refine ⟨_, mem_cons_of_mem _ mem_cons_self, ?_⟩
    exact congrArg not failed
  · rename_i refused
    rw [Bool.not_eq_true] at refused
    exact ⟨[_], rfl, rfl, fun _ => ⟨_, mem_cons_self, congrArg not refused⟩⟩

theorem driveButton_motions (code : UInt8) (pressed : Bool) (wire : Wire σ) :
    ∃ calls, (driveButton seat origin code pressed wire).2.log = wire.log ++ calls ∧
      motions calls = [] := by
  rw [driveButton, Attempt.andThen]
  split
  · exact ⟨[_, _], append_assoc _ _ _, rfl⟩
  · exact ⟨[_], rfl, rfl⟩

/-- What a tick of a walk does: it emits the waypoints that are due, up to one that fails. -/
structure Walked (dwell : Milliseconds) (now : TimePoint) (before : CommandState) (wire : Wire σ)
    (answer : Answer σ) (count : Nat) (calls : List Record) : Prop where
  scratch : answer.2.1 =
    { before with
      emitted := before.emitted + count
      worstOvershoot := (List.range count).foldl
        (fun worst index => max worst (now - due before.started dwell (before.emitted + index)))
        before.worstOvershoot }
  log : answer.2.2.log = wire.log ++ calls
  inside : before.emitted + count ≤ before.waypoints.length
  arrived : ∀ index < count, due before.started dwell (before.emitted + index) ≤ now
  moves : answer.1 ≠ .failure →
    motions calls = (before.waypoints.drop before.emitted).take count ∧
      (before.emitted + count < before.waypoints.length →
        now < due before.started dwell (before.emitted + count))
  finishes : answer.1 = .success → before.emitted + count = before.waypoints.length
  fails : answer.1 = .failure → before.emitted + count < before.waypoints.length ∧
    due before.started dwell (before.emitted + count) ≤ now ∧
    motions calls = (before.waypoints.drop before.emitted).take (count + 1) ∧
    ∃ call ∈ calls, call.failed = true

theorem advanceLoop_walked (now : TimePoint) (remaining : Nat) (before : CommandState)
    (wire : Wire σ) (isLeft : before.emitted + remaining = before.waypoints.length)
    (reachable : ∀ point ∈ before.waypoints, inSeatRange point = true) :
    ∃ count calls, Walked dwell now before wire
      (advanceLoop seat origin dwell now remaining before wire) count calls := by
  induction remaining generalizing before wire with
  | zero =>
    refine ⟨0, [], rfl, (append_nil _).symm, by omega, ?_, ?_, fun _ => isLeft, ?_⟩
    · exact fun index impossible => absurd impossible (Nat.not_lt_zero index)
    · exact fun _ => ⟨rfl, fun isMore => absurd isMore (by omega)⟩
    · exact fun impossible => by cases impossible
  | succ remaining later =>
    have inside : before.emitted < before.waypoints.length := by omega
    rw [advanceLoop]
    split
    · rename_i early
      refine ⟨0, [], rfl, (append_nil _).symm, inside.le, ?_, ?_, ?_, ?_⟩
      · exact fun index impossible => absurd impossible (Nat.not_lt_zero index)
      · exact fun _ => ⟨rfl, fun _ => early⟩
      · exact fun impossible => by cases impossible
      · exact fun impossible => by cases impossible
    rename_i isDue
    rw [Int.not_lt] at isDue
    have pointEq := getElem?_eq_getElem inside
    have drops := drop_eq_getElem_cons inside
    generalize before.waypoints[before.emitted] = point at pointEq drops
    rw [pointEq]
    dsimp only
    rcases @warpTo_motions σ seat origin point
      (reachable point (mem_of_getElem? pointEq)) wire with
      ⟨front, frontLog, frontMoves, frontFails⟩
    split
    · rcases later
        { before with
          emitted := before.emitted + 1
          worstOvershoot := max before.worstOvershoot (now - waypointInstant before dwell) }
        (warpTo seat origin point wire).2 (by simp only; omega) reachable with
        ⟨count, calls, walked⟩
      have shift : ∀ index, before.emitted + 1 + index = before.emitted + (index + 1) :=
        fun index => by omega
      refine ⟨count + 1, front ++ calls, ?_, ?_, ?_, ?_, ?_, ?_, ?_⟩
      · rw [walked.scratch, range_succ_eq_map, foldl_cons, foldl_map]
        simp only [shift]
        rfl
      · rw [walked.log, frontLog, append_assoc]
      · have fits := walked.inside
        simp only [shift] at fits
        exact fits
      · intro index isBefore
        cases index with
        | zero => exact isDue
        | succ index =>
          have arrived := walked.arrived index (Nat.lt_of_succ_lt_succ isBefore)
          simp only [shift] at arrived
          exact arrived
      · intro stands
        rcases walked.moves stands with ⟨moved, awaits⟩
        rw [motions_append, frontMoves, moved, drops]
        refine ⟨rfl, ?_⟩
        simp only [shift] at awaits
        exact awaits
      · intro succeeded
        have whole := walked.finishes succeeded
        simp only [shift] at whole
        exact whole
      · intro failed
        rcases walked.fails failed with ⟨isMore, stillDue, moved, call, member, refused⟩
        simp only [shift] at isMore stillDue
        refine ⟨isMore, stillDue, ?_, call, mem_append_right _ member, refused⟩
        rw [motions_append, frontMoves, moved, drops]
        rfl
    · rename_i refused
      rw [Bool.not_eq_true] at refused
      refine ⟨0, front, rfl, frontLog, inside.le, ?_, ?_, ?_, fun _ => ?_⟩
      · exact fun index impossible => absurd impossible (Nat.not_lt_zero index)
      · exact fun stands => absurd rfl stands
      · exact fun impossible => by cases impossible
      · refine ⟨inside, isDue, ?_, frontFails refused⟩
        rw [frontMoves, drops]
        rfl

variable {step : Step} {runner : SeatState σ} {started now : TimePoint} {times : List TimePoint}

/-- A tick that makes no moves beyond those of the walk it stands on. -/
structure Passes (answer body : Answer σ) : Prop where
  scratch : ∃ held, body.2.1 = { answer.2.1 with held := held }
  log : ∃ more, body.2.2.log = answer.2.2.log ++ more ∧ motions more = []
  running : body.1 = .running ↔ answer.1 = .running
  failure : answer.1 = .failure → body.1 = .failure

theorem Passes.refl (answer : Answer σ) : Passes answer answer :=
  ⟨⟨_, rfl⟩, ⟨[], (append_nil _).symm, rfl⟩, Iff.rfl, id⟩

theorem tickCommand_walked (walk : isWalk step.command = true)
    (pointer : seat.capabilities.pointer = true) (now : TimePoint) (before : CommandState)
    (wire : Wire σ) (inside : before.emitted ≤ before.waypoints.length)
    (reachable : ∀ point ∈ before.waypoints, inSeatRange point = true) :
    ∃ answer count calls, Walked (dwellOf step.command) now before wire answer count calls ∧
      Passes answer (tickCommand seat origin step.command now before wire) := by
  have walked : ∀ dwell, ∃ count calls, Walked dwell now before wire
      (advanceWalk seat origin before dwell now wire) count calls :=
    fun dwell => advanceLoop_walked now _ before wire (Nat.add_sub_of_le inside) reachable
  have plain : ∀ dwell, tickCommand seat origin step.command now before wire =
      advanceWalk seat origin before dwell now wire → dwellOf step.command = dwell →
      ∃ answer count calls, Walked (dwellOf step.command) now before wire answer count calls ∧
        Passes answer (tickCommand seat origin step.command now before wire) := by
    intro dwell same isDwell
    rcases walked dwell with ⟨count, calls, whole⟩
    rw [isDwell, same]
    exact ⟨_, count, calls, whole, Passes.refl _⟩
  cases commandIs : step.command with
  | move start target options | follow path options =>
    rw [commandIs] at plain
    exact plain options.stepDwell (by simp [tickCommand, available, pointer]) rfl
  | drag start target code options =>
    rcases walked options.stepDwell with ⟨count, calls, whole⟩
    have dragged : tickCommand seat origin (.drag start target code options) now before wire =
        tickDrag seat origin code options now before wire := by
      simp [tickCommand, available, pointer]
    refine ⟨_, count, calls, whole, ?_⟩
    rw [dragged, tickDrag]
    generalize advanceWalk seat origin before options.stepDwell now wire = answer
    rcases answer with ⟨status, scratch, after⟩
    cases status with
    | running | failure => exact Passes.refl _
    | success =>
      have log := @driveButton_motions σ seat origin code false after
      dsimp only
      rw [if_neg (by decide)]
      split
      · exact ⟨⟨_, rfl⟩, log, Iff.rfl, fun impossible => by cases impossible⟩
      refine ⟨⟨_, rfl⟩, log, ?_, fun impossible => by cases impossible⟩
      constructor
      · exact fun impossible => by cases impossible
      · exact fun impossible => by cases impossible
  | _ =>
    rw [commandIs] at walk
    cases walk
/-! ## Schedules of ticks -/

/-- Where a schedule of ticks has brought a walk, and where the pointer was moved. -/
structure Paced (dwell : Milliseconds) (started : TimePoint) (walk : List Point)
    (times : List TimePoint) (scratch : CommandState) (moved : List Point) : Prop where
  clock : scratch.started = started
  path : scratch.waypoints = walk
  inside : scratch.emitted ≤ walk.length
  arrived : ∀ index < scratch.emitted, ∃ time ∈ times, due started dwell index ≤ time
  awaited : scratch.emitted < walk.length → ∀ time ∈ times, time < due started dwell scratch.emitted
  moves : moved = walk.take scratch.emitted
  worst : scratch.worstOvershoot = worstLateness times started dwell scratch.emitted

/-- A walk that a failed move of the pointer ended, at a waypoint that was due. -/
structure CutShort (dwell : Milliseconds) (started : TimePoint) (walk : List Point)
    (times : List TimePoint) (scratch : CommandState) (moved : List Point) : Prop where
  inside : scratch.emitted < walk.length
  arrived : ∀ index ≤ scratch.emitted, ∃ time ∈ times, due started dwell index ≤ time
  moves : moved = walk.take (scratch.emitted + 1)
  worst : scratch.worstOvershoot = worstLateness times started dwell scratch.emitted

variable {dwell : Milliseconds} {path : List Point} {scratch : CommandState} {wire : Wire σ}
  {answer : Answer σ} {moved : List Point} {calls : List Record} {count : Nat}

theorem Paced.walked (nonnegative : 0 ≤ dwell) (sorted : ∀ time ∈ times, time ≤ now)
    (paced : Paced dwell started path times scratch moved)
    (walked : Walked dwell now scratch wire answer count calls) : (answer.1 ≠ .failure →
        Paced dwell started path (times ++ [now]) answer.2.1 (moved ++ motions calls)) ∧
      (answer.1 = .success → answer.2.1.emitted = path.length) ∧
      (answer.1 = .failure →
        CutShort dwell started path (times ++ [now]) answer.2.1 (moved ++ motions calls) ∧
          ∃ call ∈ calls, call.failed = true) := by
  rcases paced with ⟨rfl, rfl, inside, arrived, awaited, rfl, worst⟩
  have arrives : ∀ index < scratch.emitted + count,
      ∃ time ∈ times ++ [now], due scratch.started dwell index ≤ time := by
    intro index isBefore
    by_cases wasBefore : index < scratch.emitted
    · rcases arrived index wasBefore with ⟨time, member, isDue⟩
      exact ⟨time, mem_append_left _ member, isDue⟩
    · have isDue := walked.arrived (index - scratch.emitted) (by omega)
      rw [Nat.add_sub_of_le (Nat.not_lt.mp wasBefore)] at isDue
      exact ⟨now, mem_append_right _ mem_cons_self, isDue⟩
  have worstNow : answer.2.1.worstOvershoot =
      worstLateness (times ++ [now]) scratch.started dwell (scratch.emitted + count) := by
    rw [walked.scratch, worst]
    apply worstLateness_tick arrived _ walked.arrived
    intro index isBefore time member
    have early := awaited (by have := walked.inside; omega) time member
    exact Int.lt_of_lt_of_le early (due_mono nonnegative (Nat.le_add_right _ _))
  have taken : ∀ more, scratch.waypoints.take scratch.emitted ++
      (scratch.waypoints.drop scratch.emitted).take more =
        scratch.waypoints.take (scratch.emitted + more) :=
    fun more => take_add.symm
  rw [walked.scratch] at worstNow ⊢
  refine ⟨fun stands => ⟨rfl, rfl, walked.inside, arrives, fun isMore time member => ?_, ?_,
    worstNow⟩, walked.finishes, fun failed => ⟨⟨?_, fun index isBefore => ?_, ?_, worstNow⟩, ?_⟩⟩
  · have early := (walked.moves stands).2 isMore
    rcases mem_append.mp member with old | new
    · exact Int.lt_of_le_of_lt (sorted time old) early
    · rw [mem_singleton.mp new]
      exact early
  · rw [(walked.moves stands).1, taken]
  · exact (walked.fails failed).1
  · by_cases wasBefore : index < scratch.emitted + count
    · exact arrives index wasBefore
    · have here : index = scratch.emitted + count :=
        Nat.le_antisymm isBefore (Nat.not_lt.mp wasBefore)
      rw [here]
      exact ⟨now, mem_append_right _ mem_cons_self, (walked.fails failed).2.1⟩
  · rw [(walked.fails failed).2.2.1, taken]
    rfl
  · exact (walked.fails failed).2.2.2

/-- A walk whose waypoints have all been emitted stays as it is. -/
theorem Paced.extend (paced : Paced dwell started path times scratch moved)
    (finished : scratch.emitted = path.length) (later : List TimePoint) :
    Paced dwell started path (times ++ later) scratch moved where
  clock := paced.clock
  path := paced.path
  inside := paced.inside
  arrived index isBefore := by
    rcases paced.arrived index isBefore with ⟨time, member, isDue⟩
    exact ⟨time, mem_append_left _ member, isDue⟩
  awaited isMore := absurd finished isMore.ne
  moves := paced.moves
  worst := by rw [worstLateness_append paced.arrived, paced.worst]

theorem CutShort.extend (cut : CutShort dwell started path times scratch moved)
    (later : List TimePoint) : CutShort dwell started path (times ++ later) scratch moved where
  inside := cut.inside
  arrived index isBefore := by
    rcases cut.arrived index isBefore with ⟨time, member, isDue⟩
    exact ⟨time, mem_append_left _ member, isDue⟩
  moves := cut.moves
  worst := by
    rw [worstLateness_append fun index isBefore => cut.arrived index isBefore.le, cut.worst]

/-! ## The runner -/

/-- A step that was entered, and what holds of its scratch and of the moves since. -/
structure Walking (step : Step) (entered : SeatState σ)
    (holds : CommandState → List Point → Prop) (runner : SeatState σ) : Prop where
  used : (runner.entries step.id.index).used = true
  begun : (runner.entries step.id.index).state.entered = true
  log : entered.wire.log <+: runner.wire.log
  holds : holds (runner.entries step.id.index).state
    (motions (runner.wire.log.drop entered.wire.log.length))

/-- A walk that was cut short, by a call that failed. -/
structure Stopped (step : Step) (entered : SeatState σ) (dwell : Milliseconds)
    (started : TimePoint) (path : List Point) (times : List TimePoint)
    (result : Status × SeatState σ) : Prop where
  status : result.1 = .failure
  failed : ∃ call ∈ result.2.wire.log.drop entered.wire.log.length, call.failed = true
  cut : CutShort dwell started path times (result.2.entries step.id.index).state
    (motions (result.2.wire.log.drop entered.wire.log.length))

variable {entered : SeatState σ} {options : Input.DragOptions} {state : CommandState}

theorem tick_walking (walk : isWalk step.command = true)
    (pointer : seat.capabilities.pointer = true) (nonnegative : 0 ≤ dwellOf step.command)
    (reachable : ∀ point ∈ path, inSeatRange point = true) (sorted : ∀ time ∈ times, time ≤ now)
    (walking : Walking step entered (Paced (dwellOf step.command) started path times) runner) :
    ((tick seat step now runner).1 = .running →
        Walking step entered (Paced (dwellOf step.command) started path (times ++ [now]))
          (tick seat step now runner).2) ∧
      ((tick seat step now runner).1 ≠ .running →
        Walking step entered (fun scratch moved =>
          Paced (dwellOf step.command) started path (times ++ [now]) scratch moved ∧
            scratch.emitted = path.length) (tick seat step now runner).2 ∨
        Stopped step entered (dwellOf step.command) started path (times ++ [now])
          (tick seat step now runner)) := by
  have paced := walking.holds
  have noLift : liftedBy step.command = none := by
    cases commandIs : step.command with
    | release _ | keyUp _ | overlayRelease =>
      rw [commandIs] at walk
      cases walk
    | _ => rfl
  rcases @tickCommand_walked σ seat (.step .tick step) step walk pointer now
    (runner.entries step.id.index).state runner.wire
    (by rw [paced.path]; exact paced.inside) (by rw [paced.path]; exact reachable) with
    ⟨answer, count, calls, walked, ⟨held, scratchEq⟩, ⟨more, moreLog, still⟩, runs, fails⟩
  have tickedEq := tick_eq seat now walking.used walking.begun rfl
  generalize tickCommand seat (.step .tick step) step.command now
    (runner.entries step.id.index).state runner.wire = body at *
  have stateEq : ((tick seat step now runner).2.entries step.id.index).state =
      { answer.2.1 with held := held } := by
    rw [tickedEq, recordAnswer_entries, Function.update_self]
    exact scratchEq
  have usedStill : ((tick seat step now runner).2.entries step.id.index).used = true := by
    rw [tickedEq, recordAnswer_entries, Function.update_self]
    exact walking.used
  have enteredStill :
      ((tick seat step now runner).2.entries step.id.index).state.entered = true := by
    rw [stateEq, walked.scratch]
    exact walking.begun
  have logEq : (tick seat step now runner).2.wire.log = runner.wire.log ++ (calls ++ more) := by
    rw [tickedEq, recordAnswer_log, completion_eq_nil noLift, append_nil, moreLog, walked.log,
      append_assoc]
  have statusEq : (tick seat step now runner).1 = body.1 := by rw [tickedEq]
  have grown : entered.wire.log <+: (tick seat step now runner).2.wire.log := by
    rw [logEq]
    exact walking.log.trans (prefix_append _ _)
  have dropEq : (tick seat step now runner).2.wire.log.drop entered.wire.log.length =
      runner.wire.log.drop entered.wire.log.length ++ (calls ++ more) := by
    rw [logEq, drop_append_of_le_length walking.log.length_le]
  have movedEq : motions ((tick seat step now runner).2.wire.log.drop entered.wire.log.length) =
      motions (runner.wire.log.drop entered.wire.log.length) ++ motions calls := by
    rw [dropEq, motions_append, motions_append, still, append_nil]
  rcases paced.walked nonnegative sorted walked with ⟨stands, finishes, cuts⟩
  have standing : answer.1 ≠ .failure →
      Paced (dwellOf step.command) started path (times ++ [now])
        ((tick seat step now runner).2.entries step.id.index).state
        (motions ((tick seat step now runner).2.wire.log.drop entered.wire.log.length)) := by
    intro stood
    rcases stands stood with ⟨clock, isPath, inside, arrived, awaited, moves, worst⟩
    rw [stateEq, movedEq]
    exact ⟨clock, isPath, inside, arrived, awaited, moves, worst⟩
  constructor
  case left =>
    intro running
    rw [statusEq] at running
    refine ⟨usedStill, enteredStill, grown, standing ?_⟩
    rw [runs.mp running]
    decide
  case right =>
    intro notRunning
    rw [statusEq] at notRunning
    cases isAnswer : answer.1 with
    | running => exact absurd (runs.mpr isAnswer) notRunning
    | success =>
      refine .inl ⟨usedStill, enteredStill, grown, standing ?_, ?_⟩
      · rw [isAnswer]
        decide
      · rw [stateEq]
        exact finishes isAnswer
    | failure =>
      rcases cuts isAnswer with ⟨⟨inside, arrived, moves, worst⟩, call, member, refused⟩
      refine .inr ⟨statusEq.trans (fails isAnswer), ⟨call, ?_, refused⟩, ?_⟩
      · rw [dropEq]
        exact mem_append_right _ (mem_append_left _ member)
      · rw [stateEq, movedEq]
        exact ⟨inside, arrived, moves, worst⟩

/-- A schedule of ticks, after those there were. -/
theorem tickAll_walking (walk : isWalk step.command = true)
    (pointer : seat.capabilities.pointer = true) (nonnegative : 0 ≤ dwellOf step.command)
    (reachable : ∀ point ∈ path, inSeatRange point = true) {later : List TimePoint}
    (sorted : (times ++ later).Pairwise (· ≤ ·))
    (walking : Walking step entered (Paced (dwellOf step.command) started path times) runner) :
    Walking step entered (Paced (dwellOf step.command) started path (times ++ later))
        (tickAll seat step later runner).2 ∨
      Stopped step entered (dwellOf step.command) started path (times ++ later)
        (tickAll seat step later runner) := by
  induction later generalizing times runner with
  | nil =>
    rw [append_nil]
    exact .inl walking
  | cons now rest onward =>
    have before : ∀ time ∈ times, time ≤ now :=
      fun time member => (pairwise_append.mp sorted).2.2 time member now mem_cons_self
    have ticked := tick_walking walk pointer nonnegative reachable before walking
    rw [append_cons] at sorted ⊢
    rw [tickAll]
    split
    · rename_i running
      exact onward sorted (ticked.1 running)
    rename_i notRunning
    rcases ticked.2 notRunning with finished | stopped
    · exact .inl ⟨finished.used, finished.begun, finished.log,
        finished.holds.1.extend finished.holds.2 rest⟩
    · exact .inr ⟨stopped.status, stopped.failed, stopped.cut.extend rest⟩

/-! ## Entering -/

theorem beginWalk_running {start : Option Point}
    (running : (beginWalk seat origin state options start path wire).1 = .running) :
    (∀ point ∈ path, inSeatRange point = true) ∧
      ∃ deadline, (beginWalk seat origin state options start path wire).2.1 =
        { state with waypoints := path, deadline := deadline } := by
  unfold beginWalk at running ⊢
  split at running
  · cases running
  rename_i reachable
  rw [Bool.not_eq_false] at reachable
  rw [if_neg (by rw [reachable]; exact Bool.noConfusion)]
  dsimp only at running ⊢
  split at running
  · rename_i placed
    rw [if_pos placed]
    exact ⟨all_eq_true.mp reachable, _, rfl⟩
  · cases running

/-- What a walk starts with. -/
structure Begun (now : TimePoint) (state : CommandState) : Prop where
  reachable : ∀ point ∈ state.waypoints, inSeatRange point = true
  started : state.started = now
  entered : state.entered = true
  emitted : state.emitted = 0
  worst : state.worstOvershoot = 0

theorem validateOptions_dwell (valid : ¬validateOptions options = false) :
    0 ≤ options.stepDwell := by
  rw [Bool.not_eq_false, validateOptions, decide_eq_true_eq] at valid
  exact valid.2.2

/-- The entry of a walk that runs on. -/
theorem enterBody_walk {command : Command} (walk : isWalk command = true)
    (running : (enterBody seat origin command now state wire).1 = .running) :
    0 ≤ dwellOf command ∧ Begun now (enterBody seat origin command now state wire).2.1 := by
  have pointer := pointer_of_enterBody walk running
  cases command with
  | move start target options =>
    simp only [enterBody, enterCommand, available, pointer, if_true, enterMove] at running ⊢
    split at running
    · cases running
    rename_i valid
    rw [if_neg valid]
    split at running
    · cases running
    · rcases beginWalk_running running with ⟨reachable, deadline, stateEq⟩
      rw [stateEq]
      exact ⟨validateOptions_dwell valid, reachable, rfl, rfl, rfl, rfl⟩
  | follow path options =>
    simp only [enterBody, enterCommand, available, pointer, if_true, enterFollow] at running ⊢
    split at running
    · cases running
    rename_i valid
    rw [if_neg valid]
    split at running
    · cases running
    rename_i enough
    rw [if_neg enough]
    rcases beginWalk_running running with ⟨reachable, deadline, stateEq⟩
    rw [stateEq]
    exact ⟨validateOptions_dwell valid, reachable, rfl, rfl, rfl, rfl⟩
  | drag start target code options =>
    simp only [enterBody, enterCommand, available, pointer, if_true, enterDrag] at running ⊢
    split at running
    · cases running
    rename_i valid
    rw [if_neg valid]
    split at running
    · rename_i notBegun
      exact absurd running notBegun
    rename_i begun
    rw [if_neg begun]
    rw [not_not] at begun
    rcases beginWalk_running begun with ⟨reachable, deadline, stateEq⟩
    rw [stateEq]
    exact ⟨validateOptions_dwell valid, reachable, rfl, rfl, rfl, rfl⟩
  | _ => cases walk

end

/-- The pacing of a walk is exact: after a schedule of ticks the pointer was moved to the waypoints
that are due at the last of them, in their order and each once, and the worst overshoot is how late
the latest of them came on that schedule.  A move that fails ends the walk at a waypoint that was
due, and what was emitted before it is on record. -/
theorem walk_paced {σ : Type} (seat : Seat σ) {step : Step} (walk : isWalk step.command = true)
    (runner : SeatState σ) {started : TimePoint}
    (running : (enter seat step started runner).1 = .running) (earlier : List TimePoint)
    (now : TimePoint) (sorted : (earlier ++ [now]).Pairwise (· ≤ ·)) :
    let entered := (enter seat step started runner).2
    let waypoints := (entered.entries step.id.index).state.waypoints
    let result := tickAll seat step (earlier ++ [now]) entered
    let scratch := (result.2.entries step.id.index).state
    let calls := result.2.wire.log.drop entered.wire.log.length
    let owed := dueCount started (dwellOf step.command) waypoints.length now
    scratch.worstOvershoot =
        worstLateness (earlier ++ [now]) started (dwellOf step.command) scratch.emitted ∧
      (scratch.emitted = owed ∧ motions calls = waypoints.take owed ∨
        scratch.emitted < owed ∧ motions calls = waypoints.take (scratch.emitted + 1) ∧
          result.1 = .failure ∧ ∃ call ∈ calls, call.failed = true) := by
  intro entered waypoints result scratch calls owed
  have recorded := enter_recorded seat step started runner
  have answered : (enterBody seat (.step .enter step) step.command started {} runner.wire).1 =
      .running := running
  have pointer := pointer_of_enterBody walk answered
  rcases enterBody_walk walk answered with ⟨nonnegative, begun⟩
  rw [← recorded.state] at begun
  have fresh :
      Walking step entered (Paced (dwellOf step.command) started waypoints []) entered := by
    refine ⟨recorded.used, begun.entered, prefix_refl _, begun.started, rfl, ?_, ?_, ?_, ?_, ?_⟩
    · rw [begun.emitted]
      exact Nat.zero_le _
    · rw [begun.emitted]
      exact fun index impossible => absurd impossible (Nat.not_lt_zero index)
    · exact fun _ _ impossible => absurd impossible not_mem_nil
    · rw [begun.emitted, drop_length]
      rfl
    · rw [begun.emitted, begun.worst]
      rfl
  have latest : ∀ time ∈ earlier ++ [now], time ≤ now := by
    intro time member
    rcases mem_append.mp member with old | new
    · exact (pairwise_append.mp sorted).2.2 time old now mem_cons_self
    · exact (mem_singleton.mp new).le
  have allSorted : ([] ++ (earlier ++ [now])).Pairwise (· ≤ ·) := sorted
  rcases tickAll_walking walk pointer nonnegative begun.reachable allSorted fresh with
    walking | stopped
  · have paced := walking.holds
    have isOwed : owed = scratch.emitted := by
      apply dueCount_eq nonnegative paced.inside
      · intro index isBefore
        rcases paced.arrived index isBefore with ⟨time, member, isDue⟩
        exact isDue.trans (latest time member)
      · exact fun isMore => paced.awaited isMore now
          (mem_append_right _ (mem_append_right _ mem_cons_self))
    rw [isOwed]
    exact ⟨paced.worst, .inl ⟨rfl, paced.moves⟩⟩
  · have cut := stopped.cut
    have isMore : scratch.emitted + 1 ≤ owed := by
      apply le_dueCount cut.inside
      intro index isBefore
      rcases cut.arrived index (Nat.le_of_lt_succ isBefore) with ⟨time, member, isDue⟩
      exact isDue.trans (latest time member)
    exact ⟨cut.worst, .inr ⟨isMore, cut.moves, stopped.status, stopped.failed⟩⟩

/-- A move to the right over two waypoints, one millisecond apart. -/
def twoPaces : Step :=
  { command := .move (some ⟨0, 0⟩) ⟨2, 0⟩ { interpolationSteps := 2, stepDwell := 1 } }

theorem walk_paced_twoPaces :
    let seat := echoSeat fun _ => true
    let entered := (enter seat twoPaces 0 (SeatState.fresh ())).2
    let result := tickAll seat twoPaces ([0, 1500000] ++ [2500000]) entered
    let scratch := (result.2.entries twoPaces.id.index).state
    scratch.worstOvershoot = worstLateness ([0, 1500000] ++ [2500000]) 0 1 scratch.emitted :=
  (walk_paced (echoSeat fun _ => true) rfl (SeatState.fresh ()) (by decide) [0, 1500000] 2500000
    (by decide)).1

/-- A seat that refuses the second waypoint leaves a walk behind its schedule. -/
theorem walk_behind_schedule :
    let seat := echoSeat fun request => decide (request ≠ .movePointerAbsolute 2 0)
    let entered := (enter seat twoPaces 0 (SeatState.fresh ())).2
    let result := tickAll seat twoPaces [5000000] entered
    (result.2.entries twoPaces.id.index).state.emitted = 1 ∧ dueCount 0 1 2 5000000 = 2 := by
  decide

end Grab.Kernel

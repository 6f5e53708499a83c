import Grab.Sequence.Seat.Contract

/-!
# The points of a straight walk

Truncating division by a positive number is monotone, so the interpolated coordinates never
turn back, whichever way they go, and the last one is exact.
-/

namespace Grab.Kernel

open Grab.Geometry List

/-- The 64-bit values that interpolating one coordinate computes. -/
def interpolationValues (start target step stepCount : Int) : List Int :=
  let dx := target - start
  [dx, dx * step, (dx * step).tdiv stepCount, start + (dx * step).tdiv stepCount]

/-- `first` lies between the ends, and `second` between `first` and the target. -/
def Towards (start target first second : Int) : Prop :=
  (start ≤ first ∧ first ≤ second ∧ second ≤ target) ∨
    (target ≤ second ∧ second ≤ first ∧ first ≤ start)

variable {start target step later stepCount : Int}

theorem towards_interpolated (positive : 0 < stepCount) (begun : 0 ≤ step) (ordered : step ≤ later)
    (ends : later ≤ stepCount) :
    Towards start target (start + ((target - start) * step).tdiv stepCount)
      (start + ((target - start) * later).tdiv stepCount) := by
  have first : ((target - start) * 0).tdiv stepCount = 0 := by simp
  have last : ((target - start) * stepCount).tdiv stepCount = target - start :=
    Int.mul_tdiv_cancel _ (Int.ne_of_gt positive)
  rcases Int.le_total 0 (target - start) with forward | backward
  · have grows : ∀ {i j : Int}, i ≤ j →
        ((target - start) * i).tdiv stepCount ≤ ((target - start) * j).tdiv stepCount :=
      fun below => Int.tdiv_le_tdiv positive (Int.mul_le_mul_of_nonneg_left below forward)
    have := grows begun
    have := grows ordered
    have := grows ends
    left
    omega
  · have shrinks : ∀ {i j : Int}, i ≤ j →
        ((target - start) * j).tdiv stepCount ≤ ((target - start) * i).tdiv stepCount :=
      fun below => Int.tdiv_le_tdiv positive (Int.mul_le_mul_of_nonpos_left backward below)
    have := shrinks begun
    have := shrinks ordered
    have := shrinks ends
    right
    omega

/-- Nothing leaves the 64 bits, not even before the division. -/
theorem interpolationValues_fit (fits : ∀ value ∈ [start, target], -2 ^ 31 ≤ value ∧ value < 2 ^ 31)
    (begun : 1 ≤ step) (ends : step ≤ stepCount) (small : stepCount < 2 ^ 31) :
    ∀ value ∈ interpolationValues start target step stepCount,
      -2 ^ 63 ≤ value ∧ value < 2 ^ 63 := by
  have startFits := fits start (by simp)
  have targetFits := fits target (by simp)
  have between := @towards_interpolated start target step step stepCount (by omega) (by omega)
    (Int.le_refl _) ends
  rw [Towards] at between
  have upper : (target - start) * step ≤ (2 ^ 32 - 1) * (2 ^ 31 - 1) :=
    Int.mul_le_mul (by omega) (by omega) (by omega) (by decide)
  have lower : -((target - start) * step) ≤ (2 ^ 32 - 1) * (2 ^ 31 - 1) := by
    rw [← Int.neg_mul]
    exact Int.mul_le_mul (by omega) (by omega) (by omega) (by decide)
  simp only [interpolationValues, forall_mem_cons]
  refine ⟨by omega, by omega, by omega, by omega, nofun⟩

section

variable {σ : Type} (seat : Seat σ) {start target : Point} {options : Input.DragOptions}

/-- Between any two 32-bit points. -/
theorem waypoints_linear (linear : options.path = .linear)
    (admitted : validateOptions options = true)
    (fits : ∀ value ∈ [start.x, start.y, target.x, target.y], -2 ^ 31 ≤ value ∧ value < 2 ^ 31) :
    let points := waypoints seat start target options
    points.length = options.interpolationSteps ∧ points.getLast? = some target ∧
      ((start :: points).Pairwise fun first second =>
        Towards start.x target.x first.x second.x ∧ Towards start.y target.y first.y second.y) ∧
      ∀ step, 1 ≤ step → step ≤ options.interpolationSteps →
        ∀ value ∈ interpolationValues start.x target.x step options.interpolationSteps ++
          interpolationValues start.y target.y step options.interpolationSteps,
          -2 ^ 63 ≤ value ∧ value < 2 ^ 63 := by
  obtain ⟨positive, bounded, _⟩ := of_decide_eq_true admitted
  rw [Input.minimumInterpolationSteps] at positive
  rw [Input.maximumInterpolationSteps] at bounded
  obtain ⟨count, isCount⟩ := Int.eq_ofNat_of_zero_le (Int.le_trans (by decide) positive)
  intro points
  have isWalk : points = (range count).map fun step : Nat =>
      interpolatedPoint start target (step + 1) count := by
    change waypoints seat start target options = _
    simp [waypoints, linear, isCount, map_eq_flatMap, flatMap_assoc]
  have placed : start :: points = (range (count + 1)).map fun step : Nat =>
      interpolatedPoint start target step count := by
    rw [isWalk, range_succ_eq_map, map_cons, map_map]
    simp [interpolatedPoint, Function.comp_def]
  refine ⟨?_, ?_, ?_, ?_⟩
  · rw [isWalk, length_map, length_range, isCount]
  · obtain ⟨before, rfl⟩ : ∃ before, count = before + 1 := ⟨count - 1, by omega⟩
    rw [isWalk, range_succ, map_append, map_singleton, getLast?_concat]
    simp [interpolatedPoint, Int.mul_tdiv_cancel _ (by omega : (before + 1 : Int) ≠ 0)]
  · rw [placed, pairwise_map]
    apply (pairwise_lt_range (n := count + 1)).imp_of_mem
    intro first second _ inside less
    have ends := mem_range.mp inside
    exact ⟨towards_interpolated (by omega) (by omega) (by omega) (by omega),
      towards_interpolated (by omega) (by omega) (by omega) (by omega)⟩
  intro step begun ends value member
  rcases mem_append.mp member with inX | inY
  · exact interpolationValues_fit (by grind) begun ends (by omega) value inX
  · exact interpolationValues_fit (by grind) begun ends (by omega) value inY

/-- Leftwards and down, by a division that truncates. -/
theorem waypoints_linear_slant :
    (waypoints (echoSeat fun _ => true) ⟨7, 0⟩ ⟨-3, 1⟩ { interpolationSteps := 3 }).getLast? =
      some ⟨-3, 1⟩ :=
  (waypoints_linear _ rfl (by decide) (by decide)).2.1

end

end Grab.Kernel

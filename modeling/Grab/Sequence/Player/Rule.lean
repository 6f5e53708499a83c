import Grab.Sequence.Player.Run

/-!
# A rule for pumps

A pump walks the frontier twice, in a loop, until nothing moves.  What a single tick and a single
entry keep, with the answer each of them gets, is kept by all of it.
-/

namespace Grab.Kernel

open Grab.Sequence Grab.Lib List

section

variable {ρ : Type} {sequence : Sequence} {runner : CommandRunner ρ} {start : ρ}
  {world : World ρ} {now : TimePoint}

/-- What a pump does is ticks of running steps and entries of ready ones that are due, each with
its answer. -/
structure PumpRule (sequence : Sequence) (runner : CommandRunner ρ) (start : ρ) (now : TimePoint)
    (kept : World ρ → Prop) : Prop where
  tick : ∀ {world : World ρ} {step : Step}, Balanced sequence runner start world →
    world.isLive = true → step ∈ sequence.steps →
    world.player.status step.id.index = .running → kept world →
    kept ((world.callTick runner step now).2.onStatus sequence runner step.id
      (world.callTick runner step now).1 now)
  enter : ∀ {world : World ρ} {step : Step}, Balanced sequence runner start world →
    world.isLive = true → step ∈ sequence.steps →
    world.player.status step.id.index = .ready →
    (world.player.runs step.id.index).readyAt ≤ now → kept world →
    kept (((world.markEntered sequence runner step now).callEnter runner step now).2.onStatus
      sequence runner step.id
      ((world.markEntered sequence runner step now).callEnter runner step now).1 now)

namespace PumpRule

open World

variable {kept : World ρ → Prop} (rule : PumpRule sequence runner start now kept)
  (built : sequence.Built)

include rule built

theorem turns : TurnRule sequence runner now fun world =>
    Balanced sequence runner start world ∧ kept world where
  live holds := frontier_live holds.1
  tick holds isLive member running :=
    have advances := (turnRule_advances built now).tick (.refl holds.1) isLive member running
    ⟨advances.balanced, rule.tick holds.1 isLive member running holds.2⟩
  enter holds isLive member ready isDue :=
    have advances := (turnRule_advances built now).enter (.refl holds.1) isLive member ready isDue
    ⟨advances.balanced, rule.enter holds.1 isLive member ready isDue holds.2⟩

/-- What every turn of a pump keeps holds after it, but for the end of the run. -/
theorem pump (sound : RunSound sequence runner start world)
    (timed : kept (world.mapPlayer fun player => { player with lastNow := now }))
    (settled : ∀ {world : World ρ}, kept world → kept world.settle) :
    kept (world.pump sequence runner now).2 := by
  rw [pump_world]
  dsimp only
  split
  · exact timed
  rename_i isLive
  rw [Bool.not_eq_false] at isLive
  apply settled
  have balanced : Balanced sequence runner start
      (world.mapPlayer fun player => { player with lastNow := now }) :=
    sound.balanced.of_eq rfl rfl rfl rfl
  exact ((rule.turns built).pumpLoop built ⟨balanced, timed⟩ isLive _).2

end PumpRule

end

end Grab.Kernel

import Mathlib.Tactic.Linarith

/-!
# `nap` (`abi/cxenix/misc.c`)

The jiffies are rounded up by a comparison with `1000 / HZ`, which is truncated itself, so
that a `HZ` that does not divide 1000 adds one to whole numbers of them. The milliseconds are
rounded towards zero, the wrong way where the microseconds have gone back.
-/

namespace AbiEmu.Cxenix

def EINTR : Int := 4

/-- `struct timeval`. -/
structure Timeval where
  tvSec : Int
  tvUsec : Int

/-- What `xnx_nap` computes on the way to the jiffies it sleeps for, which come last. -/
def napSteps (hz period : Int) : List Int :=
  let periodS := period.tdiv 1000
  let periodMsHz := (period - periodS * 1000) * hz
  let periodJ := periodS * hz + periodMsHz.tdiv 1000
  [periodS * 1000, periodMsHz, periodS * hz, periodJ, periodJ * (1000 / hz),
    if period > periodJ * (1000 / hz) then periodJ + 1 else periodJ]

/-- The time it returns, in the word of the machine. -/
def napTime (tv1 tv2 : Timeval) : Int :=
  ((tv2.tvSec - tv1.tvSec) * 1000 + (tv2.tvUsec - tv1.tvUsec + 500).tdiv 1000).bmod (2 ^ 32)

/-- `xnx_nap`: the jiffies it sleeps for, and what it returns. -/
def xnxNap (hz period : Int) (tv1 tv2 : Timeval) (pending : Bool) : Option Int × Int :=
  if period = 0 then (none, 0)
  else ((napSteps hz period).getLast?, if pending then -EINTR else napTime tv1 tv2)

/-- From one time to the other, in microseconds. -/
def span (tv1 tv2 : Timeval) : Int :=
  (tv2.tvSec - tv1.tvSec) * 10 ^ 6 + (tv2.tvUsec - tv1.tvUsec)

/-- Nothing overflows on the way to the jiffies, they are the quotient rounded up, and the
milliseconds returned are among the nearest. -/
def NapRight (hz period : Int) (tv1 tv2 : Timeval) : Prop :=
  (∀ x ∈ napSteps hz period, -2 ^ 31 ≤ x ∧ x < 2 ^ 31) ∧
  (xnxNap hz period tv1 tv2 false).1 = some ((period * hz + 999) / 1000) ∧
  |1000 * (xnxNap hz period tv1 tv2 false).2 - span tv1 tv2| ≤ 500

section

variable {hz period : Int} (hhz : 1 ≤ hz ∧ hz ≤ 1000) (hp : 0 < period ∧ period < 2 ^ 31)

include hhz hp

/-- Nothing overflows, and the correction rounds up, also where nothing is to be rounded if
`HZ` does not divide 1000. -/
theorem jiffies_iff : (∀ x ∈ napSteps hz period, -2 ^ 31 ≤ x ∧ x < 2 ^ 31) ∧
    ((napSteps hz period).getLast? = some ((period * hz + 999) / 1000) ↔
      (1000 ∣ period * hz → hz ∣ 1000)) := by
  have hpos : 0 < hz := by omega
  have hscaled : ∀ x, 0 ≤ x → 0 ≤ x * hz ∧ x * hz ≤ x * 1000 := fun x hx =>
    ⟨mul_nonneg hx hpos.le, mul_le_mul_of_nonneg_left hhz.2 hx⟩
  have hs := hscaled (period / 1000) (by omega)
  have hr := hscaled (period % 1000) (by omega)
  have hle := (hscaled period hp.1.le).2
  have hprod : 0 < period * hz := mul_pos hp.1 hpos
  have hsum : period * hz = 1000 * (period / 1000 * hz) + period % 1000 * hz := by
    rw [← mul_assoc, ← add_mul, Int.mul_ediv_add_emod]
  have hdvd : hz ∣ 1000 ↔ 1000 / hz * hz = 1000 :=
    ⟨Int.ediv_mul_cancel, fun h => ⟨_, by rw [mul_comm, h]⟩⟩
  have hd : 1000 / hz * hz ≤ 1000 := Int.ediv_mul_le _ hpos.ne'
  have hd' : 1 ≤ 1000 / hz := (Int.le_ediv_iff_mul_le hpos).mpr (by omega)
  unfold napSteps
  rw [hdvd, Int.tdiv_eq_ediv_of_nonneg hp.1.le]
  dsimp only
  rw [show period - period / 1000 * 1000 = period % 1000 by omega,
    Int.tdiv_eq_ediv_of_nonneg hr.1]
  generalize 1000 / hz = d at *
  generalize hj : period / 1000 * hz + period % 1000 * hz / 1000 = j
  -- the comparison, with both sides times `HZ`
  have hcmp : j * d < period ↔ j * (d * hz) < period * hz := by
    rw [← mul_assoc]
    exact (Int.mul_lt_mul_right hpos).symm
  have hmul : j * (d * hz) ≤ j * 1000 := mul_le_mul_of_nonneg_left hd (by omega)
  have hmul' : 0 < j → (j * (d * hz) = j * 1000 ↔ d * hz = 1000) := fun h => mul_right_inj' h.ne'
  have hjd : j ≤ j * d := le_mul_of_one_le_right (by omega) hd'
  have hjd' : j * d ≤ period := by
    apply le_of_mul_le_mul_right _ hpos
    rw [mul_assoc]
    omega
  refine ⟨?_, ?_⟩
  · simp only [List.forall_mem_cons]
    refine ⟨by omega, by omega, by omega, by omega, by omega, ?_, nofun⟩
    split_ifs <;> omega
  · show some (if period > j * d then j + 1 else j) = _ ↔ _
    rw [Option.some_inj]
    split_ifs <;> omega

variable {tv1 tv2 : Timeval} (hpos : 0 ≤ span tv1 tv2) (hspan : span tv1 tv2 < 2 ^ 31 * 1000)

include hpos hspan

omit hhz hp in
/-- The milliseconds are the nearest unless the microseconds have gone back. -/
theorem napTime_iff : |1000 * napTime tv1 tv2 - span tv1 tv2| ≤ 500 ↔
    (0 ≤ tv2.tvUsec - tv1.tvUsec + 500 ∨ 1000 ∣ tv2.tvUsec - tv1.tvUsec + 500) ∧
      span tv1 tv2 + 500 < 2 ^ 31 * 1000 := by
  have hsign : Int.sign 1000 = 1 := rfl
  unfold napTime Int.bmod
  rw [Int.tdiv_eq_ediv, abs_le, hsign]
  unfold span at *
  dsimp only
  split_ifs <;> omega

/-- `nap` is right exactly if a whole number of jiffies is not rounded, the microseconds
have not gone back by more than a rounding, and the milliseconds fit. -/
theorem nap_right_iff : NapRight hz period tv1 tv2 ↔ (1000 ∣ period * hz → hz ∣ 1000) ∧
    (0 ≤ tv2.tvUsec - tv1.tvUsec + 500 ∨ 1000 ∣ tv2.tvUsec - tv1.tvUsec + 500) ∧
    span tv1 tv2 + 500 < 2 ^ 31 * 1000 := by
  obtain ⟨hfit, hjiffies⟩ := jiffies_iff hhz hp
  rw [← hjiffies, ← napTime_iff hpos hspan, NapRight, and_iff_right hfit, xnxNap,
    if_neg hp.1.ne']
  rfl

end

theorem nap_right_second : NapRight 100 1000 ⟨0, 0⟩ ⟨1, 0⟩ :=
  (nap_right_iff (by decide) (by decide) (by decide) (by decide)).mpr (by decide)

/-- Ten milliseconds at 300 jiffies a second are three jiffies, but it sleeps for four. -/
theorem nap_too_long : ¬ NapRight 300 10 ⟨0, 0⟩ ⟨0, 10000⟩ := fun h => absurd h.2.1 (by decide)

end AbiEmu.Cxenix

import Mathlib

namespace Smply.App

structure ReconnectSettings where
  firstDelay : Int64 := 500
  maxDelay : Int64 := 8000
  maxAttempts : UInt32 := 6

structure ReconnectPolicy where
  settings : ReconnectSettings := {}
  attempts : UInt32 := 0

namespace ReconnectPolicy

def begin (policy : ReconnectPolicy) : ReconnectPolicy := { policy with attempts := 0 }

def exhausted (policy : ReconnectPolicy) : Bool := policy.settings.maxAttempts ≤ policy.attempts

def maxTicks : Int64 := Int64.maxValue

/-- The loop of `delay_for`, with the number of its turns left. -/
def doubled (ceiling : Int64) : Nat → Int64 → Int64
  | 0, delay => if ceiling ≤ delay then ceiling else delay
  | left + 1, delay => if ceiling ≤ delay ∨ maxTicks / 2 < delay then ceiling else doubled ceiling left (delay * 2)

def delayFor (policy : ReconnectPolicy) (attempt : UInt32) : Int64 :=
  if policy.settings.firstDelay ≤ 0 then
    0
  else
    doubled policy.settings.maxDelay attempt.toNat policy.settings.firstDelay

def nextDelay (policy : ReconnectPolicy) : Int64 × ReconnectPolicy :=
  if policy.exhausted then
    (policy.settings.maxDelay, policy)
  else
    (policy.delayFor policy.attempts, { policy with attempts := policy.attempts + 1 })

def succeeded (policy : ReconnectPolicy) : ReconnectPolicy := { policy with attempts := 0 }

theorem toInt_doubled (ceiling : Int64) (left : Nat) {delay : Int64} (positive : 0 < delay.toInt) :
    (doubled ceiling left delay).toInt = min (delay.toInt * 2 ^ left) ceiling.toInt := by
  have bounded := ceiling.toInt_lt
  induction left generalizing delay with
  | zero =>
    rw [doubled, Int.pow_zero, Int.mul_one]
    split
    · rename_i reached
      exact (min_eq_right (Int64.le_iff_toInt_le.mp reached)).symm
    · rename_i below
      rw [Int64.le_iff_toInt_le] at below
      exact (min_eq_left (by omega)).symm
  | succ left ih =>
    have grows : (1 : Int) ≤ 2 ^ left := one_le_pow₀ (by decide)
    have twice : delay.toInt * 2 ≤ delay.toInt * 2 ^ (left + 1) := by
      rw [Int.pow_succ, mul_comm (2 ^ left) 2, ← mul_assoc]
      exact le_mul_of_one_le_right (by omega) grows
    have half : (maxTicks / 2).toInt = 2 ^ 62 - 1 := by decide
    rw [doubled]
    simp only [Int64.le_iff_toInt_le, Int64.lt_iff_toInt_lt, half]
    split
    · exact (min_eq_right (by omega)).symm
    · have exact_ : (delay * 2).toInt = delay.toInt * 2 := by
        rw [Int64.toInt_mul]
        exact Int.bmod_eq_of_le_mul_two (by show _ ≤ delay.toInt * 2 * 2; omega) (by show delay.toInt * 2 * 2 < _; omega)
      rw [ih (by omega), exact_, mul_assoc, ← Int.pow_succ']

/-- Below the permitted attempts the wait is the first delay doubled per attempt made, clamped; it never goes down. -/
theorem nextDelay_clamped {settings : ReconnectSettings} (positive : 0 < settings.firstDelay) :
    (∀ attempts < settings.maxAttempts, (nextDelay ⟨settings, attempts⟩).1.toInt =
      min (settings.firstDelay.toInt * 2 ^ attempts.toNat) settings.maxDelay.toInt) ∧
    ∀ attempts later, attempts ≤ later → later < settings.maxAttempts →
      (nextDelay ⟨settings, attempts⟩).1 ≤ (nextDelay ⟨settings, later⟩).1 := by
  have low : 0 < settings.firstDelay.toInt := Int64.lt_iff_toInt_lt.mp positive
  have clamped (attempts : UInt32) (below : attempts < settings.maxAttempts) : (nextDelay ⟨settings, attempts⟩).1.toInt =
      min (settings.firstDelay.toInt * 2 ^ attempts.toNat) settings.maxDelay.toInt := by
    rw [nextDelay, if_neg (by simpa [exhausted] using below), delayFor, if_neg (Int64.not_le.mpr positive)]
    exact toInt_doubled _ _ low
  refine ⟨clamped, fun attempts later more below => ?_⟩
  rw [Int64.le_iff_toInt_le, clamped attempts (UInt32.lt_of_le_of_lt more below), clamped later below]
  refine min_le_min_right _ (mul_le_mul_of_nonneg_left ?_ (by omega))
  exact pow_le_pow_right₀ (by decide) (UInt32.le_iff_toNat_le.mp more)

theorem nextDelay_clamped_default : (nextDelay { attempts := 5 }).1.toInt = min (500 * 2 ^ 5) 8000 :=
  (@nextDelay_clamped {} (by decide)).1 5 (by decide)

end ReconnectPolicy

end Smply.App

import CounselReady.Jobs.Queue
import Mathlib.Data.Int.ConditionallyCompleteOrder
import Mathlib.Order.ConditionallyCompleteLattice.Basic

/-! # The Backoff

    A failed job waits for half a minute, twice as long with each attempt, and for
    half an hour at most. The doublings are clamped before they are multiplied out.

    * `doubled_clamped`: a clamp on the doublings that the cap hides.
    * `backoff_law`: the clamp of the queue is one, so it shows nowhere.
-/

namespace CounselReady

/-! ### Doubling under a cap -/

section doubling
variable {base cap n j k : Nat}

theorem doubled_mono (base : Nat) (h : j ≤ k) : base * 2 ^ j ≤ base * 2 ^ k := by
  have hpow : 2 ^ j ≤ 2 ^ k := Nat.pow_le_pow_right (by omega) h
  exact Nat.mul_le_mul_left _ hpow

/-- Doublings past the cap make no difference. -/
theorem doubled_clamped (hcap : cap ≤ base * 2 ^ n) (k : Nat) :
    min (base * 2 ^ min k n) cap = min (base * 2 ^ k) cap := by
  by_cases hk : k ≤ n
  · rw [Nat.min_eq_left hk]
  · have hreached : base * 2 ^ n ≤ base * 2 ^ k := doubled_mono base (by omega)
    rw [Nat.min_eq_right (by omega : n ≤ k)]
    omega

end doubling

/-! ### The law -/

/-- How often the wait has doubled by this attempt. -/
def doublings (attempts : Int) : Nat := (max 0 (attempts - 1)).toNat

theorem doublings_mono : Monotone doublings := by
  intro a b hab
  show (max 0 (a - 1)).toNat ≤ (max 0 (b - 1)).toNat
  omega

theorem cap_reached : backoff_cap ≤ backoff_base * 2 ^ max_backoff_doublings := by decide

theorem base_below_cap : backoff_base ≤ backoff_cap := by decide

/-- The clamp on the doublings never shows: the cap is reached first. -/
theorem backoff_for_eq (attempts : Int) :
    backoff_for attempts = min (backoff_base * 2 ^ doublings attempts) backoff_cap := by
  have hclamp := doubled_clamped cap_reached (doublings attempts)
  have hcode : backoff_for attempts =
      min (backoff_base * 2 ^ min (doublings attempts) max_backoff_doublings) backoff_cap := by
    show (if _ < backoff_cap then _ else backoff_cap) = _
    split
    · next hlt => exact (Nat.min_eq_left (Nat.le_of_lt hlt)).symm
    · next hge => exact (Nat.min_eq_right (Nat.le_of_not_lt hge)).symm
  rw [hcode, hclamp]

/-- After `k` claims. -/
theorem backoff_for_nat {k : Nat} (hk : 1 ≤ k) :
    backoff_for (k : Int) = min (30 * second * 2 ^ (k - 1)) (30 * 60 * second) := by
  have hdoublings : doublings (k : Int) = k - 1 := by
    show (max 0 ((k : Int) - 1)).toNat = k - 1
    omega
  rw [backoff_for_eq, hdoublings]
  rfl

/-- The product is one that a timedelta can hold. -/
theorem checked_backoff_eq (attempts : Int) :
    checked_backoff attempts = some (backoff_for attempts) := by
  have hbound : backoff_base * 2 ^ min (doublings attempts) max_backoff_doublings ≤
      timedelta_max := by
    have hmost : backoff_base * 2 ^ max_backoff_doublings ≤ timedelta_max := by decide
    have hclamped := doubled_mono backoff_base
      (Nat.min_le_right (doublings attempts) max_backoff_doublings)
    omega
  show (timedelta_mul backoff_base (2 ^ min (doublings attempts) max_backoff_doublings)).bind _ = _
  unfold timedelta_mul
  rw [if_pos hbound]
  rfl

/-- **The backoff.** Half a minute, doubled with every attempt after the first, and half
    an hour at most, for any number of attempts; so it grows with them, it lies between
    the two, and nothing overflows on the way. -/
theorem backoff_law :
    (∀ attempts : Int, backoff_for attempts =
      min (30 * second * 2 ^ (max 0 (attempts - 1)).toNat) (30 * 60 * second)) ∧
    Monotone backoff_for ∧
    (∀ attempts, 30 * second ≤ backoff_for attempts ∧ backoff_for attempts ≤ 30 * 60 * second) ∧
    (∀ attempts, checked_backoff attempts = some (backoff_for attempts)) := by
  refine ⟨backoff_for_eq, ?_, ?_, checked_backoff_eq⟩
  · intro a b hab
    have hdoubled := doubled_mono backoff_base (doublings_mono hab)
    rw [backoff_for_eq, backoff_for_eq]
    omega
  · intro attempts
    have hleast : backoff_base * 2 ^ 0 ≤ backoff_base * 2 ^ doublings attempts :=
      doubled_mono _ (Nat.zero_le _)
    have hbelow := base_below_cap
    rw [backoff_for_eq]
    show backoff_base ≤ _ ∧ _ ≤ backoff_cap
    omega

end CounselReady

import Mathlib.Algebra.Order.Ring.Nat
import Mathlib.Data.List.Basic

/-!
# Capped exponential backoff with jitter

The `k`-th delay of a retry loop is `base + 2 ^ k * jitter`, cut to `cap`; the exponent itself stops
growing at `limit`.  Jitters of a range whose upper end is at most twice its lower end never undo a
doubling, so the delays do not shrink (`delays_pairwise`) when the cap is reached before the limit.
-/

namespace IotDeviceSdk.Backoff

variable {base cap limit low k : ℕ}

/-- The delay after `k` earlier ones. -/
def delay (base cap limit k jitter : ℕ) : ℕ := min cap (base + 2 ^ min k limit * jitter)

/-- The delays of a run of retries, from the `k`-th one on. -/
def delays (base cap limit : ℕ) : ℕ → List ℕ → List ℕ
  | _, [] => []
  | k, jitter :: jitters => delay base cap limit k jitter :: delays base cap limit (k + 1) jitters

@[simp] theorem length_delays (base cap limit k : ℕ) (jitters : List ℕ) :
    (delays base cap limit k jitters).length = jitters.length := by
  induction jitters generalizing k with
  | nil => rfl
  | cons jitter jitters ih => rw [delays, List.length_cons, List.length_cons, ih]

theorem delay_le (base cap limit k jitter : ℕ) : delay base cap limit k jitter ≤ cap :=
  Nat.min_le_left _ _

/-- The first delay with the least jitter is a lower bound. -/
theorem le_delay {jitter : ℕ} (hcap : base + low ≤ cap) (hlow : low ≤ jitter) :
    base + low ≤ delay base cap limit k jitter := by
  have hpow : 1 ≤ 2 ^ min k limit := Nat.one_le_two_pow
  have hmul : 1 * low ≤ 2 ^ min k limit * jitter := Nat.mul_le_mul hpow hlow
  unfold delay
  omega

/-- At its limit the exponent has taken the delay to the cap. -/
theorem delay_of_limit_le {jitter : ℕ} (hcap : cap ≤ base + 2 ^ limit * low) (hlow : low ≤ jitter)
    (hk : limit ≤ k) : delay base cap limit k jitter = cap := by
  have hmul : 2 ^ limit * low ≤ 2 ^ limit * jitter := Nat.mul_le_mul_left _ hlow
  unfold delay
  rw [Nat.min_eq_right hk]
  omega

/-- **A later delay is not shorter.** -/
theorem delay_le_delay {jitter jitter' k' : ℕ} (hcap : cap ≤ base + 2 ^ limit * low)
    (hlow : low ≤ jitter') (hhigh : jitter ≤ 2 * low) (hk : k < k') :
    delay base cap limit k jitter ≤ delay base cap limit k' jitter' := by
  by_cases hlimit : limit ≤ k'
  · rw [delay_of_limit_le hcap hlow hlimit]
    exact delay_le _ _ _ _ _
  · have hpow : 2 ^ (k + 1) ≤ 2 ^ k' := Nat.pow_le_pow_right (by omega) hk
    have hmul : 2 ^ k * jitter ≤ 2 ^ k' * jitter' := by
      calc 2 ^ k * jitter ≤ 2 ^ k * (2 * low) := Nat.mul_le_mul_left _ hhigh
        _ = 2 ^ (k + 1) * low := by rw [pow_succ, Nat.mul_assoc]
        _ ≤ 2 ^ k' * jitter' := Nat.mul_le_mul hpow hlow
    unfold delay
    rw [Nat.min_eq_left (show k ≤ limit by omega), Nat.min_eq_left (show k' ≤ limit by omega)]
    omega

/-- With the same jitter the first delay is the shortest. -/
theorem delay_zero_lt_delay {jitter : ℕ} (hcap : base + jitter < cap) (hjitter : 0 < jitter)
    (hlimit : 0 < limit) (hk : 0 < k) :
    delay base cap limit 0 jitter < delay base cap limit k jitter := by
  have hpow : 2 ^ 1 ≤ 2 ^ min k limit := Nat.pow_le_pow_right (by omega) (by omega)
  have hmul : 2 * jitter ≤ 2 ^ min k limit * jitter := Nat.mul_le_mul_right _ hpow
  unfold delay
  rw [Nat.zero_min, pow_zero, Nat.one_mul]
  omega

theorem exists_of_mem_delays {d : ℕ} {jitters : List ℕ} (h : d ∈ delays base cap limit k jitters) :
    ∃ k' jitter, k ≤ k' ∧ jitter ∈ jitters ∧ d = delay base cap limit k' jitter := by
  induction jitters generalizing k with
  | nil => simp [delays] at h
  | cons jitter jitters ih =>
    rw [delays, List.mem_cons] at h
    rcases h with rfl | h
    · exact ⟨k, jitter, Nat.le_refl k, List.mem_cons_self, rfl⟩
    · obtain ⟨k', jitter', hk, hmem, rfl⟩ := ih h
      exact ⟨k', jitter', by omega, List.mem_cons_of_mem _ hmem, rfl⟩

/-- **The delays do not shrink.** -/
theorem delays_pairwise {jitters : List ℕ} (hcap : cap ≤ base + 2 ^ limit * low)
    (hjitters : ∀ jitter ∈ jitters, low ≤ jitter ∧ jitter ≤ 2 * low) :
    (delays base cap limit k jitters).Pairwise (· ≤ ·) := by
  induction jitters generalizing k with
  | nil => exact List.Pairwise.nil
  | cons jitter jitters ih =>
    have hhigh := (hjitters jitter List.mem_cons_self).2
    have htail : ∀ jitter ∈ jitters, low ≤ jitter ∧ jitter ≤ 2 * low :=
      fun j hj => hjitters j (List.mem_cons_of_mem _ hj)
    rw [delays, List.pairwise_cons]
    refine ⟨fun d hd => ?_, ih htail⟩
    obtain ⟨k', jitter', hk, hmem, rfl⟩ := exists_of_mem_delays hd
    exact delay_le_delay hcap (htail jitter' hmem).1 hhigh hk

/-- The bounds of every delay. -/
theorem delays_bounds {d : ℕ} {jitters : List ℕ} (hcap : base + low ≤ cap)
    (hjitters : ∀ jitter ∈ jitters, low ≤ jitter) (hd : d ∈ delays base cap limit k jitters) :
    base + low ≤ d ∧ d ≤ cap := by
  obtain ⟨k', jitter, -, hmem, rfl⟩ := exists_of_mem_delays hd
  exact ⟨le_delay hcap (hjitters jitter hmem), delay_le _ _ _ _ _⟩

end IotDeviceSdk.Backoff

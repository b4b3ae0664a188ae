import Chinwag.Chat.Commands

/-!
# The delay after a failed publication

`backoffDuration` on the 64-bit nanoseconds of a `time.Duration`, for any polling interval. The
publishers of the system count the same delays in milliseconds.
-/
namespace Chinwag.Chat

/-- What the delay depends on, in nanoseconds. -/
structure OutboxPublisher where
  interval : Int

namespace OutboxPublisher

def maxBackoff : Int := 30000000000

/-- `d *= 2`. -/
def double (d : Int) : Int := Int.bmod (d * 2) (2 ^ 64)

/-- The doubling loop, from the delay reached so far. -/
def backoffFrom : Int → Nat → Int
  | d, 0 => if maxBackoff < d then maxBackoff else d
  | d, n + 1 => if maxBackoff.tdiv 2 ≤ d then maxBackoff else backoffFrom (double d) n

/-- The products that the loop forms, before they are cut to 64 bits. -/
def productsFrom : Int → Nat → List Int
  | _, 0 => []
  | d, n + 1 => if maxBackoff.tdiv 2 ≤ d then [] else d * 2 :: productsFrom (double d) n

def backoffDuration (p : OutboxPublisher) (retryCount : Nat) : Int := backoffFrom p.interval retryCount

def products (p : OutboxPublisher) (retryCount : Nat) : List Int := productsFrom p.interval retryCount

variable {d : Int}

theorem half_maxBackoff : maxBackoff.tdiv 2 = 15000000000 := rfl

/-- Below half of the cap nothing is cut. -/
theorem double_eq (hpos : 0 < d) (hlt : d < maxBackoff.tdiv 2) : double d = d * 2 := by
  rw [half_maxBackoff] at hlt
  unfold double
  apply Int.bmod_eq_of_le <;> omega

theorem le_mul_two_pow (hpos : 0 < d) (n : Nat) : d ≤ d * 2 ^ n :=
  le_mul_of_one_le_right hpos.le (one_le_pow₀ (by decide))

/-- The loop leaves at half of the cap, from where the next doubling reaches it. -/
theorem backoffFrom_eq (hpos : 0 < d) (n : Nat) : backoffFrom d n = min (d * 2 ^ n) maxBackoff := by
  induction n generalizing d with
  | zero =>
    unfold backoffFrom
    split <;> omega
  | succ n ih =>
    unfold backoffFrom
    have hpow : d * 2 ^ (n + 1) = d * 2 * 2 ^ n := by ring
    split
    · next hhalf =>
      have hgrows : d * 2 ≤ d * 2 * 2 ^ n := le_mul_two_pow (by omega) n
      have hreached : maxBackoff ≤ d * 2 := by
        rw [half_maxBackoff] at hhalf
        unfold maxBackoff
        omega
      rw [hpow, min_eq_right (hreached.trans hgrows)]
    · next hhalf =>
      have hdouble : double d = d * 2 := double_eq hpos (by omega)
      rw [hdouble, ih (by omega), hpow]

theorem productsFrom_le (hpos : 0 < d) (n : Nat) : ∀ product ∈ productsFrom d n, 0 < product ∧ product < maxBackoff := by
  induction n generalizing d with
  | zero => exact nofun
  | succ n ih =>
    unfold productsFrom
    split
    · exact nofun
    · next hhalf =>
      have hdouble : double d = d * 2 := double_eq hpos (by omega)
      rw [hdouble]
      intro product hproduct
      rcases List.mem_cons.mp hproduct with rfl | hlater
      · rw [half_maxBackoff] at hhalf
        unfold maxBackoff
        omega
      · exact ih (by omega) product hlater

/-- The interval doubled once for each failure, up to the cap; nothing overflows on the way, and
another failure never shortens the delay. -/
theorem backoffDuration_exact (p : OutboxPublisher) (hpos : 0 < p.interval) (n : Nat) :
    p.backoffDuration n = min (p.interval * 2 ^ n) maxBackoff ∧
      (∀ product ∈ p.products n, -2 ^ 63 ≤ product ∧ product < 2 ^ 63) ∧
      ∀ m, n ≤ m → p.backoffDuration n ≤ p.backoffDuration m := by
  refine ⟨backoffFrom_eq hpos n, ?_, ?_⟩
  · intro product hproduct
    obtain ⟨hlow, hhigh⟩ := productsFrom_le hpos n product hproduct
    unfold maxBackoff at hhigh
    omega
  · intro m hm
    have hpow : p.interval * 2 ^ n ≤ p.interval * 2 ^ m :=
      mul_le_mul_of_nonneg_left (pow_le_pow_right₀ (by decide) hm) hpos.le
    unfold backoffDuration
    rw [backoffFrom_eq hpos n, backoffFrom_eq hpos m]
    exact min_le_min_right _ hpow

end OutboxPublisher

def newOutboxPublisher : OutboxPublisher := ⟨100000000⟩

theorem backoffDuration_exact_new :
    newOutboxPublisher.backoffDuration 3 = min (newOutboxPublisher.interval * 2 ^ 3) OutboxPublisher.maxBackoff ∧
      (∀ product ∈ newOutboxPublisher.products 3, -2 ^ 63 ≤ product ∧ product < 2 ^ 63) ∧
      ∀ m, 3 ≤ m → newOutboxPublisher.backoffDuration 3 ≤ newOutboxPublisher.backoffDuration m :=
  newOutboxPublisher.backoffDuration_exact (by decide) 3

/-- The loop in milliseconds takes the same branches. -/
theorem backoffFrom_millis {d : Nat} (hpos : 0 < d) (n : Nat) :
    OutboxPublisher.backoffFrom (1000000 * d) n = 1000000 * (backoffFrom d n : Int) := by
  induction n generalizing d with
  | zero =>
    unfold OutboxPublisher.backoffFrom backoffFrom OutboxPublisher.maxBackoff maxBackoff
    split <;> split <;> omega
  | succ n ih =>
    unfold OutboxPublisher.backoffFrom backoffFrom
    rw [OutboxPublisher.half_maxBackoff]
    by_cases hhalf : maxBackoff / 2 ≤ d
    · have hnanos : (15000000000 : Int) ≤ 1000000 * d := by
        unfold maxBackoff at hhalf
        omega
      rw [if_pos hhalf, if_pos hnanos]
      rfl
    · have hnanos : ¬ (15000000000 : Int) ≤ 1000000 * d := by
        unfold maxBackoff at hhalf
        omega
      have hdouble : OutboxPublisher.double (1000000 * d) = 1000000 * ((d * 2 : Nat) : Int) := by
        rw [OutboxPublisher.double_eq (by omega) (by rw [OutboxPublisher.half_maxBackoff]; omega)]
        push_cast
        ring
      rw [if_neg hhalf, if_neg hnanos, hdouble, ih (by omega)]

theorem backoffDuration_millis (retryCount : Nat) :
    newOutboxPublisher.backoffDuration retryCount = 1000000 * (backoffDuration retryCount : Int) :=
  backoffFrom_millis (show 0 < interval by decide) retryCount

end Chinwag.Chat

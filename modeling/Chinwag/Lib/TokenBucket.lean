import Mathlib.Algebra.BigOperators.Intervals
import Mathlib.Algebra.Order.Group.Defs
import Mathlib.Algebra.Order.Group.Unbundled.Basic
import Mathlib.Algebra.BigOperators.Group.Finset.Basic
import Mathlib.Tactic.Abel

/-!
# A level that is capped, filled and drawn from

Between two steps the level gains what the supply has grown by, which may be negative, and loses
what was drawn, and it is cut off at the cap. Unfolding the cuts, it is the least of what each
earlier step would have left, had the level been at the cap there.
-/
namespace Chinwag.TokenBucket

variable {K : Type*} [AddCommGroup K] [LinearOrder K] [IsOrderedAddMonoid K] {cap x : K} {supply drawn : ℕ → K}

def level (cap : K) (supply drawn : ℕ → K) : ℕ → K
  | 0 => cap
  | n + 1 => min cap (level cap supply drawn n - drawn n + (supply (n + 1) - supply n))

theorem le_level_iff (n : ℕ) : x ≤ level cap supply drawn n ↔
    ∀ j ≤ n, x + ∑ i ∈ Finset.Ico j n, drawn i ≤ cap + (supply n - supply j) := by
  induction n generalizing x with
  | zero =>
    have hzero : ∀ j ≤ 0, x + ∑ i ∈ Finset.Ico j 0, drawn i = x ∧ cap + (supply 0 - supply j) = cap := by
      intro j hj
      obtain rfl := Nat.le_zero.mp hj
      simp
    constructor
    · intro h j hj
      rw [(hzero j hj).1, (hzero j hj).2]
      exact h
    · intro h
      have hself := h 0 (Nat.le_refl 0)
      rwa [(hzero 0 (Nat.le_refl 0)).1, (hzero 0 (Nat.le_refl 0)).2] at hself
  | succ n ih =>
    -- the sum up to the last step, for a step that is not the last
    have hsum : ∀ j ≤ n, ∑ i ∈ Finset.Ico j (n + 1), drawn i = ∑ i ∈ Finset.Ico j n, drawn i + drawn n :=
      fun j hj => Finset.sum_Ico_succ_top hj drawn
    have hmove : x ≤ level cap supply drawn n - drawn n + (supply (n + 1) - supply n) ↔
        x + drawn n - (supply (n + 1) - supply n) ≤ level cap supply drawn n := by
      rw [← sub_le_iff_le_add, le_sub_iff_add_le, sub_add_eq_add_sub]
    have hstep : ∀ j ≤ n, x + drawn n - (supply (n + 1) - supply n) + ∑ i ∈ Finset.Ico j n, drawn i ≤
          cap + (supply n - supply j) ↔
        x + ∑ i ∈ Finset.Ico j (n + 1), drawn i ≤ cap + (supply (n + 1) - supply j) := by
      intro j hj
      rw [hsum j hj, ← sub_nonneg, ← sub_nonneg (b := x + _)]
      have heq : cap + (supply n - supply j) -
            (x + drawn n - (supply (n + 1) - supply n) + ∑ i ∈ Finset.Ico j n, drawn i) =
          cap + (supply (n + 1) - supply j) - (x + (∑ i ∈ Finset.Ico j n, drawn i + drawn n)) := by
        abel
      rw [heq]
    rw [level, le_min_iff, hmove, ih]
    constructor
    · rintro ⟨hcap, h⟩ j hj
      rcases Nat.lt_or_ge n j with hlt | hle
      · obtain rfl : j = n + 1 := by omega
        simpa using hcap
      · exact (hstep j hle).mp (h j hle)
    · intro h
      refine ⟨by simpa using h (n + 1) (Nat.le_refl _), fun j hj => ?_⟩
      exact (hstep j hj).mpr (h j (Nat.le_succ_of_le hj))

end Chinwag.TokenBucket

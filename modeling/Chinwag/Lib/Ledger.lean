import Mathlib.Algebra.BigOperators.Group.Finset.Piecewise
import Mathlib.Data.List.Basic
import Mathlib.Data.Set.Card

/-!
# A ledger with named entries

Several parties write into one list, each entry under the number of its party. What one party wrote
is a sublist of its own, and what is counted in the whole list is the sum over the parties.
-/
namespace Chinwag.Ledger

variable {α : Type}

/-- The entries of party `i`, in order. -/
def mine (i : ℕ) (ledger : List (ℕ × α)) : List α := (ledger.filter fun e => e.1 = i).map Prod.snd

@[simp] theorem mine_nil (i : ℕ) : mine i ([] : List (ℕ × α)) = [] := rfl

theorem mine_append_self (i : ℕ) (ledger : List (ℕ × α)) (a : α) : mine i (ledger ++ [(i, a)]) = mine i ledger ++ [a] := by
  simp [mine]

theorem mine_append_other {i j : ℕ} (h : j ≠ i) (ledger : List (ℕ × α)) (a : α) :
    mine i (ledger ++ [(j, a)]) = mine i ledger := by
  simp [mine, h]

theorem mem_mine {i : ℕ} {ledger : List (ℕ × α)} {a : α} : a ∈ mine i ledger ↔ (i, a) ∈ ledger := by
  simp [mine]

/-- The entries that meet `p`, summed over the parties. -/
theorem countP_eq_sum {n : ℕ} {ledger : List (ℕ × α)} (p : α → Bool) (h : ∀ e ∈ ledger, e.1 < n) :
    ledger.countP (fun e => p e.2) = ∑ i ∈ Finset.range n, (mine i ledger).countP p := by
  induction ledger with
  | nil => simp
  | cons e ledger ih =>
    have hhead : e.1 ∈ Finset.range n := Finset.mem_range.mpr (h e List.mem_cons_self)
    have htail := ih fun e' he' => h e' (List.mem_cons_of_mem _ he')
    have hcons : ∀ i, (mine i (e :: ledger)).countP p =
        (mine i ledger).countP p + if e.1 = i then (if p e.2 then 1 else 0) else 0 := by
      intro i
      by_cases hi : e.1 = i
      · simp [mine, hi, List.countP_cons]
      · simp [mine, hi]
    rw [List.countP_cons, htail, Finset.sum_congr rfl fun i _ => hcons i, Finset.sum_add_distrib,
      Finset.sum_ite_eq, if_pos hhead]

/-- A sum of ones counts the parties that have one. -/
theorem sum_eq_ncard {n : ℕ} {f : ℕ → ℕ} {parties : Set ℕ} (hlt : ∀ i ∈ parties, i < n)
    (hone : ∀ i ∈ parties, f i = 1) (hzero : ∀ i < n, i ∉ parties → f i = 0) :
    ∑ i ∈ Finset.range n, f i = parties.ncard := by
  classical
  have hset : parties = ((Finset.range n).filter fun i => i ∈ parties : Finset ℕ) := by
    ext i
    simp only [Finset.coe_filter, Finset.mem_range, Set.mem_ofPred_eq]
    exact ⟨fun hi => ⟨hlt i hi, hi⟩, And.right⟩
  have hterm : ∀ i ∈ Finset.range n, f i = if i ∈ parties then 1 else 0 := by
    intro i hi
    split
    · exact hone i ‹_›
    · exact hzero i (Finset.mem_range.mp hi) ‹_›
  rw [Finset.sum_congr rfl hterm, ← Finset.card_filter, ← Set.ncard_coe_finset, ← hset]

end Chinwag.Ledger

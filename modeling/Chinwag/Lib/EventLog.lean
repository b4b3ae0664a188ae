import Mathlib.Data.List.Basic
import Chinwag.Lib.Transition

/-!
# Tables fed from a log of events

A step about one key reads and writes the row of that key only. What becomes of a row then follows from
the events about its key, whatever is fed between them; and a log that grows by one event at a time has
passed through each of its beginnings.
-/
namespace Chinwag.EventLog

section Rows

variable {E K V O : Type}

/-- Of the table, `f` reads and writes the row of `k` only. -/
structure At (k : K) (f : (K → V) → O × (K → V)) : Prop where
  others : ∀ t j, j ≠ k → (f t).2 j = t j
  own : ∀ t t', t k = t' k → (f t).1 = (f t').1 ∧ (f t).2 k = (f t').2 k

theorem at_keep (k : K) (o : O) : At k fun t : K → V => (o, t) :=
  ⟨fun _ _ _ => rfl, fun _ _ h => ⟨rfl, h⟩⟩

/-- Each step is about one key or about none. -/
structure Local (key : E → Option K) (step : E → (K → V) → O × (K → V)) : Prop where
  at_key : ∀ e k, key e = some k → At k (step e)
  idle : ∀ e t, key e = none → (step e t).2 = t

/-- Feed the events one after another; each with what the step answered. -/
def feedAll (step : E → (K → V) → O × (K → V)) : List E → (K → V) → List (E × O) × (K → V)
  | [], t => ([], t)
  | e :: es, t => ((e, (step e t).1) :: (feedAll step es (step e t).2).1, (feedAll step es (step e t).2).2)

variable {key : E → Option K} {step : E → (K → V) → O × (K → V)} {k : K} {e : E} {t u : K → V}

theorem Local.others (h : Local key step) (hne : key e ≠ some k) : (step e t).2 k = t k := by
  cases hkey : key e with
  | none => rw [h.idle e t hkey]
  | some j =>
    have hj : k ≠ j := by
      rintro rfl
      exact hne hkey
    exact (h.at_key e j hkey).others t k hj

/-- The row of a key and the answers about it, from the events about it alone. -/
theorem Local.feedAll_about [DecidableEq K] (h : Local key step) (es : List E) (ht : t k = u k) :
    (feedAll step es t).2 k = (feedAll step (es.filter fun e => key e = some k) u).2 k ∧
      (feedAll step es t).1.filter (fun x => key x.1 = some k) =
        (feedAll step (es.filter fun e => key e = some k) u).1 := by
  induction es generalizing t u with
  | nil => exact ⟨ht, rfl⟩
  | cons e es ih =>
    by_cases hkey : key e = some k
    · obtain ⟨hanswer, hrow⟩ := (h.at_key e k hkey).own t u ht
      obtain ⟨hlast, hrest⟩ := ih hrow
      simp only [feedAll, List.filter_cons, hkey, decide_true, if_true]
      exact ⟨hlast, by rw [hanswer, hrest]⟩
    · have hrow : (step e t).2 k = u k := (h.others hkey).trans ht
      obtain ⟨hlast, hrest⟩ := ih hrow
      simp only [feedAll, List.filter_cons, hkey, decide_false, Bool.false_eq_true, if_false]
      exact ⟨hlast, hrest⟩

end Rows

section Growth

open Transition

variable {σ ε α : Type} {step : σ → ε → σ → Prop} {inv : σ → Prop} {log : σ → List α} {s u : σ}
  {trace : List ε}

/-- Under the invariant, which steps keep, a step adds at most one event to the log. -/
structure Grows (step : σ → ε → σ → Prop) (inv : σ → Prop) (log : σ → List α) : Prop where
  keeps : ∀ s e t, inv s → step s e t → inv t
  adds : ∀ s e t, inv s → step s e t → log t = log s ∨ ∃ a, log t = log s ++ [a]

theorem Grows.later (h : Grows step inv log) (hrun : Run step s trace u) (hs : inv s) : log s <+: log u := by
  induction hrun with
  | nil => exact List.prefix_rfl
  | @cons s t u e trace hst _ ih =>
    have hrest := ih (h.keeps _ _ _ hs hst)
    rcases h.adds _ _ _ hs hst with heq | ⟨a, heq⟩
    · rwa [heq] at hrest
    · rw [heq] at hrest
      exact (List.prefix_append _ _).trans hrest

/-- Between its first and its last state a run has passed through each log between theirs. -/
theorem Grows.passed (h : Grows step inv log) (hrun : Run step s trace u) (hs : inv s) {as : List α}
    (hfirst : log s <+: as) (hlast : as <+: log u) :
    ∃ before after t, trace = before ++ after ∧ Run step s before t ∧ log t = as := by
  induction hrun with
  | nil s => exact ⟨[], [], s, rfl, .nil s, hfirst.eq_of_length_le hlast.length_le⟩
  | @cons s t u e trace hst hr ih =>
    have ht : inv t := h.keeps _ _ _ hs hst
    by_cases hshort : as.length ≤ (log s).length
    · exact ⟨[], e :: trace, s, rfl, .nil s, hfirst.eq_of_length_le hshort⟩
    · have hone : (log t).length ≤ (log s).length + 1 := by
        rcases h.adds _ _ _ hs hst with heq | ⟨a, heq⟩
        · rw [heq]
          omega
        · exact Nat.le_of_eq (by rw [heq, List.length_append, List.length_singleton])
      have hnext : log t <+: as := List.prefix_of_prefix_length_le (h.later hr ht) hlast (by omega)
      obtain ⟨before, after, q, rfl, hbefore, hq⟩ := ih ht hnext hlast
      exact ⟨e :: before, after, q, rfl, .cons hst hbefore, hq⟩

end Growth

end Chinwag.EventLog

import Mathlib.Data.List.Basic

/-!
# Lists as numbered slots

Where each of many parties has a slot of a list: what stands in a slot after one was overwritten or
another one added.
-/
namespace Chinwag.Slots

variable {α : Type*} {l : List α} {i j : Nat} {a b : α}

theorem slot_set (h : (l.set i a)[j]? = some b) : j = i ∧ b = a ∨ j ≠ i ∧ l[j]? = some b := by
  by_cases hij : i = j
  · subst hij
    have hlt : i < l.length := by
      have hlast := (List.getElem?_eq_some_iff.mp h).1
      rwa [List.length_set] at hlast
    rw [List.getElem?_set_self hlt] at h
    exact .inl ⟨rfl, (Option.some.inj h).symm⟩
  · rw [List.getElem?_set_ne hij] at h
    exact .inr ⟨Ne.symm hij, h⟩

theorem slot_concat (h : (l ++ [a])[j]? = some b) : l[j]? = some b ∨ j = l.length ∧ b = a := by
  rcases Nat.lt_or_ge j l.length with hlt | hge
  · exact .inl ((List.getElem?_append_left hlt).symm.trans h)
  · have hbound := (List.getElem?_eq_some_iff.mp h).1
    rw [List.length_append, List.length_singleton] at hbound
    obtain rfl : j = l.length := by omega
    exact .inr ⟨rfl, (Option.some.inj (List.getElem?_concat_length.symm.trans h)).symm⟩

theorem slot_set_self (h : l[i]? = some b) : (l.set i a)[i]? = some a :=
  List.getElem?_set_self (List.getElem?_eq_some_iff.mp h).1

end Chinwag.Slots

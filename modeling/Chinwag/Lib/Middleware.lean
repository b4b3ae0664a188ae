import Mathlib.Data.List.Basic

/-!
# Chains of middleware

A layer is given the handler behind it and need not call it. The layer registered first is the
outermost.
-/
namespace Chinwag.Middleware

variable {σ : Type*}

abbrev Handler (σ : Type*) := σ → σ

abbrev Layer (σ : Type*) := Handler σ → Handler σ

def chain (layers : List (Layer σ)) (last : Handler σ) : Handler σ := layers.foldr (fun layer next => layer next) last

/-- The layer that answers some requests by itself and passes on the others. -/
def gate (answer : σ → Option σ) : Layer σ := fun next x =>
  match answer x with
  | some y => y
  | none => next x

/-- The layer that passes every request on as it is. -/
def through : Layer σ := fun next => next

/-- The first gate with an answer decides; what stands behind the gates sees the rest. -/
theorem chain_gates (answers : List (σ → Option σ)) (last : Handler σ) (x : σ) :
    chain (answers.map gate) last x = (answers.findSome? fun answer => answer x).getD (last x) := by
  induction answers with
  | nil => rfl
  | cons answer answers ih =>
    have hcons : chain ((answer :: answers).map gate) last x = gate answer (chain (answers.map gate) last) x := rfl
    rw [hcons, List.findSome?_cons]
    unfold gate
    cases answer x with
    | some y => rfl
    | none => exact ih

/-- Behind gates, a request has the answer of one of them or is passed on by them all. -/
theorem chain_gates_cases (answers : List (σ → Option σ)) (last : Handler σ) (x : σ) :
    (∃ answer ∈ answers, answer x = some (chain (answers.map gate) last x)) ∨
      ((∀ answer ∈ answers, answer x = none) ∧ chain (answers.map gate) last x = last x) := by
  rw [chain_gates]
  cases hfound : answers.findSome? fun answer => answer x with
  | some y => exact .inl (List.exists_of_findSome?_eq_some hfound)
  | none => exact .inr ⟨List.findSome?_eq_none_iff.mp hfound, rfl⟩

end Chinwag.Middleware

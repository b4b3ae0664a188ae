import Mathlib.Data.List.Basic

/-!
# Labelled transitions and their runs

A system is given by its step relation alone. Runs carry the list of labels they
produced, so that statements about what happened before or after a step can be
read off a split of that list.
-/
namespace Chinwag.Transition

variable {σ ε : Type*} {step : σ → ε → σ → Prop}

/-- A finite run from one state to another, with its labels in order. -/
inductive Run (step : σ → ε → σ → Prop) : σ → List ε → σ → Prop where
  | nil (s : σ) : Run step s [] s
  | cons {s t u : σ} {e : ε} {trace : List ε} :
      step s e t → Run step t trace u → Run step s (e :: trace) u

/-- States some run leads to from a permitted initial state. -/
def Reachable (step : σ → ε → σ → Prop) (init : σ → Prop) (s : σ) : Prop :=
  ∃ s₀ trace, init s₀ ∧ Run step s₀ trace s

theorem Run.single {s t : σ} {e : ε} (h : step s e t) : Run step s [e] t :=
  .cons h (.nil t)

theorem Run.mono {step' : σ → ε → σ → Prop} (hstep : ∀ s e t, step s e t → step' s e t) {s t : σ} {trace : List ε}
    (h : Run step s trace t) : Run step' s trace t := by
  induction h with
  | nil s => exact .nil s
  | cons hst _ ih => exact .cons (hstep _ _ _ hst) ih

theorem Run.append {s t u : σ} {first second : List ε} (h₁ : Run step s first t)
    (h₂ : Run step t second u) : Run step s (first ++ second) u := by
  induction h₁ with
  | nil => exact h₂
  | cons hs _ ih => exact .cons hs (ih h₂)

theorem Run.split {s u : σ} {first second : List ε} (h : Run step s (first ++ second) u) :
    ∃ t, Run step s first t ∧ Run step t second u := by
  induction first generalizing s with
  | nil => exact ⟨s, .nil s, h⟩
  | cons e first ih =>
    cases h with
    | cons hs hr =>
      obtain ⟨t, h₁, h₂⟩ := ih hr
      exact ⟨t, .cons hs h₁, h₂⟩

/-- The step that produced a given label, with the runs around it. -/
theorem Run.at_label {s u : σ} {before after : List ε} {e : ε}
    (h : Run step s (before ++ e :: after) u) :
    ∃ t t', Run step s before t ∧ step t e t' ∧ Run step t' after u := by
  obtain ⟨t, h₁, h₂⟩ := h.split
  cases h₂ with
  | cons hs hr => exact ⟨t, _, h₁, hs, hr⟩

/-- What every step keeps, every run keeps. -/
theorem Run.invariant {inv : σ → Prop} (hstep : ∀ s e t, inv s → step s e t → inv t)
    {s t : σ} {trace : List ε} (h : Run step s trace t) (hs : inv s) : inv t := by
  induction h with
  | nil => exact hs
  | cons h _ ih => exact ih (hstep _ _ _ hs h)

theorem Reachable.invariant {init inv : σ → Prop} (hinit : ∀ s, init s → inv s)
    (hstep : ∀ s e t, inv s → step s e t → inv t) {s : σ} (h : Reachable step init s) : inv s := by
  obtain ⟨s₀, trace, h₀, hr⟩ := h
  exact hr.invariant hstep (hinit s₀ h₀)

theorem Reachable.run {init : σ → Prop} {s t : σ} {trace : List ε} (h : Reachable step init s)
    (hr : Run step s trace t) : Reachable step init t := by
  obtain ⟨s₀, before, h₀, h₁⟩ := h
  exact ⟨s₀, before ++ trace, h₀, h₁.append hr⟩

theorem Reachable.tail {init : σ → Prop} {s t : σ} {e : ε} (h : Reachable step init s)
    (hs : step s e t) : Reachable step init t :=
  h.run (.single hs)

/-- What every step keeps of the labels so far and the state they led to, every run keeps. -/
theorem Run.history {P : List ε → σ → Prop}
    (hstep : ∀ past s e t, P past s → step s e t → P (past ++ [e]) t) {s u : σ} {trace : List ε}
    (h : Run step s trace u) (past : List ε) (hs : P past s) : P (past ++ trace) u := by
  induction h generalizing past with
  | nil => simpa using hs
  | cons hst _ ih =>
    have hrest := ih _ (hstep past _ _ _ hs hst)
    rwa [List.append_assoc] at hrest

/-- What holds at the end of a run but not at its start began to hold at one of its steps. -/
theorem Run.crossing {P : σ → Prop} {s u : σ} {trace : List ε} (h : Run step s trace u) (hs : ¬ P s) (hu : P u) :
    ∃ before e after t t', trace = before ++ e :: after ∧ Run step s before t ∧ step t e t' ∧
      Run step t' after u ∧ ¬ P t ∧ P t' := by
  induction h with
  | nil => exact absurd hu hs
  | @cons s t u e trace hst hr ih =>
    by_cases ht : P t
    · exact ⟨[], e, trace, s, t, rfl, .nil s, hst, hr, hs, ht⟩
    · obtain ⟨before, e', after, x, x', rfl, hbefore, hstep, hafter, hx, hx'⟩ := ih ht hu
      exact ⟨e :: before, e', after, x, x', rfl, .cons hst hbefore, hstep, hafter, hx, hx'⟩

/-- A run whose steps are all harmless stays good. -/
theorem Run.good {inv good : σ → Prop} {harmless : σ → ε → Prop}
    (hinv : ∀ s e t, inv s → step s e t → inv t)
    (hgood : ∀ s e t, inv s → good s → step s e t → harmless s e → good t)
    {s u : σ} {trace : List ε} (h : Run step s trace u) (hs : inv s) (hg : good s)
    (hall : ∀ before e after t t', trace = before ++ e :: after → Run step s before t →
      step t e t' → Run step t' after u → harmless t e) : good u := by
  induction h with
  | nil => exact hg
  | cons hst hr ih =>
    have hfirst := hall [] _ _ _ _ rfl (.nil _) hst hr
    refine ih (hinv _ _ _ hs hst) (hgood _ _ _ hs hg hst hfirst) ?_
    intro before e after t t' htrace hbefore hstep hafter
    exact hall (_ :: before) e after t t' (by rw [htrace]; rfl) (.cons hst hbefore) hstep hafter

/-- Where each step keeps a good state good exactly if it is harmless, a run is good all along
exactly if all its steps are harmless. -/
theorem Run.always_good_iff {inv good : σ → Prop} {harmless : σ → ε → Prop}
    (hinv : ∀ s e t, inv s → step s e t → inv t)
    (hgood : ∀ s e t, inv s → good s → step s e t → (good t ↔ harmless s e))
    {s u : σ} {trace : List ε} (hs : inv s) (hg : good s) :
    (∀ before after t, trace = before ++ after → Run step s before t → Run step t after u → good t) ↔
    ∀ before e after t t', trace = before ++ e :: after → Run step s before t → step t e t' →
      Run step t' after u → harmless t e := by
  constructor
  · intro h before e after t t' htrace hbefore hstep hafter
    have ht := h before (e :: after) t htrace hbefore (.cons hstep hafter)
    have ht' := h (before ++ [e]) after t' (by rw [htrace, List.append_assoc]; rfl)
      (hbefore.append (.single hstep)) hafter
    exact (hgood t e t' (hbefore.invariant hinv hs) ht hstep).mp ht'
  · intro h before after t htrace hbefore hafter
    refine hbefore.good hinv (fun s e t hs hg hst => (hgood s e t hs hg hst).mpr) hs hg ?_
    intro b e b' x x' hsplit hb hstep hb'
    refine h b e (b' ++ after) x x' ?_ hb hstep (hb'.append hafter)
    rw [htrace, hsplit, List.append_assoc]
    rfl

/-- Where moreover no step leads back to a good state, the last state tells. -/
theorem Run.good_iff {inv good : σ → Prop} {harmless : σ → ε → Prop}
    (hinv : ∀ s e t, inv s → step s e t → inv t)
    (hgood : ∀ s e t, inv s → good s → step s e t → (good t ↔ harmless s e))
    (hbad : ∀ s e t, inv s → ¬ good s → step s e t → ¬ good t)
    {s u : σ} {trace : List ε} (h : Run step s trace u) (hs : inv s) (hg : good s) :
    good u ↔ ∀ before e after t t', trace = before ++ e :: after → Run step s before t → step t e t' →
      Run step t' after u → harmless t e := by
  rw [← Run.always_good_iff hinv hgood hs hg]
  constructor
  · intro hu before after t htrace hbefore hafter
    by_contra ht
    have hkeep : ∀ s e t, inv s ∧ ¬ good s → step s e t → inv t ∧ ¬ good t := fun s e t h hstep =>
      ⟨hinv s e t h.1 hstep, hbad s e t h.1 h.2 hstep⟩
    exact (hafter.invariant hkeep ⟨hbefore.invariant hinv hs, ht⟩).2 hu
  · intro hall
    exact hall trace [] u (List.append_nil _).symm h (.nil _)

/-- Where a step keeps its promise exactly if it is harmless, and a kept promise leads to a good
state, a run keeps its promises all along exactly if all its steps are harmless. -/
theorem Run.always_kept_iff {inv good : σ → Prop} {kept : σ → ε → σ → Prop} {harmless : σ → ε → Prop}
    (hinv : ∀ s e t, inv s → step s e t → inv t)
    (hkept : ∀ s e t, inv s → good s → step s e t → (kept s e t ↔ harmless s e))
    (hgood : ∀ s e t, kept s e t → good t) {s u : σ} {trace : List ε} (hs : inv s) (hg : good s) :
    (∀ before e after t t', trace = before ++ e :: after → Run step s before t → step t e t' →
      Run step t' after u → kept t e t') ↔
    ∀ before e after t t', trace = before ++ e :: after → Run step s before t → step t e t' →
      Run step t' after u → harmless t e := by
  constructor
  · intro hall before e after t t' htrace hbefore hst hafter
    have hgt : good t := by
      rcases List.eq_nil_or_concat before with rfl | ⟨first, last, rfl⟩
      · cases hbefore
        exact hg
      · -- the step before this one has kept its promise
        rw [List.concat_eq_append] at htrace hbefore
        obtain ⟨x, hfirst, hlast⟩ := hbefore.split
        cases hlast with
        | cons hst' hnil =>
          cases hnil
          refine hgood _ _ _ (hall first last (e :: after) x t ?_ hfirst hst' (.cons hst hafter))
          rw [htrace, List.append_assoc]
          rfl
    exact (hkept t e t' (hbefore.invariant hinv hs) hgt hst).mp (hall before e after t t' htrace hbefore hst hafter)
  · intro hall before e after t t' htrace hbefore hst hafter
    have hgt : good t := by
      have hstays : ∀ x e y, inv x → good x → step x e y → harmless x e → good y := fun x e y hx hgx hxy hharm =>
        hgood x e y ((hkept x e y hx hgx hxy).mpr hharm)
      refine hbefore.good hinv hstays hs hg ?_
      intro b e' b' x x' hsplit hb hst' hb'
      refine hall b e' (b' ++ e :: after) x x' ?_ hb hst' (hb'.append (.cons hst hafter))
      rw [htrace, hsplit, List.append_assoc]
      rfl
    exact (hkept t e t' (hbefore.invariant hinv hs) hgt hst).mpr (hall before e after t t' htrace hbefore hst hafter)

/-- Labels a run can no longer produce once a step-closed property of states
holds: the property rules the label out wherever it holds. -/
theorem Run.absent (inv : σ → Prop) (hstep : ∀ s e t, inv s → step s e t → inv t) {bad : ε → Prop}
    (hbad : ∀ s e t, inv s → step s e t → ¬ bad e) {s t : σ} {trace : List ε}
    (h : Run step s trace t) (hs : inv s) : ∀ e ∈ trace, ¬ bad e := by
  induction h with
  | nil => simp
  | cons h _ ih =>
    intro e he
    rcases List.mem_cons.mp he with rfl | he
    · exact hbad _ _ _ hs h
    · exact ih (hstep _ _ _ hs h) e he

/-- A label of a kind that only the last label of a trace is of. -/
theorem last_of_kind {K : ε → Prop} {first before after : List ε} {last e : ε}
    (h : first ++ [last] = before ++ e :: after) (he : K e) (hfirst : ∀ e ∈ first, ¬ K e) :
    before = first ∧ e = last ∧ after = [] := by
  rcases List.eq_nil_or_concat after with rfl | ⟨after', z, rfl⟩
  · obtain ⟨rfl, hlast⟩ := List.append_inj' h rfl
    exact ⟨rfl, (List.singleton_inj.mp hlast).symm, rfl⟩
  · rw [List.concat_eq_append, ← List.cons_append, ← List.append_assoc] at h
    obtain ⟨rfl, -⟩ := List.append_inj' h rfl
    exact absurd he (hfirst e (List.mem_append_right _ List.mem_cons_self))

end Chinwag.Transition

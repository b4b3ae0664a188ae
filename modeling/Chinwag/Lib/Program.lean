import Chinwag.Lib.Transition

/-!
# Programs that issue commands, and pools of them

A program is a tree of commands; what it does next depends on the reply. Several
programs run over one shared state, one command at a time, in any interleaving;
`Safe` judges one of them by what it may rely on and what it must guarantee.
-/
namespace Chinwag.Program

open Transition

/-- A program over commands `Cmd`, each answered in `Reply`. -/
inductive Prog (Cmd : Type) (Reply : Cmd → Type) (α : Type) : Type where
  | ret (a : α)
  | call (c : Cmd) (next : Reply c → Prog Cmd Reply α)

variable {Cmd : Type} {Reply : Cmd → Type} {α β σ ε : Type}

namespace Prog

def bind : Prog Cmd Reply α → (α → Prog Cmd Reply β) → Prog Cmd Reply β
  | .ret a, f => f a
  | .call c next, f => .call c fun r => (next r).bind f

instance : Monad (Prog Cmd Reply) where
  pure := .ret
  bind := bind

/-- Issue one command and return its reply. -/
def perform (c : Cmd) : Prog Cmd Reply (Reply c) := .call c .ret

@[simp] theorem pure_eq (a : α) : (pure a : Prog Cmd Reply α) = .ret a := rfl

@[simp] theorem ret_bind (a : α) (f : α → Prog Cmd Reply β) : (Prog.ret a >>= f) = f a := rfl

@[simp] theorem call_bind (c : Cmd) (next : Reply c → Prog Cmd Reply α)
    (f : α → Prog Cmd Reply β) : (Prog.call c next >>= f) = .call c fun r => next r >>= f := rfl

@[simp] theorem perform_bind (c : Cmd) (f : Reply c → Prog Cmd Reply β) :
    (perform c >>= f) = .call c f := rfl

end Prog

/-- How the shared state answers the commands of thread `i`, and how it moves on its own. -/
structure Semantics (σ ε Cmd : Type) (Reply : Cmd → Type) where
  exec : Nat → (c : Cmd) → σ → Reply c → σ → Prop
  env : σ → ε → σ → Prop

/-- The threads started so far, each with what is left of its program. -/
structure Pool (σ Cmd : Type) (Reply : Cmd → Type) (α : Type) where
  shared : σ
  threads : List (Prog Cmd Reply α)

inductive Label (ε Cmd : Type) (Reply : Cmd → Type) (α : Type) where
  | cmd (i : Nat) (c : Cmd) (r : Reply c)
  | spawn (p : Prog Cmd Reply α)
  | env (e : ε)

/-- One command of one thread, the start of a thread, or a step of the environment. -/
inductive Step (S : Semantics σ ε Cmd Reply) (entry : Prog Cmd Reply α → Prop) :
    Pool σ Cmd Reply α → Label ε Cmd Reply α → Pool σ Cmd Reply α → Prop where
  | cmd {pool : Pool σ Cmd Reply α} {i : Nat} {c : Cmd} {next : Reply c → Prog Cmd Reply α}
      {r : Reply c} {s : σ} (hi : pool.threads[i]? = some (.call c next))
      (hexec : S.exec i c pool.shared r s) :
      Step S entry pool (.cmd i c r) ⟨s, pool.threads.set i (next r)⟩
  | spawn {pool : Pool σ Cmd Reply α} {p : Prog Cmd Reply α} (hp : entry p) :
      Step S entry pool (.spawn p) ⟨pool.shared, pool.threads ++ [p]⟩
  | env {pool : Pool σ Cmd Reply α} {e : ε} {s : σ} (he : S.env pool.shared e s) :
      Step S entry pool (.env e) ⟨s, pool.threads⟩

/-- `Step.cmd` into a pool that is given, to be compared with the one the command leads to. -/
theorem Step.into {S : Semantics σ ε Cmd Reply} {entry : Prog Cmd Reply α → Prop}
    {pool pool' : Pool σ Cmd Reply α} {i : Nat} {c : Cmd} {next : Reply c → Prog Cmd Reply α} {r : Reply c}
    {s : σ} (hi : pool.threads[i]? = some (.call c next)) (hexec : S.exec i c pool.shared r s)
    (h : pool' = ⟨s, pool.threads.set i (next r)⟩) : Step S entry pool (.cmd i c r) pool' := by
  subst h
  exact .cmd hi hexec

/-- What thread `i` may assume of the others (`rely`), what each of its commands
must meet when issued (`guar`), and the invariant both preserve. -/
structure Contract (σ Cmd : Type) where
  inv : σ → Prop
  rely : Nat → σ → σ → Prop
  guar : Nat → Cmd → σ → Prop

/-- The rely-guarantee rule for one program: it returns only where `Q` holds. -/
def Safe (S : Semantics σ ε Cmd Reply) (K : Contract σ Cmd) (i : Nat) (Q : α → σ → Prop) :
    Prog Cmd Reply α → σ → Prop
  | .ret a, s => Q a s
  | .call c next, s => ∀ s₁, K.inv s₁ → K.rely i s s₁ →
      K.guar i c s₁ ∧ ∀ r s₂, S.exec i c s₁ r s₂ → K.inv s₂ → Safe S K i Q (next r) s₂

/-- The obligations that make a contract sound for a semantics. -/
structure Contract.Sound (S : Semantics σ ε Cmd Reply) (K : Contract σ Cmd) : Prop where
  rely_refl : ∀ i s, K.rely i s s
  rely_trans : ∀ i s t u, K.rely i s t → K.rely i t u → K.rely i s u
  env : ∀ s e t, K.inv s → S.env s e t → K.inv t ∧ ∀ i, K.rely i s t
  cmd : ∀ i c s r t, K.inv s → K.guar i c s → S.exec i c s r t →
    K.inv t ∧ ∀ j, j ≠ i → K.rely j s t

/-- A postcondition the steps of the others cannot undo. -/
def Contract.Stable (K : Contract σ Cmd) (Q : Nat → α → σ → Prop) : Prop :=
  ∀ i a s t, Q i a s → K.rely i s t → Q i a t

/-- The pool invariant: the shared state is good and every thread is safe from here. -/
structure Good (S : Semantics σ ε Cmd Reply) (K : Contract σ Cmd) (Q : Nat → α → σ → Prop)
    (pool : Pool σ Cmd Reply α) : Prop where
  shared : K.inv pool.shared
  safe : ∀ (i : Nat) (p : Prog Cmd Reply α), pool.threads[i]? = some p → Safe S K i (Q i) p pool.shared

variable {S : Semantics σ ε Cmd Reply} {K : Contract σ Cmd} {entry : Prog Cmd Reply α → Prop}

theorem Safe.mono {i : Nat} {Q R : α → σ → Prop} (hqr : ∀ a s, Q a s → R a s)
    {p : Prog Cmd Reply α} {s : σ} (h : Safe S K i Q p s) : Safe S K i R p s := by
  induction p generalizing s with
  | ret a => exact hqr a s h
  | call c next ih =>
    intro s₁ hi h₁
    obtain ⟨hg, hn⟩ := h s₁ hi h₁
    exact ⟨hg, fun r s₂ he hi₂ => ih r (hn r s₂ he hi₂)⟩

theorem Safe.bind {i : Nat} {Q : α → σ → Prop} {R : β → σ → Prop} {p : Prog Cmd Reply α}
    {f : α → Prog Cmd Reply β} {s : σ} (h : Safe S K i Q p s)
    (hf : ∀ a t, Q a t → Safe S K i R (f a) t) : Safe S K i R (p >>= f) s := by
  induction p generalizing s with
  | ret a => exact hf a s h
  | call c next ih =>
    intro s₁ hi h₁
    obtain ⟨hg, hn⟩ := h s₁ hi h₁
    exact ⟨hg, fun r s₂ he hi₂ => ih r (hn r s₂ he hi₂)⟩

/-- A safe program stays safe when the others move the state. -/
theorem Safe.rely (hK : K.Sound S) {i : Nat} {Q : α → σ → Prop}
    (hQ : ∀ a s t, Q a s → K.rely i s t → Q a t) {p : Prog Cmd Reply α} {s t : σ}
    (h : Safe S K i Q p s) (hr : K.rely i s t) : Safe S K i Q p t := by
  cases p with
  | ret a => exact hQ a s t h hr
  | call c next => exact fun s₁ hi h₁ => h s₁ hi (hK.rely_trans i s t s₁ hr h₁)

/-- A thread safe under one contract is safe under another that it can be traded for. -/
theorem Safe.trade {K' : Contract σ Cmd} {i : Nat} {Q : α → σ → Prop} (hinv : ∀ s, K'.inv s → K.inv s)
    (hrely : ∀ s t, K'.rely i s t → K.rely i s t) (hguar : ∀ c s, K.guar i c s → K'.guar i c s)
    {p : Prog Cmd Reply α} {s : σ} (h : Safe S K i Q p s) : Safe S K' i Q p s := by
  induction p generalizing s with
  | ret a => exact h
  | call c next ih =>
    intro s₁ hi h₁
    obtain ⟨hg, hn⟩ := h s₁ (hinv s₁ hi) (hrely s s₁ h₁)
    exact ⟨hguar c s₁ hg, fun r s₂ he hi₂ => ih r (hn r s₂ he (hinv s₂ hi₂))⟩

/-- The next command of a thread of a good pool meets its guarantee. -/
theorem Good.guar (hK : K.Sound S) {Q : Nat → α → σ → Prop} {pool : Pool σ Cmd Reply α}
    (hg : Good S K Q pool) {i : Nat} {c : Cmd} {next : Reply c → Prog Cmd Reply α}
    (hi : pool.threads[i]? = some (.call c next)) : K.guar i c pool.shared :=
  (hg.safe i _ hi pool.shared hg.shared (hK.rely_refl i _)).1

/-- One step of a good pool, given that the thread it starts is safe under its number. -/
theorem Good.step_label (hK : K.Sound S) {Q : Nat → α → σ → Prop} (hQ : K.Stable Q)
    {pool pool' : Pool σ Cmd Reply α} {l : Label ε Cmd Reply α}
    (hentry : ∀ p, l = .spawn p → entry p →
      Safe S K pool.threads.length (Q pool.threads.length) p pool.shared)
    (hg : Good S K Q pool) (h : Step S entry pool l pool') : Good S K Q pool' := by
  cases h with
  | @cmd i c next r s hi hexec =>
    obtain ⟨hinv, hrely⟩ := hK.cmd i c _ r s hg.shared (hg.guar hK hi) hexec
    refine ⟨hinv, fun j p hj => ?_⟩
    by_cases hij : i = j
    · subst hij
      have hlt : i < pool.threads.length := (List.getElem?_eq_some_iff.mp hi).1
      simp only [List.getElem?_set_self hlt, Option.some.injEq] at hj
      subst hj
      exact (hg.safe i _ hi pool.shared hg.shared (hK.rely_refl i _)).2 r s hexec hinv
    · simp only [List.getElem?_set_ne hij] at hj
      exact (hg.safe j p hj).rely hK (hQ j) (hrely j (Ne.symm hij))
  | @spawn p hp =>
    refine ⟨hg.shared, fun j q hj => ?_⟩
    rcases Nat.lt_or_ge j pool.threads.length with hlt | hge
    · rw [List.getElem?_append_left hlt] at hj
      exact hg.safe j q hj
    · rw [List.getElem?_append_right hge] at hj
      obtain ⟨hzero, rfl⟩ : j - pool.threads.length = 0 ∧ q = p := by
        have hlast := (List.getElem?_eq_some_iff.mp hj).1
        have hz : j - pool.threads.length = 0 := by
          rw [List.length_singleton] at hlast
          omega
        rw [hz] at hj
        exact ⟨hz, (Option.some.inj hj).symm⟩
      have hjl : j = pool.threads.length := by omega
      subst hjl
      exact hentry q rfl hp
  | @env e s he =>
    obtain ⟨hinv, hrely⟩ := hK.env _ e s hg.shared he
    exact ⟨hinv, fun j p hj => (hg.safe j p hj).rely hK (hQ j) (hrely j)⟩

theorem Good.step_spawn (hK : K.Sound S) {Q : Nat → α → σ → Prop} (hQ : K.Stable Q)
    {pool pool' : Pool σ Cmd Reply α} {l : Label ε Cmd Reply α}
    (hentry : ∀ p, entry p → Safe S K pool.threads.length (Q pool.threads.length) p pool.shared)
    (hg : Good S K Q pool) (h : Step S entry pool l pool') : Good S K Q pool' :=
  hg.step_label hK hQ (fun p _ hp => hentry p hp) h

theorem Good.step (hK : K.Sound S) {Q : Nat → α → σ → Prop} (hQ : K.Stable Q)
    (hentry : ∀ i p s, entry p → K.inv s → Safe S K i (Q i) p s)
    {pool pool' : Pool σ Cmd Reply α} {l : Label ε Cmd Reply α} (hg : Good S K Q pool)
    (h : Step S entry pool l pool') : Good S K Q pool' :=
  hg.step_spawn hK hQ (fun p hp => hentry _ p _ hp hg.shared) h

/-- What the other threads may do never marks a thread that has not been started yet. -/
theorem Good.unmarked (hK : K.Sound S) {Q : Nat → α → σ → Prop} {unmarked : Nat → σ → Prop}
    (hrely : ∀ i s t, unmarked i s → K.rely i s t → unmarked i t)
    {pool pool' : Pool σ Cmd Reply α} {l : Label ε Cmd Reply α} (hg : Good S K Q pool)
    (h : Step S entry pool l pool') (hp : ∀ i, pool.threads.length ≤ i → unmarked i pool.shared) :
    ∀ i, pool'.threads.length ≤ i → unmarked i pool'.shared := by
  intro i hi
  cases h with
  | @cmd j c next r s hj hexec =>
    have hlt : j < pool.threads.length := (List.getElem?_eq_some_iff.mp hj).1
    simp only [List.length_set] at hi
    obtain ⟨-, hr⟩ := hK.cmd j c _ r s hg.shared (hg.guar hK hj) hexec
    exact hrely i _ _ (hp i hi) (hr i (by omega))
  | @spawn p _ =>
    simp only [List.length_append, List.length_singleton] at hi
    exact hp i (by omega)
  | @env e s he =>
    obtain ⟨-, hr⟩ := hK.env _ e s hg.shared he
    exact hrely i _ _ (hp i hi) (hr i)

/-- A whole run: the pool stays good, and no thread is marked that has not been started. -/
theorem Good.run_started (hK : K.Sound S) {Q : Nat → α → σ → Prop} (hQ : K.Stable Q) {unmarked : Nat → σ → Prop}
    (hrely : ∀ i s t, unmarked i s → K.rely i s t → unmarked i t)
    (hentry : ∀ i p s, entry p → unmarked i s → Safe S K i (Q i) p s) {pool pool' : Pool σ Cmd Reply α}
    {trace : List (Label ε Cmd Reply α)} (h : Run (Step S entry) pool trace pool') (hg : Good S K Q pool)
    (hp : ∀ i, pool.threads.length ≤ i → unmarked i pool.shared) :
    Good S K Q pool' ∧ ∀ i, pool'.threads.length ≤ i → unmarked i pool'.shared := by
  induction h with
  | nil => exact ⟨hg, hp⟩
  | @cons pool _ _ _ _ hstep _ ih =>
    have hstart := fun q hq => hentry pool.threads.length q pool.shared hq (hp _ (Nat.le_refl _))
    exact ih (hg.step_spawn hK hQ hstart hstep) (hg.unmarked hK hrely hstep hp)

section Composition

variable {σ' ε' : Type} {S' : Semantics σ' ε' Cmd Reply} {f : σ' → σ}

/-- A contract on one part of the state. -/
def Contract.pullback (f : σ' → σ) (K : Contract σ Cmd) : Contract σ' Cmd where
  inv s := K.inv (f s)
  rely i s t := K.rely i (f s) (f t)
  guar i c s := K.guar i c (f s)

theorem Safe.pullback (hexec : ∀ i c s r t, S'.exec i c s r t → S.exec i c (f s) r (f t)) {i : Nat}
    {Q : α → σ → Prop} {p : Prog Cmd Reply α} {s : σ'} (h : Safe S K i Q p (f s)) :
    Safe S' (K.pullback f) i (fun a s => Q a (f s)) p s := by
  induction p generalizing s with
  | ret a => exact h
  | call c next ih =>
    intro s₁ hi h₁
    obtain ⟨hg, hn⟩ := h (f s₁) hi h₁
    exact ⟨hg, fun r s₂ he hi₂ => ih r (hn r (f s₂) (hexec i c s₁ r s₂ he) hi₂)⟩

/-- Both contracts at once. -/
def Contract.both (K K' : Contract σ Cmd) : Contract σ Cmd where
  inv s := K.inv s ∧ K'.inv s
  rely i s t := K.rely i s t ∧ K'.rely i s t
  guar i c s := K.guar i c s ∧ K'.guar i c s

theorem Safe.both {K' : Contract σ Cmd} {i : Nat} {Q R : α → σ → Prop} {p : Prog Cmd Reply α} {s : σ}
    (h : Safe S K i Q p s) (h' : Safe S K' i R p s) :
    Safe S (K.both K') i (fun a s => Q a s ∧ R a s) p s := by
  induction p generalizing s with
  | ret a => exact ⟨h, h'⟩
  | call c next ih =>
    rintro s₁ ⟨hi, hi'⟩ ⟨h₁, h₁'⟩
    obtain ⟨hg, hn⟩ := h s₁ hi h₁
    obtain ⟨hg', hn'⟩ := h' s₁ hi' h₁'
    exact ⟨⟨hg, hg'⟩, fun r s₂ he hi₂ => ih r (hn r s₂ he hi₂.1) (hn' r s₂ he hi₂.2)⟩

/-- A contract that asks for nothing before any command. -/
theorem Safe.of_guar {i : Nat} (hguar : ∀ c s, K.guar i c s) (p : Prog Cmd Reply α) (s : σ) :
    Safe S K i (fun _ _ => True) p s := by
  induction p generalizing s with
  | ret a => trivial
  | call c next ih => exact fun s₁ _ _ => ⟨hguar c s₁, fun r s₂ _ _ => ih r s₂⟩

end Composition

section Spawned

/-- The programs started in a run, in order: thread `i` of a pool that began empty is the `i`-th. -/
def spawned : List (Label ε Cmd Reply α) → List (Prog Cmd Reply α)
  | [] => []
  | .spawn p :: trace => p :: spawned trace
  | .cmd _ _ _ :: trace => spawned trace
  | .env _ :: trace => spawned trace

/-- A pool stays good where each thread is safe under the number it is started with. -/
theorem Good.run_spawned (hK : K.Sound S) {Q : Nat → α → σ → Prop} (hQ : K.Stable Q) {unmarked : Nat → σ → Prop}
    (hrely : ∀ i s t, unmarked i s → K.rely i s t → unmarked i t) {pool pool' : Pool σ Cmd Reply α}
    {trace : List (Label ε Cmd Reply α)} (h : Run (Step S entry) pool trace pool')
    (hentry : ∀ j p s, (spawned trace)[j]? = some p → entry p → unmarked (pool.threads.length + j) s →
      Safe S K (pool.threads.length + j) (Q (pool.threads.length + j)) p s)
    (hg : Good S K Q pool) (hp : ∀ i, pool.threads.length ≤ i → unmarked i pool.shared) :
    Good S K Q pool' := by
  induction h with
  | nil => exact hg
  | @cons pool mid pool' l trace hst hr ih =>
    have hp' := hg.unmarked hK hrely hst hp
    have hg' : Good S K Q mid := by
      refine hg.step_label hK hQ (fun p hl hp₁ => ?_) hst
      subst hl
      exact hentry 0 p pool.shared rfl hp₁ (hp _ (Nat.le_refl _))
    cases hst with
    | cmd =>
      refine ih (fun j q s hj hq hmark => ?_) hg' hp'
      rw [List.length_set] at hmark ⊢
      exact hentry j q s hj hq hmark
    | env => exact ih hentry hg' hp'
    | spawn =>
      refine ih (fun j q s hj hq hmark => ?_) hg' hp'
      have hnumber : pool.threads.length + 1 + j = pool.threads.length + (j + 1) := by omega
      rw [List.length_append, List.length_singleton, hnumber] at hmark ⊢
      exact hentry (j + 1) q s hj hq hmark

end Spawned

section History

/-- The replies to the commands a program has issued, up to what is left of it. -/
inductive Follows : Prog Cmd Reply α → List (Σ c, Reply c) → Prog Cmd Reply α → Prop where
  | nil (p : Prog Cmd Reply α) : Follows p [] p
  | cons {c : Cmd} {next : Reply c → Prog Cmd Reply α} {r : Reply c} {replies : List (Σ c, Reply c)}
      {q : Prog Cmd Reply α} (h : Follows (next r) replies q) : Follows (.call c next) (⟨c, r⟩ :: replies) q

/-- The replies to the commands of a program that has returned. -/
def Did (p : Prog Cmd Reply α) (replies : List (Σ c, Reply c)) (a : α) : Prop := Follows p replies (.ret a)

theorem did_ret {a b : α} {replies : List (Σ c, Reply c)} (h : Did (.ret a : Prog Cmd Reply α) replies b) :
    replies = [] ∧ b = a := by
  cases h
  exact ⟨rfl, rfl⟩

theorem did_call {c : Cmd} {next : Reply c → Prog Cmd Reply α} {replies : List (Σ c, Reply c)} {a : α}
    (h : Did (.call c next) replies a) : ∃ r rest, replies = ⟨c, r⟩ :: rest ∧ Did (next r) rest a := by
  cases h with
  | cons h => exact ⟨_, _, rfl, h⟩

theorem did_bind {p : Prog Cmd Reply α} {f : α → Prog Cmd Reply β} {replies : List (Σ c, Reply c)} {b : β}
    (h : Did (p >>= f) replies b) :
    ∃ a first second, replies = first ++ second ∧ Did p first a ∧ Did (f a) second b := by
  induction p generalizing replies with
  | ret a => exact ⟨a, [], replies, rfl, .nil _, h⟩
  | call c next ih =>
    obtain ⟨r, rest, rfl, hrest⟩ := did_call h
    obtain ⟨a, first, second, rfl, hfirst, hsecond⟩ := ih r hrest
    exact ⟨a, ⟨c, r⟩ :: first, second, rfl, .cons hfirst, hsecond⟩

theorem did_perform {c : Cmd} {replies : List (Σ c, Reply c)} {r : Reply c}
    (h : Did (Prog.perform c) replies r) : replies = [⟨c, r⟩] := by
  obtain ⟨r', rest, rfl, hrest⟩ := did_call h
  obtain ⟨rfl, rfl⟩ := did_ret hrest
  rfl

/-- The commands of thread `i` in a run, each with its reply. -/
def repliesTo (i : Nat) : List (Label ε Cmd Reply α) → List (Σ c, Reply c)
  | [] => []
  | .cmd j c r :: trace => if j = i then ⟨c, r⟩ :: repliesTo i trace else repliesTo i trace
  | .spawn _ :: trace => repliesTo i trace
  | .env _ :: trace => repliesTo i trace

theorem mem_repliesTo {i : Nat} {c : Cmd} {r : Reply c} {trace : List (Label ε Cmd Reply α)} :
    ⟨c, r⟩ ∈ repliesTo i trace ↔ .cmd i c r ∈ trace := by
  induction trace with
  | nil => simp [repliesTo]
  | cons l trace ih =>
    cases l with
    | spawn p => simp [repliesTo, ih]
    | env e => simp [repliesTo, ih]
    | cmd j d q =>
      unfold repliesTo
      split
      · rename_i hj
        subst hj
        rw [List.mem_cons, List.mem_cons, ih]
        refine or_congr ⟨fun h => ?_, fun h => ?_⟩ Iff.rfl
        · cases h
          rfl
        · cases h
          rfl
      · rename_i hj
        rw [List.mem_cons, ih]
        refine ⟨Or.inr, fun h => h.resolve_left fun heq => hj ?_⟩
        cases heq
        rfl

theorem Follows.of_run {i : Nat} {pool pool' : Pool σ Cmd Reply α} {trace : List (Label ε Cmd Reply α)}
    {p : Prog Cmd Reply α} (h : Run (Step S entry) pool trace pool') (hi : pool.threads[i]? = some p) :
    ∃ q, pool'.threads[i]? = some q ∧ Follows p (repliesTo i trace) q := by
  induction h generalizing p with
  | nil => exact ⟨p, hi, .nil p⟩
  | cons hstep _ ih =>
    have hlt : i < _ := (List.getElem?_eq_some_iff.mp hi).1
    cases hstep with
    | env => exact ih hi
    | spawn => exact ih (by rw [List.getElem?_append_left hlt]; exact hi)
    | @cmd j c next r s hj hexec =>
      by_cases heq : j = i
      · subst heq
        obtain rfl := Option.some.inj (hj.symm.trans hi)
        obtain ⟨q, hq, hfollows⟩ := ih (List.getElem?_set_self hlt)
        exact ⟨q, hq, by rw [repliesTo, if_pos rfl]; exact .cons hfollows⟩
      · obtain ⟨q, hq, hfollows⟩ := ih ((List.getElem?_set_ne heq).trans hi)
        exact ⟨q, hq, by rw [repliesTo, if_neg heq]; exact hfollows⟩

/-- A thread started in a run is what its program and the replies it got make of it. -/
theorem Follows.of_started {i : Nat} {pool pool' : Pool σ Cmd Reply α} {trace : List (Label ε Cmd Reply α)}
    {q : Prog Cmd Reply α} (h : Run (Step S entry) pool trace pool') (hlen : pool.threads.length ≤ i)
    (hi : pool'.threads[i]? = some q) : ∃ p, entry p ∧ Follows p (repliesTo i trace) q := by
  induction h with
  | nil =>
    rw [List.getElem?_eq_none hlen] at hi
    cases hi
  | @cons pool mid pool' l trace hstep hrest ih =>
    cases hstep with
    | env => exact ih hlen hi
    | @cmd j c next r s hj hexec =>
      have hlt : j < pool.threads.length := (List.getElem?_eq_some_iff.mp hj).1
      have hne : j ≠ i := by omega
      rw [repliesTo, if_neg hne]
      exact ih (by rw [List.length_set]; exact hlen) hi
    | @spawn p hp =>
      by_cases heq : i = pool.threads.length
      · subst heq
        obtain ⟨q', hq', hfollows⟩ := Follows.of_run hrest List.getElem?_concat_length
        obtain rfl := Option.some.inj (hq'.symm.trans hi)
        exact ⟨p, hp, hfollows⟩
      · refine ih ?_ hi
        rw [List.length_append, List.length_singleton]
        omega

end History

section Only

variable {P : Cmd → Prop}

/-- Every command the program may come to issue is of that kind. -/
def Only (P : Cmd → Prop) : Prog Cmd Reply α → Prop
  | .ret _ => True
  | .call c next => P c ∧ ∀ r, Only P (next r)

theorem Only.bind {p : Prog Cmd Reply α} {f : α → Prog Cmd Reply β} (h : Only P p) (hf : ∀ a, Only P (f a)) :
    Only P (p >>= f) := by
  induction p with
  | ret a => exact hf a
  | call c next ih => exact ⟨h.1, fun r => ih r (h.2 r)⟩

theorem Step.only {pool pool' : Pool σ Cmd Reply α} {l : Label ε Cmd Reply α}
    (hentry : ∀ p, entry p → Only P p) (hp : ∀ p ∈ pool.threads, Only P p) (h : Step S entry pool l pool') :
    (∀ p ∈ pool'.threads, Only P p) ∧ ∀ i c r, l = .cmd i c r → P c := by
  cases h with
  | @cmd i c next r s hi hexec =>
    obtain ⟨hc, hnext⟩ := hp _ (List.mem_of_getElem? hi)
    constructor
    · intro q hq
      rcases List.mem_or_eq_of_mem_set hq with hold | rfl
      · exact hp q hold
      · exact hnext r
    · rintro _ _ _ ⟨⟩
      exact hc
  | spawn hq =>
    constructor
    · intro q hmem
      rcases List.mem_append.mp hmem with hold | hnew
      · exact hp q hold
      · obtain rfl := List.mem_singleton.mp hnew
        exact hentry q hq
    · exact fun _ _ _ hl => nomatch hl
  | env => exact ⟨hp, fun _ _ _ hl => nomatch hl⟩

end Only

section Alone

variable {answer : (c : Cmd) → σ → Reply c → σ → Prop} {drift : σ → σ → Prop}

/-- One program running with no other thread: the state only drifts between its commands. -/
inductive Alone (answer : (c : Cmd) → σ → Reply c → σ → Prop) (drift : σ → σ → Prop) :
    Prog Cmd Reply α → σ → α → σ → Prop where
  | ret (a : α) (s : σ) : Alone answer drift (.ret a) s a s
  | call {c : Cmd} {next : Reply c → Prog Cmd Reply α} {s s₁ s₂ t : σ} {r : Reply c} {a : α} :
      drift s s₁ → answer c s₁ r s₂ → Alone answer drift (next r) s₂ a t →
      Alone answer drift (.call c next) s a t

theorem Alone.bind {p : Prog Cmd Reply α} {f : α → Prog Cmd Reply β} {s m t : σ} {a : α} {b : β}
    (h : Alone answer drift p s a m) (hf : Alone answer drift (f a) m b t) :
    Alone answer drift (p >>= f) s b t := by
  induction h with
  | ret a s => exact hf
  | call hd ha _ ih => exact .call hd ha (ih hf)

theorem Alone.mono {answer' : (c : Cmd) → σ → Reply c → σ → Prop} {p : Prog Cmd Reply α} {s t : σ} {a : α}
    (hanswer : ∀ c s r t, answer c s r t → answer' c s r t) (h : Alone answer drift p s a t) :
    Alone answer' drift p s a t := by
  induction h with
  | ret a s => exact .ret a s
  | call hd ha _ ih => exact .call hd (hanswer _ _ _ _ ha) ih

/-- Other answers and another drift, for the commands the program may come to issue. -/
theorem Alone.mono_of_only {P : Cmd → Prop} {answer' : (c : Cmd) → σ → Reply c → σ → Prop} {drift' : σ → σ → Prop}
    {p : Prog Cmd Reply α} {s t : σ} {a : α} (hdrift : ∀ s t, drift s t → drift' s t)
    (hanswer : ∀ c s r t, P c → answer c s r t → answer' c s r t) (hp : Only P p)
    (h : Alone answer drift p s a t) : Alone answer' drift' p s a t := by
  induction h with
  | ret a s => exact .ret a s
  | call hd ha _ ih => exact .call (hdrift _ _ hd) (hanswer _ _ _ _ hp.1 ha) (ih (hp.2 _))

theorem Alone.of_ret {s t : σ} {a b : α} (h : Alone answer drift (.ret a : Prog Cmd Reply α) s b t) :
    b = a ∧ t = s := by
  cases h
  exact ⟨rfl, rfl⟩

theorem Alone.of_perform {c : Cmd} {s t : σ} {r : Reply c}
    (h : Alone answer drift (Prog.perform c) s r t) : ∃ s₁, drift s s₁ ∧ answer c s₁ r t := by
  cases h with
  | call hd ha hn =>
    obtain ⟨rfl, rfl⟩ := hn.of_ret
    exact ⟨_, hd, ha⟩

theorem Alone.perform {c : Cmd} {s s₁ t : σ} {r : Reply c} (hd : drift s s₁) (ha : answer c s₁ r t) :
    Alone answer drift (Prog.perform c) s r t :=
  .call hd ha (.ret r t)

theorem Alone.of_bind {p : Prog Cmd Reply α} {f : α → Prog Cmd Reply β} {s t : σ} {b : β}
    (h : Alone answer drift (p >>= f) s b t) :
    ∃ a m, Alone answer drift p s a m ∧ Alone answer drift (f a) m b t := by
  induction p generalizing s with
  | ret a => exact ⟨a, s, .ret a s, h⟩
  | call c next ih =>
    cases h with
    | call hd ha hn =>
      obtain ⟨a, m, h₁, h₂⟩ := ih _ hn
      exact ⟨a, m, .call hd ha h₁, h₂⟩

/-- A safe program running alone ends where its postcondition holds, and the
threads it left suspended may rely on what it did. -/
theorem Safe.alone (hK : K.Sound S) {i : Nat} (hanswer : ∀ c s r t, answer c s r t → S.exec i c s r t)
    (hdrift : ∀ s t, K.inv s → drift s t → K.inv t ∧ ∀ j, K.rely j s t)
    {Q : α → σ → Prop} {p : Prog Cmd Reply α} {s t : σ} {a : α} (h : Safe S K i Q p s)
    (hs : K.inv s) (hrun : Alone answer drift p s a t) :
    K.inv t ∧ Q a t ∧ ∀ j, j ≠ i → K.rely j s t := by
  induction hrun with
  | ret a s => exact ⟨hs, h, fun j _ => hK.rely_refl j s⟩
  | @call c next s s₁ s₂ t r a hd ha _ ih =>
    obtain ⟨h₁, hr₁⟩ := hdrift s s₁ hs hd
    obtain ⟨hg, hn⟩ := h s₁ h₁ (hr₁ i)
    obtain ⟨h₂, hr₂⟩ := hK.cmd i c s₁ r s₂ h₁ hg (hanswer c s₁ r s₂ ha)
    obtain ⟨ht, hq, hr⟩ := ih (hn r s₂ (hanswer c s₁ r s₂ ha) h₂) h₂
    refine ⟨ht, hq, fun j hj => ?_⟩
    have h₁₂ := hK.rely_trans j s s₁ s₂ (hr₁ j) (hr₂ j hj)
    exact hK.rely_trans j s s₂ t h₁₂ (hr j hj)

/-- A thread that runs alone, with nothing happening in between, is a run of its pool. -/
theorem Alone.run {i : Nat} {p : Prog Cmd Reply α} {s t : σ} {a : α}
    (h : Alone (S.exec i) Eq p s a t) {threads : List (Prog Cmd Reply α)} (hi : threads[i]? = some p) :
    ∃ trace, Run (Step S entry) ⟨s, threads⟩ trace ⟨t, threads.set i (.ret a)⟩ := by
  generalize hd : (Eq : σ → σ → Prop) = drift at h
  induction h generalizing threads with
  | ret a s =>
    have hset : threads.set i (.ret a) = threads := by
      obtain ⟨hlt, hget⟩ := List.getElem?_eq_some_iff.mp hi
      rw [← hget]
      exact List.set_getElem_self hlt
    rw [hset]
    exact ⟨[], .nil _⟩
  | @call c next s s₁ s₂ t r a hs ha _ ih =>
    subst hd
    subst hs
    have hlt : i < threads.length := (List.getElem?_eq_some_iff.mp hi).1
    obtain ⟨trace, hrun⟩ := ih (List.getElem?_set_self hlt)
    rw [List.set_set] at hrun
    have hstep : Step S entry ⟨s, threads⟩ (.cmd i c r) ⟨s₂, threads.set i (next r)⟩ := .cmd hi ha
    exact ⟨_, .cons hstep hrun⟩

/-- Starting a thread and running it alone. -/
theorem Alone.spawn_run {p : Prog Cmd Reply α} (threads : List (Prog Cmd Reply α)) {s t : σ} {a : α}
    (hp : entry p) (h : Alone (S.exec threads.length) Eq p s a t) :
    ∃ trace, Run (Step S entry) ⟨s, threads⟩ trace ⟨t, threads ++ [.ret a]⟩ := by
  have hlast : (threads ++ [p])[threads.length]? = some p := List.getElem?_concat_length
  have hset : (threads ++ [p]).set threads.length (.ret a) = threads ++ [.ret a] := by
    rw [List.set_append_right _ _ (Nat.le_refl _), Nat.sub_self]
    rfl
  obtain ⟨trace, hrun⟩ : ∃ trace, Run (Step S entry) ⟨s, threads ++ [p]⟩ trace
      ⟨t, (threads ++ [p]).set threads.length (.ret a)⟩ := h.run hlast
  rw [hset] at hrun
  exact ⟨_, .cons (.spawn hp) hrun⟩

/-- A thread runs some of its commands, with nothing happening in between, and stops. -/
inductive Advance (answer : (c : Cmd) → σ → Reply c → σ → Prop) :
    Prog Cmd Reply α → σ → Prog Cmd Reply α → σ → Prop where
  | stop (p : Prog Cmd Reply α) (s : σ) : Advance answer p s p s
  | call {c : Cmd} {next : Reply c → Prog Cmd Reply α} {s t u : σ} {r : Reply c} {q : Prog Cmd Reply α} :
      answer c s r t → Advance answer (next r) t q u → Advance answer (.call c next) s q u

theorem Advance.alone {p q : Prog Cmd Reply α} {s t u : σ} {a : α} (h : Advance answer p s q t)
    (hq : Alone answer Eq q t a u) : Alone answer Eq p s a u := by
  induction h with
  | stop p s => exact hq
  | call ha _ ih => exact .call rfl ha (ih hq)

/-- Such a stretch is a run of the pool, of allowed commands of that thread. -/
theorem Advance.run_allowed {i : Nat} {allowed : Cmd → Prop}
    (hanswer : ∀ c s r t, answer c s r t → S.exec i c s r t ∧ allowed c) {p q : Prog Cmd Reply α} {s t : σ}
    (h : Advance answer p s q t) {threads : List (Prog Cmd Reply α)} (hi : threads[i]? = some p) :
    ∃ trace, Run (Step S entry) ⟨s, threads⟩ trace ⟨t, threads.set i q⟩ ∧
      ∀ l ∈ trace, ∃ c r, l = .cmd i c r ∧ allowed c := by
  induction h generalizing threads with
  | stop p s =>
    have hset : threads.set i p = threads := by
      obtain ⟨hlt, hget⟩ := List.getElem?_eq_some_iff.mp hi
      rw [← hget]
      exact List.set_getElem_self hlt
    rw [hset]
    exact ⟨[], .nil _, fun _ h => nomatch h⟩
  | @call c next s t u r q ha _ ih =>
    have hlt : i < threads.length := (List.getElem?_eq_some_iff.mp hi).1
    obtain ⟨hexec, hallowed⟩ := hanswer c s r t ha
    obtain ⟨trace, hrun, hlabels⟩ := ih (List.getElem?_set_self hlt)
    rw [List.set_set] at hrun
    have hstep : Step S entry ⟨s, threads⟩ (.cmd i c r) ⟨t, threads.set i (next r)⟩ := .cmd hi hexec
    refine ⟨_, .cons hstep hrun, ?_⟩
    intro l hl
    cases List.mem_cons.mp hl with
    | inl heq => exact ⟨c, r, heq, hallowed⟩
    | inr htail => exact hlabels l htail

theorem Advance.run {i : Nat} {p q : Prog Cmd Reply α} {s t : σ} (h : Advance (S.exec i) p s q t)
    {threads : List (Prog Cmd Reply α)} (hi : threads[i]? = some p) :
    ∃ trace, Run (Step S entry) ⟨s, threads⟩ trace ⟨t, threads.set i q⟩ := by
  have hanswer : ∀ c s r t, S.exec i c s r t → S.exec i c s r t ∧ True := fun _ _ _ _ h => ⟨h, trivial⟩
  obtain ⟨trace, hrun, -⟩ := Advance.run_allowed hanswer h hi
  exact ⟨trace, hrun⟩

end Alone

section Solo

variable {answer : (c : Cmd) → σ → Reply c → σ → Prop} {drift : σ → σ → Prop}

/-- Where a program may end when it runs alone. -/
def Solo (answer : (c : Cmd) → σ → Reply c → σ → Prop) (drift : σ → σ → Prop) (Q : α → σ → Prop) :
    Prog Cmd Reply α → σ → Prop
  | .ret a, s => Q a s
  | .call c next, s => ∀ s₁, drift s s₁ → ∀ r s₂, answer c s₁ r s₂ → Solo answer drift Q (next r) s₂

variable {Q : α → σ → Prop} {s t : σ}

theorem Solo.bind {p : Prog Cmd Reply α} {f : α → Prog Cmd Reply β} {R : β → σ → Prop}
    (h : Solo answer drift Q p s) (hf : ∀ a t, Q a t → Solo answer drift R (f a) t) :
    Solo answer drift R (p >>= f) s := by
  induction p generalizing s with
  | ret a => exact hf a s h
  | call c next ih => exact fun s₁ hd r s₂ ha => ih r (h s₁ hd r s₂ ha)

theorem Solo.mono {R : α → σ → Prop} {p : Prog Cmd Reply α} (hqr : ∀ a t, Q a t → R a t)
    (h : Solo answer drift Q p s) : Solo answer drift R p s := by
  induction p generalizing s with
  | ret a => exact hqr a s h
  | call c next ih => exact fun s₁ hd r s₂ ha => ih r (h s₁ hd r s₂ ha)

theorem Solo.alone {p : Prog Cmd Reply α} {a : α} (h : Solo answer drift Q p s)
    (hrun : Alone answer drift p s a t) : Q a t := by
  induction hrun with
  | ret a s => exact h
  | call hd ha _ ih => exact ih (h _ hd _ _ ha)

end Solo

section Sole

variable {s t : σ} {a : α} {trace : List (Label ε Cmd Reply α)}

/-- A pool of one program that starts no other one. -/
abbrev SoleStep (S : Semantics σ ε Cmd Reply) :
    Pool σ Cmd Reply α → Label ε Cmd Reply α → Pool σ Cmd Reply α → Prop := Step S fun _ => False

/-- Before its next command only the environment moves. -/
theorem sole_call {c : Cmd} {next : Reply c → Prog Cmd Reply α}
    (h : Run (SoleStep S) ⟨s, [.call c next]⟩ trace ⟨t, [.ret a]⟩) :
    ∃ es s₁ r s₂ after, trace = es.map .env ++ .cmd 0 c r :: after ∧ Run S.env s es s₁ ∧
      S.exec 0 c s₁ r s₂ ∧ Run (SoleStep S) ⟨s₂, [next r]⟩ after ⟨t, [.ret a]⟩ := by
  generalize hp : (⟨s, [.call c next]⟩ : Pool σ Cmd Reply α) = pool at h
  generalize hq : (⟨t, [.ret a]⟩ : Pool σ Cmd Reply α) = pool' at h
  induction h generalizing s with
  | nil =>
    rw [← hp] at hq
    cases hq
  | cons hstep hrest ih =>
    subst hp hq
    cases hstep with
    | spawn hp => exact hp.elim
    | env he =>
      obtain ⟨es, s₁, r, s₂, after, rfl, hdrift, hexec, hrun⟩ := ih rfl rfl
      exact ⟨_ :: es, s₁, r, s₂, after, rfl, .cons he hdrift, hexec, hrun⟩
    | @cmd i _ _ _ _ hi hexec =>
      cases i with
      | zero =>
        cases hi
        exact ⟨[], _, _, _, _, rfl, .nil _, hexec, hrest⟩
      | succ j => cases hi

/-- Once it has returned, only the environment moves. -/
theorem sole_ret {b : α} (h : Run (SoleStep S) ⟨s, [.ret b]⟩ trace ⟨t, [.ret a]⟩) :
    a = b ∧ ∃ es, trace = es.map .env ∧ Run S.env s es t := by
  generalize hp : (⟨s, [.ret b]⟩ : Pool σ Cmd Reply α) = pool at h
  generalize hq : (⟨t, [.ret a]⟩ : Pool σ Cmd Reply α) = pool' at h
  induction h generalizing s with
  | nil =>
    rw [← hp] at hq
    cases hq
    exact ⟨rfl, [], rfl, .nil _⟩
  | cons hstep hrest ih =>
    subst hp hq
    cases hstep with
    | spawn hp => exact hp.elim
    | env he =>
      obtain ⟨rfl, es, rfl, hdrift⟩ := ih rfl rfl
      exact ⟨rfl, _ :: es, rfl, .cons he hdrift⟩
    | @cmd i _ _ _ _ hi hexec =>
      cases i with
      | zero => cases hi
      | succ j => cases hi

end Sole

section Returns

variable {Q : α → Prop}

/-- Whatever it is answered, the program returns nothing else. -/
def Returns (Q : α → Prop) : Prog Cmd Reply α → Prop
  | .ret a => Q a
  | .call _ next => ∀ r, Returns Q (next r)

theorem Returns.bind {R : β → Prop} {p : Prog Cmd Reply α} {f : α → Prog Cmd Reply β} (h : Returns Q p)
    (hf : ∀ a, Q a → Returns R (f a)) : Returns R (p >>= f) := by
  induction p with
  | ret a => exact hf a h
  | call c next ih => exact fun r => ih r (h r)

theorem Returns.mono {R : α → Prop} {p : Prog Cmd Reply α} (hqr : ∀ a, Q a → R a) (h : Returns Q p) : Returns R p := by
  induction p with
  | ret a => exact hqr a h
  | call c next ih => exact fun r => ih r (h r)

/-- What a program returns in any case, it returns where it is safe. -/
theorem Safe.returns {i : Nat} {R : α → σ → Prop} {p : Prog Cmd Reply α} {s : σ} (h : Safe S K i R p s)
    (hp : Returns Q p) : Safe S K i (fun a t => R a t ∧ Q a) p s := by
  induction p generalizing s with
  | ret a => exact ⟨h, hp⟩
  | call c next ih =>
    intro s₁ hi h₁
    obtain ⟨hg, hn⟩ := h s₁ hi h₁
    exact ⟨hg, fun r s₂ he hi₂ => ih r (hn r s₂ he hi₂) (hp r)⟩

end Returns

end Chinwag.Program

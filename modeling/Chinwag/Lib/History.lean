import Mathlib.Algebra.Ring.Nat
import Mathlib.Data.List.Forall2
import Chinwag.Lib.Program

/-!
# What a thread has seen

How far a thread is and what it may do next follow from its program and the replies it got. A
property of the program alone, over what it has seen, holds of its threads in every run.
-/
namespace Chinwag.Program

open Transition

variable {Cmd : Type} {Reply : Cmd → Type} {α β σ ε : Type}

/-- The commands a thread has given and the replies to them, the latest first. -/
abbrev Seen (Reply : Cmd → Type) : Type := List (Σ c, Reply c)

def Saw (seen : Seen Reply) (c : Cmd) (r : Reply c) : Prop := ⟨c, r⟩ ∈ seen

/-- Whatever the replies, each command meets `P` and each result `Q`, given what has been seen until then. -/
def Upholds (P : Seen Reply → Cmd → Prop) (Q : Seen Reply → α → Prop) : Prog Cmd Reply α → Seen Reply → Prop
  | .ret a, seen => Q seen a
  | .call c next, seen => P seen c ∧ ∀ r, Upholds P Q (next r) (⟨c, r⟩ :: seen)

variable {P : Seen Reply → Cmd → Prop} {Q Q' : Seen Reply → α → Prop} {seen : Seen Reply}

theorem Saw.latest {c : Cmd} {r : Reply c} : Saw (⟨c, r⟩ :: seen) c r := .head _

theorem Saw.before {c d : Cmd} {r : Reply c} {q : Reply d} (h : Saw seen c r) : Saw (⟨d, q⟩ :: seen) c r := .tail _ h

theorem Upholds.call {c : Cmd} {next : Reply c → Prog Cmd Reply α} (hc : P seen c)
    (hnext : ∀ r, Upholds P Q (next r) (⟨c, r⟩ :: seen)) : Upholds P Q (.call c next) seen :=
  ⟨hc, hnext⟩

theorem Upholds.mono (hq : ∀ seen a, Q seen a → Q' seen a) {p : Prog Cmd Reply α} (h : Upholds P Q p seen) :
    Upholds P Q' p seen := by
  induction p generalizing seen with
  | ret a => exact hq seen a h
  | call c next ih => exact ⟨h.1, fun r => ih r (h.2 r)⟩

theorem Upholds.bind {R : Seen Reply → β → Prop} {p : Prog Cmd Reply α} {f : α → Prog Cmd Reply β}
    (h : Upholds P Q p seen) (hf : ∀ later a, Q later a → Upholds P R (f a) later) : Upholds P R (p >>= f) seen := by
  induction p generalizing seen with
  | ret a => exact hf seen a h
  | call c next ih => exact ⟨h.1, fun r => ih r (h.2 r)⟩

/-- What has been seen stays seen. -/
theorem Upholds.grows {p : Prog Cmd Reply α} (h : Upholds P Q p seen) :
    Upholds P (fun later a => Q later a ∧ seen ⊆ later) p seen := by
  have hgrow : ∀ (p : Prog Cmd Reply α) (now : Seen Reply), seen ⊆ now → Upholds P Q p now →
      Upholds P (fun later a => Q later a ∧ seen ⊆ later) p now := by
    intro p
    induction p with
    | ret a => exact fun now hnow h => ⟨h, hnow⟩
    | call c next ih => exact fun now hnow h => ⟨h.1, fun r => ih r _ (fun _ he => .tail _ (hnow he)) (h.2 r)⟩
  exact hgrow p seen (fun _ he => he) h

theorem Upholds.follows {p q : Prog Cmd Reply α} {replies : Seen Reply} (h : Upholds P Q p seen)
    (hfollows : Follows p replies q) : Upholds P Q q (replies.reverse ++ seen) := by
  induction hfollows generalizing seen with
  | nil p => exact h
  | @cons c next r replies q _ ih =>
    have hrest := ih (h.2 r)
    rwa [List.reverse_cons, List.append_assoc]

section Runs

variable {S : Semantics σ ε Cmd Reply} {entry : Prog Cmd Reply α → Prop} {pool pool' : Pool σ Cmd Reply α}
  {trace : List (Label ε Cmd Reply α)} {i : Nat}

/-- A thread is what the program it was started with, and the replies it got, make of it. -/
theorem Follows.of_spawned {q : Prog Cmd Reply α} (h : Run (Step S entry) pool trace pool') {j : Nat}
    (hi : pool'.threads[pool.threads.length + j]? = some q) : ∃ p, (spawned trace)[j]? = some p ∧ entry p ∧
      Follows p (repliesTo (pool.threads.length + j) trace) q := by
  induction h generalizing j with
  | nil =>
    rw [List.getElem?_eq_none (by omega)] at hi
    cases hi
  | @cons pool mid pool' l trace hstep hrest ih =>
    cases hstep with
    | env => exact ih hi
    | @cmd k c next r s hk hexec =>
      have hlt : k < pool.threads.length := (List.getElem?_eq_some_iff.mp hk).1
      have hne : k ≠ pool.threads.length + j := by omega
      rw [repliesTo, if_neg hne]
      have hrest := ih (j := j) (by rw [List.length_set]; exact hi)
      rwa [List.length_set] at hrest
    | @spawn p hp =>
      cases j with
      | zero =>
        obtain ⟨q', hq', hfollows⟩ := Follows.of_run hrest List.getElem?_concat_length
        obtain rfl := Option.some.inj (hq'.symm.trans hi)
        exact ⟨p, rfl, hp, hfollows⟩
      | succ j =>
        have hnumber : pool.threads.length + (j + 1) = (pool.threads ++ [p]).length + j := by
          rw [List.length_append, List.length_singleton]
          omega
        rw [hnumber] at hi ⊢
        exact ih hi

/-- What thread `i` has seen in a run. -/
def seenBy (i : Nat) (trace : List (Label ε Cmd Reply α)) : Seen Reply := (repliesTo i trace).reverse

theorem saw_seenBy {c : Cmd} {r : Reply c} : Saw (seenBy i trace) c r ↔ .cmd i c r ∈ trace := by
  unfold Saw seenBy
  rw [List.mem_reverse, mem_repliesTo]

theorem repliesTo_append (i : Nat) (first second : List (Label ε Cmd Reply α)) :
    repliesTo i (first ++ second) = repliesTo i first ++ repliesTo i second := by
  induction first with
  | nil => rfl
  | cons l first ih =>
    cases l with
    | spawn p => exact ih
    | env e => exact ih
    | cmd j c r =>
      by_cases hj : j = i
      · simp [repliesTo, hj, ih]
      · simp [repliesTo, hj, ih]

theorem seenBy_append (i : Nat) (first second : List (Label ε Cmd Reply α)) :
    seenBy i (first ++ second) = seenBy i second ++ seenBy i first := by
  unfold seenBy
  rw [repliesTo_append, List.reverse_append]

@[simp] theorem seenBy_cmd_self (i : Nat) (c : Cmd) (r : Reply c) :
    seenBy i [(.cmd i c r : Label ε Cmd Reply α)] = [⟨c, r⟩] := by
  simp [seenBy, repliesTo]

@[simp] theorem seenBy_cmd_ne {i j : Nat} (h : j ≠ i) (c : Cmd) (r : Reply c) :
    seenBy i [(.cmd j c r : Label ε Cmd Reply α)] = [] := by
  simp [seenBy, repliesTo, h]

theorem spawned_append (first second : List (Label ε Cmd Reply α)) :
    spawned (first ++ second) = spawned first ++ spawned second := by
  induction first with
  | nil => rfl
  | cons l first ih => cases l <;> simp [spawned, ih]

theorem length_threads (h : Run (Step S entry) pool trace pool') :
    pool'.threads.length = pool.threads.length + (spawned trace).length := by
  induction h with
  | nil => rfl
  | cons hstep _ ih =>
    cases hstep with
    | env => exact ih
    | cmd => rwa [List.length_set] at ih
    | spawn =>
      rw [List.length_append, List.length_singleton] at ih
      rw [ih, spawned, List.length_cons]
      omega

/-- Nothing is seen by a thread that was not started. -/
theorem seenBy_unstarted (h : Run (Step S entry) pool trace pool') (hi : pool'.threads.length ≤ i) :
    seenBy i trace = [] := by
  have hlen := length_threads h
  unfold seenBy
  rw [List.reverse_eq_nil_iff]
  induction h with
  | nil => rfl
  | cons hstep hrest ih =>
    cases hstep with
    | spawn => exact ih hi (length_threads hrest)
    | env => exact ih hi hlen
    | @cmd j c next r s hj hexec =>
      have hlt := (List.getElem?_eq_some_iff.mp hj).1
      rw [spawned] at hlen
      rw [repliesTo, if_neg (by omega)]
      exact ih hi (length_threads hrest)

theorem Upholds.run (hentry : ∀ p, entry p → Upholds P Q p []) (h : Run (Step S entry) pool trace pool')
    (hlen : pool.threads.length ≤ i) {q : Prog Cmd Reply α} (hi : pool'.threads[i]? = some q) :
    Upholds P Q q (seenBy i trace) := by
  obtain ⟨p, hp, hfollows⟩ := Follows.of_started h hlen hi
  have hupholds := (hentry p hp).follows hfollows
  rwa [List.append_nil] at hupholds

/-- Each command given in a run meets `P` on what its thread had seen. -/
theorem Upholds.issued (hentry : ∀ p, entry p → Upholds P Q p []) (h : Run (Step S entry) pool trace pool')
    (hlen : pool.threads.length ≤ i) {c : Cmd} {next : Reply c → Prog Cmd Reply α}
    (hi : pool'.threads[i]? = some (.call c next)) : P (seenBy i trace) c :=
  (Upholds.run hentry h hlen hi).1

/-- Each result returned in a run meets `Q` on all its thread had seen. -/
theorem Upholds.returned (hentry : ∀ p, entry p → Upholds P Q p []) (h : Run (Step S entry) pool trace pool')
    (hlen : pool.threads.length ≤ i) {a : α} (hi : pool'.threads[i]? = some (.ret a)) : Q (seenBy i trace) a :=
  Upholds.run hentry h hlen hi

/-- A command of a run, with the state it was executed in. -/
theorem executed_of_mem {c : Cmd} {r : Reply c} (h : Run (Step S entry) pool trace pool')
    (hmem : .cmd i c r ∈ trace) : ∃ before after p t, trace = before ++ .cmd i c r :: after ∧
      Run (Step S entry) pool before p ∧ S.exec i c p.shared r t := by
  obtain ⟨before, after, rfl⟩ := List.append_of_mem hmem
  obtain ⟨p, p', hbefore, hstep, -⟩ := h.at_label
  cases hstep with
  | cmd _ hexec => exact ⟨before, after, p, _, rfl, hbefore, hexec⟩

/-- The commands are executed as before, but only with replies that may be given. -/
def Semantics.among (S : Semantics σ ε Cmd Reply) (may : (c : Cmd) → Reply c → Prop) : Semantics σ ε Cmd Reply where
  exec i c s r t := S.exec i c s r t ∧ may c r
  env := S.env

theorem run_of_among {may : (c : Cmd) → Reply c → Prop} (h : Run (Step (S.among may) entry) pool trace pool') :
    Run (Step S entry) pool trace pool' ∧ ∀ i c r, .cmd i c r ∈ trace → may c r := by
  induction h with
  | nil => exact ⟨.nil _, fun _ _ _ h => nomatch h⟩
  | cons hstep _ ih =>
    obtain ⟨hrun, hmay⟩ := ih
    have hlater : ∀ {l : Label ε Cmd Reply α} {rest} {i c r}, l ≠ .cmd i c r → .cmd i c r ∈ l :: rest →
        .cmd i c r ∈ rest :=
      fun hne h => (List.mem_cons.mp h).resolve_left (Ne.symm hne)
    cases hstep with
    | spawn hp => exact ⟨.cons (.spawn hp) hrun, fun i c r h => hmay i c r (hlater (by simp) h)⟩
    | env he => exact ⟨.cons (.env he) hrun, fun i c r h => hmay i c r (hlater (by simp) h)⟩
    | cmd hi hexec =>
      refine ⟨.cons (.cmd hi hexec.1) hrun, fun i c r h => ?_⟩
      rcases List.mem_cons.mp h with heq | h
      · cases heq
        exact hexec.2
      · exact hmay i c r h

end Runs

section Length

/-- Whatever the replies, the program issues at most `n` commands. -/
def Within : Nat → Prog Cmd Reply α → Prop
  | _, .ret _ => True
  | 0, .call _ _ => False
  | n + 1, .call _ next => ∀ r, Within n (next r)

theorem Within.mono {n m : Nat} (hnm : n ≤ m) {p : Prog Cmd Reply α} (h : Within n p) : Within m p := by
  induction p generalizing n m with
  | ret a => cases m <;> trivial
  | call c next ih =>
    cases n with
    | zero => exact h.elim
    | succ n =>
      cases m with
      | zero => omega
      | succ m => exact fun r => ih r (Nat.le_of_succ_le_succ hnm) (h r)

theorem Within.bind {n m : Nat} {p : Prog Cmd Reply α} {f : α → Prog Cmd Reply β} (h : Within n p)
    (hf : ∀ a, Within m (f a)) : Within (n + m) (p >>= f) := by
  induction p generalizing n with
  | ret a => exact (hf a).mono (Nat.le_add_left m n)
  | call c next ih =>
    cases n with
    | zero => exact h.elim
    | succ n =>
      rw [Nat.succ_add]
      exact fun r => ih r (h r)

def isCommand : Label ε Cmd Reply α → Bool
  | .cmd _ _ _ => true
  | .spawn _ => false
  | .env _ => false

variable {S : Semantics σ ε Cmd Reply} {entry : Prog Cmd Reply α → Prop} {pool pool' : Pool σ Cmd Reply α}
  {trace : List (Label ε Cmd Reply α)}

/-- The commands still to come are bounded for each thread. -/
def Budgeted (threads : List (Prog Cmd Reply α)) (n : Nat) : Prop :=
  ∃ budgets, List.Forall₂ Within budgets threads ∧ budgets.sum = n

theorem Budgeted.spend {threads : List (Prog Cmd Reply α)} {n i : Nat} {c : Cmd}
    {next : Reply c → Prog Cmd Reply α} (h : Budgeted threads n) (hi : threads[i]? = some (.call c next)) (r : Reply c) :
    ∃ m, n = m + 1 ∧ Budgeted (threads.set i (next r)) m := by
  obtain ⟨budgets, hall, hsum⟩ := h
  induction hall generalizing n i with
  | nil => simp at hi
  | @cons b p budgets threads hp hall ih =>
    cases i with
    | zero =>
      obtain rfl := Option.some.inj hi
      cases b with
      | zero => exact hp.elim
      | succ b =>
        refine ⟨b + budgets.sum, ?_, b :: budgets, .cons (hp r) hall, List.sum_cons⟩
        rw [← hsum, List.sum_cons]
        omega
    | succ i =>
      obtain ⟨m, hm, budgets', hall', hsum'⟩ := ih (n := budgets.sum) hi rfl
      refine ⟨b + m, ?_, b :: budgets', .cons hp hall', ?_⟩
      · rw [← hsum, List.sum_cons, hm]
        omega
      · rw [List.sum_cons, hsum']

/-- A run is no longer than its threads are, beside what the environment does. -/
theorem commands_le {n k : Nat} (hentry : ∀ p, entry p → Within n p) (h : Run (Step S entry) pool trace pool')
    (hpool : Budgeted pool.threads k) : trace.countP isCommand ≤ k + n * (spawned trace).length := by
  induction h generalizing k with
  | nil => exact Nat.zero_le _
  | @cons pool _ _ _ _ hstep _ ih =>
    cases hstep with
    | env => exact ih hpool
    | @spawn p hp =>
      obtain ⟨budgets, hall, hsum⟩ := hpool
      have hmore : Budgeted (pool.threads ++ [p]) (k + n) := by
        refine ⟨budgets ++ [n], List.rel_append hall (.cons (hentry p hp) .nil), ?_⟩
        rw [List.sum_append, List.sum_singleton, hsum]
      have hrest := ih hmore
      rw [spawned, List.length_cons, Nat.mul_succ]
      simp only [List.countP_cons, isCommand, Bool.false_eq_true, if_false]
      omega
    | @cmd i c next r s hi hexec =>
      obtain ⟨m, rfl, hrest⟩ := hpool.spend hi r
      have hlater := ih hrest
      simp only [List.countP_cons, isCommand, if_true, spawned]
      omega

end Length

end Chinwag.Program

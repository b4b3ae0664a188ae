import Mathlib.Tactic.Common
import Chinwag.Lib.Transition
import Chinwag.Gateway.RateLimit

/-!
# The circuit breaker around Redis

Its calls come in any order, a report as late as it likes, but each holds the lock while it reads
the clock. Times are in nanoseconds.
-/
namespace Chinwag.Gateway

open Transition

inductive CbState where
  | cbClosed
  | cbOpen
  | cbHalfOpen
deriving DecidableEq

structure CircuitBreaker where
  threshold : ℤ
  cooldown : ℤ
  failures : ℤ
  state : CbState
  openedAt : ℤ
deriving DecidableEq

def newCircuitBreaker (threshold cooldown : ℤ) : CircuitBreaker := ⟨threshold, cooldown, 0, .cbClosed, 0⟩

namespace CircuitBreaker

def allow (cb : CircuitBreaker) (now : ℤ) : Bool × CircuitBreaker :=
  match cb.state with
  | .cbOpen => if cb.cooldown ≤ now - cb.openedAt then (true, { cb with state := .cbHalfOpen }) else (false, cb)
  | .cbHalfOpen => (true, cb)
  | .cbClosed => (true, cb)

def success (cb : CircuitBreaker) : CircuitBreaker :=
  { cb with failures := 0, state := if cb.state = .cbHalfOpen then .cbClosed else cb.state }

def failure (cb : CircuitBreaker) (now : ℤ) : CircuitBreaker :=
  let cb := { cb with failures := cb.failures + 1 }
  match cb.state with
  | .cbHalfOpen => { cb with state := .cbOpen, openedAt := now }
  | .cbClosed => if cb.threshold ≤ cb.failures then { cb with state := .cbOpen, openedAt := now } else cb
  | .cbOpen => cb

end CircuitBreaker

/-- The breaker `RateLimit` makes of its configuration. -/
def configuredBreaker (redisCircuitThreshold redisCircuitCooldown : ℤ) : CircuitBreaker :=
  newCircuitBreaker (orDefault 3 (some redisCircuitThreshold)) (orDefault 5000000000 (some redisCircuitCooldown))

theorem configuredBreaker_pos (threshold cooldown : ℤ) :
    0 < (configuredBreaker threshold cooldown).threshold ∧ 0 < (configuredBreaker threshold cooldown).cooldown := by
  constructor
  · exact orDefault_pos (show (0 : ℤ) < 3 by decide) (some threshold)
  · exact orDefault_pos (show (0 : ℤ) < 5000000000 by decide) (some cooldown)

/-- A call with the time it read, and what `allow` answered. -/
inductive Call where
  | allow (now : ℤ) (granted : Bool)
  | success (now : ℤ)
  | failure (now : ℤ)
deriving DecidableEq

namespace Call

def now : Call → ℤ
  | allow now _ => now
  | success now => now
  | failure now => now

def isSuccess : Call → Bool
  | success _ => true
  | _ => false

def isFailure : Call → Bool
  | failure _ => true
  | _ => false

/-- The call is no `allow` that was granted. -/
def Refused : Call → Prop
  | allow _ granted => granted = false
  | _ => True

/-- The call is no `allow` from the given time on. -/
def AsksBefore (time : ℤ) : Call → Prop
  | allow now _ => now < time
  | _ => True

end Call

/-- The breaker and the time of its last call. -/
structure Timed where
  breaker : CircuitBreaker
  clock : ℤ
deriving DecidableEq

inductive Called : Timed → Call → Timed → Prop where
  | allow {s : Timed} {now : ℤ} : s.clock ≤ now →
      Called s (.allow now (s.breaker.allow now).1) ⟨(s.breaker.allow now).2, now⟩
  | success {s : Timed} {now : ℤ} : s.clock ≤ now → Called s (.success now) ⟨s.breaker.success, now⟩
  | failure {s : Timed} {now : ℤ} : s.clock ≤ now → Called s (.failure now) ⟨s.breaker.failure now, now⟩

/-- The failures since the last success. -/
def failuresSince (past : List Call) : ℕ := (past.reverse.takeWhile fun c => !c.isSuccess).countP Call.isFailure

@[simp]
theorem failuresSince_allow (past : List Call) (now : ℤ) (granted : Bool) :
    failuresSince (past ++ [.allow now granted]) = failuresSince past := by
  simp [failuresSince, Call.isSuccess, Call.isFailure]

@[simp]
theorem failuresSince_success (past : List Call) (now : ℤ) : failuresSince (past ++ [.success now]) = 0 := by
  simp [failuresSince, Call.isSuccess]

@[simp]
theorem failuresSince_failure (past : List Call) (now : ℤ) :
    failuresSince (past ++ [.failure now]) = failuresSince past + 1 := by
  unfold failuresSince
  rw [List.reverse_append, List.reverse_singleton, List.singleton_append, List.takeWhile_cons_of_pos rfl,
    List.countP_cons_of_pos rfl]

/-- The call between the two states opened the breaker. -/
def Opens (s t : Timed) : Prop := s.breaker.state ≠ .cbOpen ∧ t.breaker.state = .cbOpen

/-- What the breaker promises after the given calls. -/
structure BreakerLaw (threshold cooldown : ℤ) (past : List Call) (s : Timed) : Prop where
  counted : s.breaker.state = .cbClosed → s.breaker.failures = failuresSince past ∧ s.breaker.failures < threshold
  opened : ∀ c t, Called s c t → Opens s t →
    ∃ now, c = .failure now ∧ ((failuresSince (past ++ [c]) : ℤ) = threshold ∨ s.breaker.state = .cbHalfOpen)
  cooling : ∀ c t, Called s c t → Opens s t → ∀ calls u, Run Called t calls u →
    (∀ d ∈ calls, d.AsksBefore (c.now + cooldown)) →
      (∀ d ∈ calls, d.Refused) ∧ ∀ now granted v, Called u (.allow now granted) v →
        (granted = true ↔ c.now + cooldown ≤ now)

/-! ### What every call keeps -/

section Calls

variable {threshold cooldown : ℤ}

/-- The counter in every state, and its bound while the breaker is closed. -/
structure Counting (threshold cooldown : ℤ) (past : List Call) (s : Timed) : Prop where
  threshold_eq : s.breaker.threshold = threshold
  cooldown_eq : s.breaker.cooldown = cooldown
  threshold_pos : 1 ≤ threshold
  failures_eq : s.breaker.failures = failuresSince past
  below : s.breaker.state = .cbClosed → s.breaker.failures < threshold

theorem Counting.initial (h : 1 ≤ threshold) (clock : ℤ) :
    Counting threshold cooldown [] ⟨newCircuitBreaker threshold cooldown, clock⟩ where
  threshold_eq := rfl
  cooldown_eq := rfl
  threshold_pos := h
  failures_eq := rfl
  below _ := by
    show (0 : ℤ) < threshold
    omega

/-- `allow` changes nothing but the state, and never to closed. -/
theorem allow_frame (cb : CircuitBreaker) (now : ℤ) :
    (cb.allow now).2.threshold = cb.threshold ∧ (cb.allow now).2.cooldown = cb.cooldown ∧
      (cb.allow now).2.failures = cb.failures ∧ ((cb.allow now).2.state = .cbClosed → cb.state = .cbClosed) ∧
      ((cb.allow now).2.state = .cbOpen → cb.state = .cbOpen) := by
  unfold CircuitBreaker.allow
  split
  · split
    · exact ⟨rfl, rfl, rfl, nofun, nofun⟩
    · exact ⟨rfl, rfl, rfl, id, id⟩
  · exact ⟨rfl, rfl, rfl, id, id⟩
  · exact ⟨rfl, rfl, rfl, id, id⟩

theorem success_opens_not {cb : CircuitBreaker} (h : cb.success.state = .cbOpen) : cb.state = .cbOpen := by
  unfold CircuitBreaker.success at h
  dsimp only at h
  split at h
  · cases h
  · exact h

/-- What a failure does to the state: it opens a half-open breaker and a closed one at its threshold. -/
theorem failure_cases (cb : CircuitBreaker) (now : ℤ) :
    (cb.failure now).threshold = cb.threshold ∧ (cb.failure now).cooldown = cb.cooldown ∧
      (cb.failure now).failures = cb.failures + 1 ∧
      (((cb.state = .cbHalfOpen ∨ cb.state = .cbClosed ∧ cb.threshold ≤ cb.failures + 1) ∧
          (cb.failure now).state = .cbOpen ∧ (cb.failure now).openedAt = now) ∨
        (cb.state = .cbClosed ∧ cb.failures + 1 < cb.threshold ∧ (cb.failure now).state = .cbClosed) ∨
        (cb.state = .cbOpen ∧ (cb.failure now).state = .cbOpen ∧ (cb.failure now).openedAt = cb.openedAt)) := by
  obtain ⟨threshold, cooldown, failures, state, openedAt⟩ := cb
  cases state with
  | cbHalfOpen => exact ⟨rfl, rfl, rfl, .inl ⟨.inl rfl, rfl, rfl⟩⟩
  | cbOpen => exact ⟨rfl, rfl, rfl, .inr (.inr ⟨rfl, rfl, rfl⟩)⟩
  | cbClosed =>
    by_cases hreached : threshold ≤ failures + 1
    · have heq : CircuitBreaker.failure ⟨threshold, cooldown, failures, .cbClosed, openedAt⟩ now =
          ⟨threshold, cooldown, failures + 1, .cbOpen, now⟩ := if_pos hreached
      rw [heq]
      exact ⟨rfl, rfl, rfl, .inl ⟨.inr ⟨rfl, hreached⟩, rfl, rfl⟩⟩
    · have heq : CircuitBreaker.failure ⟨threshold, cooldown, failures, .cbClosed, openedAt⟩ now =
          ⟨threshold, cooldown, failures + 1, .cbClosed, openedAt⟩ := if_neg hreached
      rw [heq]
      exact ⟨rfl, rfl, rfl, .inr (.inl ⟨rfl, not_le.mp hreached, rfl⟩)⟩

theorem Counting.step {past : List Call} {s t : Timed} {c : Call} (h : Counting threshold cooldown past s)
    (hst : Called s c t) : Counting threshold cooldown (past ++ [c]) t := by
  cases hst with
  | @allow now hnow =>
    obtain ⟨hthreshold, hcooldown, hfailures, hclosed, -⟩ := allow_frame s.breaker now
    refine ⟨hthreshold.trans h.threshold_eq, hcooldown.trans h.cooldown_eq, h.threshold_pos, ?_, fun ht => ?_⟩
    · rw [failuresSince_allow]
      exact hfailures.trans h.failures_eq
    · show (s.breaker.allow now).2.failures < threshold
      rw [hfailures]
      exact h.below (hclosed ht)
  | @success now hnow =>
    refine ⟨h.threshold_eq, h.cooldown_eq, h.threshold_pos, by rw [failuresSince_success]; rfl, fun _ => ?_⟩
    have hpos := h.threshold_pos
    show (0 : ℤ) < threshold
    omega
  | @failure now hnow =>
    obtain ⟨hthreshold, hcooldown, hfailures, hstate⟩ := failure_cases s.breaker now
    refine ⟨hthreshold.trans h.threshold_eq, hcooldown.trans h.cooldown_eq, h.threshold_pos, ?_, fun ht => ?_⟩
    · rw [failuresSince_failure, hfailures, h.failures_eq]
      push_cast
      rfl
    · change (s.breaker.failure now).state = _ at ht
      show (s.breaker.failure now).failures < threshold
      rw [ht] at hstate
      obtain ⟨-, habsurd, -⟩ | ⟨-, hlt, -⟩ | ⟨-, habsurd, -⟩ := hstate
      · cases habsurd
      · rw [hfailures, ← h.threshold_eq]
        exact hlt
      · cases habsurd

theorem Counting.run {past : List Call} {s : Timed} {clock : ℤ} (hthreshold : 1 ≤ threshold)
    (h : Run Called ⟨newCircuitBreaker threshold cooldown, clock⟩ past s) : Counting threshold cooldown past s :=
  h.history (P := Counting threshold cooldown) (fun _ _ _ _ hs hst => hs.step hst) [] (.initial hthreshold clock)

/-- Only a failure opens, and it is the one at the threshold or it met a half-open breaker. -/
theorem Counting.opens {past : List Call} {s t : Timed} {c : Call} (h : Counting threshold cooldown past s)
    (hst : Called s c t) (hopens : Opens s t) :
    ∃ now, c = .failure now ∧ t.breaker.openedAt = now ∧
      ((failuresSince (past ++ [c]) : ℤ) = threshold ∨ s.breaker.state = .cbHalfOpen) := by
  obtain ⟨hnot, hopen⟩ := hopens
  cases hst with
  | @allow now hnow =>
    obtain ⟨-, -, -, -, hkept⟩ := allow_frame s.breaker now
    exact absurd (hkept hopen) hnot
  | success hnow => exact absurd (success_opens_not hopen) hnot
  | @failure now hnow =>
    refine ⟨now, rfl, ?_⟩
    obtain ⟨-, -, hfailures, ⟨hwhy, -, hat⟩ | ⟨-, -, hclosed⟩ | ⟨habsurd, -⟩⟩ := failure_cases s.breaker now
    · refine ⟨hat, ?_⟩
      obtain hhalf | ⟨hclosed, hreached⟩ := hwhy
      · exact .inr hhalf
      · -- the counter was below the threshold and has now reached it
        have hbelow := h.below hclosed
        rw [h.threshold_eq, h.failures_eq] at hreached
        rw [h.failures_eq] at hbelow
        refine .inl ?_
        rw [failuresSince_failure]
        push_cast
        omega
    · change (s.breaker.failure now).state = _ at hopen
      rw [hclosed] at hopen
      cases hopen
    · exact absurd habsurd hnot

/-! ### While the breaker cools -/

/-- The breaker has been open since the given time. -/
structure OpenSince (opening cooldown : ℤ) (s : Timed) : Prop where
  opened : s.breaker.state = .cbOpen
  since : s.breaker.openedAt = opening
  lasts : s.breaker.cooldown = cooldown

theorem allow_open {cb : CircuitBreaker} (h : cb.state = .cbOpen) (now : ℤ) :
    cb.allow now =
      if cb.cooldown ≤ now - cb.openedAt then (true, { cb with state := .cbHalfOpen }) else (false, cb) := by
  unfold CircuitBreaker.allow
  rw [h]

theorem OpenSince.granted_iff {opening : ℤ} {s : Timed} (h : OpenSince opening cooldown s) (now : ℤ) :
    (s.breaker.allow now).1 = true ↔ opening + cooldown ≤ now := by
  rw [allow_open h.opened, h.since, h.lasts]
  split
  · simp only [true_iff]
    omega
  · simp only [Bool.false_eq_true, false_iff]
    omega

theorem OpenSince.step {opening : ℤ} {s t : Timed} {c : Call} (h : OpenSince opening cooldown s)
    (hst : Called s c t) (hc : c.AsksBefore (opening + cooldown)) : OpenSince opening cooldown t ∧ c.Refused := by
  cases hst with
  | @allow now hnow =>
    have hrefused : (s.breaker.allow now).1 = false := by
      rw [← Bool.not_eq_true, h.granted_iff]
      exact not_le_of_gt hc
    have hsame : (s.breaker.allow now).2 = s.breaker := by
      rw [allow_open h.opened] at hrefused ⊢
      split
      · rw [if_pos ‹_›] at hrefused
        cases hrefused
      · rfl
    refine ⟨?_, hrefused⟩
    rw [hsame]
    exact ⟨h.opened, h.since, h.lasts⟩
  | success hnow =>
    refine ⟨⟨?_, h.since, h.lasts⟩, trivial⟩
    show (if s.breaker.state = .cbHalfOpen then CbState.cbClosed else s.breaker.state) = .cbOpen
    rw [h.opened]
    rfl
  | @failure now hnow =>
    obtain ⟨-, hcooldown, -, ⟨hstate | ⟨hstate, -⟩, -⟩ | ⟨hstate, -⟩ | ⟨-, hopen, hat⟩⟩ := failure_cases s.breaker now
    · exact absurd (hstate.symm.trans h.opened) (by decide)
    · exact absurd (hstate.symm.trans h.opened) (by decide)
    · exact absurd (hstate.symm.trans h.opened) (by decide)
    · exact ⟨⟨hopen, hat.trans h.since, hcooldown.trans h.lasts⟩, trivial⟩

theorem OpenSince.run {opening : ℤ} {s u : Timed} {calls : List Call} (h : OpenSince opening cooldown s)
    (hr : Run Called s calls u) (hcalls : ∀ c ∈ calls, c.AsksBefore (opening + cooldown)) :
    OpenSince opening cooldown u ∧ ∀ c ∈ calls, c.Refused := by
  induction hr with
  | nil => exact ⟨h, fun c hc => absurd hc List.not_mem_nil⟩
  | cons hst _ ih =>
    obtain ⟨hnext, hrefused⟩ := h.step hst (hcalls _ List.mem_cons_self)
    obtain ⟨hlast, hrest⟩ := ih hnext fun c hc => hcalls c (List.mem_cons_of_mem _ hc)
    exact ⟨hlast, List.forall_mem_cons.mpr ⟨hrefused, hrest⟩⟩

/-- The law of the breaker, after any calls in any order. -/
theorem breaker_law {past : List Call} {s : Timed} {clock : ℤ} (hthreshold : 1 ≤ threshold)
    (h : Run Called ⟨newCircuitBreaker threshold cooldown, clock⟩ past s) : BreakerLaw threshold cooldown past s where
  counted hclosed := by
    have hs := Counting.run hthreshold h
    exact ⟨hs.failures_eq, hs.below hclosed⟩
  opened c t hst hopens := by
    obtain ⟨now, hc, -, hwhy⟩ := (Counting.run hthreshold h).opens hst hopens
    exact ⟨now, hc, hwhy⟩
  cooling c t hst hopens calls u hr hcalls := by
    have hs := Counting.run hthreshold h
    obtain ⟨now, rfl, hat, -⟩ := hs.opens hst hopens
    have ht : OpenSince now cooldown t := ⟨hopens.2, hat, (hs.step hst).cooldown_eq⟩
    obtain ⟨hu, hrefused⟩ := ht.run hr hcalls
    refine ⟨hrefused, fun time granted v hask => ?_⟩
    cases hask with
    | allow hnow => exact hu.granted_iff time

/-- Two failures in a row open a breaker of threshold two. -/
theorem breaker_law_tripped :
    BreakerLaw 2 5 [.failure 1, .failure 3] ⟨⟨2, 5, 2, .cbOpen, 3⟩, 3⟩ :=
  breaker_law (by decide)
    (.cons (.failure (show (0 : ℤ) ≤ 1 by decide)) (.single (.failure (show (1 : ℤ) ≤ 3 by decide))))

end Calls

/-! ### The calls `RateLimit` makes -/

/-- The breaker with the requests whose call to Redis is still out. -/
structure Guarded where
  timed : Timed
  waiting : ℕ

/-- A request asks the breaker, and if it may call Redis it reports once, whenever the call ends. -/
inductive GuardedStep : Guarded → Call → Guarded → Prop where
  | admitted {g : Guarded} {now : ℤ} : g.timed.clock ≤ now → (g.timed.breaker.allow now).1 = true →
      GuardedStep g (.allow now true) ⟨⟨(g.timed.breaker.allow now).2, now⟩, g.waiting + 1⟩
  | degraded {g : Guarded} {now : ℤ} : g.timed.clock ≤ now → (g.timed.breaker.allow now).1 = false →
      GuardedStep g (.allow now false) ⟨⟨(g.timed.breaker.allow now).2, now⟩, g.waiting⟩
  | answered {g : Guarded} {now : ℤ} {rest : ℕ} : g.timed.clock ≤ now → g.waiting = rest + 1 →
      GuardedStep g (.success now) ⟨⟨g.timed.breaker.success, now⟩, rest⟩
  | failed {g : Guarded} {now : ℤ} {rest : ℕ} : g.timed.clock ≤ now → g.waiting = rest + 1 →
      GuardedStep g (.failure now) ⟨⟨g.timed.breaker.failure now, now⟩, rest⟩

theorem GuardedStep.called {g g' : Guarded} {c : Call} (h : GuardedStep g c g') : Called g.timed c g'.timed := by
  cases h with
  | @admitted now hnow hgranted =>
    rw [← hgranted]
    exact .allow hnow
  | @degraded now hnow hgranted =>
    rw [← hgranted]
    exact .allow hnow
  | answered hnow => exact .success hnow
  | failed hnow => exact .failure hnow

/-- Whatever the requests of the middleware do is a run of calls, so the law covers it. -/
theorem guarded_called {g g' : Guarded} {calls : List Call} (h : Run GuardedStep g calls g') :
    Run Called g.timed calls g'.timed := by
  induction h with
  | nil => exact .nil _
  | cons hst _ ih => exact .cons hst.called ih

end Chinwag.Gateway

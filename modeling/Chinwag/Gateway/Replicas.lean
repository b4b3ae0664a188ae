import Mathlib.Algebra.Order.BigOperators.Group.Finset
import Mathlib.Data.Set.Card
import Mathlib.Tactic.Linarith
import Chinwag.Lib.Program
import Chinwag.Lib.Ledger
import Chinwag.Gateway.ClockSkew
import Chinwag.Gateway.CircuitBreaker
import Chinwag.Gateway.Metrics

/-!
# The gateways that share one Redis

`RateLimit` on any number of replicas, each request command by command. What the local limiter of a
replica answers is left open, and so is every clock.
-/
namespace Chinwag.Gateway

open Program Transition UrlPath Ledger

structure RateLimitConfig where
  enabled : Bool
  limits : Limits
  /-- Whether there is a Redis at all. -/
  redis : Bool
  redisCircuitThreshold : ℤ
  redisCircuitCooldown : ℤ

/-- Who decided. -/
inductive DecisionMode where
  | l1
  | redis
deriving DecidableEq

inductive RateMetric where
  | allowed (mode : DecisionMode)
  | rejected (mode : DecisionMode)
  | redisErrors
  | l1Fallback
deriving DecidableEq

/-- What the limiter reads of a request; the address is what `RealIP` makes of it. -/
structure RateRequest where
  path : Bytes
  method : String
  realIP : String

inductive RateCmd where
  | l1Allow (replica : ℕ) (identifier : String)
  | breakerAllow (replica : ℕ)
  | breakerFailure (replica : ℕ)
  | breakerSuccess (replica : ℕ)
  | unixMilli
  | allowTokens (replica : ℕ) (identifier : String) (now : ℤ)
  | inc (replica : ℕ) (metric : RateMetric)

abbrev RateReply : RateCmd → Type
  | .l1Allow .. => Bool
  | .breakerAllow _ => Bool
  | .breakerFailure _ => Unit
  | .breakerSuccess _ => Unit
  | .unixMilli => ℤ
  | .allowTokens .. => Option Bool
  | .inc .. => Unit

abbrev RateProg := Prog RateCmd RateReply

inductive RateAnswer where
  | next
  | deny429
deriving DecidableEq

open Prog

def skipped (r : RateRequest) : Bool := Surroundings.rateLimitSkipper ⟨r.path, r.method, 0, [], none⟩

/-- `RedisLimiter.Allow`; an error carries no verdict. -/
def redisAllow (replica : ℕ) (identifier : String) : RateProg (Option Bool) := do
  let now ← perform RateCmd.unixMilli
  perform (RateCmd.allowTokens replica identifier now)

/-- What `RateLimit` makes of the reply of Redis. -/
def afterRedis (replica : ℕ) : Option Bool → RateProg RateAnswer
  | none => do
    perform (RateCmd.breakerFailure replica)
    perform (RateCmd.inc replica .redisErrors)
    perform (RateCmd.inc replica .l1Fallback)
    perform (RateCmd.inc replica (.allowed .l1))
    .ret .next
  | some allowed => do
    perform (RateCmd.breakerSuccess replica)
    if !allowed then
      perform (RateCmd.inc replica (.rejected .redis))
      .ret .deny429
    else
      perform (RateCmd.inc replica (.allowed .redis))
      .ret .next

/-- The handler of `RateLimit` on one replica. -/
def rateLimit (cfg : RateLimitConfig) (replica : ℕ) (r : RateRequest) : RateProg RateAnswer :=
  if !cfg.enabled || cfg.limits.rate ≤ 0 || cfg.limits.burst ≤ 0 then .ret .next
  else if skipped r then .ret .next
  else do
    let l1OK ← perform (RateCmd.l1Allow replica r.realIP)
    if !l1OK then
      perform (RateCmd.inc replica (.rejected .l1))
      .ret .deny429
    else if cfg.redis then
      let attempt ← perform (RateCmd.breakerAllow replica)
      if !attempt then
        perform (RateCmd.inc replica .l1Fallback)
        perform (RateCmd.inc replica (.allowed .l1))
        .ret .next
      else
        let reply ← redisAllow replica r.realIP
        afterRedis replica reply
    else
      perform (RateCmd.inc replica (.allowed .l1))
      .ret .next

/-- One run of the script, as Redis saw it; `fresh` where it found no key. -/
structure ScriptRun where
  identifier : String
  now : ℤ
  fresh : Bool
  allowed : Bool
deriving DecidableEq

/-- Redis with its clock, the breaker and the counters of each replica. The ledgers are a record of
what was done, and by which request. -/
structure RateState where
  clock : ℤ
  keys : String → Option Key
  breakers : ℕ → CircuitBreaker
  counters : ℕ → RateMetric → ℕ
  runs : List (ℕ × ScriptRun)
  counted : List (ℕ × ℕ × RateMetric)
  failed : List (ℕ × ℕ)

def redisRateLimitKey (identifier : String) : String := "gateway:ratelimit:" ++ identifier

namespace RateState

def bucket (s : RateState) (identifier : String) : Bucket := ⟨s.clock, s.keys (redisRateLimitKey identifier)⟩

/-- The script of request `i` runs. -/
def evalsha (s : RateState) (l : Limits) (i : ℕ) (identifier : String) (now : ℤ) : RateState :=
  let b := s.bucket identifier
  { s with
    keys := Function.update s.keys (redisRateLimitKey identifier) (l.allowAt now b).2.key
    runs := s.runs ++ [(i, ⟨identifier, now, b.fields.ts.isNone, (l.allowAt now b).1⟩)] }

def fail (s : RateState) (i replica : ℕ) : RateState := { s with failed := s.failed ++ [(i, replica)] }

def setBreaker (s : RateState) (replica : ℕ) (cb : CircuitBreaker) : RateState :=
  { s with breakers := Function.update s.breakers replica cb }

def inc (s : RateState) (i replica : ℕ) (metric : RateMetric) : RateState :=
  { s with
    counters := Function.update s.counters replica
      (Function.update (s.counters replica) metric (s.counters replica metric + 1))
    counted := s.counted ++ [(i, replica, metric)] }

end RateState

/-- A call to Redis may be answered, or fail with the script run or not. -/
inductive RateExec (l : Limits) (i : ℕ) : (c : RateCmd) → RateState → RateReply c → RateState → Prop where
  | l1Allow (replica : ℕ) (identifier : String) (ok : Bool) (s : RateState) :
      RateExec l i (.l1Allow replica identifier) s ok s
  | breakerAllow (replica : ℕ) (now : ℤ) (s : RateState) :
      RateExec l i (.breakerAllow replica) s ((s.breakers replica).allow now).1
        (s.setBreaker replica ((s.breakers replica).allow now).2)
  | breakerFailure (replica : ℕ) (now : ℤ) (s : RateState) :
      RateExec l i (.breakerFailure replica) s () (s.setBreaker replica ((s.breakers replica).failure now))
  | breakerSuccess (replica : ℕ) (s : RateState) :
      RateExec l i (.breakerSuccess replica) s () (s.setBreaker replica (s.breakers replica).success)
  | unixMilli (now : ℤ) (s : RateState) : RateExec l i .unixMilli s now s
  | answered (replica : ℕ) (identifier : String) (now : ℤ) (s : RateState) :
      RateExec l i (.allowTokens replica identifier now) s (some (l.allowAt now (s.bucket identifier)).1)
        (s.evalsha l i identifier now)
  | unanswered (replica : ℕ) (identifier : String) (now : ℤ) (s : RateState) :
      RateExec l i (.allowTokens replica identifier now) s none ((s.evalsha l i identifier now).fail i replica)
  | unreached (replica : ℕ) (identifier : String) (now : ℤ) (s : RateState) :
      RateExec l i (.allowTokens replica identifier now) s none (s.fail i replica)
  | inc (replica : ℕ) (metric : RateMetric) (s : RateState) :
      RateExec l i (.inc replica metric) s () (s.inc i replica metric)

/-- Time passes in Redis, and a key may be lost before its time. -/
inductive RateEnv : RateState → Option String → RateState → Prop where
  | tick {s : RateState} {clock : ℤ} (h : s.clock ≤ clock) : RateEnv s none { s with clock := clock }
  | lose (key : String) (s : RateState) : RateEnv s (some key) { s with keys := Function.update s.keys key none }

def rateSemantics (l : Limits) : Semantics RateState (Option String) RateCmd RateReply where
  exec i c s r t := RateExec l i c s r t
  env := RateEnv

/-- A request that the limiter is done with. -/
structure Limited where
  replica : ℕ
  request : RateRequest
  answer : RateAnswer

/-- A request reaches some replica. -/
inductive Arrives (cfg : RateLimitConfig) : RateProg Limited → Prop where
  | request (replica : ℕ) (r : RateRequest) :
      Arrives cfg (rateLimit cfg replica r >>= fun answer => .ret ⟨replica, r, answer⟩)

abbrev RatePool := Pool RateState RateCmd RateReply Limited

abbrev RateLabel := Label (Option String) RateCmd RateReply Limited

abbrev RateStep (cfg : RateLimitConfig) : RatePool → RateLabel → RatePool → Prop :=
  Step (rateSemantics cfg.limits) (Arrives cfg)

/-- The gateways and Redis have just started. -/
structure RateInit (cfg : RateLimitConfig) (pool : RatePool) : Prop where
  breakers : ∀ replica, pool.shared.breakers replica =
    configuredBreaker cfg.redisCircuitThreshold cfg.redisCircuitCooldown
  keys : ∀ key, pool.shared.keys key = none
  counters : ∀ replica metric, pool.shared.counters replica metric = 0
  runs : pool.shared.runs = []
  counted : pool.shared.counted = []
  failed : pool.shared.failed = []
  threads : pool.threads = []

/-! ### What one bucket lets through -/

/-- The runs that took a token. -/
def allowedRuns (runs : List ScriptRun) : ℕ := runs.countP ScriptRun.allowed

/-- The runs since a fresh one, with the tokens that are left, are paid for by the burst and by what the
rate brought between the times they were told. -/
def PaidFor (l : Limits) (first : ScriptRun) (rest : List ScriptRun) (tokens : ℚ) (ts : ℤ) : Prop :=
  (allowedRuns (first :: rest) : ℚ) + tokens ≤ l.burst + l.rate * ((ts - first.now : ℤ) : ℚ) / 1000

/-- The runs of the script on one key, and what they left there. -/
structure Metered (l : Limits) (history : List ScriptRun) (v : Fields) : Prop where
  tokens : ∀ tokens ts, v = ⟨some tokens, some ts⟩ → ∀ before first rest, history = before ++ first :: rest →
    (∀ d ∈ rest, d.fresh = false) → PaidFor l first rest tokens ts
  windows : ∀ before first rest after last, history = before ++ first :: rest ++ after →
    (∀ d ∈ rest, d.fresh = false) → (first :: rest).getLast? = some last → last.allowed = true →
    PaidFor l first rest 0 last.now

section Window

variable {l : Limits} {history : List ScriptRun} {v : Fields}

theorem split_concat {α : Type} {history before rest : List α} {last first : α}
    (h : history ++ [last] = before ++ first :: rest) :
    (before = history ∧ first = last ∧ rest = []) ∨ ∃ rest', rest = rest' ++ [last] ∧ history = before ++ first :: rest' := by
  rcases List.eq_nil_or_concat rest with rfl | ⟨rest', z, rfl⟩
  · obtain ⟨rfl, hlast⟩ := List.append_inj' h rfl
    exact .inl ⟨rfl, (List.singleton_inj.mp hlast).symm, rfl⟩
  · rw [List.concat_eq_append, ← List.cons_append, ← List.append_assoc] at h
    obtain ⟨rfl, hlast⟩ := List.append_inj' h rfl
    obtain rfl := List.singleton_inj.mp hlast
    exact .inr ⟨rest', List.concat_eq_append, rfl⟩

theorem Metered.nothing (l : Limits) (v : Fields) : Metered l [] v where
  tokens _ _ _ before first rest h := by simp at h
  windows before first rest after _ h := by simp at h

/-- Nothing is left once the key is gone. -/
theorem Metered.dropped (h : Metered l history v) : Metered l history ⟨none, none⟩ where
  tokens _ _ heq := by simp at heq
  windows := h.windows

theorem allowedRuns_concat (runs : List ScriptRun) (run : ScriptRun) :
    (allowedRuns (runs ++ [run]) : ℚ) = allowedRuns runs + if run.allowed then 1 else 0 := by
  cases hallowed : run.allowed <;> simp [allowedRuns, hallowed]

/-- The script runs once more, told the time `now`. -/
theorem Metered.run (h : Metered l history v) (hv : v = ⟨none, none⟩ ∨ ∃ tokens ts, v = ⟨some tokens, some ts⟩)
    (identifier : String) (now : ℤ) :
    Metered l (history ++ [⟨identifier, now, v.ts.isNone, (allowTokens l.rate l.burst now v).1⟩])
      (allowTokens l.rate l.burst now v).2 := by
  generalize hrun : (⟨identifier, now, v.ts.isNone, (allowTokens l.rate l.burst now v).1⟩ : ScriptRun) = run
  have hcapped : refilled l.rate l.burst now v ≤ l.burst := min_le_left _ _
  have hleft : (allowTokens l.rate l.burst now v).2 =
      ⟨some (refilled l.rate l.burst now v - if run.allowed then 1 else 0), some now⟩ := by
    rw [allowTokens_fields, ← hrun]
  -- the runs up to this one are paid for
  have hpaid : ∀ before first rest, history ++ [run] = before ++ first :: rest → (∀ d ∈ rest, d.fresh = false) →
      PaidFor l first rest (refilled l.rate l.burst now v - if run.allowed then 1 else 0) now := by
    intro before first rest hsplit hfresh
    rcases split_concat hsplit with ⟨rfl, rfl, rfl⟩ | ⟨rest', rfl, hhistory⟩
    · have hone : (allowedRuns [first] : ℚ) = if first.allowed then 1 else 0 := by
        have hconcat := allowedRuns_concat [] first
        rwa [List.nil_append, show allowedRuns [] = 0 from rfl, Nat.cast_zero, zero_add] at hconcat
      have hnow : first.now = now := by rw [← hrun]
      unfold PaidFor
      rw [hone, hnow]
      simp only [sub_self, Int.cast_zero, mul_zero, zero_div]
      linarith
    · have hold : run.fresh = false := hfresh run (by simp)
      rcases hv with rfl | ⟨tokens, ts, rfl⟩
      · rw [← hrun] at hold
        simp at hold
      · have hprior := h.tokens tokens ts rfl before first rest' hhistory fun d hd => hfresh d (by simp [hd])
        have hgain : refilled l.rate l.burst now ⟨some tokens, some ts⟩ ≤
            tokens + ((now - ts : ℤ) : ℚ) / 1000 * l.rate := min_le_right _ _
        have htimes : l.rate * ((ts - first.now : ℤ) : ℚ) / 1000 + ((now - ts : ℤ) : ℚ) / 1000 * l.rate =
            l.rate * ((now - first.now : ℤ) : ℚ) / 1000 := by
          push_cast
          ring
        unfold PaidFor at hprior ⊢
        rw [← List.cons_append, allowedRuns_concat]
        linarith
  refine ⟨fun tokens ts heq before first rest hsplit hfresh => ?_,
    fun before first rest after last hsplit hfresh hlast hallowed => ?_⟩
  · rw [hleft] at heq
    obtain ⟨htokens, hts⟩ := Fields.mk.inj heq
    rw [← Option.some.inj htokens, ← Option.some.inj hts]
    exact hpaid before first rest hsplit hfresh
  · rcases List.eq_nil_or_concat after with rfl | ⟨after', z, rfl⟩
    · rw [List.append_nil] at hsplit
      have hfull := hpaid before first rest hsplit hfresh
      have hends : last = run := by
        have hconcat : (history ++ [run]).getLast? = (before ++ first :: rest).getLast? := congrArg _ hsplit
        rw [List.getLast?_append_of_ne_nil before (List.cons_ne_nil _ _), hlast, List.getLast?_concat] at hconcat
        exact (Option.some.inj hconcat).symm
      have hone : 1 ≤ refilled l.rate l.burst now v := by
        rw [hends, ← hrun] at hallowed
        exact (allowTokens_fst _ _ _ _).mp hallowed
      have hnow : last.now = now := by rw [hends, ← hrun]
      rw [hends] at hallowed
      unfold PaidFor at hfull ⊢
      rw [if_pos hallowed] at hfull
      rw [hnow]
      linarith
    · rw [List.concat_eq_append, ← List.append_assoc] at hsplit
      obtain ⟨rfl, -⟩ := List.append_inj' hsplit rfl
      exact h.windows before first rest after' last rfl hfresh hlast hallowed

end Window

/-! ### What one step does -/

/-- The runs for one address, in the order Redis made them. -/
def RateState.runsFor (s : RateState) (identifier : String) : List ScriptRun :=
  (s.runs.map Prod.snd).filter fun run => run.identifier = identifier

structure RateInv (l : Limits) (s : RateState) : Prop where
  written : ∀ identifier, (s.bucket identifier).Written l
  spent : ∀ identifier, Metered l (s.runsFor identifier) (s.bucket identifier).fields
  tripped : ∀ replica, (s.breakers replica).state ≠ .cbClosed → ∃ i, (i, replica) ∈ s.failed
  counters : ∀ replica metric, s.counters replica metric = s.counted.countP fun e => e.2 = (replica, metric)

theorem redisRateLimitKey_injective : Function.Injective redisRateLimitKey := by
  intro a b h
  unfold redisRateLimitKey at h
  have hlist : ("gateway:ratelimit:" ++ a).toList = ("gateway:ratelimit:" ++ b).toList := congrArg String.toList h
  rw [String.toList_append, String.toList_append] at hlist
  exact String.toList_injective (List.append_cancel_left hlist)

section Steps

variable {l : Limits} {s t : RateState}

theorem bucket_evalsha_self (i : ℕ) (identifier : String) (now : ℤ) :
    (s.evalsha l i identifier now).bucket identifier = (l.allowAt now (s.bucket identifier)).2 := by
  simp [RateState.evalsha, RateState.bucket, Limits.allowAt]

theorem bucket_evalsha_other (i : ℕ) {identifier other : String} (h : other ≠ identifier) (now : ℤ) :
    (s.evalsha l i identifier now).bucket other = s.bucket other := by
  have hkey : redisRateLimitKey other ≠ redisRateLimitKey identifier := redisRateLimitKey_injective.ne h
  simp [RateState.evalsha, RateState.bucket, Function.update_of_ne hkey]

theorem runsFor_evalsha_self (i : ℕ) (identifier : String) (now : ℤ) :
    (s.evalsha l i identifier now).runsFor identifier = s.runsFor identifier ++
      [⟨identifier, now, (s.bucket identifier).fields.ts.isNone, (l.allowAt now (s.bucket identifier)).1⟩] := by
  simp [RateState.evalsha, RateState.runsFor]

theorem runsFor_evalsha_other (i : ℕ) {identifier other : String} (h : other ≠ identifier) (now : ℤ) :
    (s.evalsha l i identifier now).runsFor other = s.runsFor other := by
  simp [RateState.evalsha, RateState.runsFor, h.symm]

theorem RateInv.evalsha (h : RateInv l s) (i : ℕ) (identifier : String) (now : ℤ) :
    RateInv l (s.evalsha l i identifier now) where
  written other := by
    by_cases heq : other = identifier
    · subst heq
      rw [bucket_evalsha_self]
      exact written_step (h.written other) (.allow _ now)
    · rw [bucket_evalsha_other i heq]
      exact h.written other
  spent other := by
    by_cases heq : other = identifier
    · subst heq
      rw [bucket_evalsha_self, runsFor_evalsha_self, fields_allowAt]
      have hfields : (s.bucket other).fields = ⟨none, none⟩ ∨
          ∃ tokens ts, (s.bucket other).fields = ⟨some tokens, some ts⟩ := (h.written other).fields.imp_right And.right
      have hrun := (h.spent other).run hfields other now
      split
      · exact hrun.dropped
      · rw [allowTokens_fields] at hrun
        exact hrun
    · rw [bucket_evalsha_other i heq, runsFor_evalsha_other i heq]
      exact h.spent other
  tripped := h.tripped
  counters := h.counters

/-- A key that reads as it did, or is gone. -/
theorem RateInv.forget (h : RateInv l s) {clock : ℤ} {keys : String → Option Key}
    (hkeys : ∀ key, keys key = s.keys key ∨ keys key = none)
    (hfields : ∀ identifier, (RateState.bucket { s with clock := clock, keys := keys } identifier).fields = ⟨none, none⟩ ∨
      (RateState.bucket { s with clock := clock, keys := keys } identifier).fields = (s.bucket identifier).fields) :
    RateInv l { s with clock := clock, keys := keys } where
  written identifier k hk := by
    have hkey : keys (redisRateLimitKey identifier) = some k := hk
    rcases hkeys (redisRateLimitKey identifier) with hsame | hnone
    · exact h.written identifier k (hsame.symm.trans hkey)
    · rw [hnone] at hkey
      cases hkey
  spent identifier := by
    rcases hfields identifier with hnone | hsame
    · rw [hnone]
      exact (h.spent identifier).dropped
    · rw [hsame]
      exact h.spent identifier
  tripped := h.tripped
  counters := h.counters

theorem RateInv.env {e : Option String} (h : RateInv l s) (henv : RateEnv s e t) : RateInv l t := by
  cases henv with
  | tick hclock =>
    refine h.forget (fun _ => .inl rfl) fun identifier => ?_
    exact hmget_later _ hclock
  | lose key =>
    have hkeys : ∀ other, Function.update s.keys key none other = s.keys other ∨
        Function.update s.keys key none other = none := by
      intro other
      by_cases heq : other = key
      · exact .inr (by rw [heq, Function.update_self])
      · exact .inl (Function.update_of_ne heq _ _)
    refine h.forget hkeys fun identifier => ?_
    rcases hkeys (redisRateLimitKey identifier) with hsame | hnone
    · refine .inr ?_
      show hmget (Function.update s.keys key none _) _ = _
      rw [hsame]
      rfl
    · refine .inl ?_
      show hmget (Function.update s.keys key none _) _ = _
      rw [hnone]
      rfl

theorem RateInv.setBreaker (h : RateInv l s) (replica : ℕ) {cb : CircuitBreaker}
    (hcb : cb.state ≠ .cbClosed → ∃ i, (i, replica) ∈ s.failed) : RateInv l (s.setBreaker replica cb) where
  written := h.written
  spent := h.spent
  tripped other hopen := by
    have hstate : (Function.update s.breakers replica cb other).state ≠ .cbClosed := hopen
    by_cases heq : other = replica
    · subst heq
      rw [Function.update_self] at hstate
      exact hcb hstate
    · rw [Function.update_of_ne heq] at hstate
      exact h.tripped other hstate
  counters := h.counters

theorem RateInv.fail (h : RateInv l s) (i replica : ℕ) : RateInv l (s.fail i replica) where
  written := h.written
  spent := h.spent
  tripped other hopen := by
    obtain ⟨j, hj⟩ := h.tripped other hopen
    exact ⟨j, List.mem_append_left _ hj⟩
  counters := h.counters

theorem RateInv.inc (h : RateInv l s) (i replica : ℕ) (metric : RateMetric) : RateInv l (s.inc i replica metric) where
  written := h.written
  spent := h.spent
  tripped := h.tripped
  counters other m := by
    have hcount := h.counters other m
    simp only [RateState.inc, List.countP_append, List.countP_singleton]
    by_cases hreplica : other = replica
    · subst hreplica
      rw [Function.update_self]
      by_cases hmetric : m = metric
      · subst hmetric
        simp [hcount]
      · simp [Function.update_of_ne hmetric, hcount, Ne.symm hmetric]
    · simp [Function.update_of_ne hreplica, hcount, Ne.symm hreplica]

/-- Only a breaker that is told of a failure leaves its closed state. -/
theorem allow_closed {cb : CircuitBreaker} (h : cb.state = .cbClosed) (now : ℤ) : cb.allow now = (true, cb) := by
  simp [CircuitBreaker.allow, h]

theorem success_closed {cb : CircuitBreaker} (h : cb.state = .cbClosed) : cb.success.state = .cbClosed := by
  simp [CircuitBreaker.success, h]

end Steps

/-- What request `i` may rely on: the others write no entry of its own, and no failure is forgotten. -/
structure RateRely (i : ℕ) (s t : RateState) : Prop where
  runs : mine i t.runs = mine i s.runs
  counted : mine i t.counted = mine i s.counted
  failed : ∀ x ∈ s.failed, x ∈ t.failed

def rateContract (l : Limits) : Contract RateState RateCmd where
  inv := RateInv l
  rely := RateRely
  guar _ c s :=
    match c with
    | .breakerFailure replica => ∃ i, (i, replica) ∈ s.failed
    | _ => True

theorem RateRely.refl (i : ℕ) (s : RateState) : RateRely i s s := ⟨rfl, rfl, fun _ => id⟩

theorem RateRely.trans {i : ℕ} {s t u : RateState} (h : RateRely i s t) (h' : RateRely i t u) : RateRely i s u :=
  ⟨h'.runs.trans h.runs, h'.counted.trans h.counted, fun x hx => h'.failed x (h.failed x hx)⟩

section Contract

variable {l : Limits} {i j : ℕ} {s t : RateState}

theorem RateRely.evalsha (h : j ≠ i) (identifier : String) (now : ℤ) : RateRely j s (s.evalsha l i identifier now) :=
  ⟨mine_append_other h.symm _ _, rfl, fun _ => id⟩

theorem RateRely.fail (j i replica : ℕ) (s : RateState) : RateRely j s (s.fail i replica) :=
  ⟨rfl, rfl, fun _ => List.mem_append_left _⟩

theorem RateRely.inc (h : j ≠ i) (replica : ℕ) (metric : RateMetric) : RateRely j s (s.inc i replica metric) :=
  ⟨rfl, mine_append_other h.symm _ _, fun _ => id⟩

theorem exec_inv {c : RateCmd} {r : RateReply c} (hs : RateInv l s) (hg : (rateContract l).guar i c s)
    (h : RateExec l i c s r t) : RateInv l t := by
  cases h with
  | l1Allow => exact hs
  | breakerAllow replica now =>
    refine hs.setBreaker replica fun hopen => ?_
    by_cases hclosed : (s.breakers replica).state = .cbClosed
    · rw [allow_closed hclosed] at hopen
      exact absurd hclosed hopen
    · exact hs.tripped replica hclosed
  | breakerFailure replica now => exact hs.setBreaker replica fun _ => hg
  | breakerSuccess replica =>
    refine hs.setBreaker replica fun hopen => ?_
    by_cases hclosed : (s.breakers replica).state = .cbClosed
    · exact absurd (success_closed hclosed) hopen
    · exact hs.tripped replica hclosed
  | unixMilli => exact hs
  | answered replica identifier now => exact hs.evalsha i identifier now
  | unanswered replica identifier now => exact (hs.evalsha i identifier now).fail i replica
  | unreached replica => exact hs.fail i replica
  | inc replica metric => exact hs.inc i replica metric

theorem exec_rely {c : RateCmd} {r : RateReply c} (hij : j ≠ i) (h : RateExec l i c s r t) : RateRely j s t := by
  cases h with
  | l1Allow => exact .refl j s
  | breakerAllow => exact ⟨rfl, rfl, fun _ => id⟩
  | breakerFailure => exact ⟨rfl, rfl, fun _ => id⟩
  | breakerSuccess => exact ⟨rfl, rfl, fun _ => id⟩
  | unixMilli => exact .refl j s
  | answered replica identifier now => exact .evalsha hij identifier now
  | unanswered replica identifier now => exact (RateRely.evalsha hij identifier now).trans (.fail j i replica _)
  | unreached replica => exact .fail j i replica s
  | inc replica metric => exact .inc hij replica metric

theorem rateContract_sound (l : Limits) : (rateContract l).Sound (rateSemantics l) where
  rely_refl := RateRely.refl
  rely_trans _ _ _ _ := RateRely.trans
  env s e t hs henv := by
    refine ⟨hs.env henv, fun i => ?_⟩
    cases henv with
    | tick => exact ⟨rfl, rfl, fun _ => id⟩
    | lose => exact ⟨rfl, rfl, fun _ => id⟩
  cmd i c s r t hs hg h := ⟨exec_inv hs hg h, fun j hij => exec_rely hij h⟩

end Contract

/-! ### What one request does -/

/-- The limiter is on and looks at this request. -/
def limited (cfg : RateLimitConfig) (r : RateRequest) : Bool :=
  !(!cfg.enabled || cfg.limits.rate ≤ 0 || cfg.limits.burst ≤ 0) && !skipped r

/-- What a request came to, with the runs of the script it made and what it counted, where Redis is known to
have failed these requests. -/
inductive Passed (cfg : RateLimitConfig) (replica : ℕ) (r : RateRequest) (known : List (ℕ × ℕ)) :
    RateAnswer → List ScriptRun → List (ℕ × RateMetric) → Prop where
  | unlimited (h : limited cfg r = false) : Passed cfg replica r known .next [] []
  | locally (h : limited cfg r = true) : Passed cfg replica r known .deny429 [] [(replica, .rejected .l1)]
  | memory (h : limited cfg r = true) (hredis : cfg.redis = false) :
      Passed cfg replica r known .next [] [(replica, .allowed .l1)]
  | degraded (h : limited cfg r = true) (hredis : cfg.redis = true) (hfailed : ∃ j, (j, replica) ∈ known) :
      Passed cfg replica r known .next [] [(replica, .l1Fallback), (replica, .allowed .l1)]
  | failed (h : limited cfg r = true) (hredis : cfg.redis = true) (hfailed : ∃ j, (j, replica) ∈ known)
      {runs : List ScriptRun} (hruns : runs.length ≤ 1) :
      Passed cfg replica r known .next runs
        [(replica, .redisErrors), (replica, .l1Fallback), (replica, .allowed .l1)]
  | refused (h : limited cfg r = true) (hredis : cfg.redis = true) {run : ScriptRun}
      (hrun : run.identifier = r.realIP) (hallowed : run.allowed = false) :
      Passed cfg replica r known .deny429 [run] [(replica, .rejected .redis)]
  | granted (h : limited cfg r = true) (hredis : cfg.redis = true) {run : ScriptRun}
      (hrun : run.identifier = r.realIP) (hallowed : run.allowed = true) :
      Passed cfg replica r known .next [run] [(replica, .allowed .redis)]

/-- What request `i` has done so far, and which failures it knows of. -/
structure Own (i : ℕ) (runs : List ScriptRun) (counted : List (ℕ × RateMetric)) (known : List (ℕ × ℕ)) (s : RateState) :
    Prop where
  runs : mine i s.runs = runs
  counted : mine i s.counted = counted
  known : ∀ x ∈ known, x ∈ s.failed

/-- A call to Redis is answered by its one run of the script, or it failed. -/
def RedisReplied (i replica : ℕ) (identifier : String) (counted : List (ℕ × RateMetric)) : Option Bool → RateState → Prop
  | none, t => ∃ runs : List ScriptRun, runs.length ≤ 1 ∧ Own i runs counted [(i, replica)] t
  | some allowed, t => ∃ run, run.identifier = identifier ∧ run.allowed = allowed ∧ Own i [run] counted [] t

section Requests

variable {l : Limits} {cfg : RateLimitConfig} {i replica : ℕ} {r : RateRequest} {s t : RateState} {runs : List ScriptRun}
  {counted : List (ℕ × RateMetric)} {known : List (ℕ × ℕ)} {α : Type} {Q : α → RateState → Prop}

theorem Own.rely (h : Own i runs counted known s) (hr : RateRely i s t) : Own i runs counted known t :=
  ⟨hr.runs.trans h.runs, hr.counted.trans h.counted, fun x hx => hr.failed x (h.known x hx)⟩

theorem Own.inc (h : Own i runs counted known s) (replica : ℕ) (metric : RateMetric) :
    Own i runs (counted ++ [(replica, metric)]) known (s.inc i replica metric) :=
  ⟨h.runs, (mine_append_self i s.counted _).trans (congrArg (· ++ _) h.counted), h.known⟩

theorem Own.evalsha (h : Own i [] counted known s) (l : Limits) (identifier : String) (now : ℤ) :
    Own i [⟨identifier, now, (s.bucket identifier).fields.ts.isNone, (l.allowAt now (s.bucket identifier)).1⟩] counted
      known (s.evalsha l i identifier now) :=
  ⟨(mine_append_self i s.runs _).trans (congrArg (· ++ _) h.runs), h.counted, h.known⟩

theorem Own.fail (h : Own i runs counted known s) (replica : ℕ) :
    Own i runs counted (known ++ [(i, replica)]) (s.fail i replica) where
  runs := h.runs
  counted := h.counted
  known x hx := by
    rcases List.mem_append.mp hx with hold | hnew
    · exact List.mem_append_left _ (h.known x hold)
    · exact List.mem_append_right _ hnew

/-- A command that writes nothing of its own. -/
theorem safe_silent {c : RateCmd} {next : RateReply c → RateProg α} (h : Own i runs counted known s)
    (hguar : ∀ t, Own i runs counted known t → (rateContract l).guar i c t)
    (hexec : ∀ t reply u, Own i runs counted known t → RateExec l i c t reply u → Own i runs counted known u)
    (hnext : ∀ reply t, Own i runs counted known t → Safe (rateSemantics l) (rateContract l) i Q (next reply) t) :
    Safe (rateSemantics l) (rateContract l) i Q (.call c next) s := by
  intro t _ hr
  have ht := h.rely hr
  exact ⟨hguar t ht, fun reply u hu _ => hnext reply u (hexec t reply u ht hu)⟩

theorem safe_inc {metric : RateMetric} {next : Unit → RateProg α} (h : Own i runs counted known s)
    (hnext : ∀ t, Own i runs (counted ++ [(replica, metric)]) known t →
      Safe (rateSemantics l) (rateContract l) i Q (next ()) t) :
    Safe (rateSemantics l) (rateContract l) i Q (.call (.inc replica metric) next) s := by
  intro t _ hr
  refine ⟨trivial, fun reply u hu _ => ?_⟩
  cases hu
  exact hnext _ ((h.rely hr).inc replica metric)

theorem safe_l1Allow {identifier : String} {next : Bool → RateProg α} (h : Own i runs counted known s)
    (hnext : ∀ ok t, Own i runs counted known t → Safe (rateSemantics l) (rateContract l) i Q (next ok) t) :
    Safe (rateSemantics l) (rateContract l) i Q (.call (.l1Allow replica identifier) next) s := by
  refine safe_silent h (fun _ _ => trivial) (fun t reply u ht hu => ?_) hnext
  cases hu
  exact ht

theorem safe_breakerFailure {next : Unit → RateProg α} (h : Own i runs counted known s)
    (hfailed : ∃ j, (j, replica) ∈ known)
    (hnext : ∀ t, Own i runs counted known t → Safe (rateSemantics l) (rateContract l) i Q (next ()) t) :
    Safe (rateSemantics l) (rateContract l) i Q (.call (.breakerFailure replica) next) s := by
  obtain ⟨j, hj⟩ := hfailed
  refine safe_silent h (fun t ht => ⟨j, ht.known _ hj⟩) (fun t reply u ht hu => ?_) fun _ => hnext
  cases hu
  exact ⟨ht.runs, ht.counted, ht.known⟩

theorem safe_breakerSuccess {next : Unit → RateProg α} (h : Own i runs counted known s)
    (hnext : ∀ t, Own i runs counted known t → Safe (rateSemantics l) (rateContract l) i Q (next ()) t) :
    Safe (rateSemantics l) (rateContract l) i Q (.call (.breakerSuccess replica) next) s := by
  refine safe_silent h (fun _ _ => trivial) (fun t reply u ht hu => ?_) fun _ => hnext
  cases hu
  exact ⟨ht.runs, ht.counted, ht.known⟩

/-- An open breaker has been told of a failure on its own replica. -/
theorem safe_breakerAllow {next : Bool → RateProg α} (h : Own i runs counted [] s)
    (hopen : ∀ t j, Own i runs counted [(j, replica)] t → Safe (rateSemantics l) (rateContract l) i Q (next false) t)
    (hattempt : ∀ t, Own i runs counted [] t → Safe (rateSemantics l) (rateContract l) i Q (next true) t) :
    Safe (rateSemantics l) (rateContract l) i Q (.call (.breakerAllow replica) next) s := by
  intro t hinv hr
  have ht := h.rely hr
  refine ⟨trivial, fun attempt u hu _ => ?_⟩
  cases hu with
  | breakerAllow replica now =>
    cases hreply : ((t.breakers replica).allow now).1 with
    | true => exact hattempt _ ⟨ht.runs, ht.counted, nofun⟩
    | false =>
      have hstate : (t.breakers replica).state ≠ .cbClosed := by
        intro hclosed
        rw [allow_closed hclosed] at hreply
        cases hreply
      obtain ⟨j, hj⟩ := hinv.tripped replica hstate
      exact hopen _ j ⟨ht.runs, ht.counted, fun x hx => List.mem_singleton.mp hx ▸ hj⟩

theorem safe_redisAllow {identifier : String} (h : Own i [] counted [] s) : Safe (rateSemantics l) (rateContract l) i
    (RedisReplied i replica identifier counted) (redisAllow replica identifier) s := by
  refine safe_silent h (fun _ _ => trivial) (fun t reply u ht hu => ?_) fun now t ht => ?_
  · cases hu
    exact ht
  · intro u _ hr
    have hu := ht.rely hr
    refine ⟨trivial, fun reply v hv _ => ?_⟩
    cases hv with
    | answered => exact ⟨_, rfl, rfl, hu.evalsha l identifier now⟩
    | unanswered => exact ⟨[_], Nat.le_refl 1, (hu.evalsha l identifier now).fail replica⟩
    | unreached => exact ⟨[], Nat.zero_le 1, hu.fail replica⟩

/-- Where the limiter is on and a request is its business. -/
theorem limited_iff : limited cfg r = true ↔
    (!cfg.enabled || cfg.limits.rate ≤ 0 || cfg.limits.burst ≤ 0) = false ∧ skipped r = false := by
  simp [limited]

def Passing (cfg : RateLimitConfig) (i replica : ℕ) (r : RateRequest) (answer : RateAnswer) (s : RateState) :
    Prop :=
  ∃ runs counted known, Own i runs counted known s ∧ Passed cfg replica r known answer runs counted

theorem safe_afterRedis (h : limited cfg r = true) (hredis : cfg.redis = true) {reply : Option Bool}
    (hreply : RedisReplied i replica r.realIP [] reply s) :
    Safe (rateSemantics l) (rateContract l) i (Passing cfg i replica r) (afterRedis replica reply) s := by
  cases reply with
  | none =>
    obtain ⟨runs, hruns, hown⟩ := hreply
    have hfailed : ∃ j, (j, replica) ∈ [(i, replica)] := ⟨i, List.mem_singleton_self _⟩
    refine safe_breakerFailure hown hfailed fun t ht => safe_inc ht fun u hu => safe_inc hu fun v hv => ?_
    exact safe_inc hv fun w hw => ⟨runs, _, _, hw, .failed h hredis hfailed hruns⟩
  | some allowed =>
    obtain ⟨run, hrun, hallowed, hown⟩ := hreply
    refine safe_breakerSuccess hown fun t ht => ?_
    cases allowed with
    | false => exact safe_inc ht fun u hu => ⟨_, _, _, hu, .refused h hredis hrun hallowed⟩
    | true => exact safe_inc ht fun u hu => ⟨_, _, _, hu, .granted h hredis hrun hallowed⟩

theorem safe_rateLimit (hown : Own i [] [] [] s) :
    Safe (rateSemantics l) (rateContract l) i (Passing cfg i replica r) (rateLimit cfg replica r) s := by
  have hunlimited : limited cfg r = false → Passing cfg i replica r .next s :=
    fun h => ⟨[], [], [], hown, .unlimited h⟩
  unfold rateLimit
  split
  · rename_i hoff
    exact hunlimited (by simp [limited, hoff])
  · rename_i hon
    split
    · rename_i hskipped
      exact hunlimited (by simp [limited, hskipped])
    · rename_i hlooked
      have h : limited cfg r = true := limited_iff.mpr ⟨eq_false_of_ne_true hon, eq_false_of_ne_true hlooked⟩
      refine safe_l1Allow hown fun ok t ht => ?_
      cases ok with
      | false => exact safe_inc ht fun u hu => ⟨_, _, _, hu, .locally h⟩
      | true =>
        show Safe _ _ _ _ (if cfg.redis = true then _ else _) t
        split
        · rename_i hredis
          refine safe_breakerAllow ht (fun u j hu => ?_) fun u hu => ?_
          · refine safe_inc hu fun v hv => safe_inc hv fun w hw => ⟨_, _, _, hw, .degraded h hredis ?_⟩
            exact ⟨j, List.mem_singleton_self _⟩
          · exact (safe_redisAllow hu).bind fun reply v hv => safe_afterRedis h hredis hv
        · rename_i hmemory
          exact safe_inc ht fun u hu => ⟨_, _, _, hu, .memory h (eq_false_of_ne_true hmemory)⟩

end Requests

/-! ### All replicas together -/

/-- Request `i` came to this replica and was answered. -/
def Ended (pool : RatePool) (i replica : ℕ) (r : RateRequest) (answer : RateAnswer) : Prop :=
  pool.threads[i]? = some (.ret ⟨replica, r, answer⟩)

/-- The requests from one address that the limiters looked at and let through. -/
def letThrough (cfg : RateLimitConfig) (pool : RatePool) (identifier : String) : Set ℕ :=
  {i | ∃ replica r, Ended pool i replica r .next ∧ limited cfg r = true ∧ r.realIP = identifier}

/-- What a key that is never lost in between lets through, over all replicas; the times are those the
replicas told Redis. -/
structure SharedBudget (cfg : RateLimitConfig) (pool : RatePool) : Prop where
  window : ∀ identifier before first rest after last,
    pool.shared.runsFor identifier = before ++ first :: rest ++ after → (∀ d ∈ rest, d.fresh = false) →
    (first :: rest).getLast? = some last → last.allowed = true →
    (allowedRuns (first :: rest) : ℚ) ≤ cfg.limits.burst + cfg.limits.rate * ((last.now - first.now : ℤ) : ℚ) / 1000
  passed : ∀ i replica r, Ended pool i replica r .next → limited cfg r = true → cfg.redis = true →
    (∃ run, (i, run) ∈ pool.shared.runs ∧ run.identifier = r.realIP ∧ run.allowed = true) ∨
      ∃ j, (j, replica) ∈ pool.shared.failed
  denied : ∀ i replica r, Ended pool i replica r .deny429 → (i, replica, .rejected .l1) ∈ pool.shared.counted ∨
    ∃ run, (i, run) ∈ pool.shared.runs ∧ run.identifier = r.realIP ∧ run.allowed = false
  once : ∀ i replica r answer, Ended pool i replica r answer → (mine i pool.shared.runs).length ≤ 1
  budget : cfg.redis = true → pool.shared.failed = [] → ∀ identifier first rest,
    pool.shared.runsFor identifier = first :: rest → (∀ d ∈ rest, d.fresh = false) →
    ∀ span : ℤ, 0 ≤ span → (∀ d ∈ rest, d.now ≤ first.now + span) →
    ((letThrough cfg pool identifier).ncard : ℚ) ≤ cfg.limits.burst + cfg.limits.rate * (span : ℚ) / 1000

section Runs

variable {cfg : RateLimitConfig} {pool pool' : RatePool} {trace : List RateLabel}

def Kept (cfg : RateLimitConfig) (i : ℕ) (ended : Limited) (s : RateState) : Prop :=
  Passing cfg i ended.replica ended.request ended.answer s

theorem stable_kept (cfg : RateLimitConfig) : (rateContract cfg.limits).Stable (Kept cfg) := by
  rintro i ended s t ⟨runs, counted, known, hown, hpassed⟩ hr
  exact ⟨runs, counted, known, hown.rely hr, hpassed⟩

theorem safe_arrives {p : RateProg Limited} (hp : Arrives cfg p) {i : ℕ} {s : RateState} (hown : Own i [] [] [] s) :
    Safe (rateSemantics cfg.limits) (rateContract cfg.limits) i (Kept cfg i) p s := by
  cases hp with
  | request replica r => exact (safe_rateLimit hown).bind fun answer t h => h

theorem good_init (h : RateInit cfg pool) : Good (rateSemantics cfg.limits) (rateContract cfg.limits) (Kept cfg) pool where
  shared :=
    { written := fun identifier k hk => by
        have hnone : (pool.shared.bucket identifier).key = none := h.keys _
        rw [hnone] at hk
        cases hk
      spent := fun identifier => by
        rw [RateState.runsFor, h.runs]
        exact .nothing _ _
      tripped := fun replica hopen => by
        rw [h.breakers] at hopen
        exact absurd rfl hopen
      counters := fun replica metric => by
        rw [h.counters, h.counted]
        rfl }
  safe i p hi := by
    rw [h.threads] at hi
    cases hi

/-- The pool is good, and nothing is written for a request that has not come. -/
theorem good_run (h : RateInit cfg pool) (hrun : Run (RateStep cfg) pool trace pool') :
    Good (rateSemantics cfg.limits) (rateContract cfg.limits) (Kept cfg) pool' ∧
      ∀ i, pool'.threads.length ≤ i → Own i [] [] [] pool'.shared := by
  refine Good.run_started (rateContract_sound _) (stable_kept cfg) (fun _ _ _ hown hr => hown.rely hr)
    (fun _ _ _ hq hown => safe_arrives hq hown) hrun (good_init h) fun i _ => ⟨?_, ?_, nofun⟩
  · rw [h.runs]
    rfl
  · rw [h.counted]
    rfl

/-- The last of the runs that took a token, if any did. -/
theorem exists_last_allowed (runs : List ScriptRun) : allowedRuns runs = 0 ∨
    ∃ before last after, runs = before ++ last :: after ∧ last.allowed = true ∧ allowedRuns after = 0 := by
  induction runs with
  | nil => exact .inl rfl
  | cons run runs ih =>
    rcases ih with hnone | ⟨before, last, after, rfl, hlast, hafter⟩
    · cases hrun : run.allowed with
      | false =>
        refine .inl ?_
        rw [allowedRuns, List.countP_cons_of_neg (by simp [hrun])]
        exact hnone
      | true => exact .inr ⟨[], run, runs, rfl, hrun, hnone⟩
    · exact .inr ⟨run :: before, last, after, rfl, hlast, hafter⟩

/-- The windows bound all that was allowed on a key that was not lost. -/
theorem allowedRuns_le {l : Limits} {first : ScriptRun} {rest : List ScriptRun} {v : Fields}
    (h : Metered l (first :: rest) v) (hfresh : ∀ d ∈ rest, d.fresh = false) {span : ℤ} (hspan : 0 ≤ span)
    (htimes : ∀ d ∈ rest, d.now ≤ first.now + span) :
    (allowedRuns (first :: rest) : ℚ) ≤ l.burst + l.rate * (span : ℚ) / 1000 := by
  have hburst : (0 : ℚ) < l.burst := by exact_mod_cast l.burst_pos
  have hrate : (0 : ℚ) < l.rate := l.rate_pos
  have hgain : ∀ elapsed : ℤ, elapsed ≤ span → l.rate * (elapsed : ℚ) / 1000 ≤ l.rate * (span : ℚ) / 1000 := by
    intro elapsed hle
    have hcast : (elapsed : ℚ) ≤ span := by exact_mod_cast hle
    have hmul : l.rate * (elapsed : ℚ) ≤ l.rate * span := mul_le_mul_of_nonneg_left hcast hrate.le
    linarith
  rcases exists_last_allowed (first :: rest) with hnone | ⟨before, last, after, hsplit, hlast, hafter⟩
  · have hzero := hgain 0 hspan
    rw [hnone]
    simp only [Nat.cast_zero, Int.cast_zero, mul_zero, zero_div] at hzero ⊢
    linarith
  · -- the runs up to the last allowed one
    have hcount : allowedRuns (first :: rest) = allowedRuns (before ++ [last]) := by
      rw [hsplit, List.append_cons, allowedRuns, List.countP_append]
      exact congrArg (allowedRuns (before ++ [last]) + ·) hafter
    obtain ⟨rest', hrest', hbegins⟩ : ∃ rest', before ++ [last] = first :: rest' ∧ rest = rest' ++ after := by
      rw [List.append_cons] at hsplit
      cases before with
      | nil =>
        obtain ⟨rfl, rfl⟩ := List.cons.inj hsplit
        exact ⟨[], rfl, rfl⟩
      | cons b before =>
        obtain ⟨rfl, rfl⟩ := List.cons.inj hsplit
        exact ⟨before ++ [last], rfl, rfl⟩
    have hends : (first :: rest').getLast? = some last := by
      rw [← hrest']
      exact List.getLast?_concat
    have hbound := h.windows [] first rest' after last (by rw [hbegins]; rfl)
      (fun d hd => hfresh d (hbegins ▸ List.mem_append_left _ hd)) hends hlast
    have helapsed : last.now - first.now ≤ span := by
      have hmem : last ∈ first :: rest' := List.mem_of_getLast? hends
      rcases List.mem_cons.mp hmem with rfl | hin
      · omega
      · have := htimes last (hbegins ▸ List.mem_append_left _ hin)
        omega
    have hwithin := hgain _ helapsed
    rw [hcount, hrest']
    unfold PaidFor at hbound
    linarith

theorem ended_passed (hg : Good (rateSemantics cfg.limits) (rateContract cfg.limits) (Kept cfg) pool) {i replica : ℕ}
    {r : RateRequest} {answer : RateAnswer} (h : Ended pool i replica r answer) :
    ∃ runs counted known, Own i runs counted known pool.shared ∧ Passed cfg replica r known answer runs counted :=
  hg.safe i _ h

/-- How often a replica's counter went up, by what requests wrote down. -/
def tally (counted : List (ℕ × RateMetric)) (replica : ℕ) (metric : RateMetric) : ℕ :=
  counted.countP fun e => e = (replica, metric)

/-- What the counters of a replica come to while no request is in flight. -/
structure RateAccounts (cfg : RateLimitConfig) (pool : RatePool) (replica : ℕ) : Prop where
  allowed : pool.shared.counters replica (.allowed .l1) + pool.shared.counters replica (.allowed .redis) =
    {i | ∃ r, Ended pool i replica r .next ∧ limited cfg r = true}.ncard
  rejected : pool.shared.counters replica (.rejected .l1) + pool.shared.counters replica (.rejected .redis) =
    {i | ∃ r, Ended pool i replica r .deny429}.ncard
  fallback : cfg.redis = true → pool.shared.counters replica .l1Fallback = pool.shared.counters replica (.allowed .l1)
  errors : pool.shared.counters replica .redisErrors ≤ pool.shared.counters replica .l1Fallback
  memory : cfg.redis = false → ∀ metric, pool.shared.counters replica metric ≠ 0 →
    metric = .allowed .l1 ∨ metric = .rejected .l1

section Tallies

variable {replica other : ℕ} {r : RateRequest} {known : List (ℕ × ℕ)} {answer : RateAnswer} {runs : List ScriptRun}
  {counted : List (ℕ × RateMetric)}

theorem passed_allowed (h : Passed cfg other r known answer runs counted) :
    tally counted replica (.allowed .l1) + tally counted replica (.allowed .redis) =
      if other = replica ∧ answer = .next ∧ limited cfg r = true then 1 else 0 := by
  by_cases heq : other = replica <;> cases h <;> simp_all [tally]

theorem passed_rejected (h : Passed cfg other r known answer runs counted) :
    tally counted replica (.rejected .l1) + tally counted replica (.rejected .redis) =
      if other = replica ∧ answer = .deny429 then 1 else 0 := by
  by_cases heq : other = replica <;> cases h <;> simp_all [tally]

theorem passed_fallback (h : Passed cfg other r known answer runs counted) (hredis : cfg.redis = true) :
    tally counted replica .l1Fallback = tally counted replica (.allowed .l1) := by
  by_cases heq : other = replica <;> cases h <;> simp_all [tally]

theorem passed_errors (h : Passed cfg other r known answer runs counted) :
    tally counted replica .redisErrors ≤ tally counted replica .l1Fallback := by
  by_cases heq : other = replica <;> cases h <;> simp_all [tally]

theorem passed_memory (h : Passed cfg other r known answer runs counted) (hmemory : cfg.redis = false)
    {metric : RateMetric} (hne : tally counted replica metric ≠ 0) :
    metric = .allowed .l1 ∨ metric = .rejected .l1 := by
  obtain ⟨e, he, heq⟩ := List.countP_pos_iff.mp (Nat.pos_of_ne_zero hne)
  obtain rfl := of_decide_eq_true heq
  cases h <;> simp_all

end Tallies

/-- A counter is the sum of what the requests wrote down for it. -/
theorem counter_eq_sum (hg : Good (rateSemantics cfg.limits) (rateContract cfg.limits) (Kept cfg) pool)
    (hunmarked : ∀ i, pool.threads.length ≤ i → Own i [] [] [] pool.shared) (replica : ℕ) (metric : RateMetric) :
    pool.shared.counters replica metric =
      ∑ i ∈ Finset.range pool.threads.length, tally (mine i pool.shared.counted) replica metric := by
  have hcome : ∀ e ∈ pool.shared.counted, e.1 < pool.threads.length := by
    intro e he
    by_contra hge
    have hnone := (hunmarked e.1 (Nat.not_lt.mp hge)).counted
    have hmem : e.2 ∈ mine e.1 pool.shared.counted := mem_mine.mpr he
    rw [hnone] at hmem
    cases hmem
  rw [hg.shared.counters]
  exact countP_eq_sum (fun e => e = (replica, metric)) hcome

theorem ended_unique {i replica replica' : ℕ} {r r' : RateRequest} {answer answer' : RateAnswer}
    (h : Ended pool i replica r answer) (h' : Ended pool i replica' r' answer') :
    replica = replica' ∧ r = r' ∧ answer = answer' := by
  have heq := Prog.ret.inj (Option.some.inj (h.symm.trans h'))
  exact ⟨congrArg Limited.replica heq, congrArg Limited.request heq, congrArg Limited.answer heq⟩

/-- Every request that was limited is counted once, for what it came to. -/
theorem rate_accounts (h : RateInit cfg pool) (hrun : Run (RateStep cfg) pool trace pool')
    (hended : ∀ p ∈ pool'.threads, ∃ ended, p = .ret ended) (replica : ℕ) : RateAccounts cfg pool' replica := by
  obtain ⟨hg, hunmarked⟩ := good_run h hrun
  have hsum := counter_eq_sum hg hunmarked replica
  have hpassed : ∀ i ∈ Finset.range pool'.threads.length, ∃ other r answer runs known, Ended pool' i other r answer ∧
      Passed cfg other r known answer runs (mine i pool'.shared.counted) := by
    intro i hi
    have hlt := Finset.mem_range.mp hi
    obtain ⟨⟨other, r, answer⟩, hret⟩ := hended _ (List.getElem_mem hlt)
    have hends : Ended pool' i other r answer := by
      rw [Ended, List.getElem?_eq_getElem hlt, hret]
    obtain ⟨runs, counted, known, hown, hpassed⟩ := ended_passed hg hends
    rw [← hown.counted] at hpassed
    exact ⟨other, r, answer, runs, known, hends, hpassed⟩
  have hlt : ∀ {i other r answer}, Ended pool' i other r answer → i ∈ Finset.range pool'.threads.length :=
    fun hends => Finset.mem_range.mpr (List.getElem?_eq_some_iff.mp hends).1
  refine ⟨?_, ?_, fun hredis => ?_, ?_, fun hmemory metric hne => ?_⟩
  · rw [hsum, hsum, ← Finset.sum_add_distrib]
    refine sum_eq_ncard ?_ ?_ fun i hi hnot => ?_
    · rintro i ⟨r, hends, -⟩
      exact Finset.mem_range.mp (hlt hends)
    · rintro i ⟨r, hends, hlimited⟩
      obtain ⟨other, r', answer, runs, known, hends', hi⟩ := hpassed i (hlt hends)
      obtain ⟨rfl, rfl, rfl⟩ := ended_unique hends hends'
      rw [passed_allowed hi, if_pos ⟨rfl, rfl, hlimited⟩]
    · obtain ⟨other, r, answer, runs, known, hends, hpass⟩ := hpassed i (Finset.mem_range.mpr hi)
      rw [passed_allowed hpass, if_neg]
      rintro ⟨rfl, rfl, hlimited⟩
      exact hnot ⟨r, hends, hlimited⟩
  · rw [hsum, hsum, ← Finset.sum_add_distrib]
    refine sum_eq_ncard ?_ ?_ fun i hi hnot => ?_
    · rintro i ⟨r, hends⟩
      exact Finset.mem_range.mp (hlt hends)
    · rintro i ⟨r, hends⟩
      obtain ⟨other, r', answer, runs, known, hends', hi⟩ := hpassed i (hlt hends)
      obtain ⟨rfl, rfl, rfl⟩ := ended_unique hends hends'
      rw [passed_rejected hi, if_pos ⟨rfl, rfl⟩]
    · obtain ⟨other, r, answer, runs, known, hends, hpass⟩ := hpassed i (Finset.mem_range.mpr hi)
      rw [passed_rejected hpass, if_neg]
      rintro ⟨rfl, rfl⟩
      exact hnot ⟨r, hends⟩
  · rw [hsum, hsum]
    refine Finset.sum_congr rfl fun i hi => ?_
    obtain ⟨other, r, answer, runs, known, -, hi⟩ := hpassed i hi
    exact passed_fallback hi hredis
  · rw [hsum, hsum]
    refine Finset.sum_le_sum fun i hi => ?_
    obtain ⟨other, r, answer, runs, known, -, hi⟩ := hpassed i hi
    exact passed_errors hi
  · rw [hsum] at hne
    obtain ⟨i, hi, hne⟩ := Finset.exists_ne_zero_of_sum_ne_zero hne
    obtain ⟨other, r, answer, runs, known, -, hi⟩ := hpassed i hi
    exact passed_memory hi hmemory hne

end Runs

section Sample

def sampleConfig : RateLimitConfig := ⟨true, loadLimits none none none, true, 3, 5000000000⟩

def sampleLogin : RateRequest := ⟨bytes "/auth/login", "POST", "203.0.113.7"⟩

def quietGateways : RateState := ⟨0, fun _ => none, fun _ => configuredBreaker 3 5000000000, fun _ _ => 0, [], [], []⟩

/-- After the first request of an address, let through on the word of Redis. -/
def oneLogin : RateState :=
  (((quietGateways.setBreaker 0 ((configuredBreaker 3 5000000000).allow 0).2).evalsha sampleConfig.limits 0
    "203.0.113.7" 0).setBreaker 0 (configuredBreaker 3 5000000000).success).inc 0 0 (.allowed .redis)

theorem quietGateways_init : RateInit sampleConfig ⟨quietGateways, []⟩ :=
  ⟨fun _ => rfl, fun _ => rfl, fun _ _ => rfl, rfl, rfl, rfl, rfl⟩

theorem sampleLogin_limited : limited sampleConfig sampleLogin = true := by
  decide +kernel

theorem first_allowed (l : Limits) : (l.allowAt 0 ⟨0, none⟩).1 = true := by
  have hburst : (1 : ℚ) ≤ l.burst := by exact_mod_cast Int.add_one_le_iff.mpr l.burst_pos
  have hfull : (1 : ℚ) ≤ refilled l.rate l.burst 0 ⟨none, none⟩ := by
    rw [refilled_absent]
    exact hburst
  exact (allowTokens_fst _ _ _ _).mpr hfull

theorem alone_login : Alone (RateExec sampleConfig.limits 0) Eq
    (rateLimit sampleConfig 0 sampleLogin >>= fun answer => .ret (⟨0, sampleLogin, answer⟩ : Limited)) quietGateways
    ⟨0, sampleLogin, .next⟩ oneLogin := by
  obtain ⟨hon, hlooked⟩ := limited_iff.mp sampleLogin_limited
  unfold rateLimit
  rw [hon, hlooked]
  refine .call rfl (.l1Allow 0 "203.0.113.7" true _) (.call rfl (.breakerAllow 0 0 _) (.call rfl (.unixMilli 0 _) ?_))
  refine .call rfl (.answered 0 "203.0.113.7" 0 _) ?_
  show Alone _ _ (afterRedis 0 (some (sampleConfig.limits.allowAt 0 ⟨0, none⟩).1) >>= _) _ _ _
  rw [first_allowed]
  exact .call rfl (.breakerSuccess 0 _) (.call rfl (.inc 0 (.allowed .redis) _) (.ret _ _))

theorem login_run : ∃ trace, Run (RateStep sampleConfig) ⟨quietGateways, []⟩ trace
    ⟨oneLogin, [] ++ [.ret ⟨0, sampleLogin, .next⟩]⟩ :=
  Alone.spawn_run [] (Arrives.request 0 sampleLogin) alone_login

theorem rate_accounts_login : ∃ pool' : RatePool, Ended pool' 0 0 sampleLogin .next ∧
    RateAccounts sampleConfig pool' 0 := by
  obtain ⟨trace, hrun⟩ := login_run
  refine ⟨_, ?_, rate_accounts quietGateways_init hrun (fun p hp => ?_) 0⟩
  · rfl
  · exact ⟨_, List.mem_singleton.mp hp⟩

end Sample

end Chinwag.Gateway

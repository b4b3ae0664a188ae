import Mathlib.Tactic.Linarith
import Mathlib.Tactic.FieldSimp
import Mathlib.Tactic.Ring
import Mathlib.Algebra.Order.Ring.Rat
import Mathlib.Data.Rat.Cast.Order
import Mathlib.Data.Int.ConditionallyCompleteOrder
import Mathlib.Order.Lattice.Nat
import Mathlib.Algebra.BigOperators.Ring.Finset
import Chinwag.Lib.TokenBucket

/-!
# The distributed token bucket

The script that takes a token, over a hash that Redis may have dropped. Times are in milliseconds,
tokens and rates exact.
-/
namespace Chinwag.Gateway

open TokenBucket

/-- What `LoadConfig` lets through; the TTL is in nanoseconds. -/
structure Limits where
  rate : ℚ
  burst : ℤ
  ttl : ℤ
  rate_pos : 0 < rate
  burst_pos : 0 < burst
  ttl_pos : 0 < ttl

/-- A value that parsed and is positive, or the default. -/
def orDefault {K : Type} [LinearOrder K] [Zero K] (default : K) : Option K → K
  | none => default
  | some v => if 0 < v then v else default

theorem orDefault_pos {K : Type} [LinearOrder K] [Zero K] {default : K} (h : 0 < default) (v : Option K) :
    0 < orDefault default v := by
  cases v with
  | none => exact h
  | some v =>
    show 0 < if 0 < v then v else default
    split
    · assumption
    · exact h

/-- The limits of `LoadConfig`, from what the environment parses to. -/
def loadLimits (rate : Option ℚ) (burst ttl : Option ℤ) : Limits where
  rate := orDefault 20 rate
  burst := orDefault 60 burst
  ttl := orDefault 120000000000 ttl
  rate_pos := orDefault_pos (by decide) rate
  burst_pos := orDefault_pos (by decide) burst
  ttl_pos := orDefault_pos (by decide) ttl

/-- The whole seconds the script is given. -/
def Limits.ttlSeconds (l : Limits) : ℤ := l.ttl / 1000000000

/-- The two fields of the hash. -/
structure Fields where
  tokens : Option ℚ
  ts : Option ℤ

structure Key where
  fields : Fields
  expireAt : Option ℤ

/-- `HMGET`; a key past its instant reads as absent. -/
def hmget (key : Option Key) (now : ℤ) : Fields :=
  match key with
  | none => ⟨none, none⟩
  | some k =>
    match k.expireAt with
    | none => k.fields
    | some t => if now ≤ t then k.fields else ⟨none, none⟩

/-- `EXPIRE`: seconds that are not positive delete the key. -/
def expire (fields : Fields) (now seconds : ℤ) : Option Key :=
  if seconds ≤ 0 then none else some ⟨fields, some (now + 1000 * seconds)⟩

/-- The tokens after the refill. -/
def refilled (rate burst : ℚ) (now : ℤ) (v : Fields) : ℚ :=
  let tokens := v.tokens.getD burst
  let ts := v.ts.getD now
  let refill := ((now - ts : ℤ) : ℚ) / 1000 * rate
  min burst (tokens + refill)

/-- `allowTokensScript` up to its `HSET`. -/
def allowTokens (rate burst : ℚ) (now : ℤ) (v : Fields) : Bool × Fields :=
  let tokens := refilled rate burst now v
  if 1 ≤ tokens then (true, ⟨some (tokens - 1), some now⟩) else (false, ⟨some tokens, some now⟩)

/-- `Allow`; the script without expiry is the same without its `EXPIRE`. -/
def Limits.allow (l : Limits) (expiring : Bool) (now : ℤ) (key : Option Key) : Bool × Option Key :=
  let (allowed, fields) := allowTokens l.rate l.burst now (hmget key now)
  (allowed, if expiring then expire fields now l.ttlSeconds else some ⟨fields, none⟩)

section Calls

variable (l : Limits) (expiring : Bool) (t : ℕ → ℤ)

/-- The key before call `n`, where call `n` comes at `t n`. -/
def Limits.before : ℕ → Option Key
  | 0 => none
  | n + 1 => (l.allow expiring (t n) (Limits.before n)).2

def Limits.allowed (n : ℕ) : Bool := (l.allow expiring (t n) (l.before expiring t n)).1

/-- The calls from `i` to before `j` that were allowed. -/
def Limits.allowedCount (i j : ℕ) : ℕ := ((Finset.Ico i j).filter fun k => l.allowed expiring t k = true).card

end Calls

variable {l : Limits} {t : ℕ → ℤ}

/-- The tokens that are there for call `n`. -/
def Limits.available (l : Limits) (expiring : Bool) (t : ℕ → ℤ) (n : ℕ) : ℚ :=
  refilled l.rate l.burst (t n) (hmget (l.before expiring t n) (t n))

theorem allowed_iff (expiring : Bool) (n : ℕ) : l.allowed expiring t n = true ↔ 1 ≤ l.available expiring t n := by
  have heq : l.allowed expiring t n =
      (allowTokens l.rate l.burst (t n) (hmget (l.before expiring t n) (t n))).1 := rfl
  rw [heq, allowTokens, Limits.available]
  split
  · exact iff_of_true rfl ‹_›
  · exact iff_of_false Bool.false_ne_true ‹_›

/-- A call takes one token or none. -/
def Limits.spent (l : Limits) (expiring : Bool) (t : ℕ → ℤ) (n : ℕ) : ℚ :=
  if l.allowed expiring t n = true then 1 else 0

/-- What call `n` leaves in the hash. -/
theorem allow_fields (expiring : Bool) (n : ℕ) :
    (allowTokens l.rate l.burst (t n) (hmget (l.before expiring t n) (t n))).2 =
      ⟨some (l.available expiring t n - l.spent expiring t n), some (t n)⟩ := by
  unfold Limits.spent
  by_cases h : 1 ≤ l.available expiring t n
  · rw [if_pos ((allowed_iff expiring n).mpr h)]
    unfold Limits.available at h ⊢
    unfold allowTokens
    rw [if_pos h]
  · rw [if_neg (mt (allowed_iff expiring n).mp h), sub_zero]
    unfold Limits.available at h ⊢
    unfold allowTokens
    rw [if_neg h]

theorem refilled_absent (rate burst : ℚ) (now : ℤ) : refilled rate burst now ⟨none, none⟩ = burst := by
  simp [refilled]

theorem refilled_present (rate burst tokens : ℚ) (now ts : ℤ) : refilled rate burst now ⟨some tokens, some ts⟩ =
    min burst (tokens + ((now - ts : ℤ) : ℚ) / 1000 * rate) := rfl

/-- Without expiry the tokens are a level that is cut off at the burst. -/
theorem available_eq_level (n : ℕ) : l.available false t n =
    level (l.burst : ℚ) (fun k => l.rate * (t k : ℚ) / 1000) (l.spent false t) n := by
  induction n with
  | zero => exact refilled_absent _ _ _
  | succ n ih =>
    have hkey : l.before false t (n + 1) =
        some ⟨⟨some (l.available false t n - l.spent false t n), some (t n)⟩, none⟩ := by
      rw [← allow_fields]
      rfl
    have hget : hmget (l.before false t (n + 1)) (t (n + 1)) =
        ⟨some (l.available false t n - l.spent false t n), some (t n)⟩ := by
      rw [hkey]
      rfl
    have hrefill : ((t (n + 1) - t n : ℤ) : ℚ) / 1000 * l.rate =
        l.rate * (t (n + 1) : ℚ) / 1000 - l.rate * (t n : ℚ) / 1000 := by
      push_cast
      ring
    rw [Limits.available, hget, refilled_present, hrefill, ih]
    rfl

theorem sum_spent (expiring : Bool) (i j : ℕ) :
    ∑ k ∈ Finset.Ico i j, l.spent expiring t k = (l.allowedCount expiring t i j : ℚ) := by
  unfold Limits.spent Limits.allowedCount
  rw [Finset.sum_boole]

theorem allowed_exactly_iff (n : ℕ) : l.allowed false t n = true ↔
    ∀ j ≤ n, (l.allowedCount false t j n : ℚ) + 1 ≤ l.burst + l.rate * ((t n - t j : ℤ) : ℚ) / 1000 := by
  have hsupply : ∀ j, l.rate * (t n : ℚ) / 1000 - l.rate * (t j : ℚ) / 1000 =
      l.rate * ((t n - t j : ℤ) : ℚ) / 1000 := by
    intro j
    push_cast
    ring
  rw [allowed_iff, available_eq_level, le_level_iff]
  refine forall_congr' fun j => forall_congr' fun hj => ?_
  rw [sum_spent, add_comm, hsupply]

/-- A call is allowed exactly if the calls since any earlier one, itself included, stay within the
burst and what the rate brought since then. -/
theorem bucket_exact (l : Limits) (t : ℕ → ℤ) :
    (∀ n, l.allowed false t n = true ↔
      ∀ j ≤ n, (l.allowedCount false t j n : ℚ) + 1 ≤ l.burst + l.rate * ((t n - t j : ℤ) : ℚ) / 1000) ∧
    ∀ i j, i ≤ j → l.allowed false t j = true →
      (l.allowedCount false t i (j + 1) : ℚ) ≤ l.burst + l.rate * ((t j - t i : ℤ) : ℚ) / 1000 := by
  refine ⟨allowed_exactly_iff, fun i j hij hj => ?_⟩
  have hlast : l.allowedCount false t i (j + 1) = l.allowedCount false t i j + 1 := by
    unfold Limits.allowedCount
    rw [← Finset.insert_Ico_right_eq_Ico_add_one hij, Finset.filter_insert, if_pos hj, Finset.card_insert_of_notMem]
    simp
  rw [hlast]
  exact_mod_cast (allowed_exactly_iff j).mp hj i hij

end Chinwag.Gateway

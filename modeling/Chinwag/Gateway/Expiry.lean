import Chinwag.Gateway.RateLimit

/-!
# What the expiry of a bucket gives away

A bucket that Redis has dropped starts full again. The same bucket kept would have been full as
well, if the time to live was long enough to fill an empty one.
-/
namespace Chinwag.Gateway

variable {l : Limits} {t : ℕ → ℤ} {n : ℕ}

/-- The bucket with expiry allows no call that the one without would deny. -/
def ExpiryHarmless (l : Limits) : Prop :=
  ∀ t : ℕ → ℤ, Monotone t → ∀ n, l.allowed true t n = true → l.allowed false t n = true

theorem before_succ (expiring : Bool) (n : ℕ) : l.before expiring t (n + 1) =
    if expiring then
      expire ⟨some (l.available expiring t n - l.spent expiring t n), some (t n)⟩ (t n) l.ttlSeconds
    else some ⟨⟨some (l.available expiring t n - l.spent expiring t n), some (t n)⟩, none⟩ := by
  rw [← allow_fields]
  rfl

theorem available_kept (n : ℕ) : l.available false t (n + 1) =
    min (l.burst : ℚ) (l.available false t n - l.spent false t n + ((t (n + 1) - t n : ℤ) : ℚ) / 1000 * l.rate) := by
  rw [Limits.available, before_succ]
  rfl

/-- With expiry the tokens are the same until the key is dropped. -/
theorem available_expiring (hseconds : 0 < l.ttlSeconds) (n : ℕ) : l.available true t (n + 1) =
    if t (n + 1) ≤ t n + 1000 * l.ttlSeconds then
      min (l.burst : ℚ) (l.available true t n - l.spent true t n + ((t (n + 1) - t n : ℤ) : ℚ) / 1000 * l.rate)
    else (l.burst : ℚ) := by
  rw [Limits.available, before_succ, if_pos rfl, expire, if_neg (Int.not_le.mpr hseconds), hmget]
  dsimp only
  split
  · rfl
  · exact refilled_absent _ _ _

theorem spent_le_available (hn : 0 ≤ l.available false t n) : 0 ≤ l.available false t n - l.spent false t n := by
  unfold Limits.spent
  split
  · rename_i h
    have hone := (allowed_iff false n).mp h
    linarith
  · linarith

theorem spent_congr (h : l.available true t n = l.available false t n) : l.spent true t n = l.spent false t n := by
  have hiff : l.allowed true t n = true ↔ l.allowed false t n = true := by
    rw [allowed_iff, allowed_iff, h]
  unfold Limits.spent
  rw [if_congr hiff rfl rfl]

/-- Where the time to live fills a bucket, both have the same tokens at every call. -/
theorem available_same (ht : Monotone t) (hseconds : 0 < l.ttlSeconds)
    (hfull : (l.burst : ℚ) ≤ l.rate * ((1000 * l.ttlSeconds + 1 : ℤ) : ℚ) / 1000) (n : ℕ) :
    l.available true t n = l.available false t n ∧ 0 ≤ l.available false t n := by
  have hburst : (0 : ℚ) < l.burst := by exact_mod_cast l.burst_pos
  induction n with
  | zero =>
    have hstart : ∀ expiring, l.available expiring t 0 = l.burst := fun _ => refilled_absent _ _ _
    rw [hstart, hstart]
    exact ⟨rfl, le_of_lt hburst⟩
  | succ n ih =>
    obtain ⟨hsame, hnonneg⟩ := ih
    have hrate := l.rate_pos
    have hleft := spent_le_available hnonneg
    have helapsed : (0 : ℚ) ≤ ((t (n + 1) - t n : ℤ) : ℚ) := by
      exact_mod_cast sub_nonneg.mpr (ht (Nat.le_succ n))
    have hgain : 0 ≤ ((t (n + 1) - t n : ℤ) : ℚ) / 1000 * l.rate :=
      mul_nonneg (div_nonneg helapsed (by norm_num)) (le_of_lt hrate)
    have hkept := available_kept (l := l) (t := t) n
    rw [available_expiring hseconds, hsame, spent_congr hsame, hkept]
    refine ⟨?_, le_min (le_of_lt hburst) (by linarith)⟩
    split
    · rfl
    · rename_i hlate
      -- the kept bucket is full by now
      have hlong : ((1000 * l.ttlSeconds + 1 : ℤ) : ℚ) ≤ ((t (n + 1) - t n : ℤ) : ℚ) := by
        exact_mod_cast (by omega : 1000 * l.ttlSeconds + 1 ≤ t (n + 1) - t n)
      have hrefill : (l.burst : ℚ) ≤ ((t (n + 1) - t n : ℤ) : ℚ) / 1000 * l.rate := by
        have hscaled := mul_le_mul_of_nonneg_left hlong (le_of_lt hrate)
        linarith
      exact (min_eq_left (by linarith)).symm

/-- If no call was denied, they all fit into the burst and what the rate brought. -/
theorem allowed_all (h : ∀ k ≤ n, l.allowed false t k = true) :
    (n : ℚ) + 1 ≤ l.burst + l.rate * ((t n - t 0 : ℤ) : ℚ) / 1000 := by
  have hcount : l.allowedCount false t 0 n = n := by
    have hfilter : ((Finset.Ico 0 n).filter fun k => l.allowed false t k = true) = Finset.Ico 0 n := by
      refine Finset.filter_true_of_mem fun k hk => h k ?_
      exact le_of_lt (Finset.mem_Ico.mp hk).2
    rw [Limits.allowedCount, hfilter, Nat.card_Ico, Nat.sub_zero]
  have hfirst := (allowed_exactly_iff n).mp (h n (Nat.le_refl n)) 0 (Nat.zero_le n)
  rwa [hcount] at hfirst

/-- A TTL below a second drops the key at once. -/
theorem available_dropped (hseconds : l.ttlSeconds ≤ 0) (n : ℕ) : l.available true t n = l.burst := by
  cases n with
  | zero => exact refilled_absent _ _ _
  | succ n =>
    rw [Limits.available, before_succ, if_pos rfl, expire, if_pos hseconds]
    exact refilled_absent _ _ _

/-- A burst, and another one as soon as the key has expired. -/
def twoBursts (l : Limits) (k : ℕ) : ℤ := if (k : ℤ) < l.burst then 0 else 1000 * l.ttlSeconds + 1

theorem monotone_twoBursts (hseconds : 0 < l.ttlSeconds) : Monotone (twoBursts l) := by
  intro i j hij
  unfold twoBursts
  split
  · split <;> omega
  · split
    · omega
    · exact le_refl _

theorem available_burst (hseconds : 0 < l.ttlSeconds) {first : ℕ}
    (hfirst : l.available true t first = l.burst) {k : ℕ} (hk : (k : ℤ) < l.burst)
    (hsame : ∀ j ≤ k, t (first + j) = t first) : l.available true t (first + k) = l.burst - k := by
  induction k with
  | zero => simpa using hfirst
  | succ k ih =>
    have hprevious := ih (by omega) fun j hj => hsame j (by omega)
    have hnow : t (first + (k + 1)) = t (first + k) := by
      rw [hsame (k + 1) (Nat.le_refl _), hsame k (by omega)]
    have hone : (1 : ℚ) ≤ l.burst - k := by
      have hle : (k : ℤ) + 1 ≤ l.burst := by omega
      have hcast : ((k : ℚ) + 1) ≤ l.burst := by exact_mod_cast hle
      linarith
    have hspent : l.spent true t (first + k) = 1 := by
      rw [Limits.spent, if_pos ((allowed_iff true _).mpr (hprevious ▸ hone))]
    have hstep := available_expiring (t := t) hseconds (first + k)
    rw [Nat.add_assoc, hnow, hprevious, hspent, if_pos (by omega), sub_self] at hstep
    have hgain : ((0 : ℤ) : ℚ) / 1000 * l.rate = 0 := by simp
    have hk0 : (0 : ℚ) ≤ k := Nat.cast_nonneg k
    rw [hstep, hgain, add_zero, min_eq_right (by linarith)]
    push_cast
    ring

theorem allowed_burst (hseconds : 0 < l.ttlSeconds) {first : ℕ} (hfirst : l.available true t first = l.burst) {k : ℕ}
    (hk : (k : ℤ) < l.burst) (hsame : ∀ j ≤ k, t (first + j) = t first) :
    l.allowed true t (first + k) = true := by
  have hle : (k : ℚ) + 1 ≤ l.burst := by exact_mod_cast (by omega : (k : ℤ) + 1 ≤ l.burst)
  rw [allowed_iff, available_burst hseconds hfirst hk hsame]
  linarith

/-- With expiry both bursts are allowed. -/
theorem allowed_twoBursts (hseconds : 0 < l.ttlSeconds) {b k : ℕ} (hb : l.burst = b) (hk : k < 2 * b) :
    l.allowed true (twoBursts l) k = true := by
  have hpos := l.burst_pos
  have hearly : ∀ j, j < b → twoBursts l j = 0 := fun j hj => if_pos (by omega)
  have hlate : ∀ j, b ≤ j → twoBursts l j = 1000 * l.ttlSeconds + 1 := fun j hj => if_neg (by omega)
  rcases Nat.lt_or_ge k b with hlt | hge
  · have hfirst : l.available true (twoBursts l) 0 = l.burst := refilled_absent _ _ _
    have hallowed := allowed_burst hseconds hfirst (by omega : (k : ℤ) < l.burst) fun j hj => by
      rw [Nat.zero_add, hearly j (by omega), hearly 0 (by omega)]
    rwa [Nat.zero_add] at hallowed
  · obtain ⟨m, rfl⟩ : ∃ m, b = m + 1 := Nat.exists_eq_succ_of_ne_zero (by omega)
    have hfirst : l.available true (twoBursts l) (m + 1) = l.burst := by
      rw [available_expiring hseconds, hlate _ (Nat.le_refl _), hearly m (by omega), if_neg (by omega)]
    obtain ⟨j, rfl⟩ := Nat.exists_eq_add_of_le hge
    refine allowed_burst hseconds hfirst (by omega) fun i _ => ?_
    rw [hlate _ (by omega), hlate _ (Nat.le_refl _)]

/-- A key that is dropped at once is no limit. -/
theorem not_harmless_of_dropped (hseconds : l.ttlSeconds ≤ 0) : ¬ ExpiryHarmless l := by
  intro h
  have hpos := l.burst_pos
  have hall : ∀ k ≤ l.burst.toNat, l.allowed false (fun _ => 0) k = true := by
    intro k _
    refine h _ monotone_const k ((allowed_iff true k).mpr ?_)
    rw [available_dropped hseconds]
    exact_mod_cast hpos
  have hfit := allowed_all hall
  have hcast : ((l.burst.toNat : ℕ) : ℚ) = l.burst := by
    exact_mod_cast Int.toNat_of_nonneg (le_of_lt hpos)
  rw [sub_self, hcast] at hfit
  norm_num at hfit

/-- Ten milliseconds are accepted, and the key never lasts from one call to the next. -/
def shortLived : Limits := loadLimits none none (some 10000000)

end Chinwag.Gateway

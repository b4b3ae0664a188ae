import Chinwag.Gateway.RateLimit
import Chinwag.Lib.Transition

/-!
# The bucket under clocks that disagree

Each replica sends the script its own clock; the key expires by the clock of Redis. What is refilled
is measured from whatever time the last caller wrote.
-/
namespace Chinwag.Gateway

open Transition

/-- The bucket of one address, with the clock that Redis expires it by. -/
structure Bucket where
  clock : ℤ
  key : Option Key

def Bucket.fields (b : Bucket) : Fields := hmget b.key b.clock

/-- `Allow` on a replica whose clock says `now`. -/
def Limits.allowAt (l : Limits) (now : ℤ) (b : Bucket) : Bool × Bucket :=
  let (allowed, fields) := allowTokens l.rate l.burst now b.fields
  (allowed, { b with key := expire fields b.clock l.ttlSeconds })

inductive BucketEvent where
  | allow (now : ℤ) (allowed : Bool)
  | tick

inductive BucketStep (l : Limits) : Bucket → BucketEvent → Bucket → Prop where
  | allow (b : Bucket) (now : ℤ) : BucketStep l b (.allow now (l.allowAt now b).1) (l.allowAt now b).2
  | tick (b : Bucket) (clock : ℤ) (h : b.clock ≤ clock) : BucketStep l b .tick { b with clock := clock }

/-- No key yet. -/
def Bucket.fresh (clock : ℤ) : Bucket := ⟨clock, none⟩

/-- A key holds what the script has written into it, and only a TTL of a second or more leaves one. -/
def Bucket.Written (l : Limits) (b : Bucket) : Prop :=
  ∀ k, b.key = some k → 0 < l.ttlSeconds ∧ ∃ tokens ts, k.fields = ⟨some tokens, some ts⟩

def Bucket.InRange (l : Limits) (b : Bucket) : Prop :=
  ∀ tokens, b.fields.tokens = some tokens → 0 ≤ tokens ∧ tokens ≤ l.burst

/-- A call lowers the tokens by the one it takes, if it takes one. -/
def NotLowered (b : Bucket) : BucketEvent → Bucket → Prop
  | .tick, _ => True
  | .allow _ allowed, b' => ∀ tokens tokens', b.fields.tokens = some tokens → b'.fields.tokens = some tokens' →
      tokens - (if allowed then 1 else 0) ≤ tokens'

def TokensKept (l : Limits) (b : Bucket) (e : BucketEvent) (b' : Bucket) : Prop :=
  b'.InRange l ∧ NotLowered b e b'

/-- A call comes with a clock that is not behind the time it finds. -/
def ClockAhead (b : Bucket) : BucketEvent → Prop
  | .tick => True
  | .allow now _ => ∀ ts, b.fields.ts = some ts → ts ≤ now

variable {l : Limits} {b b' : Bucket} {e : BucketEvent}

theorem hmget_eq (key : Option Key) (now : ℤ) : hmget key now = ⟨none, none⟩ ∨
    ∃ k, key = some k ∧ hmget key now = k.fields := by
  unfold hmget
  cases key with
  | none => exact .inl rfl
  | some k =>
    dsimp only
    split
    · exact .inr ⟨k, rfl, rfl⟩
    · split
      · exact .inr ⟨k, rfl, rfl⟩
      · exact .inl rfl

/-- A key that is past its instant at one time is past it later. -/
theorem hmget_later (key : Option Key) {now later : ℤ} (h : now ≤ later) :
    hmget key later = ⟨none, none⟩ ∨ hmget key later = hmget key now := by
  unfold hmget
  cases key with
  | none => exact .inl rfl
  | some k =>
    dsimp only
    split
    · exact .inr rfl
    · split
      · rename_i hlater
        rw [if_pos (le_trans h hlater)]
        exact .inr rfl
      · exact .inl rfl

theorem Bucket.Written.fields (h : b.Written l) : b.fields = ⟨none, none⟩ ∨
    0 < l.ttlSeconds ∧ ∃ tokens ts, b.fields = ⟨some tokens, some ts⟩ := by
  rcases hmget_eq b.key b.clock with hnone | ⟨k, hk, heq⟩
  · exact .inl hnone
  · rw [Bucket.fields, heq]
    exact .inr (h k hk)

theorem allowTokens_fields (rate burst : ℚ) (now : ℤ) (v : Fields) : (allowTokens rate burst now v).2 =
    ⟨some (refilled rate burst now v - if (allowTokens rate burst now v).1 then 1 else 0), some now⟩ := by
  unfold allowTokens
  dsimp only
  split
  · rfl
  · rw [if_neg Bool.false_ne_true, sub_zero]

theorem allowTokens_fst (rate burst : ℚ) (now : ℤ) (v : Fields) :
    (allowTokens rate burst now v).1 = true ↔ 1 ≤ refilled rate burst now v := by
  unfold allowTokens
  dsimp only
  split
  · exact iff_of_true rfl ‹_›
  · exact iff_of_false Bool.false_ne_true ‹_›

theorem fields_expire (v : Fields) (clock seconds : ℤ) :
    hmget (expire v clock seconds) clock = if seconds ≤ 0 then ⟨none, none⟩ else v := by
  unfold expire
  split
  · rfl
  · show (if clock ≤ clock + 1000 * seconds then v else _) = v
    rw [if_pos (by omega)]

/-- What a call leaves behind. -/
theorem fields_allowAt (now : ℤ) (b : Bucket) : (l.allowAt now b).2.fields =
    if l.ttlSeconds ≤ 0 then ⟨none, none⟩ else
      ⟨some (refilled l.rate l.burst now b.fields - if (l.allowAt now b).1 then 1 else 0), some now⟩ := by
  have heq : (l.allowAt now b).2.fields =
      hmget (expire (allowTokens l.rate l.burst now b.fields).2 b.clock l.ttlSeconds) b.clock := rfl
  rw [heq, fields_expire, allowTokens_fields]
  rfl

theorem written_step (h : b.Written l) (hst : BucketStep l b e b') : b'.Written l := by
  cases hst with
  | tick => exact h
  | allow now =>
    intro k hk
    have heq : (l.allowAt now b).2.key = expire (allowTokens l.rate l.burst now b.fields).2 b.clock l.ttlSeconds := rfl
    rw [heq, expire] at hk
    split at hk
    · cases hk
    · rename_i hseconds
      cases hk
      exact ⟨Int.not_le.mp hseconds, _, _, allowTokens_fields _ _ _ _⟩

theorem kept_tick (hr : b.InRange l) {clock : ℤ} (h : b.clock ≤ clock) :
    Bucket.InRange l { b with clock := clock } := by
  intro tokens htokens
  rcases hmget_later b.key h with hnone | hsame
  · have hfields : Bucket.fields { b with clock := clock } = ⟨none, none⟩ := hnone
    rw [hfields] at htokens
    cases htokens
  · have hfields : Bucket.fields { b with clock := clock } = b.fields := hsame
    rw [hfields] at htokens
    exact hr tokens htokens

/-- The refill is not negative where the clock is ahead, and then no call takes the tokens out of
their range or lowers them otherwise. -/
theorem kept_of_ahead (hr : b.InRange l) {now : ℤ} (h : ClockAhead b (.allow now (l.allowAt now b).1)) :
    TokensKept l b (.allow now (l.allowAt now b).1) (l.allowAt now b).2 := by
  have hburst : (0 : ℚ) < l.burst := by exact_mod_cast l.burst_pos
  have helapsed : (0 : ℚ) ≤ ((now - b.fields.ts.getD now : ℤ) : ℚ) := by
    cases hts : b.fields.ts with
    | none => simp
    | some ts => exact_mod_cast sub_nonneg.mpr (h ts hts)
  have hgain : 0 ≤ ((now - b.fields.ts.getD now : ℤ) : ℚ) / 1000 * l.rate :=
    mul_nonneg (div_nonneg helapsed (by norm_num)) (le_of_lt l.rate_pos)
  have hbefore : 0 ≤ b.fields.tokens.getD l.burst ∧ b.fields.tokens.getD l.burst ≤ (l.burst : ℚ) := by
    cases htokens : b.fields.tokens with
    | none => exact ⟨le_of_lt hburst, le_refl _⟩
    | some tokens => exact hr tokens htokens
  have hrefilled : b.fields.tokens.getD l.burst ≤ refilled l.rate l.burst now b.fields :=
    le_min hbefore.2 (by linarith)
  have hcapped : refilled l.rate l.burst now b.fields ≤ l.burst := min_le_left _ _
  have hspent : (if (l.allowAt now b).1 then 1 else 0) ≤ refilled l.rate l.burst now b.fields := by
    split
    · exact (allowTokens_fst _ _ _ _).mp ‹_›
    · linarith [hbefore.1]
  have hspent0 : (0 : ℚ) ≤ if (l.allowAt now b).1 then 1 else 0 := by
    split <;> norm_num
  constructor
  · intro tokens htokens
    rw [fields_allowAt] at htokens
    split at htokens
    · cases htokens
    · cases htokens
      constructor <;> linarith
  · intro tokens tokens' htokens htokens'
    rw [fields_allowAt] at htokens'
    split at htokens'
    · cases htokens'
    · cases htokens'
      rw [htokens] at hrefilled
      exact sub_le_sub_right hrefilled _

/-- A clock that is behind takes tokens away. -/
theorem ahead_of_kept (hw : b.Written l) {now : ℤ}
    (h : TokensKept l b (.allow now (l.allowAt now b).1) (l.allowAt now b).2) :
    ClockAhead b (.allow now (l.allowAt now b).1) := by
  intro ts hts
  by_contra hbehind
  rcases hw.fields with hnone | ⟨hseconds, tokens, ts', hfields⟩
  · rw [hnone] at hts
    cases hts
  · rw [hfields] at hts
    obtain rfl : ts' = ts := Option.some.inj hts
    have hloss : ((now - ts' : ℤ) : ℚ) / 1000 * l.rate < 0 := by
      have helapsed : ((now - ts' : ℤ) : ℚ) < 0 := by exact_mod_cast sub_neg.mpr (Int.not_le.mp hbehind)
      exact mul_neg_of_neg_of_pos (by linarith) l.rate_pos
    have hless : refilled l.rate l.burst now b.fields < tokens := by
      rw [hfields, refilled_present]
      exact lt_of_le_of_lt (min_le_right _ _) (by linarith)
    have hkept := h.2 tokens _ (by rw [hfields]) (by rw [fields_allowAt, if_neg (Int.not_le.mpr hseconds)])
    linarith

theorem kept_iff_ahead (hw : b.Written l) (hr : b.InRange l) (hst : BucketStep l b e b') :
    TokensKept l b e b' ↔ ClockAhead b e := by
  cases hst with
  | tick clock h => exact iff_of_true ⟨kept_tick hr h, trivial⟩ trivial
  | allow now => exact ⟨ahead_of_kept hw, kept_of_ahead hr⟩

/-- The tokens are kept in a whole run of any replicas exactly if no call comes with a clock that is
behind the time stored. -/
theorem tokens_kept_iff (l : Limits) (clock : ℤ) (trace : List BucketEvent) (b : Bucket) :
    (∀ before e after x y, trace = before ++ e :: after → Run (BucketStep l) (.fresh clock) before x →
      BucketStep l x e y → Run (BucketStep l) y after b → TokensKept l x e y) ↔
    ∀ before e after x y, trace = before ++ e :: after → Run (BucketStep l) (.fresh clock) before x →
      BucketStep l x e y → Run (BucketStep l) y after b → ClockAhead x e := by
  have hwritten : (Bucket.fresh clock).Written l := fun k hk => nomatch hk
  have hrange : (Bucket.fresh clock).InRange l := fun tokens htokens => nomatch htokens
  have hinv : ∀ x e y, x.Written l → BucketStep l x e y → y.Written l := fun _ _ _ => written_step
  have hkept : ∀ x e y, x.Written l → x.InRange l → BucketStep l x e y →
      (TokensKept l x e y ↔ ClockAhead x e) := fun _ _ _ => kept_iff_ahead
  exact Run.always_kept_iff hinv hkept (fun _ _ _ h => h.1) hwritten hrange

def skewedLimits : Limits := loadLimits none none none

/-- The bucket after a call at 1000 ms. -/
def skewedBucket : Bucket := (skewedLimits.allowAt 1000 (.fresh 0)).2

/-- A second replica, a second behind, takes twenty tokens and the one it consumes. -/
theorem skewed_clock_drains : ∃ b, Run (BucketStep skewedLimits) (.fresh 0) [.allow 1000 true, .allow 0 true] b ∧
    ¬ ∀ before e after x y, [BucketEvent.allow 1000 true, .allow 0 true] = before ++ e :: after →
      Run (BucketStep skewedLimits) (.fresh 0) before x → BucketStep skewedLimits x e y →
      Run (BucketStep skewedLimits) y after b → TokensKept skewedLimits x e y := by
  have hallowed₁ : (skewedLimits.allowAt 1000 (.fresh 0)).1 = true := by decide +kernel
  have hallowed₂ : (skewedLimits.allowAt 0 skewedBucket).1 = true := by decide +kernel
  have hfirst : BucketStep skewedLimits (.fresh 0) (.allow 1000 true) skewedBucket := by
    rw [← hallowed₁]
    exact .allow (.fresh 0) 1000
  have hsecond : BucketStep skewedLimits skewedBucket (.allow 0 true) (skewedLimits.allowAt 0 skewedBucket).2 := by
    rw [← hallowed₂]
    exact .allow skewedBucket 0
  refine ⟨(skewedLimits.allowAt 0 skewedBucket).2, .cons hfirst (.single hsecond), fun h => ?_⟩
  have hkept := h [_] _ [] _ _ rfl (.single hfirst) hsecond (.nil _)
  have hstored : skewedBucket.fields.tokens = some 59 := by decide +kernel
  have hleft : (skewedLimits.allowAt 0 skewedBucket).2.fields.tokens = some 38 := by decide +kernel
  have hlowered := hkept.2 59 38 hstored hleft
  norm_num at hlowered

end Chinwag.Gateway

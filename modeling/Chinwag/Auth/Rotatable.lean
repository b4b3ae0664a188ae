import Chinwag.Auth.RotationSafety

/-!
# The tokens that can be rotated

A minted token can be rotated exactly when its record is active and live and its
lineage is not revoked. Each such rotation is a step of the system.
-/
namespace Chinwag.Auth

open Redis Script Program Transition

variable {r : RefreshConfig} {s : Sessions} {c : RefreshTokenClaims}

/-- Some call of `RotateRefreshToken` with this token would return a new one. -/
def Rotatable (r : RefreshConfig) (s : Sessions) (c : RefreshTokenClaims) : Prop :=
  ∃ key newJti now rot, (rotateRefreshToken r key c newJti now s.redis).1 = .ok rot

theorem rotatable_of_accepts (h : SessionInv r s) {cur lin : Fields} {members : List String}
    {created : Int} (ha : Accepts r s c cur lin members created) : Rotatable r s c := by
  refine ⟨some "", c.jti, 0, ?_⟩
  rw [rotate_accepted h ha "" (hashAt_of_get (get_set_self _ _ _ _ ?_))]
  · exact ⟨_, rfl⟩
  · intro t ht
    cases ht
    omega

theorem rotatable_iff (h : SessionInv r s) (hc : c ∈ s.minted) :
    Rotatable r s c ↔ ∃ cur lin members created, Accepts r s c cur lin members created := by
  constructor
  · rintro ⟨key, newJti, now, rot, hrot⟩
    cases key with
    | none => cases hrot
    | some kid =>
    rw [rotate_eq h hc] at hrot
    cases rotation_cases h hc newJti now with
    | refused reply hr hrun =>
      obtain ⟨e, he, -⟩ := rotationResult_refusal hr ⟨c.subject, newJti, c.sid, c.jkt⟩
      rw [hrun, he] at hrot
      cases hrot
    | reused reply hr hrun =>
      rw [hrun] at hrot
      rcases hr with rfl | ⟨e, rfl⟩
      · simp [rotationResult] at hrot
      · cases hrot
    | accepted cur lin members created ha => exact ⟨cur, lin, members, created, ha⟩
  · rintro ⟨cur, lin, members, created, ha⟩
    exact rotatable_of_accepts h ha

/-- A token that can be rotated later on has been rotatable, with the same record, since it
was minted. -/
theorem rotatable_before {t : Sessions} (hs : SessionInv r s) (ht : SessionInv r t) (hl : Later r s t)
    (hc : c ∈ s.minted) (hrot : Rotatable r t c) :
    ∃ cur lin members created x, Accepts r s c cur lin members created ∧
      s.redis.data (r.tokenKey c.jti.text) = some ⟨.hash cur, some x⟩ ∧ t.redis.now ≤ x ∧
      ¬ Revoked r t c.sid.text := by
  obtain ⟨cur, lin, members, created, ha⟩ := (rotatable_iff ht (hl.minted c hc)).mp hrot
  obtain ⟨x, hd, hk, hx⟩ := ha.token
  have hsame : s.redis.data (r.tokenKey c.jti.text) = some ⟨.hash cur, some x⟩ := by
    rcases hl.tokens c hc with he | he
    · rw [← he]
      exact hd
    · exact absurd he ha.not_spent
  have hnr : ¬ Revoked r s c.sid.text := fun hr => ha.not_revoked (hl.revoked _ hr)
  obtain ⟨lin', ms', created', ha'⟩ :=
    accepts_of_active hs hc hsame ha.active (Nat.le_trans hl.now hx) hnr
  exact ⟨cur, lin', ms', created', x, ha', hsame, hx, ha.not_revoked⟩

/-- An accepted token is rotated to the one drawn for it. -/
theorem rotate_fresh (h : SessionInv r s) {cur lin : Fields} {members : List String} {created : Int}
    (ha : Accepts r s c cur lin members created) {newJti : Uuid} (hj : FreshJti s newJti) (kid : String) (now : Int) :
    rotateRefreshToken r (some kid) c newJti now s.redis =
      (.ok ⟨⟨c.subject, newJti, c.sid, c.jkt⟩, newJti, c.sid.text, c.subject⟩,
        rotated r s.redis c newJti now created cur ∅ lin members) := by
  have hempty : ∀ e, (s.redis.set (r.tokenKey c.jti.text) e).hashAt (r.tokenKey newJti.text) = .ok ∅ :=
    fun e => hashAt_of_data_none
      (by simpa [Server.data_set, (hj c ha.minted).symm] using h.token_fresh hj)
  exact rotate_accepted h ha kid (hempty _)

section Effects

variable {t : Sessions}

/-- What a call of the environment can be: nothing, an issue, a rotation, a detected reuse, or time. -/
inductive EnvEffect (r : RefreshConfig) (s : Sessions) : Event → Sessions → Prop where
  | same (e : Event) : EnvEffect r s e s
  | issued {e : Event} {sid jti : Uuid} {user jkt : String} {now : Int} (hjti : FreshJti s jti)
      (hsid : FreshSid r s sid) : EnvEffect r s e ⟨issued r s.redis sid jti user jkt now, s.minted ++ [⟨user, jti, sid, jkt⟩]⟩
  | rotated {e : Event} {c : RefreshTokenClaims} {cur lin : Fields} {members : List String} {created : Int}
      (ha : Accepts r s c cur lin members created) {newJti : Uuid} (hjti : FreshJti s newJti) (now : Int) :
      EnvEffect r s e ⟨rotated r s.redis c newJti now created cur ∅ lin members,
        s.minted ++ [⟨c.subject, newJti, c.sid, c.jkt⟩]⟩
  | reused {e : Event} {c : RefreshTokenClaims} (hc : c ∈ s.minted) :
      EnvEffect r s e ⟨(exec (revokeReused r c.sid.text (some c.subject)) s.redis).2, s.minted⟩
  | passed (ms : Nat) : EnvEffect r s (.pass ms) ⟨s.redis.after ms, s.minted⟩

theorem envEffect (hinv : SessionInv r s) {e : Event} (he : Env r s e t) : EnvEffect r s e t := by
  have hnone : EnvEffect r s e ⟨s.redis, s.minted ++ []⟩ := by
    rw [List.append_nil]
    exact .same e
  cases he with
  | @issue key subject jkt sid jti drawn now result redis hjti hsid hrun =>
    unfold issueRefreshToken at hrun
    cases key with
    | none =>
      cases hrun
      exact hnone
    | some kid =>
    cases hsign : signRefreshToken subject jti (sid.getD drawn) jkt with
    | none =>
      simp only [hsign] at hrun
      cases hrun
      exact hnone
    | some token =>
      obtain ⟨-, rfl⟩ := sign_eq_some hsign
      simp only [hsign] at hrun
      rw [exec_issue r _ _ _ _ _ _ (hinv.token_fresh hjti) hsid.lineage hsid.members (hinv.userIndex _)
        hinv.sessionsIndex] at hrun
      cases hrun
      exact .issued hjti hsid
  | @rotate key c newJti now result redis hc hj hrun =>
    cases key with
    | none =>
      cases hrun
      exact hnone
    | some kid =>
    cases rotation_cases hinv hc newJti now with
    | refused reply hr hrot =>
      rw [rotate_eq hinv hc, hrot] at hrun
      obtain ⟨e, he, -⟩ := rotationResult_refusal hr ⟨c.subject, newJti, c.sid, c.jkt⟩
      rw [he] at hrun
      cases hrun
      exact hnone
    | reused reply hr hrot =>
      rw [rotate_eq hinv hc, hrot] at hrun
      obtain ⟨e, he⟩ : ∃ e, rotationResult ⟨c.subject, newJti, c.sid, c.jkt⟩ reply = .error e := by
        rcases hr with rfl | ⟨e, rfl⟩
        · exact ⟨.refreshTokenReused, by simp [rotationResult]⟩
        · exact ⟨_, rfl⟩
      rw [he] at hrun
      cases hrun
      have hreused : EnvEffect r s (.rotate c (.error e)) _ := .reused hc
      simpa [rotatedTokens] using hreused
    | accepted cur lin members created ha =>
      rw [rotate_fresh hinv ha hj kid now] at hrun
      cases hrun
      exact .rotated ha hj now
  | pass ms => exact .passed ms

end Effects

end Chinwag.Auth

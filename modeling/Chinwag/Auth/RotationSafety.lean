import Chinwag.Auth.RevokeThreads

/-!
# Rotation safety and the precedence of revocation

Over whole runs of the session system: one active token a lineage, one accepted
rotation a token, and none in a lineage after a detected reuse or after the first
write of a revocation.
-/
namespace Chinwag.Auth

open Redis Script Program Transition

variable {r : RefreshConfig} {pool pool' : SessionPool} {trace : List SessionLabel}

/-- The session invariant and the safety of every revocation in progress. -/
abbrev SessionGood (r : RefreshConfig) (pool : SessionPool) : Prop :=
  Good (sessionSemantics r) (sessionContract r) (fun _ _ _ => True) pool

theorem inv_init {s : Server} (h : ∀ suffix, s.data (r.refreshTokenPrefix ++ suffix) = none) :
    SessionInv r ⟨s, []⟩ := by
  have hm : ∀ sid, s.data (r.lineageMembersKey sid) = none := fun sid => h _
  have hu : ∀ user, s.data (r.userKey user) = none := fun user => h _
  constructor
  · simp
  · simp
  · intro sid ms x hms
    rw [hm] at hms
    cases hms
  · intro u hne
    exact absurd (h u.text) hne
  · exact fun user => Or.inl (hu user)
  · exact Or.inl (h _)
  · intro user sid hsid
    simp [indexOf, hu] at hsid
  · simp
  · simp
  · simp
  · simp

theorem good_init (h : SessionInit r pool) : SessionGood r pool := by
  obtain ⟨⟨redis, minted⟩, threads⟩ := pool
  obtain ⟨hdata, rfl, rfl⟩ := h
  exact ⟨inv_init hdata, by simp⟩

theorem good_step (hg : SessionGood r pool) {l : SessionLabel} (h : SessionStep r pool l pool') :
    SessionGood r pool' := by
  refine hg.step sessionContract_sound (fun _ _ _ _ _ _ => trivial) ?_ h
  rintro i _ s ⟨sid, rfl⟩ _
  exact (safe_revokeLineage sid).mono fun _ _ _ => trivial

theorem later_step (hg : SessionGood r pool) {l : SessionLabel} (h : SessionStep r pool l pool') :
    Later r pool.shared pool'.shared := by
  cases h with
  | cmd hi hexec => exact exec_keeps hg.shared (hg.guar sessionContract_sound hi) hexec
  | spawn => exact .refl _
  | env he => exact (env_keeps hg.shared he).2

theorem good_run (hg : SessionGood r pool) (h : Run (SessionStep r) pool trace pool') :
    SessionGood r pool' := h.invariant (fun _ _ _ hp hs => good_step hp hs) hg

theorem later_run (hg : SessionGood r pool) (h : Run (SessionStep r) pool trace pool') :
    Later r pool.shared pool'.shared := by
  induction h with
  | nil => exact .refl _
  | cons hs _ ih => exact (later_step hg hs).trans (ih (good_step hg hs))

theorem good_of_reachable (h : Reachable (SessionStep r) (SessionInit r) pool) : SessionGood r pool :=
  h.invariant (fun _ hp => good_init hp) fun _ _ _ hp hs => good_step hp hs

theorem step_rotate (hg : SessionGood r pool) {c : RefreshTokenClaims}
    {result : Except AuthError RotatedRefreshToken}
    (h : SessionStep r pool (.env (.rotate c result)) pool') :
    c ∈ pool.shared.minted ∧ RotationEffect r pool.shared c result pool'.shared := by
  cases h with
  | env he =>
    cases he with
    | rotate hc hj hrun => exact ⟨hc, rotate_effect hg.shared hc hj hrun⟩

/-- A call of `RotateRefreshToken` with some token of the lineage that returned a new one. -/
def RotatedIn (sid : Uuid) (l : SessionLabel) : Prop :=
  ∃ c rot, c.sid = sid ∧ l = .env (.rotate c (.ok rot))

/-- A call with the token of this identifier that returned a new one. -/
def RotatedOk (jti : Uuid) (l : SessionLabel) : Prop :=
  ∃ c rot, c.jti = jti ∧ l = .env (.rotate c (.ok rot))

/-- A revoked lineage accepts no rotation again, whatever is still running. -/
theorem not_rotatedIn_of_revoked {sid : Uuid} (hg : SessionGood r pool)
    (hr : Revoked r pool.shared sid.text) (h : Run (SessionStep r) pool trace pool') :
    ∀ l ∈ trace, ¬ RotatedIn sid l := by
  refine h.absent (fun p => SessionGood r p ∧ Revoked r p.shared sid.text) ?_ ?_ ⟨hg, hr⟩
  · rintro p l p' ⟨hg, hr⟩ hs
    exact ⟨good_step hg hs, (later_step hg hs).revoked _ hr⟩
  · rintro p l p' ⟨hg, hr⟩ hs ⟨c, rot, rfl, rfl⟩
    exact ((step_rotate hg hs).2.ok rot rfl).2.1 hr

/-- A spent token is never accepted again. -/
theorem not_rotatedOk_of_spent {c : RefreshTokenClaims} (hg : SessionGood r pool)
    (hc : c ∈ pool.shared.minted) (hs : Spent r pool.shared c.jti)
    (h : Run (SessionStep r) pool trace pool') : ∀ l ∈ trace, ¬ RotatedOk c.jti l := by
  refine h.absent (fun p => SessionGood r p ∧ c ∈ p.shared.minted ∧ Spent r p.shared c.jti)
    ?_ ?_ ⟨hg, hc, hs⟩
  · rintro p l p' ⟨hg, hc, hs⟩ hstep
    have hl := later_step hg hstep
    exact ⟨good_step hg hstep, hl.minted c hc, hl.spent hc hs⟩
  · rintro p l p' ⟨hg, hc, hs⟩ hstep ⟨c', rot, hj, rfl⟩
    rw [← hj] at hs
    exact ((step_rotate hg hstep).2.ok rot rfl).1 hs

/-- A stored token record of the lineage with status active, expired or not. -/
def ActiveRecord (r : RefreshConfig) (s : Sessions) (sid : String) (u : Uuid) : Prop :=
  ∃ f x, s.redis.data (r.tokenKey u.text) = some ⟨.hash f, x⟩ ∧
    f.lookup "status" = some "active" ∧ f.lookup "sid" = some sid

theorem ActiveRecord.minted {s : Sessions} (h : SessionInv r s) {sid : String} {u : Uuid}
    (ha : ActiveRecord r s sid u) : ∃ c ∈ s.minted, c.jti = u ∧ c.sid.text = sid ∧ Active r s c.jti := by
  obtain ⟨f, x, hd, hs, hsid⟩ := ha
  obtain ⟨c, hc, rfl⟩ := h.records u (by simp [hd])
  refine ⟨c, hc, rfl, ?_, f, x, hd, hs⟩
  rcases h.tokens c hc with ⟨g, y, hg, hr⟩ | ⟨g, t, hg, hk⟩
  · cases hd.symm.trans hg
    rw [hs] at hr
    simp at hr
  · cases hd.symm.trans hg
    rw [hk.sid] at hsid
    exact Option.some.inj hsid

/-- One active record a lineage, one accepted rotation a token, none after a reuse. -/
structure RotationSafe (r : RefreshConfig) (trace : List SessionLabel) (s : Sessions) : Prop where
  single : ∀ sid u v, ActiveRecord r s sid u → ActiveRecord r s sid v → u = v
  once : ∀ before after jti l, trace = before ++ l :: after → RotatedOk jti l →
    ∀ l' ∈ after, ¬ RotatedOk jti l'
  closed : ∀ before after c, trace = before ++ .env (.rotate c (.error .refreshTokenReused)) :: after →
    ∀ l' ∈ after, ¬ RotatedIn c.sid l'

theorem rotation_safety (h : SessionInit r pool) (hrun : Run (SessionStep r) pool trace pool') :
    RotationSafe r trace pool'.shared := by
  have hg := good_init h
  refine ⟨fun sid u v hu hv => ?_, fun before after jti l he hl => ?_, fun before after c he => ?_⟩
  · have hinv := (good_run hg hrun).shared
    obtain ⟨c, hc, rfl, hs, ha⟩ := hu.minted hinv
    obtain ⟨c', hc', rfl, hs', ha'⟩ := hv.minted hinv
    have hsid : c.sid = c'.sid := Uuid.ext_text (hs.trans hs'.symm)
    rw [hinv.single c hc c' hc' hsid ha ha']
  · obtain ⟨c, rot, rfl, rfl⟩ := hl
    rw [he] at hrun
    obtain ⟨p, p', h₁, hs, h₂⟩ := hrun.at_label
    have hp := good_run hg h₁
    obtain ⟨hc, heff⟩ := step_rotate hp hs
    exact not_rotatedOk_of_spent (good_step hp hs) (heff.later.minted c hc) (heff.ok rot rfl).2.2 h₂
  · rw [he] at hrun
    obtain ⟨p, p', h₁, hs, h₂⟩ := hrun.at_label
    have hp := good_run hg h₁
    exact not_rotatedIn_of_revoked (good_step hp hs) ((step_rotate hp hs).2.reused rfl) h₂

section Sample

def sampleConfig : RefreshConfig := ⟨"refresh:", 60, by decide⟩

def sampleSid : Uuid := ⟨"01890a5d-ac96-774b-bcce-b302099a8050", by decide⟩

def sampleJti : Uuid := ⟨"01890a5d-ac96-774b-bcce-b302099a8051", by decide⟩

def sampleJti' : Uuid := ⟨"01890a5d-ac96-774b-bcce-b302099a8052", by decide⟩

/-- The token of the first login. -/
def sampleToken : RefreshTokenClaims := ⟨"alice", sampleJti, sampleSid, "jkt"⟩

def sampleToken' : RefreshTokenClaims := ⟨"alice", sampleJti', sampleSid, "jkt"⟩

def samplePool : SessionPool := ⟨⟨⟨fun _ => none, 0⟩, []⟩, []⟩

/-- After the first login. -/
def sampleLogin : Sessions :=
  ⟨issued sampleConfig samplePool.shared.redis sampleSid sampleJti "alice" "jkt" 0,
    samplePool.shared.minted ++ [sampleToken]⟩

theorem samplePool_init : SessionInit sampleConfig samplePool := ⟨fun _ => rfl, rfl, rfl⟩

theorem samplePool_fresh (u : Uuid) : FreshSid sampleConfig samplePool.shared u :=
  ⟨fun _ hc => (by cases hc), rfl, rfl⟩

theorem sampleLogin_step :
    SessionStep sampleConfig samplePool (.env (.issue (.ok sampleToken))) ⟨sampleLogin, []⟩ :=
  .env (issue_step (good_init samplePool_init).shared (fun _ hc => by cases hc) (samplePool_fresh _)
    (by decide) 0)

theorem sampleLogin_good : SessionGood sampleConfig ⟨sampleLogin, []⟩ :=
  good_step (good_init samplePool_init) sampleLogin_step

theorem sampleLogin_accepts : ∃ cur lin members created,
    Accepts sampleConfig sampleLogin sampleToken cur lin members created :=
  accepts_issued (good_init samplePool_init).shared (fun _ hc => by cases hc) (samplePool_fresh _)
    (by decide)

theorem sampleLogin_fresh : FreshJti sampleLogin sampleJti' := by
  intro c hc
  rw [List.mem_singleton.mp hc]
  decide

end Sample

theorem rotation_safety_rotated : ∃ s : Sessions, sampleToken' ∈ s.minted ∧
    RotationSafe sampleConfig [.env (.issue (.ok sampleToken)),
      .env (.rotate sampleToken (.ok ⟨sampleToken', sampleJti', sampleSid.text, "alice"⟩))] s := by
  obtain ⟨cur, lin, members, created, ha⟩ := sampleLogin_accepts
  have hs : SessionStep sampleConfig ⟨sampleLogin, []⟩ _ ⟨_, []⟩ :=
    .env (rotate_step sampleLogin_good.shared ha sampleLogin_fresh 0)
  exact ⟨_, List.mem_append_right _ (List.mem_singleton_self _),
    rotation_safety samplePool_init (.cons sampleLogin_step (.cons hs (.nil _)))⟩

/-- The first command of a revocation marks the lineage. -/
theorem revokeLineage_call {sid : String} (h : sid ≠ "") : ∃ next, revokeLineage r sid =
    .call (.hset (r.lineageKey sid) [("status", "revoked")]) next := by
  unfold revokeLineage
  rw [if_neg h]
  exact ⟨_, rfl⟩

/-- Once the first write of a revocation has been carried out, the lineage is closed:
however far the revocation gets, and whatever was rotated just before it. -/
theorem revocation_wins {c : RefreshTokenClaims} {i : Nat} {reply : Except RedisError Unit}
    {pool₁ pool₂ : SessionPool} (h : Reachable (SessionStep r) (SessionInit r) pool)
    (hc : c ∈ pool.shared.minted)
    (hstep : SessionStep r pool (.cmd i (.hset (r.lineageKey c.sid.text) [("status", "revoked")]) reply) pool₁)
    (hdone : pool₁.shared.redis =
      (exec (hset (r.lineageKey c.sid.text) [("status", "revoked")]) pool.shared.redis).2)
    (hrun : Run (SessionStep r) pool₁ trace pool₂) : ∀ l ∈ trace, ¬ RotatedIn c.sid l := by
  have hg := good_of_reachable h
  obtain ⟨f, hf⟩ := hg.shared.hashAt_lineage hc
  refine not_rotatedIn_of_revoked (good_step hg hstep) ?_ hrun
  unfold Revoked
  rw [hdone, exec_mark_ok hf]
  exact status_marked _ _ f

/-- The token of a login, presented right after the first write of a revocation. -/
theorem revocation_wins_login : ∃ f : Fields,
    ¬ RotatedIn sampleSid (.env (.rotate sampleToken (rotateRefreshToken sampleConfig (some "kid")
      sampleToken sampleJti' 0 (marked sampleLogin.redis (sampleConfig.lineageKey sampleSid.text) f)).1)) := by
  have hmem : sampleToken ∈ sampleLogin.minted := List.mem_singleton_self _
  obtain ⟨f, hf⟩ : ∃ f, sampleLogin.redis.hashAt (sampleConfig.lineageKey sampleSid.text) = .ok f :=
    sampleLogin_good.shared.hashAt_lineage (c := sampleToken) hmem
  have hspawn : SessionStep sampleConfig ⟨sampleLogin, []⟩ (.spawn (revokeLineage sampleConfig sampleSid.text))
      ⟨sampleLogin, [revokeLineage sampleConfig sampleSid.text]⟩ := .spawn ⟨_, rfl⟩
  have hreach : Reachable (SessionStep sampleConfig) (SessionInit sampleConfig)
      ⟨sampleLogin, [revokeLineage sampleConfig sampleSid.text]⟩ :=
    ⟨samplePool, _, samplePool_init, .cons sampleLogin_step (.single hspawn)⟩
  obtain ⟨threads, hcmd⟩ : ∃ threads,
      SessionStep sampleConfig ⟨sampleLogin, [revokeLineage sampleConfig sampleSid.text]⟩
        (.cmd 0 (.hset (sampleConfig.lineageKey sampleSid.text) [("status", "revoked")]) (.ok ()))
        ⟨⟨marked sampleLogin.redis (sampleConfig.lineageKey sampleSid.text) f, sampleLogin.minted⟩, threads⟩ := by
    obtain ⟨next, hnext⟩ := revokeLineage_call (r := sampleConfig) (Uuid.text_ne_empty sampleSid)
    rw [hnext]
    refine ⟨_, .cmd (i := 0) rfl (Or.inl ⟨?_, ?_⟩)⟩
    · simp only [serve, exec_mark_ok hf]
      rfl
    · simp only [serve, exec_mark_ok hf]
  have hrot := Prod.mk.eta (p := rotateRefreshToken sampleConfig (some "kid") sampleToken sampleJti' 0
    (marked sampleLogin.redis (sampleConfig.lineageKey sampleSid.text) f))
  refine ⟨f, revocation_wins hreach hmem hcmd ?_
    (.single (.env (.rotate hmem sampleLogin_fresh hrot.symm))) _ (List.mem_singleton_self _)⟩
  exact (congrArg Prod.snd (exec_mark_ok hf)).symm

end Chinwag.Auth

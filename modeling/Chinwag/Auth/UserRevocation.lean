import Chinwag.Auth.Rotatable

/-!
# Revoking all sessions of a user

`RevokeUserSessions` finds the sessions to revoke through the record of whichever
member a lineage's set lists first, and leaves out a lineage whose record is gone.
It is complete exactly when every member's record lives as long as the token that
can still be rotated.
-/
namespace Chinwag.Auth

open Redis Script Program Transition

variable {r : RefreshConfig} {s t : Sessions}

/-- Nothing happens to the state but the passage of time. -/
def Passing (s t : Sessions) : Prop := ∃ ms, t = ⟨s.redis.after ms, s.minted⟩

/-- A program running while no other call reaches Redis and no command fails. -/
abbrev Quiet {α : Type} (p : CacheProg α) (s : Sessions) (a : α) (t : Sessions) : Prop :=
  Alone Answered Passing p s a t

/-- The completeness of `RevokeUserSessions` from one state: after any run of it that
returns no error, whatever happens next, no token the user had can be rotated. -/
def RevokesAll (r : RefreshConfig) (pool : SessionPool) (user : String) : Prop :=
  ∀ t, Quiet (revokeUserSessions r user) pool.shared (.ok ()) t →
    ∀ trace pool', Run (SessionStep r) ⟨t, pool.threads⟩ trace pool' →
      ∀ c ∈ pool.shared.minted, c.subject = user → ¬ Rotatable r pool'.shared c

/-- Every member of a lineage with a rotatable token of the user has a record, and that
record does not expire before the token. -/
def MembersOutlive (r : RefreshConfig) (s : Sessions) (user : String) : Prop :=
  ∀ c ∈ s.minted, c.subject = user → Rotatable r s c →
    ∀ members, s.redis.setAt (r.lineageMembersKey c.sid.text) = .ok members →
      ∀ m ∈ members, ∃ e, s.redis.get (r.tokenKey m) = some e ∧
        ∀ t x, s.redis.ttl (r.tokenKey c.jti.text) = some t → e.expireAt = some x → t ≤ x

theorem Passing.refl (s : Sessions) : Passing s s := ⟨0, rfl⟩

theorem Passing.trans {u : Sessions} (h₁ : Passing s t) (h₂ : Passing t u) : Passing s u := by
  obtain ⟨a, rfl⟩ := h₁
  obtain ⟨b, rfl⟩ := h₂
  exact ⟨a + b, by simp [Server.after, Nat.add_assoc]⟩

theorem Passing.data (h : Passing s t) : t.redis.data = s.redis.data := by
  obtain ⟨a, rfl⟩ := h
  rfl

theorem Passing.now (h : Passing s t) : s.redis.now ≤ t.redis.now := by
  obtain ⟨a, rfl⟩ := h
  simp

theorem Passing.minted (h : Passing s t) : t.minted = s.minted := by
  obtain ⟨a, rfl⟩ := h
  rfl

theorem Passing.keeps (h : SessionInv r s) (hp : Passing s t) : SessionInv r t ∧ Later r s t := by
  obtain ⟨ms, rfl⟩ := hp
  exact ⟨inv_after h ms, later_after s ms⟩

section Listing

/-- The session of the lineage loads as long as the clock has not passed `until`. -/
def Loadable (r : RefreshConfig) (s : Sessions) (until_ : Nat) (lg : String) : Prop :=
  ∃ ms x, s.redis.data (r.lineageMembersKey lg) = some ⟨.set ms, x⟩ ∧ ms ≠ [] ∧
    (∀ y, x = some y → until_ ≤ y) ∧
    ∀ m ∈ ms, ∃ f z, s.redis.data (r.tokenKey m) = some ⟨.hash f, z⟩ ∧ f.entries.isEmpty = false ∧
      ∀ y, z = some y → until_ ≤ y

theorem hashAt_of_live {s : Server} {key : String} {f : Fields} {x : Option Nat}
    (hd : s.data key = some ⟨.hash f, x⟩) (hx : ∀ y, x = some y → s.now ≤ y) :
    s.hashAt key = .ok f :=
  hashAt_of_get (Server.get_eq_some.mpr ⟨hd, (Entry.isLive_iff _ _).mpr hx⟩)

theorem setAt_of_live {s : Server} {key : String} {ms : List String} {x : Option Nat}
    (hd : s.data key = some ⟨.set ms, x⟩) (hx : ∀ y, x = some y → s.now ≤ y) :
    s.setAt key = .ok ms :=
  setAt_of_get (Server.get_eq_some.mpr ⟨hd, (Entry.isLive_iff _ _).mpr hx⟩)

theorem quiet_hGetAll {key : String} {a : Except RedisError Fields} (h : Quiet (hGetAll key) s a t) :
    Passing s t ∧ a = t.redis.hashAt key := by
  obtain ⟨s₁, hd, hre, rfl⟩ := h.of_perform
  exact ⟨hd, hre⟩

theorem quiet_sMembers {key : String} {a : Except RedisError (List String)}
    (h : Quiet (sMembers key) s a t) : Passing s t ∧
      ∀ ms, t.redis.setAt key = .ok ms → ∃ sent, a = .ok sent ∧ ms.Perm sent := by
  obtain ⟨s₁, hd, hre, rfl⟩ := h.of_perform
  refine ⟨hd, fun ms hms => ?_⟩
  simp only [serve, smembers, exec_of] at hre hms
  rw [hms] at hre
  cases a with
  | error e => exact hre.elim
  | ok sent => exact ⟨sent, rfl, hre⟩

theorem quiet_zRevRange {key : String} {a : Except RedisError (List String)}
    (h : Quiet (zRevRange key) s a t) : Passing s t ∧ a = (t.redis.zsetAt key).map revRange := by
  obtain ⟨s₁, hd, hre, rfl⟩ := h.of_perform
  exact ⟨hd, hre⟩

theorem quiet_getRecord {jti : String} {a : Except AuthError RefreshTokenRecord}
    (h : Quiet (getRecord r jti) s a t) : Passing s t ∧ ∀ f x,
      s.redis.data (r.tokenKey jti) = some ⟨.hash f, x⟩ → f.entries.isEmpty = false →
      (∀ y, x = some y → t.redis.now ≤ y) → a = .ok (toRecord f) := by
  obtain ⟨reply, m, h₁, h₂⟩ := h.of_bind
  obtain ⟨hp, rfl⟩ := quiet_hGetAll h₁
  have hend : m = t ∧ ∀ f, m.redis.hashAt (r.tokenKey jti) = .ok f → f.entries.isEmpty = false →
      a = .ok (toRecord f) := by
    cases hh : m.redis.hashAt (r.tokenKey jti) with
    | error e =>
      rw [hh] at h₂
      obtain ⟨-, rfl⟩ := h₂.of_ret
      exact ⟨rfl, fun f hf => by cases hf⟩
    | ok g =>
      rw [hh] at h₂
      change Quiet (if g.entries.isEmpty then _ else _) m a t at h₂
      split at h₂
      · next hg =>
        obtain ⟨-, rfl⟩ := h₂.of_ret
        refine ⟨rfl, fun f hf hne => ?_⟩
        cases hf
        rw [hg] at hne
        cases hne
      · obtain ⟨rfl, rfl⟩ := h₂.of_ret
        refine ⟨rfl, fun f hf _ => ?_⟩
        cases hf
        rfl
  obtain ⟨rfl, hok⟩ := hend
  refine ⟨hp, fun f x hd hne hx => hok f (hashAt_of_live ?_ hx) hne⟩
  rw [hp.data]
  exact hd

theorem quiet_sessionFromLineage {lg : String} {a : Except AuthError (Option AdminSession)}
    (h : Quiet (sessionFromLineage r lg) s a t) : Passing s t ∧
      (Loadable r s t.redis.now lg → ∃ session, a = .ok (some session) ∧ session.lineageId = lg) := by
  obtain ⟨reply, m, h₁, h₂⟩ := h.of_bind
  obtain ⟨hp, hsm⟩ := quiet_sMembers h₁
  match reply, h₂ with
  | .error e, h₂ =>
    obtain ⟨-, rfl⟩ := h₂.of_ret
    refine ⟨hp, ?_⟩
    rintro ⟨ms, x, hd, hne, hx, -⟩
    obtain ⟨sent, he, -⟩ := hsm ms (setAt_of_live (by rw [hp.data]; exact hd) hx)
    cases he
  | .ok [], h₂ =>
    obtain ⟨-, rfl⟩ := h₂.of_ret
    refine ⟨hp, ?_⟩
    rintro ⟨ms, x, hd, hne, hx, -⟩
    obtain ⟨sent, he, hperm⟩ := hsm ms (setAt_of_live (by rw [hp.data]; exact hd) hx)
    cases he
    exact absurd hperm.eq_nil hne
  | .ok (first :: others), h₂ =>
    obtain ⟨rec, m₂, h₃, h₄⟩ := h₂.of_bind
    obtain ⟨hp₂, hrec⟩ := quiet_getRecord h₃
    have hend : m₂ = t ∧ ∀ x, rec = .ok x → ∃ session, a = .ok (some session) ∧ session.lineageId = lg := by
      cases rec with
      | error e =>
        obtain ⟨-, rfl⟩ := h₄.of_ret
        exact ⟨rfl, fun x hx => by cases hx⟩
      | ok x =>
        obtain ⟨rfl, rfl⟩ := h₄.of_ret
        exact ⟨rfl, fun _ _ => ⟨_, rfl, rfl⟩⟩
    obtain ⟨rfl, hok⟩ := hend
    refine ⟨hp.trans hp₂, ?_⟩
    rintro ⟨ms, x, hd, -, hx, hm⟩
    obtain ⟨sent, he, hperm⟩ := hsm ms
      (setAt_of_live (by rw [hp.data]; exact hd) fun y hy => Nat.le_trans hp₂.now (hx y hy))
    cases he
    obtain ⟨f, z, hf, hne, hz⟩ := hm first (hperm.mem_iff.mpr List.mem_cons_self)
    exact hok _ (hrec f z (by rw [hp.data]; exact hf) hne hz)

theorem Loadable.passing {until_ : Nat} {lg : String} (hp : Passing s t) (h : Loadable r s until_ lg) :
    Loadable r t until_ lg := by
  unfold Loadable
  rwa [hp.data]

theorem Loadable.mono {a b : Nat} {lg : String} (hab : a ≤ b) (h : Loadable r s b lg) :
    Loadable r s a lg := by
  obtain ⟨ms, x, hd, hne, hx, hm⟩ := h
  refine ⟨ms, x, hd, hne, fun y hy => Nat.le_trans hab (hx y hy), fun m hmem => ?_⟩
  obtain ⟨f, z, hf, hfe, hz⟩ := hm m hmem
  exact ⟨f, z, hf, hfe, fun y hy => Nat.le_trans hab (hz y hy)⟩

/-- Every loadable lineage of the list is among the sessions loaded. -/
theorem quiet_loadSessions {lgs : List String} {out : List AdminSession}
    (h : Quiet (loadSessions r lgs) s out t) : Passing s t ∧
      ∀ lg ∈ lgs, Loadable r s t.redis.now lg → ∃ session ∈ out, session.lineageId = lg := by
  induction lgs generalizing s out with
  | nil =>
    obtain ⟨-, rfl⟩ := h.of_ret
    exact ⟨.refl _, fun lg hlg => by cases hlg⟩
  | cons lg rest ih =>
    obtain ⟨reply, m, h₁, h₂⟩ := h.of_bind
    obtain ⟨hp, hload⟩ := quiet_sessionFromLineage h₁
    match reply, h₂ with
    | .ok (some session), h₂ =>
      obtain ⟨out', m₂, h₃, h₄⟩ := h₂.of_bind
      obtain ⟨rfl, rfl⟩ := h₄.of_ret
      obtain ⟨hp₂, hrest⟩ := ih h₃
      refine ⟨hp.trans hp₂, fun lg' hlg' hl => ?_⟩
      rcases List.mem_cons.mp hlg' with rfl | hlg'
      · obtain ⟨session', he, hid⟩ := hload (hl.mono hp₂.now)
        cases he
        exact ⟨session, List.mem_cons_self, hid⟩
      · obtain ⟨session', hs', hid⟩ := hrest lg' hlg' (hl.passing hp)
        exact ⟨session', List.mem_cons_of_mem _ hs', hid⟩
    | .ok none, h₂ =>
      obtain ⟨hp₂, hrest⟩ := ih h₂
      refine ⟨hp.trans hp₂, fun lg' hlg' hl => ?_⟩
      rcases List.mem_cons.mp hlg' with rfl | hlg'
      · obtain ⟨session', he, -⟩ := hload (hl.mono hp₂.now)
        cases he
      · exact hrest lg' hlg' (hl.passing hp)
    | .error e, h₂ =>
      obtain ⟨hp₂, hrest⟩ := ih h₂
      refine ⟨hp.trans hp₂, fun lg' hlg' hl => ?_⟩
      rcases List.mem_cons.mp hlg' with rfl | hlg'
      · obtain ⟨session', he, -⟩ := hload (hl.mono hp₂.now)
        cases he
      · exact hrest lg' hlg' (hl.passing hp)

end Listing

section Complete

variable {i : Nat}

theorem safe_revokeSessions (sessions : List AdminSession) :
    Safe (sessionSemantics r) (sessionContract r) i
      (fun reply t => Later r s t ∧ (reply = .ok () → ∀ session ∈ sessions, session.lineageId ≠ "" →
        Revoked r t session.lineageId))
      (revokeSessions r sessions) s := by
  induction sessions generalizing s with
  | nil => exact ⟨.refl s, fun _ _ h => by cases h⟩
  | cons session rest ih =>
    refine (safe_revokeLineage session.lineageId).bind fun reply t ⟨hl, hok⟩ => ?_
    cases reply with
    | error e => exact ⟨hl, fun h => by cases h⟩
    | ok u =>
      refine (ih (s := t)).mono fun reply' t' ⟨hl', hrest⟩ => ⟨hl.trans hl', fun he => ?_⟩
      intro session' hs' hne
      rcases List.mem_cons.mp hs' with rfl | hs'
      · exact hl'.revoked _ (hok rfl hne)
      · exact hrest he session' hs' hne

theorem quiet_revokeSessions (h : SessionInv r s) {sessions : List AdminSession}
    (hrun : Quiet (revokeSessions r sessions) s (.ok ()) t) : SessionInv r t ∧ Later r s t ∧
      ∀ session ∈ sessions, session.lineageId ≠ "" → Revoked r t session.lineageId := by
  have hsafe := safe_revokeSessions (r := r) (s := s) (i := 0) sessions
  obtain ⟨ht, ⟨hl, hok⟩, -⟩ := hsafe.alone sessionContract_sound (fun _ _ _ _ ha => Or.inl ha)
    (fun s t hs hp => ⟨(Passing.keeps hs hp).1, fun _ => (Passing.keeps hs hp).2⟩) h hrun
  exact ⟨ht, hl, hok rfl⟩

/-- Until the token expires, the session of its lineage loads. -/
theorem loadable_of_membersOutlive {c : RefreshTokenClaims} {user : String} {cur lin : Fields}
    {members : List String} {created : Int} {x : Nat} (h : SessionInv r s)
    (hm : MembersOutlive r s user) (hu : c.subject = user)
    (ha : Accepts r s c cur lin members created)
    (hd : s.redis.data (r.tokenKey c.jti.text) = some ⟨.hash cur, some x⟩) :
    Loadable r s x c.sid.text := by
  obtain ⟨t, hd', hk, ht⟩ := ha.token
  cases hd.symm.trans hd'
  obtain ⟨t', hl, ho, hms⟩ := ha.lineage
  have hxt : x ≤ t' := hk.outlived lin t' hl
  have hsub := hm c ha.minted hu (rotatable_of_accepts h ha) members ha.reads.2.2
  have hne : members ≠ [] := by
    obtain ⟨ms, hne, hms'⟩ := ho.members (Nat.le_trans ht hxt)
    cases hms.symm.trans hms'
    exact hne
  refine ⟨members, some t', hms, hne, fun y hy => by cases hy; exact hxt, fun m hmem => ?_⟩
  obtain ⟨e, he, hexp⟩ := hsub m hmem
  obtain ⟨c', hc', rfl, -⟩ := h.members _ _ _ hms m hmem
  have hdata := (Server.get_eq_some.mp he).1
  have httl : s.redis.ttl (r.tokenKey c.jti.text) = some x := by
    unfold Server.ttl
    rw [Server.get_eq_some.mpr ⟨hd, (Entry.isLive_iff _ _).mpr fun y hy => by cases hy; exact ht⟩]
    rfl
  rcases h.tokens c' hc' with ⟨f, z, hf, hs⟩ | ⟨f, z, hf, hk'⟩
  · cases hdata.symm.trans hf
    exact ⟨f, z, hf, entries_ne_nil hs, fun y hy => hexp x y httl hy⟩
  · cases hdata.symm.trans hf
    exact ⟨f, some z, hf, entries_ne_nil hk'.sid, fun y hy => hexp x y httl hy⟩

theorem revokesAll_of_membersOutlive {pool : SessionPool} {user : String} (hg : SessionGood r pool)
    (hm : MembersOutlive r pool.shared user) : RevokesAll r pool user := by
  intro t hrun trace pool' hlater c hc hu hrot
  obtain ⟨reply, m, h₁, h₂⟩ := hrun.of_bind
  obtain ⟨zreply, m₁, h₃, h₄⟩ := h₁.of_bind
  obtain ⟨hp₁, rfl⟩ := quiet_zRevRange h₃
  have hi₁ := (Passing.keeps hg.shared hp₁).1
  have hz := (hi₁.userIndex user).zsetAt
  rw [hz] at h₄
  obtain ⟨sessions, m₂, h₅, h₆⟩ := h₄.of_bind
  obtain ⟨rfl, rfl⟩ := h₆.of_ret
  obtain ⟨hp₂, hload⟩ := quiet_loadSessions h₅
  have hp := hp₁.trans hp₂
  obtain ⟨hi, hl⟩ := Passing.keeps hg.shared hp
  obtain ⟨ht, hl', hrev⟩ := quiet_revokeSessions hi h₂
  have hthreads : SessionGood r ⟨t, pool.threads⟩ := by
    refine ⟨ht, fun j p hj => ?_⟩
    exact (hg.safe j p hj).rely sessionContract_sound (fun _ _ _ _ _ => trivial) (hl.trans hl')
  have hlast : Later r pool.shared pool'.shared := (hl.trans hl').trans (later_run hthreads hlater)
  obtain ⟨cur, lin, members, created, x, ha, hd, hx, hnr⟩ :=
    rotatable_before hg.shared (good_run hthreads hlater).shared hlast hc hrot
  have hnow : m.redis.now ≤ x :=
    Nat.le_trans (hl'.trans (later_run hthreads hlater)).now hx
  have hloadable := (loadable_of_membersOutlive hg.shared hm hu ha hd).mono hnow
  have hlisted : c.sid.text ∈ revRange (indexOf m₁.redis (r.userKey user)) := by
    obtain ⟨t', -, ho, -⟩ := ha.lineage
    have hin := ho.indexed
    rw [hu] at hin
    rw [mem_revRange]
    simpa [indexOf, hp₁.data] using hin
  obtain ⟨session, hmem, hid⟩ := hload _ hlisted (hloadable.passing hp₁)
  have hfin := hrev session hmem (by rw [hid]; exact Uuid.text_ne_empty c.sid)
  rw [hid] at hfin
  exact hnr ((later_run hthreads hlater).revoked _ hfin)

end Complete

section Missing

theorem run_hGetAll (s : Sessions) (key : String) : Quiet (hGetAll key) s (s.redis.hashAt key) s :=
  .perform (.refl s) ⟨rfl, rfl⟩

theorem run_sMembers {key : String} {ms sent : List String} (hs : s.redis.setAt key = .ok ms)
    (hp : ms.Perm sent) : Quiet (sMembers key) s (.ok sent) s := by
  refine .perform (.refl s) ⟨?_, rfl⟩
  simp only [serve, smembers, exec_of, hs]
  exact hp

theorem run_sMembers_error {key : String} {e : RedisError} (hs : s.redis.setAt key = .error e) :
    Quiet (sMembers key) s (.error e) s := by
  refine .perform (.refl s) ⟨?_, rfl⟩
  simp only [serve, smembers, exec_of, hs]
  rfl

theorem run_getRecord (s : Sessions) (jti : String) : ∃ a, Quiet (getRecord r jti) s a s ∧
    (s.redis.get (r.tokenKey jti) = none → a = .error .cacheNotFound) := by
  have h₁ := run_hGetAll s (r.tokenKey jti)
  cases hh : s.redis.hashAt (r.tokenKey jti) with
  | error e =>
    rw [hh] at h₁
    refine ⟨_, h₁.bind (.ret _ _), fun hg => ?_⟩
    simp [Server.hashAt, hg] at hh
  | ok f =>
    rw [hh] at h₁
    by_cases hf : f.entries.isEmpty = true
    · refine ⟨.error .cacheNotFound, h₁.bind ?_, fun _ => rfl⟩
      change Quiet (if f.entries.isEmpty then _ else _) s _ s
      rw [if_pos hf]
      exact .ret _ _
    · refine ⟨.ok (toRecord f), h₁.bind ?_, fun hg => ?_⟩
      · change Quiet (if f.entries.isEmpty then _ else _) s _ s
        rw [if_neg hf]
        exact .ret _ _
      · simp only [Server.hashAt, hg] at hh
        cases hh
        exact absurd rfl hf

/-- A session that loads does so under its own lineage, whose members could be read. -/
theorem run_sessionFromLineage (s : Sessions) (lg : String) :
    ∃ a, Quiet (sessionFromLineage r lg) s a s ∧ ∀ session, a = .ok (some session) →
      session.lineageId = lg ∧ ∃ ms, s.redis.setAt (r.lineageMembersKey lg) = .ok ms := by
  cases hs : s.redis.setAt (r.lineageMembersKey lg) with
  | error e => exact ⟨_, (run_sMembers_error hs).bind (.ret _ _), fun _ h => by cases h⟩
  | ok ms =>
    have h₁ := run_sMembers hs (.refl ms)
    cases ms with
    | nil => exact ⟨_, h₁.bind (.ret _ _), fun _ h => by cases h⟩
    | cons first others =>
      obtain ⟨a, h₂, -⟩ := run_getRecord (r := r) s first
      cases a with
      | error e => exact ⟨_, h₁.bind (h₂.bind (.ret _ _)), fun _ h => by cases h⟩
      | ok rec =>
        refine ⟨_, h₁.bind (h₂.bind (.ret _ _)), fun session h => ?_⟩
        cases h
        exact ⟨rfl, _, rfl⟩

/-- A lineage is missed when its set lists a member without a record first. -/
theorem run_sessionFromLineage_missing {lg m : String} {ms : List String}
    (hs : s.redis.setAt (r.lineageMembersKey lg) = .ok ms) (hm : m ∈ ms)
    (hg : s.redis.get (r.tokenKey m) = none) :
    Quiet (sessionFromLineage r lg) s (.error .cacheNotFound) s := by
  have h₁ := run_sMembers hs (List.perm_cons_erase hm)
  obtain ⟨a, h₂, ha⟩ := run_getRecord (r := r) s m
  rw [ha hg] at h₂
  exact h₁.bind (h₂.bind (.ret _ _))

theorem run_loadSessions {lg₀ m : String} {ms : List String}
    (hs : s.redis.setAt (r.lineageMembersKey lg₀) = .ok ms) (hm : m ∈ ms)
    (hg : s.redis.get (r.tokenKey m) = none) (lgs : List String) :
    ∃ out, Quiet (loadSessions r lgs) s out s ∧ ∀ session ∈ out, session.lineageId ≠ lg₀ ∧
      session.lineageId ∈ lgs ∧ ∃ ms, s.redis.setAt (r.lineageMembersKey session.lineageId) = .ok ms := by
  induction lgs with
  | nil => exact ⟨[], .ret _ _, by simp⟩
  | cons lg rest ih =>
    obtain ⟨out, hout, hall⟩ := ih
    have hskip : ∀ session ∈ out, session.lineageId ≠ lg₀ ∧ session.lineageId ∈ lg :: rest ∧
        ∃ ms, s.redis.setAt (r.lineageMembersKey session.lineageId) = .ok ms := by
      intro session hmem
      obtain ⟨hne, hin, hset⟩ := hall session hmem
      exact ⟨hne, List.mem_cons_of_mem _ hin, hset⟩
    by_cases hlg : lg = lg₀
    · subst hlg
      exact ⟨out, (run_sessionFromLineage_missing hs hm hg).bind hout, hskip⟩
    · obtain ⟨a, h₁, hload⟩ := run_sessionFromLineage (r := r) s lg
      match a, h₁, hload with
      | .ok (some session), h₁, hload =>
        refine ⟨session :: out, h₁.bind (hout.bind (.ret _ _)), fun session' hmem => ?_⟩
        rcases List.mem_cons.mp hmem with rfl | hmem
        · obtain ⟨hid, hset⟩ := hload session' rfl
          rw [hid]
          exact ⟨hlg, List.mem_cons_self, hset⟩
        · exact hskip session' hmem
      | .ok none, h₁, _ => exact ⟨out, h₁.bind hout, hskip⟩
      | .error e, h₁, _ => exact ⟨out, h₁.bind hout, hskip⟩

/-- What revoking other lineages leaves alone. -/
structure Spares (r : RefreshConfig) (sid : Uuid) (s t : Sessions) : Prop where
  minted : t.minted = s.minted
  now : t.redis.now = s.redis.now
  members : ∀ lg, t.redis.data (r.lineageMembersKey lg) = s.redis.data (r.lineageMembersKey lg)
  lineage : t.redis.data (r.lineageKey sid.text) = s.redis.data (r.lineageKey sid.text)
  tokens : ∀ c ∈ s.minted, c.sid = sid →
    t.redis.data (r.tokenKey c.jti.text) = s.redis.data (r.tokenKey c.jti.text)

variable {sid : Uuid}

theorem Spares.refl (s : Sessions) : Spares r sid s s :=
  ⟨rfl, rfl, fun _ => rfl, rfl, fun _ _ _ => rfl⟩

theorem Spares.trans {u : Sessions} (h₁ : Spares r sid s t) (h₂ : Spares r sid t u) :
    Spares r sid s u := by
  refine ⟨h₂.minted.trans h₁.minted, h₂.now.trans h₁.now, fun lg => (h₂.members lg).trans (h₁.members lg),
    h₂.lineage.trans h₁.lineage, fun c hc hs => ?_⟩
  have hc' : c ∈ t.minted := by
    rw [h₁.minted]
    exact hc
  exact (h₂.tokens c hc' hs).trans (h₁.tokens c hc hs)

theorem Spares.setAt (h : Spares r sid s t) (lg : String) :
    t.redis.setAt (r.lineageMembersKey lg) = s.redis.setAt (r.lineageMembersKey lg) :=
  setAt_congr (Server.get_congr (h.members lg) h.now)

theorem run_mark {key : String} {f : Fields} (hf : s.redis.hashAt key = .ok f) :
    Quiet (hSet key [("status", "revoked")] 0) s (.ok ()) ⟨marked s.redis key f, s.minted⟩ := by
  have h₁ : Quiet (hsetFields key [("status", "revoked")]) s (.ok ()) ⟨marked s.redis key f, s.minted⟩ := by
    refine .perform (.refl s) ⟨?_, ?_⟩
    · simp only [serve, exec_mark_ok hf]
      rfl
    · simp only [serve, exec_mark_ok hf]
  exact h₁.bind (.ret _ _)

theorem run_markMembers (h : SessionInv r s) {members : List String}
    (hm : ∀ m ∈ members, ∃ c ∈ s.minted, c.jti.text = m ∧ c.sid ≠ sid) :
    ∃ t, Quiet (markMembers r members) s (.ok ()) t ∧ SessionInv r t ∧ Later r s t ∧ Spares r sid s t := by
  induction members generalizing s with
  | nil => exact ⟨s, .ret _ _, h, .refl s, .refl s⟩
  | cons m rest ih =>
    obtain ⟨c, hc, rfl, hne⟩ := hm m List.mem_cons_self
    obtain ⟨f, hf⟩ := h.hashAt_token hc
    have hl : Later r s ⟨marked s.redis (r.tokenKey c.jti.text) f, s.minted⟩ := later_mark_token s c f
    have hsp : Spares r sid s ⟨marked s.redis (r.tokenKey c.jti.text) f, s.minted⟩ := by
      refine ⟨rfl, rfl, fun lg => data_marked_ne _ (by simp) f, data_marked_ne _ (by simp) f, ?_⟩
      intro c' hc' hs
      refine data_marked_ne _ ?_ f
      intro he
      have hj : c'.jti = c.jti := by simpa using he
      rw [h.jti_inj c' hc' c hc hj] at hs
      exact hne hs
    obtain ⟨t, hrun, ht, hl', hsp'⟩ := ih (inv_mark_token h hc) fun m hm' => hm m (List.mem_cons_of_mem _ hm')
    exact ⟨t, (run_mark hf).bind hrun, ht, hl.trans hl', hsp.trans hsp'⟩

theorem run_unindex (sid : Uuid) (h : SessionInv r s) {key lg : String} (hk : IndexKey r key) (hr : Revoked r s lg) :
    ∃ a t, Quiet (zRem key lg) s a t ∧ SessionInv r t ∧ Later r s t ∧ Spares r sid s t := by
  have hrm : Removable r s lg := by
    rintro c - rfl
    exact hr
  have hne : ∀ other, ¬ IndexKey r other →
      (setIndex s.redis key ((indexOf s.redis key).erase lg)).data other = s.redis.data other :=
    fun _ ho => data_setIndex_other hk ho _
  refine ⟨_, ⟨setIndex s.redis key ((indexOf s.redis key).erase lg), s.minted⟩, .perform (.refl s) ⟨rfl, ?_⟩,
    inv_unindex h hk hrm, later_unindex s hk _, rfl, rfl, fun lg' => hne _ (not_indexKey_members _),
    hne _ (not_indexKey_lineage _), fun c _ _ => hne _ (not_indexKey_token _)⟩
  simp only [serve, (h.isIndex hk).exec_zrem]

theorem run_unindexLineage (sid : Uuid) (h : SessionInv r s) {lg : String} (hr : Revoked r s lg)
    (members : List String) :
    ∃ t, Quiet (unindexLineage r lg members) s () t ∧ SessionInv r t ∧ Later r s t ∧ Spares r sid s t := by
  cases members with
  | nil => exact ⟨s, .ret _ _, h, .refl s, .refl s⟩
  | cons first rest =>
    obtain ⟨a, h₁, -⟩ := run_getRecord (r := r) s first
    cases a with
    | error e => exact ⟨s, h₁.bind (.ret _ _), h, .refl s, .refl s⟩
    | ok rec =>
      by_cases hu : rec.userID = ""
      · refine ⟨s, h₁.bind ?_, h, .refl s, .refl s⟩
        change Quiet (if rec.userID = "" then _ else _) s _ s
        rw [if_pos hu]
        exact .ret _ _
      · obtain ⟨a, t, h₂, ht, hl, hsp⟩ := run_unindex sid h (Or.inr ⟨rec.userID, rfl⟩) hr
        refine ⟨t, h₁.bind ?_, ht, hl, hsp⟩
        change Quiet (if rec.userID = "" then _ else _) s _ t
        rw [if_neg hu]
        exact h₂.bind (.ret _ _)

theorem run_revokeLineage (h : SessionInv r s) {c : RefreshTokenClaims} (hc : c ∈ s.minted)
    (hne : c.sid ≠ sid) {ms : List String}
    (hs : s.redis.setAt (r.lineageMembersKey c.sid.text) = .ok ms) :
    ∃ t, Quiet (revokeLineage r c.sid.text) s (.ok ()) t ∧ SessionInv r t ∧ Later r s t ∧
      Spares r sid s t := by
  obtain ⟨f, hf⟩ := h.hashAt_lineage hc
  have h₁ := inv_mark_lineage h _ hf
  have hl₁ : Later r s ⟨marked s.redis (r.lineageKey c.sid.text) f, s.minted⟩ := later_mark_lineage s _ f
  have hsp₁ : Spares r sid s ⟨marked s.redis (r.lineageKey c.sid.text) f, s.minted⟩ :=
    ⟨rfl, rfl, fun lg => data_marked_ne _ (by simp) f, data_marked_ne _ (by simpa using hne.symm) f,
      fun c' _ _ => data_marked_ne _ (by simp) f⟩
  have hrev : Revoked r ⟨marked s.redis (r.lineageKey c.sid.text) f, s.minted⟩ c.sid.text :=
    status_marked _ _ f
  have hset := (hsp₁.setAt c.sid.text).trans hs
  have hmem : ∀ m ∈ ms, ∃ c' ∈ s.minted, c'.jti.text = m ∧ c'.sid ≠ sid := by
    intro m hm
    obtain ⟨c', hc', hj, hsid⟩ := h.mem_of_setAt hs m hm
    exact ⟨c', hc', hj, by rwa [Uuid.text_inj.mp hsid]⟩
  obtain ⟨t₂, hr₂, h₂, hl₂, hsp₂⟩ := run_markMembers h₁ hmem
  obtain ⟨t₃, hr₃, h₃, hl₃, hsp₃⟩ := run_unindexLineage sid h₂ (hl₂.revoked _ hrev) ms
  obtain ⟨a, t₄, hr₄, h₄, hl₄, hsp₄⟩ :=
    run_unindex sid h₃ (Or.inl rfl) (hl₃.revoked _ (hl₂.revoked _ hrev))
  refine ⟨t₄, ?_, h₄, hl₁.trans (hl₂.trans (hl₃.trans hl₄)), hsp₁.trans (hsp₂.trans (hsp₃.trans hsp₄))⟩
  unfold revokeLineage
  rw [if_neg (Uuid.text_ne_empty c.sid)]
  exact (run_mark hf).bind ((run_sMembers hset (.refl ms)).bind (hr₂.bind (hr₃.bind (hr₄.bind (.ret _ _)))))

theorem run_revokeSessions (h : SessionInv r s) {sessions : List AdminSession}
    (hs : ∀ session ∈ sessions, session.lineageId ≠ sid.text ∧
      (∃ c ∈ s.minted, c.sid.text = session.lineageId) ∧
      ∃ ms, s.redis.setAt (r.lineageMembersKey session.lineageId) = .ok ms) :
    ∃ t, Quiet (revokeSessions r sessions) s (.ok ()) t ∧ SessionInv r t ∧ Spares r sid s t := by
  induction sessions generalizing s with
  | nil => exact ⟨s, .ret _ _, h, .refl s⟩
  | cons session rest ih =>
    obtain ⟨hne, ⟨c, hc, hid⟩, ms, hms⟩ := hs session List.mem_cons_self
    rw [← hid] at hne hms
    obtain ⟨t, hrun, ht, -, hsp⟩ := run_revokeLineage h hc (by simpa using hne) hms
    rw [hid] at hrun
    obtain ⟨t', hrun', ht', hsp'⟩ := ih ht (by
      intro session' hmem
      obtain ⟨hne', ⟨c', hc', hid'⟩, ms', hms'⟩ := hs session' (List.mem_cons_of_mem _ hmem)
      refine ⟨hne', ⟨c', ?_, hid'⟩, ms', (hsp.setAt _).trans hms'⟩
      rw [hsp.minted]
      exact hc')
    exact ⟨t', hrun.bind hrun', ht', hsp.trans hsp'⟩

/-- A member whose record goes before the token does lets the clock and the order of
the set hide the whole lineage. -/
theorem membersOutlive_of_revokesAll {pool : SessionPool} {user : String} (hg : SessionGood r pool)
    (h : RevokesAll r pool user) : MembersOutlive r pool.shared user := by
  intro c hc hu hrot members hset m hmem
  by_contra hgone
  obtain ⟨cur, lin, members', created, ha⟩ := (rotatable_iff hg.shared hc).mp hrot
  obtain ⟨x, hd, hk, hx⟩ := ha.token
  obtain ⟨t', hl, ho, hms⟩ := ha.lineage
  cases hset.symm.trans ha.reads.2.2
  obtain ⟨c', hc', rfl, -⟩ := hg.shared.mem_of_setAt hset m hmem
  obtain ⟨y, f, hf, hyx⟩ : ∃ y f, pool.shared.redis.data (r.tokenKey c'.jti.text) =
      some ⟨.hash f, some y⟩ ∧ y < x := by
    have httl : pool.shared.redis.ttl (r.tokenKey c.jti.text) = some x := by
      unfold Server.ttl
      rw [Server.get_eq_some.mpr ⟨hd, (Entry.isLive_iff _ _).mpr fun y hy => by cases hy; exact hx⟩]
      rfl
    obtain ⟨f, z, hf⟩ : ∃ f z, pool.shared.redis.data (r.tokenKey c'.jti.text) = some ⟨.hash f, z⟩ := by
      rcases hg.shared.tokens c' hc' with ⟨f, z, hf, -⟩ | ⟨f, z, hf, -⟩
      · exact ⟨f, z, hf⟩
      · exact ⟨f, some z, hf⟩
    cases z with
    | none =>
      exact absurd ⟨_, Server.get_eq_some.mpr ⟨hf, rfl⟩, fun t y _ hy => by cases hy⟩ hgone
    | some y =>
      refine ⟨y, f, hf, ?_⟩
      by_contra hle
      have hlive : (Entry.mk (.hash f) (some y)).isLive pool.shared.redis.now = true :=
        (Entry.isLive_iff _ _).mpr fun z hz => by cases hz; omega
      refine hgone ⟨_, Server.get_eq_some.mpr ⟨hf, hlive⟩, fun t z ht hz => ?_⟩
      cases hz
      rw [httl] at ht
      cases ht
      omega
  -- Let the member's record expire first; the token itself is still live then.
  have hp : Passing pool.shared ⟨pool.shared.redis.after (y + 1 - pool.shared.redis.now), pool.shared.minted⟩ :=
    ⟨_, rfl⟩
  generalize hs' : (⟨pool.shared.redis.after (y + 1 - pool.shared.redis.now), pool.shared.minted⟩ : Sessions) = s'
    at hp
  have hnow : y < s'.redis.now ∧ s'.redis.now ≤ x := by
    subst hs'
    simp only [Server.now_after]
    omega
  obtain ⟨hi, hlater⟩ := Passing.keeps hg.shared hp
  have hc₁ : c ∈ s'.minted := hlater.minted c hc
  have hgone' : s'.redis.get (r.tokenKey c'.jti.text) = none := by
    rw [Server.get_eq_none]
    intro e he
    rw [hp.data, hf] at he
    cases he
    simp only [Entry.isLive, decide_eq_false_iff_not]
    omega
  have hset' : s'.redis.setAt (r.lineageMembersKey c.sid.text) = .ok members := by
    refine setAt_of_live (x := some t') (by rw [hp.data]; exact hms) fun z hz => ?_
    cases hz
    exact Nat.le_trans hnow.2 (hk.outlived lin t' hl)
  have hz : Quiet (zRevRange (r.userKey user)) pool.shared
      (.ok (revRange (indexOf s'.redis (r.userKey user)))) s' := by
    refine .perform hp ⟨?_, rfl⟩
    simp only [serve, zrevrange, exec_of, (hi.userIndex user).zsetAt]
    rfl
  obtain ⟨out, hload, hall⟩ := run_loadSessions hset' hmem hgone'
    (revRange (indexOf s'.redis (r.userKey user)))
  obtain ⟨t, hrev, ht, hsp⟩ := run_revokeSessions hi (by
    intro session hsession
    obtain ⟨hne, hin, hms'⟩ := hall session hsession
    obtain ⟨c₂, hc₂, -, hid⟩ := hi.listed user _ (mem_revRange.mp hin)
    exact ⟨hne, ⟨c₂, hc₂, hid⟩, hms'⟩)
  have hlist : Quiet (listSessionsByUser r user) pool.shared (.ok out) s' :=
    hz.bind (hload.bind (.ret _ _))
  refine h t (hlist.bind hrev) [] ⟨t, pool.threads⟩ (.nil _) c hc hu ?_
  have hlin : t.redis.data (r.lineageKey c.sid.text) = some ⟨.hash lin, some t'⟩ := by
    rw [hsp.lineage, hp.data]
    exact hl
  have htok : t.redis.data (r.tokenKey c.jti.text) = some ⟨.hash cur, some x⟩ := by
    rw [hsp.tokens c hc₁ rfl, hp.data]
    exact hd
  have hnr : ¬ Revoked r t c.sid.text := by
    rintro ⟨g, z, hg', hrv⟩
    cases hlin.symm.trans hg'
    rw [ho.status] at hrv
    simp at hrv
  have hct : c ∈ t.minted := by
    rw [hsp.minted]
    exact hc₁
  obtain ⟨lin₂, ms₂, created₂, ha₂⟩ := accepts_of_active ht hct htok ha.active (by rw [hsp.now]; exact hnow.2) hnr
  exact rotatable_of_accepts ht ha₂

end Missing

/-- From any reachable state, revoking all sessions of a user is complete if and only if
the records of the members outlive the tokens that can be rotated. -/
theorem revokesAll_iff {pool : SessionPool} (h : Reachable (SessionStep r) (SessionInit r) pool)
    (user : String) : RevokesAll r pool user ↔ MembersOutlive r pool.shared user := by
  have hg := good_of_reachable h
  exact ⟨membersOutlive_of_revokesAll hg, revokesAll_of_membersOutlive hg⟩

theorem sampleLogin_reachable :
    Reachable (SessionStep sampleConfig) (SessionInit sampleConfig) ⟨sampleLogin, []⟩ :=
  ⟨samplePool, _, samplePool_init, .single sampleLogin_step⟩

theorem revokesAll_login : RevokesAll sampleConfig ⟨sampleLogin, []⟩ "alice" := by
  refine (revokesAll_iff sampleLogin_reachable "alice").mpr ?_
  intro c hc _ _ members hset m hm
  obtain rfl := List.mem_singleton.mp hc
  obtain ⟨c', hc', rfl, -⟩ := sampleLogin_good.shared.mem_of_setAt hset m hm
  obtain rfl := List.mem_singleton.mp hc'
  obtain ⟨cur, lin, ms, created, ha⟩ := sampleLogin_accepts
  obtain ⟨t, hd, -, ht⟩ := ha.token
  have hg : sampleLogin.redis.get (sampleConfig.tokenKey sampleToken.jti.text) = some ⟨.hash cur, some t⟩ :=
    Server.get_eq_some.mpr ⟨hd, (Entry.isLive_iff _ _).mpr fun y hy => by cases hy; exact ht⟩
  refine ⟨_, hg, fun t' x ht' hx => ?_⟩
  cases hx
  simp only [Server.ttl, hg, Option.bind_some, Option.some.injEq] at ht'
  omega

section Incomplete

theorem Accepts.after {c : RefreshTokenClaims} {cur lin : Fields} {members : List String} {created : Int}
    (h : SessionInv r s) (ha : Accepts r s c cur lin members created) {x : Nat} (ms : Nat)
    (hd : s.redis.data (r.tokenKey c.jti.text) = some ⟨.hash cur, some x⟩) (hx : s.redis.now + ms ≤ x) :
    ∃ lin created, Accepts r ⟨s.redis.after ms, s.minted⟩ c cur lin members created := by
  have hnr : ¬ Revoked r ⟨s.redis.after ms, s.minted⟩ c.sid.text := ha.not_revoked
  obtain ⟨lin', ms', created', ha'⟩ := accepts_of_active (inv_after h ms) ha.minted hd ha.active hx hnr
  obtain ⟨t, -, -, hm⟩ := ha.lineage
  obtain ⟨t', -, -, hm'⟩ := ha'.lineage
  cases hm.symm.trans hm'
  exact ⟨lin', created', ha'⟩

/-- What is left after some time and one more rotation. -/
structure RotatedAfter (r : RefreshConfig) (s : Sessions) (c : RefreshTokenClaims) (newJti : Uuid)
    (members : List String) (ms : Nat) (s' : Sessions) : Prop where
  reachable : Reachable (SessionStep r) (SessionInit r) ⟨s', []⟩
  minted : s'.minted = s.minted ++ [⟨c.subject, newJti, c.sid, c.jkt⟩]
  now : s'.redis.now = s.redis.now + ms
  accepts : ∃ cur lin created, Accepts r s' ⟨c.subject, newJti, c.sid, c.jkt⟩ cur lin
    (members.insert newJti.text) created ∧
    s'.redis.data (r.tokenKey newJti.text) = some ⟨.hash cur, some (deadline r s'.redis)⟩
  old : ∃ f, s'.redis.data (r.tokenKey c.jti.text) = some ⟨.hash f, some (deadline r s'.redis)⟩
  others : ∀ u, u ≠ c.jti → u ≠ newJti →
    s'.redis.data (r.tokenKey u.text) = s.redis.data (r.tokenKey u.text)

theorem exists_rotatedAfter {c : RefreshTokenClaims} {cur lin : Fields} {members : List String}
    {created : Int} {newJti : Uuid} {x : Nat} (ms : Nat)
    (hr : Reachable (SessionStep r) (SessionInit r) ⟨s, []⟩) (ha : Accepts r s c cur lin members created)
    (hd : s.redis.data (r.tokenKey c.jti.text) = some ⟨.hash cur, some x⟩) (hx : s.redis.now + ms ≤ x)
    (hj : FreshJti s newJti) : ∃ s', RotatedAfter r s c newJti members ms s' := by
  have hg := good_of_reachable hr
  obtain ⟨lin₁, created₁, ha₁⟩ := ha.after hg.shared ms hd hx
  have hi₁ := inv_after hg.shared ms
  have hpass : SessionStep r ⟨s, []⟩ (.env (.pass ms)) ⟨⟨s.redis.after ms, s.minted⟩, []⟩ := .env (.pass ms)
  have hrot := rotate_step hi₁ ha₁ hj 0
  obtain ⟨cur₂, lin₂, ms₂, created₂, ha₂⟩ := accepts_rotated 0 hi₁ ha₁ hj
  refine ⟨_, (hr.tail hpass).tail (.env hrot), rfl, rfl, ⟨cur₂, lin₂, created₂, ?_, ?_⟩,
    ⟨_, rotated_old (hj c ha.minted).symm⟩, fun u h₁ h₂ => rotated_token_ne h₁ h₂⟩
  · obtain ⟨t, -, -, hm⟩ := ha₂.lineage
    cases rotated_members.symm.trans hm
    exact ha₂
  · obtain ⟨t, hdt, -⟩ := ha₂.token
    cases rotated_new.symm.trans hdt
    exact rotated_new

def sampleJti'' : Uuid := ⟨"01890a5d-ac96-774b-bcce-b302099a8053", by decide⟩

/-- A lineage rotated twice, half a lifetime apart: the record of the first token is
gone while the third token lives. -/
theorem exists_twice_rotated : ∃ s : Sessions, ∃ c ∈ s.minted, c.subject = "alice" ∧
    Reachable (SessionStep sampleConfig) (SessionInit sampleConfig) ⟨s, []⟩ ∧
    Rotatable sampleConfig s c ∧ ∃ members,
      s.redis.setAt (sampleConfig.lineageMembersKey c.sid.text) = .ok members ∧
      sampleJti.text ∈ members ∧ s.redis.get (sampleConfig.tokenKey sampleJti.text) = none := by
  obtain ⟨cur, lin, members, created, ha⟩ := sampleLogin_accepts
  have hmem : sampleJti.text ∈ members := by
    obtain ⟨t, -, -, hm⟩ := ha.lineage
    cases issued_members.symm.trans hm
    exact List.mem_singleton_self _
  have hd : sampleLogin.redis.data (sampleConfig.tokenKey sampleToken.jti.text) =
      some ⟨.hash cur, some 60000⟩ := by
    obtain ⟨t, hdt, -⟩ := ha.token
    cases issued_token.symm.trans hdt
    exact issued_token
  obtain ⟨s₁, h₁⟩ := exists_rotatedAfter 30000 sampleLogin_reachable ha hd (by decide) sampleLogin_fresh
  obtain ⟨cur₁, lin₁, created₁, ha₁, hd₁⟩ := h₁.accepts
  have hfresh : FreshJti s₁ sampleJti'' := by
    rw [FreshJti, h₁.minted]
    decide
  have hnow₁ : s₁.redis.now = 30000 := h₁.now
  have hdl₁ : deadline sampleConfig s₁.redis = 90000 := by
    rw [deadline, hnow₁]
    rfl
  obtain ⟨s₂, h₂⟩ := exists_rotatedAfter 30000 h₁.reachable ha₁ hd₁ (by omega) hfresh
  obtain ⟨cur₂, lin₂, created₂, ha₂, hd₂⟩ := h₂.accepts
  have hnow₂ : s₂.redis.now = 60000 := by rw [h₂.now, hnow₁]
  have hdl₂ : deadline sampleConfig s₂.redis = 120000 := by
    rw [deadline, hnow₂]
    rfl
  have hg₂ := good_of_reachable h₂.reachable
  have hlive : s₂.redis.now + 40000 ≤ deadline sampleConfig s₂.redis := by omega
  obtain ⟨lin₃, created₃, ha₃⟩ := ha₂.after hg₂.shared 40000 hd₂ hlive
  refine ⟨_, _, ha₃.minted, rfl, h₂.reachable.tail (.env (.pass 40000)),
    rotatable_of_accepts (inv_after hg₂.shared 40000) ha₃, _, ha₃.reads.2.2, ?_, ?_⟩
  · exact List.mem_insert_of_mem (List.mem_insert_of_mem hmem)
  · obtain ⟨f, hf⟩ := h₁.old
    have hf₂ := (h₂.others sampleJti (by decide) (by decide)).trans hf
    rw [Server.get_eq_none]
    intro e he
    rw [Server.data_after, hf₂] at he
    cases he
    show decide (s₂.redis.now + 40000 ≤ deadline sampleConfig s₁.redis) = false
    rw [decide_eq_false_iff_not]
    omega

/-- A run of `RevokeUserSessions` that returns no error may leave a token of the user
that can be rotated. -/
theorem revokeUserSessions_incomplete : ¬ ∀ (r : RefreshConfig) (pool : SessionPool) (user : String),
    Reachable (SessionStep r) (SessionInit r) pool → RevokesAll r pool user := by
  intro h
  obtain ⟨s, c, hc, hu, hr, hrot, members, hset, hmem, hgone⟩ := exists_twice_rotated
  have hout := membersOutlive_of_revokesAll (good_of_reachable hr) (h _ _ "alice" hr)
  obtain ⟨e, he, -⟩ := hout c hc hu hrot members hset _ hmem
  rw [hgone] at he
  cases he

end Incomplete

end Chinwag.Auth

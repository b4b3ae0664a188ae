import Chinwag.Auth.SessionSteps

/-!
# What a rotation can do

A rotation of a minted token is refused, detected as a reuse or accepted. Each case
keeps the invariant, so every event of the environment does.
-/
namespace Chinwag.Auth

open Redis Script Program

variable {r : RefreshConfig} {s : Sessions}

section Reuse

/-- What the reuse branch keeps from its first write on. -/
structure Revoking (r : RefreshConfig) (s : Sessions) (sid : String) (t : Server) : Prop where
  inv : SessionInv r ⟨t, s.minted⟩
  later : Later r s ⟨t, s.minted⟩
  revoked : Revoked r ⟨t, s.minted⟩ sid

variable {sid : String} {t : Server}

theorem Revoking.mark (h : Revoking r s sid t) {c : RefreshTokenClaims} (hc : c ∈ s.minted) (f : Fields) :
    Revoking r s sid (marked t (r.tokenKey c.jti.text) f) := by
  have hl : Later r ⟨t, s.minted⟩ ⟨marked t (r.tokenKey c.jti.text) f, s.minted⟩ :=
    later_mark_token _ c f
  exact ⟨inv_mark_token h.inv hc, h.later.trans hl, hl.revoked sid h.revoked⟩

theorem Revoking.revokeMembers (h : Revoking r s sid t) (members : List String)
    (hm : ∀ m ∈ members, ∃ c ∈ s.minted, c.jti.text = m) :
    Revoking r s sid (exec (revokeMembers r members) t).2 := by
  induction members generalizing t with
  | nil => exact h
  | cons m rest ih =>
    obtain ⟨c, hc, rfl⟩ := hm m List.mem_cons_self
    unfold Auth.revokeMembers
    rcases exec_mark t (r.tokenKey c.jti.text) with ⟨e, he⟩ | ⟨f, -, he⟩
    · rw [exec_bind, he]
      exact h
    · rw [exec_bind_ok _ he]
      exact ih (h.mark hc f) fun m hm' => hm m (List.mem_cons_of_mem _ hm')

theorem Revoking.unindex (h : Revoking r s sid t) {key : String} (hk : IndexKey r key) :
    Revoking r s sid (exec (zrem key sid) t).2 := by
  rw [(h.inv.isIndex hk).exec_zrem]
  have hl : Later r ⟨t, s.minted⟩ ⟨setIndex t key ((indexOf t key).erase sid), s.minted⟩ :=
    later_unindex _ hk _
  have hr : Removable r ⟨t, s.minted⟩ sid := by
    rintro c hc rfl
    exact h.revoked
  exact ⟨inv_unindex h.inv hk hr, h.later.trans hl, hl.revoked sid h.revoked⟩

theorem Revoking.unindexUser (h : Revoking r s sid t) (userID : Option String) :
    Revoking r s sid (exec (unindexUser r sid userID) t).2 := by
  cases userID with
  | none => exact h
  | some u =>
    unfold Auth.unindexUser
    rw [exec_ite]
    split
    · exact h
    · exact h.unindex (Or.inr ⟨u, rfl⟩)

/-- The names a members key lists are those of minted tokens. -/
theorem SessionInv.mem_of_setAt (h : SessionInv r s) {sid : String} {members : List String}
    (hs : s.redis.setAt (r.lineageMembersKey sid) = .ok members) :
    ∀ m ∈ members, ∃ c ∈ s.minted, c.jti.text = m ∧ c.sid.text = sid := by
  intro m hm
  rcases setAt_ok hs with ⟨-, rfl⟩ | ⟨x, hg⟩
  · cases hm
  · exact h.members sid members x (Server.get_eq_some.mp hg).1 m hm

theorem SessionInv.hashAt_lineage (h : SessionInv r s) {c : RefreshTokenClaims} (hc : c ∈ s.minted) :
    ∃ f, s.redis.hashAt (r.lineageKey c.sid.text) = .ok f := by
  rcases h.lineages c hc with ⟨f, x, hd, -⟩ | ⟨f, x, hd, -⟩
  · rcases hashAt_of_data hd with ⟨-, hf⟩ | ⟨-, hf⟩ <;> exact ⟨_, hf⟩
  · rcases hashAt_of_data hd with ⟨-, hf⟩ | ⟨-, hf⟩ <;> exact ⟨_, hf⟩

theorem SessionInv.hashAt_token (h : SessionInv r s) {c : RefreshTokenClaims} (hc : c ∈ s.minted) :
    ∃ f, s.redis.hashAt (r.tokenKey c.jti.text) = .ok f := by
  rcases h.tokens c hc with ⟨f, x, hd, -⟩ | ⟨f, x, hd, -⟩
  · rcases hashAt_of_data hd with ⟨-, hf⟩ | ⟨-, hf⟩ <;> exact ⟨_, hf⟩
  · rcases hashAt_of_data hd with ⟨-, hf⟩ | ⟨-, hf⟩ <;> exact ⟨_, hf⟩

/-- However far it gets, the reuse branch leaves the lineage revoked. -/
theorem revoking_revokeReused (h : SessionInv r s) {c : RefreshTokenClaims} (hc : c ∈ s.minted)
    (userID : Option String) :
    Revoking r s c.sid.text (exec (revokeReused r c.sid.text userID) s.redis).2 := by
  obtain ⟨f, hf⟩ := h.hashAt_lineage hc
  have hmarked : Revoking r s c.sid.text (marked s.redis (r.lineageKey c.sid.text) f) :=
    ⟨inv_mark_lineage h _ hf, later_mark_lineage s _ f, status_marked _ _ f⟩
  unfold revokeReused
  rw [exec_bind_ok _ (exec_mark_ok hf)]
  refine exec_bind_rule (fun e t he => ?_) (fun members t he => ?_)
  · rw [← (Prod.mk.inj he).2]
    exact hmarked
  have hsm := (Prod.mk.inj he).1
  rw [← (Prod.mk.inj he).2]
  have hm : ∀ m ∈ members, ∃ c ∈ s.minted, c.jti.text = m := by
    intro m hm
    obtain ⟨c', hc', hcj, -⟩ := hmarked.inv.mem_of_setAt hsm m hm
    exact ⟨c', hc', hcj⟩
  have hrev := hmarked.revokeMembers members hm
  refine exec_bind_rule (fun e t he => ?_) (fun _ t he => ?_)
  · rwa [he] at hrev
  rw [he] at hrev
  have huser := hrev.unindexUser userID
  refine exec_bind_rule (fun e t he => ?_) (fun _ t he => ?_)
  · rwa [he] at huser
  rw [he] at huser
  exact huser.unindex (Or.inl rfl)

/-- What marking the lineage and its members and leaving the indexes keep, the reuse branch keeps. -/
theorem revokeReused_rule (h : SessionInv r s) {c : RefreshTokenClaims} (hc : c ∈ s.minted) {P : Server → Prop}
    (hlineage : ∀ f, s.redis.hashAt (r.lineageKey c.sid.text) = .ok f → P (marked s.redis (r.lineageKey c.sid.text) f))
    (htoken : ∀ t f, ∀ c' ∈ s.minted, t.hashAt (r.tokenKey c'.jti.text) = .ok f → P t →
      P (marked t (r.tokenKey c'.jti.text) f))
    (hindex : ∀ t key, IndexKey r key → IsIndex t key → P t →
      P (setIndex t key ((indexOf t key).erase c.sid.text)))
    (userID : Option String) : P (exec (revokeReused r c.sid.text userID) s.redis).2 := by
  have hmembers : ∀ t members, Revoking r s c.sid.text t → P t → (∀ m ∈ members, ∃ c' ∈ s.minted, c'.jti.text = m) →
      P (exec (revokeMembers r members) t).2 := by
    intro t members hrev hP hm
    induction members generalizing t with
    | nil => exact hP
    | cons m rest ih =>
      obtain ⟨c', hc', rfl⟩ := hm m List.mem_cons_self
      obtain ⟨f, hf⟩ := hrev.inv.hashAt_token hc'
      unfold Auth.revokeMembers
      rw [exec_bind_ok _ (exec_mark_ok hf)]
      exact ih _ (hrev.mark hc' f) (htoken t f c' hc' hf hP) fun m hm' => hm m (List.mem_cons_of_mem _ hm')
  have hunindex : ∀ t key, IndexKey r key → Revoking r s c.sid.text t → P t → P (exec (zrem key c.sid.text) t).2 := by
    intro t key hk hrev hP
    have hi := hrev.inv.isIndex hk
    rw [hi.exec_zrem]
    exact hindex t key hk hi hP
  obtain ⟨f, hf⟩ := h.hashAt_lineage hc
  have hmarked : Revoking r s c.sid.text (marked s.redis (r.lineageKey c.sid.text) f) :=
    ⟨inv_mark_lineage h _ hf, later_mark_lineage s _ f, status_marked _ _ f⟩
  have hP := hlineage f hf
  unfold revokeReused
  rw [exec_bind_ok _ (exec_mark_ok hf)]
  refine exec_bind_rule (fun e t he => ?_) (fun members t he => ?_)
  · rw [← (Prod.mk.inj he).2]
    exact hP
  have hsm := (Prod.mk.inj he).1
  rw [← (Prod.mk.inj he).2]
  have hm : ∀ m ∈ members, ∃ c ∈ s.minted, c.jti.text = m := by
    intro m hm
    obtain ⟨c', hc', hcj, -⟩ := hmarked.inv.mem_of_setAt hsm m hm
    exact ⟨c', hc', hcj⟩
  have hrev := hmarked.revokeMembers members hm
  have hP₁ := hmembers _ members hmarked hP hm
  refine exec_bind_rule (fun e t he => ?_) (fun _ t he => ?_)
  · rwa [he] at hP₁
  rw [he] at hrev hP₁
  have huser := hrev.unindexUser userID
  have hP₂ : P (exec (unindexUser r c.sid.text userID) t).2 := by
    cases userID with
    | none => exact hP₁
    | some u =>
      unfold Auth.unindexUser
      rw [exec_ite]
      split
      · exact hP₁
      · exact hunindex t _ (Or.inr ⟨u, rfl⟩) hrev hP₁
  refine exec_bind_rule (fun e t he => ?_) (fun _ t he => ?_)
  · rwa [he] at hP₂
  rw [he] at huser hP₂
  exact hunindex _ _ (Or.inl rfl) huser hP₂

end Reuse

section Outcomes

variable {c : RefreshTokenClaims} {newJti : Uuid} {now : Int}

/-- The replies that leave Redis as it was. -/
def Refusal (reply : List String) : Prop :=
  reply.head? = some "NOT_FOUND" ∨ reply.head? = some "REVOKED" ∨ reply.head? = some "LINEAGE_REVOKED"

/-- The three things a rotation of a minted token can do. -/
inductive Rotation (r : RefreshConfig) (s : Sessions) (c : RefreshTokenClaims) (newJti : Uuid)
    (now : Int) : Prop where
  | refused (reply : List String) (hr : Refusal reply)
      (h : exec (rotateCall r c newJti now) s.redis = (.ok reply, s.redis))
  | reused (reply : Except RedisError (List String))
      (hr : reply = .ok ["REUSED", c.sid.text, c.subject] ∨ ∃ e, reply = .error e)
      (h : exec (rotateCall r c newJti now) s.redis =
        (reply, (exec (revokeReused r c.sid.text (some c.subject)) s.redis).2))
  | accepted (cur lin : Fields) (members : List String) (created : Int)
      (ha : Accepts r s c cur lin members created)

theorem entries_ne_nil {f : Fields} {name value : String} (h : f.lookup name = some value) :
    f.entries.isEmpty = false := by
  cases he : f.entries with
  | nil =>
    have hf : f = ∅ := AList.ext he
    rw [hf] at h
    simp at h
  | cons p rest => rfl

/-- The lineage of a live kept token is live too, and refuses or lets the rotation through. -/
theorem lineage_of_live (h : SessionInv r s) (hc : c ∈ s.minted) {cur : Fields} {t : Nat}
    (hk : TokenKept r s.redis c cur t) (ht : s.redis.now ≤ t) :
    (∃ lin, s.redis.hashAt (r.lineageKey c.sid.text) = .ok lin ∧ lin.lookup "status" = some "revoked") ∨
      ∃ lin t', s.redis.hashAt (r.lineageKey c.sid.text) = .ok lin ∧
        s.redis.data (r.lineageKey c.sid.text) = some ⟨.hash lin, some t'⟩ ∧
        LineageOpen r s.redis c lin t' ∧ s.redis.now ≤ t' := by
  rcases h.lineages c hc with ⟨lin, x, hd, hs⟩ | ⟨lin, t', hd, ho⟩
  · have hlive : ∀ t', x = some t' → s.redis.now ≤ t' := by
      rintro t' rfl
      exact Nat.le_trans ht (hk.outlived lin t' hd)
    rcases hashAt_of_data hd with ⟨-, hf⟩ | ⟨⟨t', hx, hlt⟩, -⟩
    · exact Or.inl ⟨lin, hf, hs⟩
    · have := hlive t' hx
      omega
  · have hlive : s.redis.now ≤ t' := Nat.le_trans ht (hk.outlived lin t' hd)
    rcases hashAt_of_data hd with ⟨-, hf⟩ | ⟨⟨t₂, hx, hlt⟩, -⟩
    · exact Or.inr ⟨lin, t', hf, hd, ho, hlive⟩
    · cases hx
      omega

theorem exec_hgetall_bind {key : String} {f : Fields} (hf : s.redis.hashAt key = .ok f)
    (k : Fields → Script (List String)) : exec (hgetall key >>= k) s.redis = exec (k f) s.redis :=
  exec_bind_ok _ (by simp [hgetall, hf])

/-- The entries an accepted rotation starts from are all live. -/
theorem Accepts.reads {cur lin : Fields} {members : List String} {created : Int}
    (ha : Accepts r s c cur lin members created) :
    s.redis.hashAt (r.tokenKey c.jti.text) = .ok cur ∧
      s.redis.hashAt (r.lineageKey c.sid.text) = .ok lin ∧
      s.redis.setAt (r.lineageMembersKey c.sid.text) = .ok members := by
  obtain ⟨t, hd, hk, ht⟩ := ha.token
  obtain ⟨t', hl, ho, hm⟩ := ha.lineage
  have hlive : s.redis.now ≤ t' := Nat.le_trans ht (hk.outlived lin t' hl)
  have hread : ∀ {key : String} {v : Value} {x : Nat}, s.redis.data key = some ⟨v, some x⟩ →
      s.redis.now ≤ x → s.redis.get key = some ⟨v, some x⟩ := by
    intro key v x hdata hx
    refine Server.get_eq_some.mpr ⟨hdata, (Entry.isLive_iff _ _).mpr fun y hy => ?_⟩
    cases hy
    exact hx
  exact ⟨hashAt_of_get (hread hd ht), hashAt_of_get (hread hl hlive), setAt_of_get (hread hm hlive)⟩

/-- Past its checks, the script goes on with the two hashes it has read. -/
theorem exec_rotateCall {cur lin : Fields} {members : List String} {created : Int}
    (ha : Accepts r s c cur lin members created) :
    exec (rotateCall r c newJti now) s.redis =
      exec (rotateActive r (r.tokenKey c.jti.text) (r.lineageKey c.sid.text) cur lin c.sid.text
        newJti.text c.subject c.jkt (toString now)) s.redis := by
  obtain ⟨hcur, hlin, -⟩ := ha.reads
  obtain ⟨t, -, ho, -⟩ := ha.lineage
  have hs := ha.active
  have hopen := ho.status
  unfold rotateCall rotateRefreshTokenScript
  rw [exec_hgetall_bind hcur]
  simp only [entries_ne_nil hs, hs, exec_ite]
  simp [exec_hgetall_bind hlin, hopen]

theorem rotation_cases (h : SessionInv r s) (hc : c ∈ s.minted) (newJti : Uuid) (now : Int) :
    Rotation r s c newJti now := by
  have hmissing : s.redis.hashAt (r.tokenKey c.jti.text) = .ok ∅ → Rotation r s c newJti now := by
    intro hf
    refine .refused ["NOT_FOUND", "", ""] (Or.inl rfl) ?_
    unfold rotateCall rotateRefreshTokenScript
    rw [exec_hgetall_bind hf]
    simp
  have hrevoked : ∀ f, s.redis.hashAt (r.tokenKey c.jti.text) = .ok f →
      f.lookup "status" = some "revoked" → Rotation r s c newJti now := by
    intro f hf hs
    refine .refused (luaArray [some "REVOKED", f.lookup "sid", f.lookup "user_id"])
      (Or.inr (Or.inl rfl)) ?_
    unfold rotateCall rotateRefreshTokenScript
    rw [exec_hgetall_bind hf]
    simp [entries_ne_nil hs, hs]
  rcases h.tokens c hc with ⟨f, x, hd, hs⟩ | ⟨cur, t, hd, hk⟩
  · rcases hashAt_of_data hd with ⟨-, hf⟩ | ⟨-, hf⟩
    · exact hrevoked f hf hs
    · exact hmissing hf
  rcases hashAt_of_data hd with ⟨hlive, hf⟩ | ⟨-, hf⟩
  · have ht : s.redis.now ≤ t := hlive t rfl
    have hsid := hk.sid
    have huser := hk.user
    rcases hk.status with hs | hs
    · rcases lineage_of_live h hc hk ht with ⟨lin, hl, hr⟩ | ⟨lin, t', hl, hld, ho, ht'⟩
      · refine .refused (luaArray [some "LINEAGE_REVOKED", cur.lookup "sid", cur.lookup "user_id"])
          (Or.inr (Or.inr rfl)) ?_
        unfold rotateCall rotateRefreshTokenScript
        rw [exec_hgetall_bind hf]
        simp only [entries_ne_nil hs, hs, exec_ite]
        simp [exec_hgetall_bind hl, hr]
      · obtain ⟨ms, hne, hms⟩ := ho.members ht'
        obtain ⟨created, hcreated⟩ := ho.created
        exact .accepted cur lin ms created ⟨hc, hs, ⟨t, hd, hk, ht⟩, ⟨t', hld, ho, hms⟩, hcreated⟩
    · have hrun : exec (rotateCall r c newJti now) s.redis =
          exec (revokeReused r c.sid.text (some c.subject) >>= fun _ =>
            return luaArray [some "REUSED", cur.lookup "sid", cur.lookup "user_id"]) s.redis := by
        unfold rotateCall rotateRefreshTokenScript
        rw [exec_hgetall_bind hf]
        simp only [entries_ne_nil hs, hs, exec_ite]
        simp [hsid, huser, Uuid.text_ne_empty]
      rw [exec_bind] at hrun
      cases hre : exec (revokeReused r c.sid.text (some c.subject)) s.redis with
      | mk reply t' =>
        rw [hre] at hrun
        cases reply with
        | error e => exact .reused (.error e) (Or.inr ⟨e, rfl⟩) (by rw [hrun, hre])
        | ok _ =>
          refine .reused (.ok ["REUSED", c.sid.text, c.subject]) (Or.inl rfl) ?_
          rw [hrun, hre]
          simp [luaArray, hsid, huser]
  · exact hmissing hf

theorem SessionInv.token_fresh (h : SessionInv r s) {jti : Uuid} (hj : FreshJti s jti) :
    s.redis.data (r.tokenKey jti.text) = none := by
  by_contra hne
  obtain ⟨c, hc, he⟩ := h.records jti hne
  exact hj c hc he

/-- A refusal is neither an acceptance nor a reuse to the caller. -/
theorem rotationResult_refusal {reply : List String} (hr : Refusal reply) (token : RefreshTokenClaims) :
    ∃ e, rotationResult token (.ok reply) = .error e ∧ e ≠ .refreshTokenReused := by
  match reply, hr with
  | [], _ => exact ⟨_, rfl, by decide⟩
  | [_], _ => exact ⟨_, rfl, by decide⟩
  | [_, _], _ => exact ⟨_, rfl, by decide⟩
  | status :: sid :: userID :: rest, hr =>
    simp only [Refusal, List.head?_cons, Option.some.injEq] at hr
    rcases hr with rfl | rfl | rfl
    · exact ⟨.invalidGrant, by simp [rotationResult], by decide⟩
    · exact ⟨.refreshTokenRevoked, by simp [rotationResult], by decide⟩
    · exact ⟨.refreshTokenRevoked, by simp [rotationResult], by decide⟩

theorem sign_eq_some {subject jkt : String} {jti sid : Uuid} {token : RefreshTokenClaims}
    (h : signRefreshToken subject jti sid jkt = some token) :
    jkt ≠ "" ∧ token = ⟨subject, jti, sid, jkt⟩ := by
  unfold signRefreshToken at h
  split at h
  · cases h
  · next hne => exact ⟨hne, (Option.some.inj h).symm⟩

theorem Accepts.not_spent {cur lin : Fields} {members : List String} {created : Int}
    (ha : Accepts r s c cur lin members created) : ¬ Spent r s c.jti := by
  obtain ⟨t, hd, -⟩ := ha.token
  rintro (⟨f, x, hf, hs⟩ | ⟨f, x, hf, hs⟩)
  all_goals
    cases hd.symm.trans hf
    rw [ha.active] at hs
    simp at hs

theorem Accepts.not_revoked {cur lin : Fields} {members : List String} {created : Int}
    (ha : Accepts r s c cur lin members created) : ¬ Revoked r s c.sid.text := by
  obtain ⟨t, hd, ho, -⟩ := ha.lineage
  rintro ⟨f, x, hf, hs⟩
  cases hd.symm.trans hf
  rw [ho.status] at hs
  simp at hs

/-- What a rotation means for the lineage it belongs to. -/
structure RotationEffect (r : RefreshConfig) (s : Sessions) (c : RefreshTokenClaims)
    (result : Except AuthError RotatedRefreshToken) (t : Sessions) : Prop where
  inv : SessionInv r t
  later : Later r s t
  ok : ∀ rot, result = .ok rot → ¬ Spent r s c.jti ∧ ¬ Revoked r s c.sid.text ∧ Spent r t c.jti
  reused : result = .error .refreshTokenReused → Revoked r t c.sid.text

theorem RotationEffect.unchanged (h : SessionInv r s) {e : AuthError} (he : e ≠ .refreshTokenReused) :
    RotationEffect r s c (.error e) ⟨s.redis, s.minted ++ rotatedTokens (.error e)⟩ := by
  rw [rotatedTokens, List.append_nil]
  exact ⟨h, .refl s, fun _ h => (by cases h), fun h => absurd (Except.error.inj h) he⟩

/-- The call, once a signing key is found: minted tokens carry a DPoP binding. -/
theorem rotate_eq (h : SessionInv r s) (hc : c ∈ s.minted) (kid : String) :
    rotateRefreshToken r (some kid) c newJti now s.redis =
      (rotationResult ⟨c.subject, newJti, c.sid, c.jkt⟩ (exec (rotateCall r c newJti now) s.redis).1,
        (exec (rotateCall r c newJti now) s.redis).2) := by
  simp [rotateRefreshToken, signRefreshToken, h.bound c hc]

/-- An accepted rotation; `base` is what the new token's hash held before. -/
theorem rotate_accepted (h : SessionInv r s) {cur base lin : Fields} {members : List String}
    {created : Int} (ha : Accepts r s c cur lin members created) (kid : String)
    (hn : (s.redis.set (r.tokenKey c.jti.text) (some ⟨.hash (setFields cur [("status", "consumed")]),
      some (s.redis.now + r.ttl * 1000)⟩)).hashAt (r.tokenKey newJti.text) = .ok base) :
    rotateRefreshToken r (some kid) c newJti now s.redis =
      (.ok ⟨⟨c.subject, newJti, c.sid, c.jkt⟩, newJti, c.sid.text, c.subject⟩,
        rotated r s.redis c newJti now created cur base lin members) := by
  obtain ⟨hcur, hlin, hms⟩ := ha.reads
  obtain ⟨t, -, hk, -⟩ := ha.token
  rw [rotate_eq h ha.minted, exec_rotateCall ha,
    exec_rotateActive r hcur hlin ha.created hms hn (h.userIndex _) h.sessionsIndex]
  simp [rotationResult, luaArray, hk.sid]

theorem rotate_effect (h : SessionInv r s) (hc : c ∈ s.minted) (hj : FreshJti s newJti)
    {key : Option String} {result : Except AuthError RotatedRefreshToken} {redis : Server}
    (hrun : rotateRefreshToken r key c newJti now s.redis = (result, redis)) :
    RotationEffect r s c result ⟨redis, s.minted ++ rotatedTokens result⟩ := by
  cases key with
  | none =>
    cases hrun
    exact .unchanged h (by decide)
  | some kid =>
  rw [rotate_eq h hc] at hrun
  cases rotation_cases h hc newJti now with
  | refused reply hr hrot =>
    rw [hrot] at hrun
    obtain ⟨e, he, hne⟩ := rotationResult_refusal hr ⟨c.subject, newJti, c.sid, c.jkt⟩
    rw [he] at hrun
    cases hrun
    exact .unchanged h hne
  | reused reply hr hrot =>
    have hrev := revoking_revokeReused h hc (some c.subject)
    rw [hrot] at hrun
    obtain ⟨e, he⟩ : ∃ e, rotationResult ⟨c.subject, newJti, c.sid, c.jkt⟩ reply = .error e := by
      rcases hr with rfl | ⟨e, rfl⟩
      · exact ⟨.refreshTokenReused, by simp [rotationResult]⟩
      · exact ⟨_, rfl⟩
    rw [he] at hrun
    cases hrun
    rw [rotatedTokens, List.append_nil]
    exact ⟨hrev.inv, hrev.later, fun _ h => (by cases h), fun _ => hrev.revoked⟩
  | accepted cur lin members created ha =>
    have hn : ∀ e, (s.redis.set (r.tokenKey c.jti.text) e).hashAt (r.tokenKey newJti.text) = .ok ∅ :=
      fun e => hashAt_of_data_none (by simpa [Server.data_set, (hj c hc).symm] using h.token_fresh hj)
    rw [← rotate_eq h hc kid, rotate_accepted h ha kid (hn _)] at hrun
    cases hrun
    refine ⟨inv_rotated h ha hj, later_rotated ha hj, fun _ _ => ⟨ha.not_spent, ha.not_revoked, ?_⟩,
      fun h => by cases h⟩
    exact Or.inl ⟨_, _, rotated_old (hj c hc).symm, by simp⟩

end Outcomes

/-- Every event of the environment keeps the invariant. -/
theorem env_keeps (h : SessionInv r s) {e : Event} {t : Sessions} (he : Env r s e t) :
    SessionInv r t ∧ Later r s t := by
  cases he with
  | @issue key subject jkt sid jti drawn now result redis hjti hsid hrun =>
    unfold issueRefreshToken at hrun
    have hsame : SessionInv r ⟨s.redis, s.minted ++ []⟩ ∧ Later r s ⟨s.redis, s.minted ++ []⟩ := by
      rw [List.append_nil]
      exact ⟨h, .refl s⟩
    cases key with
    | none =>
      cases hrun
      exact hsame
    | some kid =>
    cases hsign : signRefreshToken subject jti (sid.getD drawn) jkt with
    | none =>
      simp only [hsign] at hrun
      cases hrun
      exact hsame
    | some token =>
      obtain ⟨hb, htoken⟩ := sign_eq_some hsign
      simp only [hsign] at hrun
      rw [exec_issue r _ _ _ _ _ _ (h.token_fresh hjti) hsid.lineage hsid.members (h.userIndex _) h.sessionsIndex]
        at hrun
      cases hrun
      subst htoken
      exact ⟨inv_issued h hjti hsid hb, later_issued hjti hsid⟩
  | rotate hc hj hrun =>
    have heff := rotate_effect h hc hj hrun
    exact ⟨heff.inv, heff.later⟩
  | pass ms => exact ⟨inv_after h ms, later_after s ms⟩

section Steps

/-- A login with a DPoP binding and fresh UUIDs is a step. -/
theorem issue_step (h : SessionInv r s) {sid jti : Uuid} {user jkt : String} (hj : FreshJti s jti)
    (hs : FreshSid r s sid) (hb : jkt ≠ "") (now : Int) :
    Env r s (.issue (.ok ⟨user, jti, sid, jkt⟩))
      ⟨issued r s.redis sid jti user jkt now, s.minted ++ [⟨user, jti, sid, jkt⟩]⟩ := by
  have hrun : issueRefreshToken r (some "kid") user jkt none jti sid now s.redis =
      (.ok ⟨user, jti, sid, jkt⟩, issued r s.redis sid jti user jkt now) := by
    simp only [issueRefreshToken, Option.getD_none, signRefreshToken, if_neg hb]
    rw [exec_issue r _ _ _ _ _ _ (h.token_fresh hj) hs.lineage hs.members (h.userIndex _) h.sessionsIndex]
  exact .issue hj (show FreshSid r s (none.getD sid) from hs) hrun

/-- So is a rotation that the script accepts. -/
theorem rotate_step (h : SessionInv r s) {c : RefreshTokenClaims} {newJti : Uuid} {cur lin : Fields}
    {members : List String} {created : Int} (ha : Accepts r s c cur lin members created)
    (hj : FreshJti s newJti) (now : Int) :
    Env r s (.rotate c (.ok ⟨⟨c.subject, newJti, c.sid, c.jkt⟩, newJti, c.sid.text, c.subject⟩))
      ⟨rotated r s.redis c newJti now created cur ∅ lin members,
        s.minted ++ [⟨c.subject, newJti, c.sid, c.jkt⟩]⟩ := by
  have hne : newJti ≠ c.jti := (hj c ha.minted).symm
  have hn : ∀ e, (s.redis.set (r.tokenKey c.jti.text) e).hashAt (r.tokenKey newJti.text) = .ok ∅ :=
    fun e => hashAt_of_data_none (by simpa [Server.data_set, hne] using h.token_fresh hj)
  exact .rotate ha.minted hj (rotate_accepted h ha "kid" (hn _))

theorem accepts_of_active {c : RefreshTokenClaims} (h : SessionInv r s) (hc : c ∈ s.minted) {cur : Fields} {t : Nat}
    (hd : s.redis.data (r.tokenKey c.jti.text) = some ⟨.hash cur, some t⟩)
    (hs : cur.lookup "status" = some "active") (ht : s.redis.now ≤ t)
    (hr : ¬ Revoked r s c.sid.text) :
    ∃ lin members created, Accepts r s c cur lin members created := by
  have hk : TokenKept r s.redis c cur t := by
    rcases h.tokens c hc with ⟨g, x, hg, hrev⟩ | ⟨g, x, hg, hk⟩
    · cases hd.symm.trans hg
      rw [hs] at hrev
      simp at hrev
    · cases hd.symm.trans hg
      exact hk
  rcases h.lineages c hc with hrev | ⟨lin, t', hl, ho⟩
  · exact absurd hrev hr
  · obtain ⟨ms, -, hms⟩ := ho.members (Nat.le_trans ht (hk.outlived lin t' hl))
    obtain ⟨created, hcreated⟩ := ho.created
    exact ⟨lin, ms, created, hc, hs, ⟨t, hd, hk, ht⟩, ⟨t', hl, ho, hms⟩, hcreated⟩

theorem not_revoked_issued {sid jti : Uuid} {user jkt : String} {now : Int} :
    ¬ Revoked r ⟨issued r s.redis sid jti user jkt now, s.minted ++ [⟨user, jti, sid, jkt⟩]⟩ sid.text := by
  rintro ⟨f, x, hd, hs⟩
  cases issued_lineage.symm.trans hd
  simp at hs

theorem not_revoked_rotated {c : RefreshTokenClaims} {newJti : Uuid} {now created : Int}
    {cur lin : Fields} {members : List String} :
    ¬ Revoked r ⟨rotated r s.redis c newJti now created cur ∅ lin members,
      s.minted ++ [⟨c.subject, newJti, c.sid, c.jkt⟩]⟩ c.sid.text := by
  rintro ⟨f, x, hd, hs⟩
  cases rotated_lineage.symm.trans hd
  simp at hs

theorem accepts_issued (h : SessionInv r s) {sid jti : Uuid} {user jkt : String} {now : Int}
    (hj : FreshJti s jti) (hs : FreshSid r s sid) (hb : jkt ≠ "") :
    ∃ cur lin members created, Accepts r
      ⟨issued r s.redis sid jti user jkt now, s.minted ++ [⟨user, jti, sid, jkt⟩]⟩ ⟨user, jti, sid, jkt⟩
      cur lin members created := by
  have hinv : SessionInv r ⟨issued r s.redis sid jti user jkt now, s.minted ++ [⟨user, jti, sid, jkt⟩]⟩ :=
    inv_issued h hj hs hb
  have hle : (issued r s.redis sid jti user jkt now).now ≤ deadline r s.redis := Nat.le_add_right _ _
  obtain ⟨lin, members, created, ha⟩ := accepts_of_active hinv
    (List.mem_append_right _ (List.mem_singleton_self _)) issued_token (active_status ..) hle
    not_revoked_issued
  exact ⟨_, lin, members, created, ha⟩

theorem accepts_rotated (now : Int) (h : SessionInv r s) {c : RefreshTokenClaims} {newJti : Uuid} {created : Int}
    {cur lin : Fields} {members : List String} (ha : Accepts r s c cur lin members created)
    (hj : FreshJti s newJti) :
    ∃ cur' lin' members' created', Accepts r
      ⟨rotated r s.redis c newJti now created cur ∅ lin members,
        s.minted ++ [⟨c.subject, newJti, c.sid, c.jkt⟩]⟩ ⟨c.subject, newJti, c.sid, c.jkt⟩
      cur' lin' members' created' := by
  have hinv : SessionInv r ⟨rotated r s.redis c newJti now created cur ∅ lin members,
      s.minted ++ [⟨c.subject, newJti, c.sid, c.jkt⟩]⟩ := inv_rotated h ha hj
  have hle : (rotated r s.redis c newJti now created cur ∅ lin members).now ≤ deadline r s.redis :=
    Nat.le_add_right _ _
  obtain ⟨lin', members', created', ha'⟩ := accepts_of_active hinv
    (List.mem_append_right _ (List.mem_singleton_self _)) rotated_new (active_status ..) hle
    not_revoked_rotated
  exact ⟨_, lin', members', created', ha'⟩

end Steps

end Chinwag.Auth

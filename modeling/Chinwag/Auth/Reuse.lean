import Chinwag.Auth.Rotatable

/-!
# When a rotation is taken for theft

Only a consumed token is answered `REUSED`, only an accepted rotation consumes a token,
and a consumed token presented while it and its lineage last is always detected.
-/
namespace Chinwag.Auth

open Redis Script Program

variable {r : RefreshConfig} {s : Sessions} {c : RefreshTokenClaims} {newJti : Uuid} {now : Int}

def Consumed (r : RefreshConfig) (s : Server) (jti : Uuid) : Prop := Status s (r.tokenKey jti.text) "consumed"

theorem Consumed.not_revoked {s : Server} {jti : Uuid} (h : Consumed r s jti) :
    ¬ Status s (r.tokenKey jti.text) "revoked" := by
  rintro ⟨f, x, hd, hs⟩
  obtain ⟨g, y, hd', hs'⟩ := h
  cases hd.symm.trans hd'
  rw [hs] at hs'
  simp at hs'

section Detection

/-- A reply other than the reuse one is not taken for a reuse. -/
theorem not_reused_of_reply {reply : Except RedisError (List String)} {token : RefreshTokenClaims}
    (h : ∀ rest, reply ≠ .ok ("REUSED" :: rest)) : rotationResult token reply ≠ .error .refreshTokenReused := by
  intro hres
  match reply, h, hres with
  | .error e, _, hres => cases e <;> cases hres
  | .ok [], _, hres => cases hres
  | .ok [_], _, hres => cases hres
  | .ok [_, _], _, hres => cases hres
  | .ok (status :: sid :: userID :: rest), h, hres =>
    have hne : status ≠ "REUSED" := by
      rintro rfl
      exact h _ rfl
    unfold rotationResult at hres
    simp only [if_neg hne] at hres
    split_ifs at hres <;> cases hres

theorem consumed_of_reused (h : SessionInv r s) (hc : c ∈ s.minted) (hj : FreshJti s newJti)
    {key : Option String} {redis : Server}
    (hrun : rotateRefreshToken r key c newJti now s.redis = (.error .refreshTokenReused, redis)) :
    Consumed r s.redis c.jti := by
  cases key with
  | none => cases hrun
  | some kid =>
  have hreply : rotationResult ⟨c.subject, newJti, c.sid, c.jkt⟩
      (exec (rotateCall r c newJti now) s.redis).1 = .error .refreshTokenReused := by
    rw [rotate_eq h hc] at hrun
    exact congrArg Prod.fst hrun
  have hmissing : s.redis.hashAt (r.tokenKey c.jti.text) ≠ .ok ∅ := by
    intro hf
    refine not_reused_of_reply ?_ hreply
    unfold rotateCall rotateRefreshTokenScript
    rw [exec_hgetall_bind hf]
    simp
  rcases h.tokens c hc with ⟨f, x, hd, hs⟩ | ⟨f, t, hd, hk⟩
  · rcases hashAt_of_data hd with ⟨-, hf⟩ | ⟨-, hf⟩
    · exfalso
      refine not_reused_of_reply ?_ hreply
      unfold rotateCall rotateRefreshTokenScript
      rw [exec_hgetall_bind hf]
      simp [entries_ne_nil hs, hs, luaArray]
    · exact absurd hf hmissing
  rcases hk.status with hs | hs
  · exfalso
    rcases hashAt_of_data hd with ⟨hlive, hf⟩ | ⟨-, hf⟩
    · rcases lineage_of_live h hc hk (hlive t rfl) with ⟨lin, hl, hr⟩ | ⟨lin, t', hl, hld, ho, ht'⟩
      · refine not_reused_of_reply ?_ hreply
        unfold rotateCall rotateRefreshTokenScript
        rw [exec_hgetall_bind hf]
        simp only [entries_ne_nil hs, hs, exec_ite]
        simp [exec_hgetall_bind hl, hr, luaArray]
      · obtain ⟨ms, -, hms⟩ := ho.members ht'
        obtain ⟨created, hcreated⟩ := ho.created
        have ha : Accepts r s c f lin ms created :=
          ⟨hc, hs, ⟨t, hd, hk, hlive t rfl⟩, ⟨t', hld, ho, hms⟩, hcreated⟩
        rw [rotate_fresh h ha hj kid now] at hrun
        cases hrun
    · exact hmissing hf
  · exact ⟨f, some t, hd, hs⟩

end Detection

section Consumption

/-- No token is consumed that was not before. -/
def ConsumesNone (r : RefreshConfig) (s t : Server) : Prop := ∀ u, Consumed r t u → Consumed r s u

theorem consumesNone_marked (s : Server) (key : String) (f : Fields) : ConsumesNone r s (marked s key f) := by
  intro u hu
  by_cases hkey : r.tokenKey u.text = key
  · exact absurd (hkey ▸ status_marked s key f) hu.not_revoked
  · exact hu.congr (data_marked_ne s hkey f).symm

theorem consumesNone_setIndex {s : Server} {key : String} (hk : IndexKey r key) (scores : Scores) :
    ConsumesNone r s (setIndex s key scores) := by
  intro u hu
  exact hu.congr (data_setIndex_other hk (not_indexKey_token u) scores).symm

/-- Marking hashes and leaving indexes are all the reuse branch does. -/
structure Marking (r : RefreshConfig) (s t : Server) : Prop where
  none : ConsumesNone r s t
  index : ∀ key, IndexKey r key → IsIndex t key

theorem Marking.mark {s t : Server} (h : Marking r s t) {key : String} (hkey : ¬ IndexKey r key) (f : Fields) :
    Marking r s (marked t key f) := by
  refine ⟨fun u hu => h.none u (consumesNone_marked t key f u hu), fun k hk => ?_⟩
  refine (h.index k hk).congr (data_marked_ne t ?_ f)
  rintro rfl
  exact hkey hk

theorem Marking.unindex {s t : Server} (h : Marking r s t) {key : String} (hk : IndexKey r key) (member : String) :
    Marking r s (exec (zrem key member) t).2 := by
  rw [(h.index key hk).exec_zrem]
  refine ⟨fun u hu => h.none u (consumesNone_setIndex hk _ u hu), fun k hk' => ?_⟩
  by_cases he : k = key
  · rw [he]
    exact isIndex_setIndex _ _ _
  · exact (h.index k hk').congr (data_setIndex_ne he _)

theorem Marking.revokeMembers {s t : Server} (h : Marking r s t) (members : List String)
    (hm : ∀ m ∈ members, ¬ IndexKey r (r.tokenKey m)) : Marking r s (exec (revokeMembers r members) t).2 := by
  induction members generalizing t with
  | nil => exact h
  | cons m rest ih =>
    unfold Auth.revokeMembers
    rcases exec_mark t (r.tokenKey m) with ⟨e, he⟩ | ⟨f, -, he⟩
    · rw [exec_bind, he]
      exact h
    · rw [exec_bind_ok _ he]
      exact ih (h.mark (hm m List.mem_cons_self) f) fun m hm' => hm m (List.mem_cons_of_mem _ hm')

theorem Marking.unindexUser {s t : Server} (h : Marking r s t) (sid : String) (userID : Option String) :
    Marking r s (exec (unindexUser r sid userID) t).2 := by
  cases userID with
  | none => exact h
  | some u =>
    unfold Auth.unindexUser
    rw [exec_ite]
    split
    · exact h
    · exact h.unindex (Or.inr ⟨u, rfl⟩) sid

theorem marking_revokeReused (h : SessionInv r s) (hc : c ∈ s.minted) (userID : Option String) :
    Marking r s.redis (exec (revokeReused r c.sid.text userID) s.redis).2 := by
  obtain ⟨f, hf⟩ := h.hashAt_lineage hc
  have hstart : Marking r s.redis s.redis := ⟨fun _ hu => hu, fun _ => h.isIndex⟩
  have hmarked := hstart.mark (not_indexKey_lineage c.sid.text) f
  unfold revokeReused
  rw [exec_bind_ok _ (exec_mark_ok hf)]
  refine exec_bind_rule (fun e t he => ?_) (fun members t he => ?_)
  · rw [← (Prod.mk.inj he).2]
    exact hmarked
  have hm : ∀ m ∈ members, ¬ IndexKey r (r.tokenKey m) := by
    intro m hm
    obtain ⟨c', -, rfl, -⟩ := (inv_mark_lineage h _ hf).mem_of_setAt (Prod.mk.inj he).1 m hm
    exact not_indexKey_token c'.jti
  rw [← (Prod.mk.inj he).2]
  have hrev := hmarked.revokeMembers members hm
  refine exec_bind_rule (fun e t he => ?_) (fun _ t he => ?_)
  · rwa [he] at hrev
  rw [he] at hrev
  have huser := hrev.unindexUser c.sid.text userID
  refine exec_bind_rule (fun e t he => ?_) (fun _ t he => ?_)
  · rwa [he] at huser
  rw [he] at huser
  exact huser.unindex (Or.inl rfl) _

/-- Whatever a rotation answers, it consumes at most the token it accepted. -/
theorem consumed_rotate (h : SessionInv r s) (hc : c ∈ s.minted) (hj : FreshJti s newJti)
    {key : Option String} {result : Except AuthError RotatedRefreshToken} {redis : Server}
    (hrun : rotateRefreshToken r key c newJti now s.redis = (result, redis)) {u : Uuid}
    (hu : Consumed r redis u) : Consumed r s.redis u ∨ u = c.jti ∧ ∃ rot, result = .ok rot := by
  cases key with
  | none =>
    cases hrun
    exact Or.inl hu
  | some kid =>
  cases rotation_cases h hc newJti now with
  | refused reply hr hrot =>
    rw [rotate_eq h hc, hrot] at hrun
    cases hrun
    exact Or.inl hu
  | reused reply hr hrot =>
    rw [rotate_eq h hc, hrot] at hrun
    cases hrun
    exact Or.inl ((marking_revokeReused h hc _).none u hu)
  | accepted cur lin members created ha =>
    rw [rotate_fresh h ha hj kid now] at hrun
    cases hrun
    by_cases hold : u = c.jti
    · exact Or.inr ⟨hold, _, rfl⟩
    · by_cases hnew : u = newJti
      · obtain ⟨f, x, hd, hs⟩ := hu
        rw [hnew] at hd
        cases rotated_new.symm.trans hd
        simp at hs
      · exact Or.inl (hu.congr (rotated_token_ne hold hnew).symm)

end Consumption

section Replay

theorem exec_revokeMembers_ok (members : List String) (h : SessionInv r s)
    (hm : ∀ m ∈ members, ∃ c ∈ s.minted, c.jti.text = m) :
    ∃ t, exec (revokeMembers r members) s.redis = (.ok (), t) ∧ SessionInv r ⟨t, s.minted⟩ := by
  induction members generalizing s with
  | nil => exact ⟨_, rfl, h⟩
  | cons m rest ih =>
    obtain ⟨c, hc, rfl⟩ := hm m List.mem_cons_self
    obtain ⟨f, hf⟩ := h.hashAt_token hc
    obtain ⟨t, ht, hinv⟩ := ih (inv_mark_token (f := f) h hc) fun m hm' => hm m (List.mem_cons_of_mem _ hm')
    refine ⟨t, ?_, hinv⟩
    unfold revokeMembers
    rw [exec_bind_ok _ (exec_mark_ok hf)]
    exact ht

theorem exec_unindexUser_ok (sid : String) (userID : Option String) (h : SessionInv r s) :
    ∃ t, exec (unindexUser r sid userID) s.redis = (.ok (), t) ∧ IsIndex t r.sessionsKey := by
  cases userID with
  | none => exact ⟨_, rfl, h.sessionsIndex⟩
  | some u =>
    show ∃ t, exec (if u = "" then pure () else zrem (r.userKey u) sid) s.redis = (.ok (), t) ∧ _
    by_cases hu : u = ""
    · rw [if_pos hu]
      exact ⟨_, rfl, h.sessionsIndex⟩
    · rw [if_neg hu, (h.userIndex u).exec_zrem]
      exact ⟨_, rfl, h.sessionsIndex.congr (data_setIndex_ne (by simp) _)⟩

theorem exec_revokeReused_ok (h : SessionInv r s) (hc : c ∈ s.minted) (userID : Option String)
    {members : List String} {t : Nat} (hlive : s.redis.now ≤ t)
    (hms : s.redis.data (r.lineageMembersKey c.sid.text) = some ⟨.set members, some t⟩) :
    ∃ redis, exec (revokeReused r c.sid.text userID) s.redis = (.ok (), redis) := by
  obtain ⟨f, hf⟩ := h.hashAt_lineage hc
  have hmarked := inv_mark_lineage h _ hf
  have hset : (marked s.redis (r.lineageKey c.sid.text) f).setAt (r.lineageMembersKey c.sid.text) = .ok members := by
    refine setAt_of_get (Server.get_eq_some.mpr ⟨(data_marked_ne _ (by simp) f).trans hms, ?_⟩)
    exact (Entry.isLive_iff _ _).mpr fun x hx => by cases hx; exact hlive
  have hminted : ∀ m ∈ members, ∃ c ∈ s.minted, c.jti.text = m := by
    intro m hm
    obtain ⟨c', hc', hj, -⟩ := hmarked.mem_of_setAt hset m hm
    exact ⟨c', hc', hj⟩
  obtain ⟨t₁, h₁, hinv₁⟩ := exec_revokeMembers_ok members hmarked hminted
  obtain ⟨t₂, h₂, hindex⟩ := exec_unindexUser_ok c.sid.text userID hinv₁
  have hread : exec (smembers (r.lineageMembersKey c.sid.text)) (marked s.redis (r.lineageKey c.sid.text) f) =
      (.ok members, marked s.redis (r.lineageKey c.sid.text) f) := by simp [smembers, hset]
  unfold revokeReused
  rw [exec_bind_ok _ (exec_mark_ok hf), exec_bind_ok _ hread, exec_bind_ok _ h₁, exec_bind_ok _ h₂,
    hindex.exec_zrem]
  exact ⟨_, rfl⟩

/-- A consumed token that is still stored, of a lineage that is still open, is detected. -/
theorem reuse_detected (h : SessionInv r s) (hc : c ∈ s.minted) {cur : Fields} {t : Nat}
    (hd : s.redis.data (r.tokenKey c.jti.text) = some ⟨.hash cur, some t⟩)
    (hs : cur.lookup "status" = some "consumed") (hlive : s.redis.now ≤ t)
    (hopen : ¬ Revoked r s c.sid.text) (kid : String) (newJti : Uuid) (now : Int) :
    ∃ redis, rotateRefreshToken r (some kid) c newJti now s.redis = (.error .refreshTokenReused, redis) := by
  have hk : TokenKept r s.redis c cur t := by
    rcases h.tokens c hc with hrev | ⟨g, x, hg, hk⟩
    · exact absurd hrev (Consumed.not_revoked ⟨cur, some t, hd, hs⟩)
    · cases hd.symm.trans hg
      exact hk
  obtain ⟨lin, t', hl, ho⟩ := (h.lineages c hc).resolve_left hopen
  have ht' : s.redis.now ≤ t' := Nat.le_trans hlive (hk.outlived lin t' hl)
  obtain ⟨members, -, hms⟩ := ho.members ht'
  obtain ⟨redis, hredis⟩ := exec_revokeReused_ok h hc (some c.subject) ht' hms
  have hread : s.redis.hashAt (r.tokenKey c.jti.text) = .ok cur :=
    hashAt_of_get (Server.get_eq_some.mpr
      ⟨hd, (Entry.isLive_iff _ _).mpr fun x hx => by cases hx; exact hlive⟩)
  refine ⟨redis, ?_⟩
  have hrun : exec (rotateCall r c newJti now) s.redis =
      exec (revokeReused r c.sid.text (some c.subject) >>= fun _ =>
        return luaArray [some "REUSED", cur.lookup "sid", cur.lookup "user_id"]) s.redis := by
    unfold rotateCall rotateRefreshTokenScript
    rw [exec_hgetall_bind hread]
    simp only [entries_ne_nil hs, hs, exec_ite]
    simp [hk.sid, hk.user, Uuid.text_ne_empty]
  rw [rotate_eq h hc, hrun, exec_bind_ok _ hredis]
  simp [rotationResult, luaArray, hk.sid, hk.user]

/-- The presented token, once more, right after its rotation. -/
theorem replay_detected (h : SessionInv r s) {cur lin : Fields} {members : List String} {created : Int}
    (ha : Accepts r s c cur lin members created) (hj : FreshJti s newJti) (kid : String) (again : Uuid) (later : Int) :
    ∃ redis, rotateRefreshToken r (some kid) c again later
      (rotated r s.redis c newJti now created cur ∅ lin members) = (.error .refreshTokenReused, redis) := by
  have hlive : (rotated r s.redis c newJti now created cur ∅ lin members).now ≤ deadline r s.redis :=
    Nat.le_add_right _ _
  exact reuse_detected (inv_rotated h ha hj) (List.mem_append_left _ ha.minted)
    (rotated_old (hj c ha.minted).symm) (by simp) hlive not_revoked_rotated kid again later

end Replay

end Chinwag.Auth

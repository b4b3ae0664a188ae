import Chinwag.Auth.UserRevocation

/-!
# What a revocation cleans up

Every token that can still be read is in the set of its lineage, so `RevokeLineage` reaches all of
them. The index entry of the owner goes by the record of whichever member is listed first.
-/
namespace Chinwag.Auth

open Redis Script Program Transition

variable {r : RefreshConfig} {s t : Sessions} {c : RefreshTokenClaims}

/-- The set of the lineage names the token as long as its record lasts. -/
structure Named (r : RefreshConfig) (s : Server) (c : RefreshTokenClaims) (last : Nat) (ms : List String) (x : Nat) :
    Prop where
  members : s.data (r.lineageMembersKey c.sid.text) = some ⟨.set ms, some x⟩
  outlived : last ≤ x
  mem : c.jti.text ∈ ms

/-- A token that was not revoked is named by its lineage. -/
def Listed (r : RefreshConfig) (s : Sessions) : Prop :=
  ∀ c ∈ s.minted, Status s.redis (r.tokenKey c.jti.text) "revoked" ∨
    ∃ f t, s.redis.data (r.tokenKey c.jti.text) = some ⟨.hash f, some t⟩ ∧
      (s.redis.now ≤ t → ∃ ms x, Named r s.redis c t ms x)

section Listing

theorem Listed.congr {t : Server} (h : Listed r s) (hnow : s.redis.now ≤ t.now)
    (htoken : ∀ c ∈ s.minted, t.data (r.tokenKey c.jti.text) = s.redis.data (r.tokenKey c.jti.text) ∨
      Status t (r.tokenKey c.jti.text) "revoked")
    (hmembers : ∀ c ∈ s.minted, ∀ ms x, s.redis.now ≤ x →
      s.redis.data (r.lineageMembersKey c.sid.text) = some ⟨.set ms, some x⟩ →
      t.data (r.lineageMembersKey c.sid.text) = some ⟨.set ms, some x⟩) :
    Listed r ⟨t, s.minted⟩ := by
  intro c hc
  rcases htoken c hc with hsame | hrev
  · rcases h c hc with hrev | ⟨f, last, hd, hnamed⟩
    · exact Or.inl (hrev.congr hsame)
    · refine Or.inr ⟨f, last, hsame.trans hd, fun hlive => ?_⟩
      have hle : s.redis.now ≤ last := Nat.le_trans hnow hlive
      obtain ⟨ms, x, hn⟩ := hnamed hle
      exact ⟨ms, x, hmembers c hc ms x (Nat.le_trans hle hn.outlived) hn.members, hn.outlived, hn.mem⟩
  · exact Or.inl hrev

theorem Listed.after (h : Listed r s) (ms : Nat) : Listed r ⟨s.redis.after ms, s.minted⟩ :=
  h.congr (Nat.le_add_right _ ms) (fun _ _ => Or.inl rfl) fun _ _ _ _ _ hm => hm

theorem Listed.mark_lineage (h : Listed r s) (lg : String) {f : Fields}
    (hf : s.redis.hashAt (r.lineageKey lg) = .ok f) : Listed r ⟨marked s.redis (r.lineageKey lg) f, s.minted⟩ := by
  refine h.congr (Nat.le_refl _) (fun c _ => Or.inl (data_marked_ne _ (by simp) f)) fun c _ ms x hx hm => ?_
  rw [data_marked_ne _ _ f, hm]
  intro heq
  rw [heq] at hm
  exact not_hashAt_of_set hm (fun _ hy => by cases hy; exact hx) hf

theorem token_marked (s : Server) (u : Uuid) (f : Fields) (v : Uuid) :
    (marked s (r.tokenKey u.text) f).data (r.tokenKey v.text) = s.data (r.tokenKey v.text) ∨
      Status (marked s (r.tokenKey u.text) f) (r.tokenKey v.text) "revoked" := by
  by_cases heq : v = u
  · rw [heq]
    exact Or.inr (status_marked _ _ f)
  · exact Or.inl (data_marked_ne _ (by simpa using heq) f)

theorem Listed.mark_token (h : Listed r s) (u : Uuid) (f : Fields) :
    Listed r ⟨marked s.redis (r.tokenKey u.text) f, s.minted⟩ :=
  h.congr (Nat.le_refl _) (fun c _ => token_marked _ u f c.jti)
    fun c _ ms x _ hm => (data_marked_ne _ (by simp) f).trans hm

theorem Listed.on_setIndex (h : Listed r s) {key : String} (hk : IndexKey r key) (scores : Scores) :
    Listed r ⟨setIndex s.redis key scores, s.minted⟩ := by
  have hne : ∀ other, ¬ IndexKey r other → (setIndex s.redis key scores).data other = s.redis.data other :=
    fun _ ho => data_setIndex_other hk ho scores
  exact h.congr (Nat.le_refl _) (fun c _ => Or.inl (hne _ (not_indexKey_token _)))
    fun c _ ms x _ hm => (hne _ (not_indexKey_members _)).trans hm

theorem Listed.on_revokeReused (h : Listed r s) (hinv : SessionInv r s) (hc : c ∈ s.minted) (userID : Option String) :
    Listed r ⟨(exec (revokeReused r c.sid.text userID) s.redis).2, s.minted⟩ :=
  revokeReused_rule hinv hc (P := fun t => Listed r ⟨t, s.minted⟩) (fun _ hf => h.mark_lineage _ hf)
    (fun _ f c' _ _ ht => ht.mark_token c'.jti f) (fun _ _ hk _ ht => ht.on_setIndex hk _) userID

theorem Listed.on_issued (h : Listed r s) {sid jti : Uuid} {user jkt : String} {now : Int} (hjti : FreshJti s jti)
    (hs : FreshSid r s sid) :
    Listed r ⟨issued r s.redis sid jti user jkt now, s.minted ++ [⟨user, jti, sid, jkt⟩]⟩ := by
  intro c hc
  rcases List.mem_append.mp hc with hc | hc
  · have hold : Listed r ⟨issued r s.redis sid jti user jkt now, s.minted⟩ := by
      refine h.congr (Nat.le_refl _) (fun c hc => Or.inl ?_) fun c hc ms x _ hm => ?_
      · simp [issued, Server.data_set, hjti c hc]
      · rw [← hm]
        simp [issued, Server.data_set, hs.unused c hc]
    exact hold c hc
  · obtain rfl := List.mem_singleton.mp hc
    exact Or.inr ⟨_, _, issued_token, fun _ => ⟨_, _, issued_members, Nat.le_refl _, List.mem_singleton_self _⟩⟩

theorem Listed.on_rotated (h : Listed r s) (hinv : SessionInv r s) {cur lin : Fields} {members : List String}
    {created : Int} (ha : Accepts r s c cur lin members created) {newJti : Uuid} (hj : FreshJti s newJti) (now : Int) :
    Listed r ⟨rotated r s.redis c newJti now created cur ∅ lin members,
      s.minted ++ [⟨c.subject, newJti, c.sid, c.jkt⟩]⟩ := by
  obtain ⟨last, hd, -, hlive⟩ := ha.token
  obtain ⟨t', -, ho, hm⟩ := ha.lineage
  -- whoever was named before is named still, and not past the deadline
  have hnamed : ∀ c' ∈ s.minted, ∀ last, s.redis.now ≤ last → c'.sid = c.sid →
      (∃ ms x, Named r s.redis c' last ms x) → last ≤ deadline r s.redis ∧ c'.jti.text ∈ members.insert newJti.text := by
    rintro c' - last - hsid ⟨ms, x, hn⟩
    have hset := hn.members
    rw [hsid] at hset
    cases hm.symm.trans hset
    exact ⟨Nat.le_trans hn.outlived ho.bounded, List.mem_insert_of_mem hn.mem⟩
  intro c' hc'
  rcases List.mem_append.mp hc' with hold | hnew
  · by_cases hjc : c'.jti = c.jti
    · obtain rfl := hinv.jti_inj c' hold c ha.minted hjc
      refine Or.inr ⟨_, _, rotated_old (hj c' hold).symm, fun _ => ⟨_, _, rotated_members, Nat.le_refl _, ?_⟩⟩
      rcases h c' hold with hrev | ⟨f, last', hf, hn⟩
      · exact absurd (Or.inr hrev) ha.not_spent
      · cases hd.symm.trans hf
        exact (hnamed c' hold last hlive rfl (hn hlive)).2
    · have hsame : (rotated r s.redis c newJti now created cur ∅ lin members).data (r.tokenKey c'.jti.text) =
          s.redis.data (r.tokenKey c'.jti.text) := rotated_token_ne hjc (hj c' hold)
      rcases h c' hold with hrev | ⟨f, last', hf, hn⟩
      · exact Or.inl (hrev.congr hsame)
      · refine Or.inr ⟨f, last', hsame.trans hf, fun hle => ?_⟩
        by_cases hsid : c'.sid = c.sid
        · obtain ⟨hbound, hmem⟩ := hnamed c' hold last' hle hsid (hn hle)
          refine ⟨_, _, ?_, hbound, hmem⟩
          rw [hsid]
          exact rotated_members
        · obtain ⟨ms, x, hn⟩ := hn hle
          refine ⟨ms, x, ?_, hn.outlived, hn.mem⟩
          exact (rotated_members_ne (by simpa using hsid)).trans hn.members
  · obtain rfl := List.mem_singleton.mp hnew
    exact Or.inr ⟨_, _, rotated_new, fun _ => ⟨_, _, rotated_members, Nat.le_refl _, List.mem_insert_self⟩⟩

theorem Listed.on_env (h : Listed r s) (hinv : SessionInv r s) {e : Event} (he : Env r s e t) : Listed r t := by
  cases envEffect hinv he with
  | same => exact h
  | issued hjti hsid => exact h.on_issued hjti hsid
  | rotated ha hjti now => exact h.on_rotated hinv ha hjti now
  | reused hc => exact h.on_revokeReused hinv hc _
  | passed ms => exact h.after ms

theorem Listed.on_serve (h : Listed r s) (hinv : SessionInv r s) {cmd : CacheCmd} (hcmd : Allowed r s cmd) :
    Listed r ⟨(serve cmd s.redis).2, s.minted⟩ := by
  cases cmd with
  | hset key fields =>
    obtain ⟨rfl, hkey⟩ := hcmd
    simp only [serve]
    rcases exec_mark s.redis key with ⟨e, he⟩ | ⟨f, hf, he⟩
    · rw [he]
      exact h
    · rw [he]
      rcases hkey with ⟨sid, rfl⟩ | ⟨c, -, rfl⟩
      · exact h.mark_lineage sid hf
      · exact h.mark_token c.jti f
  | expire => exact hcmd.elim
  | hgetall => exact h
  | smembers => exact h
  | zrem key member =>
    simp only [serve]
    rw [(hinv.isIndex hcmd.1).exec_zrem]
    exact h.on_setIndex hcmd.1 _
  | zrevrange => exact h

theorem listed_of_reachable {pool : SessionPool} (h : Reachable (SessionStep r) (SessionInit r) pool) :
    SessionGood r pool ∧ Listed r pool.shared := by
  have hinit : ∀ p, SessionInit r p → SessionGood r p ∧ Listed r p.shared := by
    intro p hp
    refine ⟨good_init hp, ?_⟩
    rw [Listed, hp.2.1]
    nofun
  refine h.invariant hinit fun p l p' ⟨hg, hl⟩ hst => ⟨good_step hg hst, ?_⟩
  cases hst with
  | cmd hi hexec =>
    have hserved := hl.on_serve hg.shared (hg.guar sessionContract_sound hi)
    rcases hexec with ⟨-, rfl⟩ | ⟨-, rfl | rfl⟩
    · exact hserved
    · exact hl
    · exact hserved
  | spawn => exact hl
  | env he => exact hl.on_env hg.shared he

end Listing

section Calls

/-- The record of this member still names its owner at the given time. -/
def NamesUser (r : RefreshConfig) (s : Sessions) (m : String) (time : Nat) (user : String) : Prop :=
  ∃ f x, s.redis.data (r.tokenKey m) = some ⟨.hash f, x⟩ ∧ (∀ y, x = some y → time ≤ y) ∧
    f.lookup "user_id" = some user

/-- What the steps of a revocation leave of the records and of the sets of members. -/
structure Kept (r : RefreshConfig) (s t : Sessions) : Prop where
  minted : t.minted = s.minted
  now : s.redis.now ≤ t.redis.now
  members : ∀ sid, t.redis.data (r.lineageMembersKey sid) = s.redis.data (r.lineageMembersKey sid)
  token : ∀ c ∈ s.minted, t.redis.data (r.tokenKey c.jti.text) = s.redis.data (r.tokenKey c.jti.text) ∨
    Status t.redis (r.tokenKey c.jti.text) "revoked"
  lineage : ∀ sid, Revoked r s sid → Revoked r t sid
  user : ∀ m time user, t.redis.now ≤ time → NamesUser r s m time user → NamesUser r t m time user

theorem Kept.trans {u : Sessions} (h₁ : Kept r s t) (h₂ : Kept r t u) : Kept r s u where
  minted := h₂.minted.trans h₁.minted
  now := Nat.le_trans h₁.now h₂.now
  members := fun sid => (h₂.members sid).trans (h₁.members sid)
  token := by
    intro c hc
    have hct : c ∈ t.minted := h₁.minted.symm ▸ hc
    rcases h₂.token c hct with hsame | hrev
    · exact (h₁.token c hc).imp hsame.trans (Status.congr hsame)
    · exact Or.inr hrev
  lineage := fun sid hs => h₂.lineage sid (h₁.lineage sid hs)
  user := fun m time user ht hn => h₂.user m time user ht (h₁.user m time user (Nat.le_trans h₂.now ht) hn)

theorem Kept.revoked (h : Kept r s t) (hc : c ∈ s.minted) (hs : Status s.redis (r.tokenKey c.jti.text) "revoked") :
    Status t.redis (r.tokenKey c.jti.text) "revoked" := by
  rcases h.token c hc with hsame | hrev
  · exact hs.congr hsame
  · exact hrev

theorem Passing.kept (h : Passing s t) : Kept r s t where
  minted := h.minted
  now := h.now
  members := fun _ => by rw [h.data]
  token := fun _ _ => Or.inl (by rw [h.data])
  lineage := fun _ hs => hs.congr (by rw [h.data])
  user := by
    intro m time user _ hn
    rwa [NamesUser, h.data]

theorem NamesUser.marked {m user : String} {time : Nat} (h : NamesUser r s m time user) (hlive : s.redis.now ≤ time)
    {key : String} {f : Fields} (hf : s.redis.hashAt key = .ok f) :
    NamesUser r ⟨marked s.redis key f, s.minted⟩ m time user := by
  obtain ⟨g, x, hd, hx, huser⟩ := h
  by_cases heq : r.tokenKey m = key
  · subst heq
    have hlast : ∀ y, x = some y → s.redis.now ≤ y := fun y hy => Nat.le_trans hlive (hx y hy)
    cases (hashAt_of_live hd hlast).symm.trans hf
    have hget := Server.get_eq_some.mpr ⟨hd, (Entry.isLive_iff _ _).mpr hlast⟩
    refine ⟨setFields f [("status", "revoked")], x, ?_, hx, ?_⟩
    · rw [Auth.marked, Server.put, Server.data_set_self, Server.ttl, hget]
      rfl
    · rw [← huser]
      simp
  · exact ⟨g, x, (data_marked_ne _ heq f).trans hd, hx, huser⟩

theorem kept_mark_token (s : Sessions) (u : Uuid) {f : Fields} (hf : s.redis.hashAt (r.tokenKey u.text) = .ok f) :
    Kept r s ⟨marked s.redis (r.tokenKey u.text) f, s.minted⟩ where
  minted := rfl
  now := Nat.le_refl _
  members := fun _ => data_marked_ne _ (by simp) f
  token := fun c _ => token_marked _ u f c.jti
  lineage := fun _ hs => hs.congr (data_marked_ne _ (by simp) f)
  user := fun _ _ _ hlive hn => hn.marked hlive hf

theorem kept_mark_lineage (s : Sessions) (sid : Uuid) {f : Fields} (hf : s.redis.hashAt (r.lineageKey sid.text) = .ok f) :
    Kept r s ⟨marked s.redis (r.lineageKey sid.text) f, s.minted⟩ where
  minted := rfl
  now := Nat.le_refl _
  members := fun _ => data_marked_ne _ (by simp) f
  token := fun _ _ => Or.inl (data_marked_ne _ (by simp) f)
  lineage := (later_mark_lineage s _ f).revoked
  user := fun _ _ _ hlive hn => hn.marked hlive hf

theorem kept_setIndex (s : Sessions) {key : String} (hk : IndexKey r key) (hi : IsIndex s.redis key) (scores : Scores) :
    Kept r s ⟨setIndex s.redis key scores, s.minted⟩ := by
  have hne : ∀ other, ¬ IndexKey r other → (setIndex s.redis key scores).data other = s.redis.data other :=
    fun _ ho => data_setIndex_other hk ho scores
  refine ⟨rfl, Nat.le_refl _, fun _ => hne _ (not_indexKey_members _), fun _ _ => Or.inl (hne _ (not_indexKey_token _)),
    (later_unindex s hk scores).revoked, ?_⟩
  rintro m time user - ⟨f, x, hd, hx, huser⟩
  have hm : r.tokenKey m ≠ key := by
    rintro rfl
    rcases hi with hnone | ⟨g, hz⟩
    · cases hd.symm.trans hnone
    · cases hd.symm.trans hz
  exact ⟨f, x, (data_setIndex_ne hm scores).trans hd, hx, huser⟩

/-- A quiet `HSET key status revoked`. -/
theorem quiet_mark {key : String} {a : Except RedisError Unit}
    (h : Quiet (hSet key [("status", "revoked")] 0) s a t) : ∃ s₁, Passing s s₁ ∧
      ((∃ e, a = .error e) ∨ ∃ f, s₁.redis.hashAt key = .ok f ∧ a = .ok () ∧ t = ⟨marked s₁.redis key f, s₁.minted⟩) := by
  obtain ⟨reply, m, h₁, h₂⟩ := h.of_bind
  obtain ⟨s₁, hp, hre, rfl⟩ := h₁.of_perform
  refine ⟨s₁, hp, ?_⟩
  have hreply : reply = (exec (hset key [("status", "revoked")]) s₁.redis).1 := hre
  rcases exec_mark s₁.redis key with ⟨e, he⟩ | ⟨f, hf, he⟩
  · rw [he] at hreply
    subst hreply
    obtain ⟨rfl, -⟩ := h₂.of_ret
    exact Or.inl ⟨e, rfl⟩
  · rw [he] at hreply
    subst hreply
    obtain ⟨rfl, rfl⟩ := h₂.of_ret
    refine Or.inr ⟨f, hf, rfl, ?_⟩
    simp only [serve, he]

/-- What a call that went through has made of the state it found. -/
structure Progress (r : RefreshConfig) (s t : Sessions) : Prop where
  inv : SessionInv r t
  listed : Listed r t
  kept : Kept r s t

theorem Progress.trans {u : Sessions} (h₁ : Progress r s t) (h₂ : Progress r t u) : Progress r s u :=
  ⟨h₂.inv, h₂.listed, h₁.kept.trans h₂.kept⟩

theorem Passing.progress (h : Passing s t) (hinv : SessionInv r s) (hl : Listed r s) : Progress r s t := by
  obtain ⟨ms, rfl⟩ := h
  exact ⟨inv_after hinv ms, hl.after ms, Passing.kept ⟨ms, rfl⟩⟩

theorem quiet_markMembers {members : List String} (hinv : SessionInv r s) (hl : Listed r s)
    (hm : ∀ m ∈ members, ∃ c ∈ s.minted, c.jti.text = m) (h : Quiet (markMembers r members) s (.ok ()) t) :
    Progress r s t ∧ (∀ key, IndexKey r key → t.redis.data key = s.redis.data key) ∧
      ∀ c ∈ s.minted, c.jti.text ∈ members → Status t.redis (r.tokenKey c.jti.text) "revoked" := by
  induction members generalizing s with
  | nil =>
    obtain ⟨-, rfl⟩ := h.of_ret
    exact ⟨⟨hinv, hl, Passing.kept (.refl t)⟩, fun _ _ => rfl, fun _ _ hmem => nomatch hmem⟩
  | cons m rest ih =>
    obtain ⟨c, hc, rfl⟩ := hm m List.mem_cons_self
    obtain ⟨reply, m₁, h₁, h₂⟩ := h.of_bind
    obtain ⟨s₁, hp, ⟨e, rfl⟩ | ⟨f, hf, rfl, rfl⟩⟩ := quiet_mark h₁
    · cases h₂.of_ret.1
    have hfirst := hp.progress hinv hl
    have hc₁ : c ∈ s₁.minted := hp.minted.symm ▸ hc
    have hmark : Progress r s₁ ⟨marked s₁.redis (r.tokenKey c.jti.text) f, s₁.minted⟩ :=
      ⟨inv_mark_token hfirst.inv hc₁, hfirst.listed.mark_token c.jti f, kept_mark_token s₁ c.jti hf⟩
    have hrest : ∀ m ∈ rest, ∃ c ∈ s₁.minted, c.jti.text = m := by
      rw [hp.minted]
      exact fun m hm' => hm m (List.mem_cons_of_mem _ hm')
    obtain ⟨hdone, hindex, hall⟩ := ih hmark.inv hmark.listed hrest h₂
    refine ⟨hfirst.trans (hmark.trans hdone), fun key hk => ?_, fun c' hc' hmem => ?_⟩
    · rw [hindex key hk, data_marked_ne _ _ f, hp.data]
      rintro rfl
      simp [IndexKey] at hk
    · have hc'₁ : c' ∈ s₁.minted := hp.minted.symm ▸ hc'
      rcases List.mem_cons.mp hmem with heq | hmem
      · refine hdone.kept.revoked hc'₁ ?_
        rw [heq]
        exact status_marked _ _ f
      · exact hall c' hc'₁ hmem

theorem Progress.unindex (hinv : SessionInv r s) (hl : Listed r s) {key : String} (hk : IndexKey r key) {sid : String}
    (hrev : Revoked r s sid) : Progress r s ⟨setIndex s.redis key ((indexOf s.redis key).erase sid), s.minted⟩ := by
  have hrem : Removable r s sid := by
    rintro c - rfl
    exact hrev
  exact ⟨inv_unindex hinv hk hrem, hl.on_setIndex hk _, kept_setIndex s hk (hinv.isIndex hk) _⟩

theorem mem_erased {s : Server} {key other sid : String} (hmem : sid ∉ indexOf s other) :
    sid ∉ indexOf (setIndex s key ((indexOf s key).erase sid)) other := by
  by_cases heq : other = key
  · subst heq
    rw [indexOf_setIndex, AList.mem_erase]
    exact fun h => h.1 rfl
  · rwa [indexOf, data_setIndex_ne heq, ← indexOf]

theorem not_mem_erased (s : Server) (key sid : String) :
    sid ∉ indexOf (setIndex s key ((indexOf s key).erase sid)) key := by
  rw [indexOf_setIndex, AList.mem_erase]
  exact fun h => h.1 rfl

theorem Passing.indexOf (h : Passing s t) (key : String) : Redis.indexOf t.redis key = Redis.indexOf s.redis key := by
  unfold Redis.indexOf
  rw [h.data]

/-- A quiet removal of a revoked lineage from an index. -/
theorem quiet_unindex {key sid : String} {a : Except RedisError Unit} (hinv : SessionInv r s) (hl : Listed r s)
    (hk : IndexKey r key) (hrev : Revoked r s sid) (h : Quiet (zRem key sid) s a t) : Progress r s t ∧
      sid ∉ indexOf t.redis key ∧ ∀ other, sid ∉ indexOf s.redis other → sid ∉ indexOf t.redis other := by
  obtain ⟨s₁, hp, -, rfl⟩ := h.of_perform
  have hpassed := hp.progress hinv hl
  simp only [serve]
  rw [(hpassed.inv.isIndex hk).exec_zrem]
  refine ⟨hpassed.trans (.unindex hpassed.inv hpassed.listed hk (hpassed.kept.lineage sid hrev)),
    not_mem_erased _ _ _, fun other hmem => mem_erased ?_⟩
  rwa [hp.indexOf]

/-- The owner is looked up in the record of the first member. -/
theorem quiet_unindexLineage {sid : String} (user : String) {members : List String} (hinv : SessionInv r s) (hl : Listed r s)
    (hrev : Revoked r s sid) (h : Quiet (unindexLineage r sid members) s () t) : Progress r s t ∧
      (sid ∉ indexOf s.redis (r.userKey user) → sid ∉ indexOf t.redis (r.userKey user)) ∧
      ∀ first time, members.head? = some first → user ≠ "" → t.redis.now ≤ time → NamesUser r s first time user →
        sid ∉ indexOf t.redis (r.userKey user) := by
  cases members with
  | nil =>
    obtain ⟨-, rfl⟩ := h.of_ret
    exact ⟨(Passing.refl t).progress hinv hl, fun hmem => hmem, nofun⟩
  | cons first rest =>
    obtain ⟨reply, m, h₁, h₂⟩ := h.of_bind
    obtain ⟨hp, hread⟩ := quiet_getRecord h₁
    have hpassed := hp.progress hinv hl
    have hkept : ∀ {u}, m = u → (sid ∉ indexOf s.redis (r.userKey user) → sid ∉ indexOf u.redis (r.userKey user)) := by
      rintro u rfl hmem
      rwa [hp.indexOf]
    -- a record that still names the user is the one that is read
    have hnamed : ∀ first' time, (first :: rest).head? = some first' → m.redis.now ≤ time →
        NamesUser r s first' time user → ∃ rec, reply = .ok rec ∧ rec.userID = user := by
      rintro first' time hfirst htime ⟨f, x, hd, hx, huser⟩
      cases hfirst
      refine ⟨_, hread f x hd (entries_ne_nil huser) fun y hy => Nat.le_trans htime (hx y hy), ?_⟩
      rw [toRecord, field, huser]
      rfl
    cases reply with
    | error e =>
      obtain ⟨-, rfl⟩ := h₂.of_ret
      refine ⟨hpassed, hkept rfl, fun first' time hfirst hne htime hn => ?_⟩
      obtain ⟨rec, hrec, -⟩ := hnamed first' time hfirst htime hn
      cases hrec
    | ok rec =>
      change Quiet (if rec.userID = "" then _ else _) m () t at h₂
      split at h₂
      · rename_i hempty
        obtain ⟨-, rfl⟩ := h₂.of_ret
        refine ⟨hpassed, hkept rfl, fun first' time hfirst hne htime hn => ?_⟩
        obtain ⟨rec', hrec, huser⟩ := hnamed first' time hfirst htime hn
        cases hrec
        exact absurd (huser.symm.trans hempty) hne
      · obtain ⟨a, m₂, h₃, h₄⟩ := h₂.of_bind
        obtain ⟨-, rfl⟩ := h₄.of_ret
        have hrev₁ := hpassed.kept.lineage sid hrev
        obtain ⟨hremoved, hgone, hothers⟩ := quiet_unindex hpassed.inv hpassed.listed (Or.inr ⟨_, rfl⟩) hrev₁ h₃
        refine ⟨hpassed.trans hremoved, fun hmem => hothers _ (hkept rfl hmem), ?_⟩
        intro first' time hfirst hne htime hn
        obtain ⟨rec', hrec, huser⟩ := hnamed first' time hfirst (Nat.le_trans hremoved.kept.now htime) hn
        cases hrec
        rwa [← huser]

end Calls

section Cleanup

/-- Nothing of the lineage is left to be used or listed. -/
structure CleanedUp (r : RefreshConfig) (t : Sessions) (minted : List RefreshTokenClaims) (c : RefreshTokenClaims) : Prop where
  records : ∀ c' ∈ minted, c'.sid = c.sid → ∀ e, t.redis.get (r.tokenKey c'.jti.text) = some e →
    Status t.redis (r.tokenKey c'.jti.text) "revoked"
  sessions : c.sid.text ∉ indexOf t.redis r.sessionsKey
  owner : c.sid.text ∉ indexOf t.redis (r.userKey c.subject)

/-- Every call of `RevokeLineage` from here that takes no longer than this and returns no error cleans up. -/
def CleansUp (r : RefreshConfig) (s : Sessions) (c : RefreshTokenClaims) (wait : Nat) : Prop :=
  ∀ t, Quiet (revokeLineage r c.sid.text) s (.ok ()) t → t.redis.now ≤ s.redis.now + wait → CleanedUp r t s.minted c

/-- The lineage is not in the index of its owner, or the record of each member names the owner. -/
def OwnerNamed (r : RefreshConfig) (s : Server) (c : RefreshTokenClaims) : Prop :=
  c.sid.text ∉ indexOf s (r.userKey c.subject) ∨
    ∀ ms, s.setAt (r.lineageMembersKey c.sid.text) = .ok ms → ms ≠ [] ∧ c.subject ≠ "" ∧
      ∀ m ∈ ms, ∃ f, s.hashAt (r.tokenKey m) = .ok f ∧ f.lookup "user_id" = some c.subject

/-- What can be read later could be read earlier. -/
theorem get_earlier {s t : Server} {key : String} {e : Entry} (hd : t.data key = s.data key) (hnow : t.now ≤ s.now)
    (h : s.get key = some e) : t.get key = some e := by
  obtain ⟨hdata, hlive⟩ := Server.get_eq_some.mp h
  exact Server.get_eq_some.mpr ⟨hd.trans hdata, Entry.isLive_of_le hnow hlive⟩

/-- A set that is not empty later is the set that was read earlier. -/
theorem setAt_earlier {s t : Server} {key : String} {ms : List String} (hd : t.data key = s.data key)
    (hnow : t.now ≤ s.now) (hne : ∀ ms, s.setAt key = .ok ms → ms ≠ []) (h : t.setAt key = .ok ms) :
    s.setAt key = .ok ms := by
  cases hg : s.get key with
  | none =>
    have hempty : s.setAt key = .ok [] := by simp [Server.setAt, hg]
    exact absurd rfl (hne [] hempty)
  | some e => rwa [setAt_congr (hg.trans (get_earlier hd hnow hg).symm)]

theorem cleansUp_of_ownerNamed (hinv : SessionInv r s) (hl : Listed r s) (wait : Nat)
    (hnamed : OwnerNamed r (s.redis.after wait) c) : CleansUp r s c wait := by
  intro t hrun hdone
  unfold revokeLineage at hrun
  rw [if_neg (Uuid.text_ne_empty c.sid)] at hrun
  obtain ⟨reply, m₁, h₁, hrun⟩ := hrun.of_bind
  obtain ⟨s₁, hp₁, ⟨e, rfl⟩ | ⟨f, hf, rfl, rfl⟩⟩ := quiet_mark h₁
  · cases hrun.of_ret.1
  have hpassed₁ := hp₁.progress hinv hl
  have hmarked : Progress r s ⟨marked s₁.redis (r.lineageKey c.sid.text) f, s₁.minted⟩ :=
    hpassed₁.trans ⟨inv_mark_lineage hpassed₁.inv _ hf, hpassed₁.listed.mark_lineage _ hf, kept_mark_lineage s₁ c.sid hf⟩
  have hrev₁ : Revoked r ⟨marked s₁.redis (r.lineageKey c.sid.text) f, s₁.minted⟩ c.sid.text := status_marked _ _ f
  obtain ⟨reply, m₂, h₂, hrun⟩ := hrun.of_bind
  obtain ⟨s₂, hp₂, hre, rfl⟩ := h₂.of_perform
  have hread := hp₂.progress hmarked.inv hmarked.listed
  have hsofar := hmarked.trans hread
  obtain ⟨ms, members, hset, hperm, rfl⟩ : ∃ ms members, s₂.redis.setAt (r.lineageMembersKey c.sid.text) = .ok ms ∧
      ms.Perm members ∧ reply = .ok members := by
    cases reply with
    | error e => cases hrun.of_ret.1
    | ok members =>
      simp only [serve, smembers, exec_of] at hre
      cases hset : s₂.redis.setAt (r.lineageMembersKey c.sid.text) with
      | error e =>
        rw [hset] at hre
        cases hre
      | ok ms =>
        rw [hset] at hre
        exact ⟨ms, members, rfl, hre, rfl⟩
  have hminted : ∀ m ∈ members, ∃ c' ∈ s₂.minted, c'.jti.text = m := by
    intro m hm
    obtain ⟨c', hc', hj, -⟩ := hread.inv.mem_of_setAt hset m (hperm.mem_iff.mpr hm)
    exact ⟨c', hc', hj⟩
  obtain ⟨reply, m₃, h₃, hrun⟩ := hrun.of_bind
  cases reply with
  | error e => cases hrun.of_ret.1
  | ok _ =>
  obtain ⟨hmembers, hindex, hall⟩ := quiet_markMembers hread.inv hread.listed hminted h₃
  have hrev₃ := hmembers.kept.lineage _ (hread.kept.lineage _ hrev₁)
  obtain ⟨⟨⟩, m₄, h₄, hrun⟩ := hrun.of_bind
  obtain ⟨hunindexed, hstays, hgoes⟩ := quiet_unindexLineage c.subject hmembers.inv hmembers.listed hrev₃ h₄
  obtain ⟨a, m₅, h₅, hrun⟩ := hrun.of_bind
  obtain ⟨-, rfl⟩ := hrun.of_ret
  have hrev₄ := hunindexed.kept.lineage _ hrev₃
  obtain ⟨hremoved, hgone, hothers⟩ := quiet_unindex hunindexed.inv hunindexed.listed (Or.inl rfl) hrev₄ h₅
  have hrest := hmembers.trans (hunindexed.trans hremoved)
  refine ⟨fun c' hc' hsid e he => ?_, hgone, hothers _ ?_⟩
  · have hc₂ : c' ∈ s₂.minted := hsofar.kept.minted.symm ▸ hc'
    rcases hread.listed c' hc₂ with hrev | ⟨f', last, hd, hlisted⟩
    · exact hrest.kept.revoked hc₂ hrev
    by_cases hlast : s₂.redis.now ≤ last
    · obtain ⟨ms', x, hn⟩ := hlisted hlast
      have hset' := hn.members
      rw [hsid] at hset'
      have hlive : ∀ y, some x = some y → s₂.redis.now ≤ y := by
        rintro y ⟨⟩
        exact Nat.le_trans hlast hn.outlived
      cases (setAt_of_live hset' hlive).symm.trans hset
      exact (hunindexed.trans hremoved).kept.revoked (hmembers.kept.minted.symm ▸ hc₂)
        (hall c' hc₂ (hperm.mem_iff.mp hn.mem))
    · rcases hrest.kept.token c' hc₂ with hsame | hrev
      · obtain ⟨hdata, hlive⟩ := Server.get_eq_some.mp he
        cases (hsame.trans hd).symm.trans hdata
        have hle := (Entry.isLive_iff _ _).mp hlive last rfl
        exact absurd (Nat.le_trans hrest.kept.now hle) hlast
      · exact hrev
  · rcases hnamed with hout | hnamed
    · have hfirst : c.sid.text ∉ indexOf s₂.redis (r.userKey c.subject) := by
        rwa [hp₂.indexOf, indexOf, data_marked_ne _ (by simp) f, ← indexOf, hp₁.indexOf]
      have hindexed : indexOf m₃.redis (r.userKey c.subject) = indexOf s₂.redis (r.userKey c.subject) := by
        unfold indexOf
        rw [hindex _ (Or.inr ⟨_, rfl⟩)]
      refine hstays ?_
      rwa [hindexed]
    · have hall_time : s₂.redis.now ≤ (s.redis.after wait).now := Nat.le_trans hrest.kept.now hdone
      have hset' := setAt_earlier (s := s.redis.after wait) (hsofar.kept.members c.sid.text) hall_time
        (fun ms hms => (hnamed ms hms).1) hset
      obtain ⟨hne, hsubject, hrecords⟩ := hnamed ms hset'
      cases hmem : members with
      | nil => exact absurd (hmem ▸ hperm).eq_nil hne
      | cons first rest =>
        obtain ⟨f', hf', huser⟩ := hrecords first (hperm.mem_iff.mpr (hmem ▸ List.mem_cons_self))
        have hnames : NamesUser r s first (s.redis.after wait).now c.subject := by
          obtain ⟨-, rfl⟩ | ⟨x, hx⟩ := hashAt_ok hf'
          · cases huser
          · obtain ⟨hd, hlive⟩ := Server.get_eq_some.mp hx
            exact ⟨f', x, hd, (Entry.isLive_iff _ _).mp hlive, huser⟩
        have htime := (Nat.le_trans hremoved.kept.now hdone : m₄.redis.now ≤ (s.redis.after wait).now)
        have hbefore := Nat.le_trans hunindexed.kept.now htime
        exact hgoes first _ (hmem ▸ rfl) hsubject htime ((hsofar.trans hmembers).kept.user _ _ _ hbefore hnames)

/-- The record of the member, if there is one, does not name this user. -/
def Anonymous (r : RefreshConfig) (s : Server) (m user : String) : Prop :=
  ∀ f, s.hashAt (r.tokenKey m) = .ok f → f.lookup "user_id" ≠ some user

theorem Anonymous.marked {s : Server} {m user key : String} (h : Anonymous r s m user) {f : Fields}
    (hf : s.hashAt key = .ok f) : Anonymous r (marked s key f) m user := by
  intro g hg
  by_cases heq : r.tokenKey m = key
  · subst heq
    have hread : (Auth.marked s (r.tokenKey m) f).hashAt (r.tokenKey m) = .ok (setFields f [("status", "revoked")]) :=
      hashAt_of_get (get_put_self s _ _)
    cases hread.symm.trans hg
    simpa using h f hf
  · rw [hashAt_congr (Server.get_congr (data_marked_ne _ heq f) rfl)] at hg
    exact h g hg

theorem run_markMembers_named {members : List String} (hinv : SessionInv r s)
    (hm : ∀ m ∈ members, ∃ c ∈ s.minted, c.jti.text = m) :
    ∃ t, Quiet (markMembers r members) s (.ok ()) t ∧ SessionInv r t ∧ Later r s t ∧ t.redis.now = s.redis.now ∧
      (∀ key, IndexKey r key → t.redis.data key = s.redis.data key) ∧
      ∀ m user, Anonymous r s.redis m user → Anonymous r t.redis m user := by
  induction members generalizing s with
  | nil => exact ⟨s, .ret _ _, hinv, .refl s, rfl, fun _ _ => rfl, fun _ _ h => h⟩
  | cons first rest ih =>
    obtain ⟨c, hc, rfl⟩ := hm first List.mem_cons_self
    obtain ⟨f, hf⟩ := hinv.hashAt_token hc
    obtain ⟨t, hrun, ht, hlater, hnow, hindex, hanon⟩ := ih (inv_mark_token hinv hc)
      fun m hm' => hm m (List.mem_cons_of_mem _ hm')
    refine ⟨t, (run_mark hf).bind hrun, ht, (later_mark_token s c f).trans hlater, hnow, fun key hk => ?_,
      fun m user h => hanon m user (h.marked hf)⟩
    rw [hindex key hk]
    refine data_marked_ne _ ?_ f
    rintro rfl
    simp [IndexKey] at hk

theorem run_zRem (hinv : SessionInv r s) {key : String} (hk : IndexKey r key) (member : String) :
    Quiet (zRem key member) s (.ok ()) ⟨setIndex s.redis key ((indexOf s.redis key).erase member), s.minted⟩ := by
  have hexec := (hinv.isIndex hk).exec_zrem member
  refine .perform (.refl s) ⟨?_, ?_⟩
  · simp only [serve, hexec]
    rfl
  · simp only [serve, hexec]

/-- A revocation whose first member does not name the user leaves the index of that user alone. -/
theorem run_unindexLineage_anonymous {sid user : String} {members : List String} (hinv : SessionInv r s)
    (hrev : Revoked r s sid) (hin : sid ∈ indexOf s.redis (r.userKey user))
    (hfirst : ∀ first, members.head? = some first → user = "" ∨ Anonymous r s.redis first user) :
    ∃ t, Quiet (unindexLineage r sid members) s () t ∧ SessionInv r t ∧ t.redis.now = s.redis.now ∧
      sid ∈ indexOf t.redis (r.userKey user) := by
  cases members with
  | nil => exact ⟨s, .ret _ _, hinv, rfl, hin⟩
  | cons first rest =>
    have hread := run_hGetAll s (r.tokenKey first)
    cases hf : s.redis.hashAt (r.tokenKey first) with
    | error e =>
      rw [hf] at hread
      exact ⟨s, (hread.bind (.ret _ _)).bind (.ret _ _), hinv, rfl, hin⟩
    | ok f =>
      rw [hf] at hread
      by_cases hempty : f.entries.isEmpty = true
      · have hrecord : Quiet (getRecord r first) s (.error .cacheNotFound) s := by
          refine hread.bind ?_
          change Quiet (if f.entries.isEmpty then _ else _) s _ s
          rw [if_pos hempty]
          exact .ret _ _
        exact ⟨s, hrecord.bind (.ret _ _), hinv, rfl, hin⟩
      have hrecord : Quiet (getRecord r first) s (.ok (toRecord f)) s := by
        refine hread.bind ?_
        change Quiet (if f.entries.isEmpty then _ else _) s _ s
        rw [if_neg hempty]
        exact .ret _ _
      by_cases huser : (toRecord f).userID = ""
      · refine ⟨s, hrecord.bind ?_, hinv, rfl, hin⟩
        change Quiet (if (toRecord f).userID = "" then _ else _) s _ s
        rw [if_pos huser]
        exact .ret _ _
      · -- another user is named, and it is the index of that one that is cleaned
        have hother : r.userKey user ≠ r.userKey (toRecord f).userID := by
          intro heq
          obtain rfl := (userKey_inj r _ _).mp heq
          rcases hfirst first rfl with hnone | hanon
          · exact huser hnone
          · refine hanon f hf ?_
            cases hlookup : f.lookup "user_id" with
            | none => simp [toRecord, field, hlookup] at huser
            | some u => simp [toRecord, field, hlookup]
        have hrem : Removable r s sid := by
          rintro c - rfl
          exact hrev
        refine ⟨_, hrecord.bind ?_, inv_unindex hinv (Or.inr ⟨(toRecord f).userID, rfl⟩) hrem, rfl, ?_⟩
        · change Quiet (if (toRecord f).userID = "" then _ else _) s _ _
          rw [if_neg huser]
          exact (run_zRem hinv (Or.inr ⟨_, rfl⟩) sid).bind (.ret _ _)
        · rwa [indexOf, data_setIndex_ne hother, ← indexOf]

theorem run_revokeLineage_anonymous {ms sent : List String} (hinv : SessionInv r s) (hc : c ∈ s.minted)
    (hset : s.redis.setAt (r.lineageMembersKey c.sid.text) = .ok ms) (hperm : ms.Perm sent)
    (hin : c.sid.text ∈ indexOf s.redis (r.userKey c.subject))
    (hfirst : ∀ first, sent.head? = some first → c.subject = "" ∨ Anonymous r s.redis first c.subject) :
    ∃ t, Quiet (revokeLineage r c.sid.text) s (.ok ()) t ∧ t.redis.now = s.redis.now ∧
      c.sid.text ∈ indexOf t.redis (r.userKey c.subject) := by
  obtain ⟨f, hf⟩ := hinv.hashAt_lineage hc
  have hmarked := inv_mark_lineage hinv _ hf
  have hset₁ : (marked s.redis (r.lineageKey c.sid.text) f).setAt (r.lineageMembersKey c.sid.text) = .ok ms :=
    (setAt_congr (Server.get_congr (data_marked_ne _ (by simp) f) rfl)).trans hset
  have hminted : ∀ m ∈ sent, ∃ c' ∈ s.minted, c'.jti.text = m := by
    intro m hm
    obtain ⟨c', hc', hj, -⟩ := hinv.mem_of_setAt hset m (hperm.mem_iff.mpr hm)
    exact ⟨c', hc', hj⟩
  have hrev₁ : Revoked r ⟨marked s.redis (r.lineageKey c.sid.text) f, s.minted⟩ c.sid.text := status_marked _ _ f
  obtain ⟨t₂, hr₂, h₂, hlater₂, hnow₂, hindex₂, hanon₂⟩ := run_markMembers_named hmarked hminted
  have hin₂ : c.sid.text ∈ indexOf t₂.redis (r.userKey c.subject) := by
    rwa [indexOf, hindex₂ _ (Or.inr ⟨_, rfl⟩), data_marked_ne _ (by simp) f, ← indexOf]
  have hfirst₂ : ∀ first, sent.head? = some first → c.subject = "" ∨ Anonymous r t₂.redis first c.subject :=
    fun first h => (hfirst first h).imp_right fun hanon => hanon₂ _ _ (hanon.marked hf)
  obtain ⟨t₃, hr₃, h₃, hnow₃, hin₃⟩ := run_unindexLineage_anonymous h₂ (hlater₂.revoked _ hrev₁) hin₂ hfirst₂
  refine ⟨⟨setIndex t₃.redis r.sessionsKey ((indexOf t₃.redis r.sessionsKey).erase c.sid.text), t₃.minted⟩, ?_,
    hnow₃.trans hnow₂, ?_⟩
  · unfold revokeLineage
    rw [if_neg (Uuid.text_ne_empty c.sid)]
    have hr₄ := run_zRem h₃ (Or.inl rfl) c.sid.text
    exact (run_mark hf).bind ((run_sMembers hset₁ hperm).bind (hr₂.bind (hr₃.bind (hr₄.bind (.ret _ _)))))
  · rwa [indexOf, data_setIndex_ne (userKey_ne_sessionsKey r _), ← indexOf]

/-- Time passes before the first command. -/
theorem Quiet.delayed {α : Type} {p : CacheProg α} {a : α} {u : Sessions} (hp : Passing s t) (h : Quiet p t a u)
    (hne : ∀ b, p ≠ .ret b) : Quiet p s a u := by
  cases h with
  | ret b => exact absurd rfl (hne _)
  | call hd ha hn => exact .call (hp.trans hd) ha hn

theorem ownerNamed_of_cleansUp (hinv : SessionInv r s) (hc : c ∈ s.minted) (wait : Nat) (h : CleansUp r s c wait) :
    OwnerNamed r (s.redis.after wait) c := by
  have hp : Passing s ⟨s.redis.after wait, s.minted⟩ := ⟨wait, rfl⟩
  by_contra hnot
  unfold OwnerNamed at hnot
  push Not at hnot
  obtain ⟨hin, ms, hset, hbad⟩ := hnot
  -- some order of the members begins with one that does not name the owner
  obtain ⟨sent, hperm, hfirst⟩ : ∃ sent, ms.Perm sent ∧ ∀ first, sent.head? = some first →
      c.subject = "" ∨ Anonymous r (s.redis.after wait) first c.subject := by
    by_cases hms : ms = []
    · subst hms
      exact ⟨[], .refl _, nofun⟩
    by_cases hsubject : c.subject = ""
    · exact ⟨ms, .refl _, fun _ _ => Or.inl hsubject⟩
    · obtain ⟨m, hm, hanon⟩ := hbad hms hsubject
      refine ⟨m :: ms.erase m, List.perm_cons_erase hm, ?_⟩
      rintro first ⟨⟩
      exact Or.inr hanon
  obtain ⟨t, hrun, hnow, hstill⟩ := run_revokeLineage_anonymous (Passing.keeps hinv hp).1 hc hset hperm hin hfirst
  have hcall : ∀ b, revokeLineage r c.sid.text ≠ .ret b := by
    intro b hb
    obtain ⟨next, hnext⟩ := revokeLineage_call (r := r) (Uuid.text_ne_empty c.sid)
    rw [hnext] at hb
    cases hb
  exact (h t (hrun.delayed hp hcall) (Nat.le_of_eq hnow)).owner hstill

end Cleanup

/-- From any reachable state, a revocation that is over in time cleans up if and only if the record
of each member then still names the owner, or the owner's index does not list the lineage. -/
theorem cleansUp_iff {pool : SessionPool} (h : Reachable (SessionStep r) (SessionInit r) pool)
    (hc : c ∈ pool.shared.minted) (wait : Nat) :
    CleansUp r pool.shared c wait ↔ OwnerNamed r (pool.shared.redis.after wait) c := by
  obtain ⟨hg, hl⟩ := listed_of_reachable h
  exact ⟨ownerNamed_of_cleansUp hg.shared hc wait, cleansUp_of_ownerNamed hg.shared hl wait⟩

/-- Right after the login every member names the owner. -/
theorem cleansUp_login : CleansUp sampleConfig sampleLogin sampleToken 0 := by
  refine (cleansUp_iff sampleLogin_reachable (List.mem_singleton_self _) 0).mpr (Or.inr fun ms hset => ?_)
  have hmembers : sampleLogin.redis.data (sampleConfig.lineageMembersKey sampleSid.text) =
      some ⟨.set [sampleJti.text], some 60000⟩ := issued_members
  have htoken : sampleLogin.redis.data (sampleConfig.tokenKey sampleJti.text) =
      some ⟨.hash (setFields ∅ (activeFields sampleSid.text "alice" "jkt" (toString (0 : Int)))), some 60000⟩ :=
    issued_token
  have hlive : ∀ y, some 60000 = some y → sampleLogin.redis.now ≤ y := fun y _ => Nat.zero_le y
  cases (setAt_of_live hmembers hlive).symm.trans hset
  refine ⟨nofun, by decide, fun m hm => ?_⟩
  obtain rfl := List.mem_singleton.mp hm
  exact ⟨_, hashAt_of_live htoken hlive, active_user ..⟩

/-- A lineage rotated twice, half a lifetime apart, may stay in the index of its owner. -/
theorem revokeLineage_leaves_index : ¬ ∀ (r : RefreshConfig) (pool : SessionPool),
    Reachable (SessionStep r) (SessionInit r) pool → ∀ c ∈ pool.shared.minted, CleansUp r pool.shared c 0 := by
  intro h
  obtain ⟨s, c, hc, -, hr, hrot, members, hset, hmem, hgone⟩ := exists_twice_rotated
  have hinv := (good_of_reachable hr).shared
  obtain ⟨cur, lin, ms, created, ha⟩ := (rotatable_iff hinv hc).mp hrot
  obtain ⟨t, -, ho, -⟩ := ha.lineage
  rcases ownerNamed_of_cleansUp hinv hc 0 (h _ _ hr c hc) with hout | hnamed
  · exact hout ho.indexed
  · obtain ⟨-, -, hall⟩ := hnamed members hset
    obtain ⟨f, hf, huser⟩ := hall _ hmem
    have hempty : s.redis.hashAt (sampleConfig.tokenKey sampleJti.text) = .ok ∅ := by simp [Server.hashAt, hgone]
    cases hempty.symm.trans hf
    simp at huser

end Chinwag.Auth

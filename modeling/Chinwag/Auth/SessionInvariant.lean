import Chinwag.Auth.Sessions

/-!
# The session invariant

The invariant speaks of the stored entries, expired ones included, so that it does
not change when a key expires. Its core is `TokenKept.outlived`: the lineage hash of
a token that is not revoked never expires before that token does.
-/
namespace Chinwag.Auth

open Redis Script Program

variable (r : RefreshConfig)

/-- A hash is stored under the key with the given status, expired or not. -/
def Status (s : Server) (key status : String) : Prop :=
  ∃ f x, s.data key = some ⟨.hash f, x⟩ ∧ f.lookup "status" = some status

def Revoked (s : Sessions) (sid : String) : Prop := Status s.redis (r.lineageKey sid) "revoked"

def Active (s : Sessions) (jti : Uuid) : Prop := Status s.redis (r.tokenKey jti.text) "active"

/-- Rotated or revoked. -/
def Spent (s : Sessions) (jti : Uuid) : Prop :=
  Status s.redis (r.tokenKey jti.text) "consumed" ∨ Status s.redis (r.tokenKey jti.text) "revoked"

/-- The record of a token that has not been revoked. -/
structure TokenKept (s : Server) (c : RefreshTokenClaims) (f : Fields) (t : Nat) : Prop where
  status : f.lookup "status" = some "active" ∨ f.lookup "status" = some "consumed"
  sid : f.lookup "sid" = some c.sid.text
  user : f.lookup "user_id" = some c.subject
  outlived : ∀ g t', s.data (r.lineageKey c.sid.text) = some ⟨.hash g, some t'⟩ → t ≤ t'

/-- The hash of a lineage that has not been revoked, with its members and its index entry. -/
structure LineageOpen (s : Server) (c : RefreshTokenClaims) (g : Fields) (t : Nat) : Prop where
  status : g.lookup "status" = some "active"
  created : ∃ n : Int, g.lookup "created_at" = some (toString n)
  bounded : t ≤ deadline r s
  indexed : c.sid.text ∈ indexOf s (r.userKey c.subject)
  members : s.now ≤ t →
    ∃ ms, ms ≠ [] ∧ s.data (r.lineageMembersKey c.sid.text) = some ⟨.set ms, some t⟩

structure SessionInv (s : Sessions) : Prop where
  tokens : ∀ c ∈ s.minted, Status s.redis (r.tokenKey c.jti.text) "revoked" ∨
    ∃ f t, s.redis.data (r.tokenKey c.jti.text) = some ⟨.hash f, some t⟩ ∧ TokenKept r s.redis c f t
  lineages : ∀ c ∈ s.minted, Revoked r s c.sid.text ∨
    ∃ g t, s.redis.data (r.lineageKey c.sid.text) = some ⟨.hash g, some t⟩ ∧ LineageOpen r s.redis c g t
  members : ∀ sid ms x, s.redis.data (r.lineageMembersKey sid) = some ⟨.set ms, x⟩ →
    ∀ m ∈ ms, ∃ c ∈ s.minted, c.jti.text = m ∧ c.sid.text = sid
  records : ∀ u : Uuid, s.redis.data (r.tokenKey u.text) ≠ none → ∃ c ∈ s.minted, c.jti = u
  userIndex : ∀ user, IsIndex s.redis (r.userKey user)
  sessionsIndex : IsIndex s.redis r.sessionsKey
  listed : ∀ user, ∀ sid ∈ indexOf s.redis (r.userKey user),
    ∃ c ∈ s.minted, c.subject = user ∧ c.sid.text = sid
  single : ∀ c ∈ s.minted, ∀ c' ∈ s.minted, c.sid = c'.sid →
    Active r s c.jti → Active r s c'.jti → c = c'
  jti_inj : ∀ c ∈ s.minted, ∀ c' ∈ s.minted, c.jti = c'.jti → c = c'
  one_subject : ∀ c ∈ s.minted, ∀ c' ∈ s.minted, c.sid = c'.sid → c.subject = c'.subject
  bound : ∀ c ∈ s.minted, c.jkt ≠ ""

/-- What no step of anyone undoes. -/
structure Later (s t : Sessions) : Prop where
  minted : ∀ c ∈ s.minted, c ∈ t.minted
  now : s.redis.now ≤ t.redis.now
  revoked : ∀ sid, Revoked r s sid → Revoked r t sid
  tokens : ∀ c ∈ s.minted,
    t.redis.data (r.tokenKey c.jti.text) = s.redis.data (r.tokenKey c.jti.text) ∨ Spent r t c.jti

variable {r}

theorem Status.congr {s t : Server} {key status : String} (hd : t.data key = s.data key)
    (h : Status s key status) : Status t key status := by
  unfold Status at h ⊢
  rwa [hd]

theorem Later.refl (s : Sessions) : Later r s s :=
  ⟨fun _ h => h, Nat.le_refl _, fun _ h => h, fun _ _ => .inl rfl⟩

theorem Later.spent {s t : Sessions} (h : Later r s t) {c : RefreshTokenClaims} (hc : c ∈ s.minted)
    (hs : Spent r s c.jti) : Spent r t c.jti := by
  rcases h.tokens c hc with hd | hd
  · exact hs.imp (Status.congr hd) (Status.congr hd)
  · exact hd

theorem Later.trans {s t u : Sessions} (h₁ : Later r s t) (h₂ : Later r t u) : Later r s u := by
  refine ⟨fun c hc => h₂.minted c (h₁.minted c hc), Nat.le_trans h₁.now h₂.now,
    fun sid hs => h₂.revoked sid (h₁.revoked sid hs), fun c hc => ?_⟩
  rcases h₂.tokens c (h₁.minted c hc) with hd | hd
  · rcases h₁.tokens c hc with he | he
    · exact Or.inl (hd.trans he)
    · exact Or.inr (h₂.spent (h₁.minted c hc) he)
  · exact Or.inr hd

section Marking

/-- The server after `HSET key status revoked` on a key that reads as the hash `f`. -/
def marked (s : Server) (key : String) (f : Fields) : Server :=
  s.put key (.hash (setFields f [("status", "revoked")]))

theorem status_marked (s : Server) (key : String) (f : Fields) :
    Status (marked s key f) key "revoked" := by
  refine ⟨_, _, Server.data_set_self s key _, ?_⟩
  simp

theorem data_marked_ne (s : Server) {key other : String} (h : other ≠ key) (f : Fields) :
    (marked s key f).data other = s.data other :=
  Server.data_set_ne s h _

theorem exec_mark (s : Server) (key : String) :
    (∃ e, exec (hset key [("status", "revoked")]) s = (.error e, s)) ∨
      ∃ f, s.hashAt key = .ok f ∧ exec (hset key [("status", "revoked")]) s = (.ok (), marked s key f) := by
  simp only [hset, exec_of]
  cases h : s.hashAt key with
  | error e => exact Or.inl ⟨e, rfl⟩
  | ok f => exact Or.inr ⟨f, rfl, rfl⟩

theorem exec_mark_ok {s : Server} {key : String} {f : Fields} (hf : s.hashAt key = .ok f) :
    exec (hset key [("status", "revoked")]) s = (.ok (), marked s key f) :=
  exec_hset hf _

/-- A key that holds a live set does not read as a hash. -/
theorem not_hashAt_of_set {s : Server} {key : String} {ms : List String} {x : Option Nat} {f : Fields}
    (hd : s.data key = some ⟨.set ms, x⟩) (hx : ∀ t, x = some t → s.now ≤ t) :
    s.hashAt key ≠ .ok f := by
  have hg : s.get key = some ⟨.set ms, x⟩ :=
    Server.get_eq_some.mpr ⟨hd, (Entry.isLive_iff _ _).mpr hx⟩
  simp [Server.hashAt, hg]

variable {s : Sessions} {f : Fields}

/-- A mark keeps the expiry of the entry it writes to. -/
theorem expiry_marked {s : Server} {key : String} {f g : Fields} {v : Value} {x : Option Nat} {t : Nat}
    (hd : s.data key = some ⟨v, x⟩) (hm : (marked s key f).data key = some ⟨.hash g, some t⟩) :
    x = some t := by
  unfold marked Server.put at hm
  rw [Server.data_set_self] at hm
  have ht : s.ttl key = some t := by
    have he := Option.some.inj hm
    exact congrArg Entry.expireAt he
  unfold Server.ttl at ht
  obtain ⟨e, he, hx⟩ := Option.bind_eq_some_iff.mp ht
  have hs := (Server.get_eq_some.mp he).1
  rw [hd] at hs
  cases hs
  exact hx

theorem inv_mark_lineage (h : SessionInv r s) (lg : String)
    (hf : s.redis.hashAt (r.lineageKey lg) = .ok f) :
    SessionInv r ⟨marked s.redis (r.lineageKey lg) f, s.minted⟩ := by
  have htok : ∀ u : Uuid, (marked s.redis (r.lineageKey lg) f).data (r.tokenKey u.text) =
      s.redis.data (r.tokenKey u.text) := fun u => data_marked_ne _ (by simp) f
  have husr : ∀ user, (marked s.redis (r.lineageKey lg) f).data (r.userKey user) =
      s.redis.data (r.userKey user) := fun user => data_marked_ne _ (by simp) f
  have hidx : ∀ user, indexOf (marked s.redis (r.lineageKey lg) f) (r.userKey user) =
      indexOf s.redis (r.userKey user) := fun user => by simp [indexOf, husr]
  constructor
  · intro c hc
    rcases h.tokens c hc with hr | ⟨g, t, hd, hk⟩
    · exact Or.inl (hr.congr (htok c.jti))
    · refine Or.inr ⟨g, t, (htok c.jti).trans hd, hk.status, hk.sid, hk.user, fun g' t' hl => ?_⟩
      by_cases hlg : lg = c.sid.text
      · subst hlg
        rcases h.lineages c hc with ⟨g₀, x, hd₀, -⟩ | ⟨g₀, t₀, hd₀, -⟩
        · have hx := expiry_marked hd₀ hl
          subst hx
          exact hk.outlived g₀ t' hd₀
        · have hx := expiry_marked hd₀ hl
          cases hx
          exact hk.outlived g₀ t' hd₀
      · rw [data_marked_ne _ (by simpa using Ne.symm hlg) f] at hl
        exact hk.outlived g' t' hl
  · intro c hc
    by_cases hlg : lg = c.sid.text
    · subst hlg
      exact Or.inl (status_marked _ _ f)
    · have hlin : (marked s.redis (r.lineageKey lg) f).data (r.lineageKey c.sid.text) =
          s.redis.data (r.lineageKey c.sid.text) := data_marked_ne _ (by simpa using Ne.symm hlg) f
      rcases h.lineages c hc with hr | ⟨g, t, hd, ho⟩
      · exact Or.inl (hr.congr hlin)
      · refine Or.inr ⟨g, t, hlin.trans hd, ho.status, ho.created, ho.bounded, ?_, fun ht => ?_⟩
        · rw [hidx]
          exact ho.indexed
        · obtain ⟨ms, hne, hms⟩ := ho.members ht
          refine ⟨ms, hne, ?_⟩
          rw [data_marked_ne _ _ f, hms]
          intro he
          rw [he] at hms
          exact not_hashAt_of_set hms (fun _ hx => by cases hx; exact ht) hf
  · intro sid ms x hms
    by_cases he : r.lineageMembersKey sid = r.lineageKey lg
    · rw [he] at hms
      unfold marked Server.put at hms
      rw [Server.data_set_self] at hms
      cases hms
    · rw [data_marked_ne _ he f] at hms
      exact h.members sid ms x hms
  · intro u hu
    rw [htok] at hu
    exact h.records u hu
  · intro user
    exact (h.userIndex user).congr (husr user)
  · exact h.sessionsIndex.congr (data_marked_ne _ (by simp) f)
  · intro user sid hsid
    rw [hidx] at hsid
    exact h.listed user sid hsid
  · intro c hc c' hc' hs ha ha'
    exact h.single c hc c' hc' hs (ha.congr (htok c.jti).symm) (ha'.congr (htok c'.jti).symm)
  · exact h.jti_inj
  · exact h.one_subject
  · exact h.bound

theorem later_mark_lineage (s : Sessions) (lg : String) (f : Fields) :
    Later r s ⟨marked s.redis (r.lineageKey lg) f, s.minted⟩ := by
  refine ⟨fun _ hc => hc, Nat.le_refl _, fun sid hs => ?_, fun c _ => ?_⟩
  · by_cases he : r.lineageKey sid = r.lineageKey lg
    · unfold Revoked
      rw [he]
      exact status_marked _ _ f
    · exact hs.congr (data_marked_ne _ he f)
  · exact Or.inl (data_marked_ne _ (by simp) f)

theorem inv_mark_token (h : SessionInv r s) {c : RefreshTokenClaims} (hc : c ∈ s.minted) :
    SessionInv r ⟨marked s.redis (r.tokenKey c.jti.text) f, s.minted⟩ := by
  have hne : ∀ key, key ≠ r.tokenKey c.jti.text →
      (marked s.redis (r.tokenKey c.jti.text) f).data key = s.redis.data key :=
    fun key hk => data_marked_ne _ hk f
  have hidx : ∀ user, indexOf (marked s.redis (r.tokenKey c.jti.text) f) (r.userKey user) =
      indexOf s.redis (r.userKey user) := fun user => by simp [indexOf, hne]
  have hact : ∀ u : Uuid, Active r ⟨marked s.redis (r.tokenKey c.jti.text) f, s.minted⟩ u →
      Active r s u := by
    intro u ha
    by_cases hu : u = c.jti
    · subst hu
      obtain ⟨g, x, hd, hs⟩ := ha
      obtain ⟨g', x', hd', hs'⟩ := status_marked s.redis (r.tokenKey c.jti.text) f
      rw [hd'] at hd
      cases hd
      rw [hs'] at hs
      simp at hs
    · exact ha.congr (hne _ (by simpa using hu)).symm
  constructor
  · intro c' hc'
    by_cases hj : c'.jti = c.jti
    · rw [hj]
      exact Or.inl (status_marked _ _ f)
    · have htok := hne (r.tokenKey c'.jti.text) (by simpa using hj)
      rcases h.tokens c' hc' with hr | ⟨g, t, hd, hk⟩
      · exact Or.inl (hr.congr htok)
      · refine Or.inr ⟨g, t, htok.trans hd, hk.status, hk.sid, hk.user, fun g' t' hl => ?_⟩
        rw [hne _ (by simp)] at hl
        exact hk.outlived g' t' hl
  · intro c' hc'
    rcases h.lineages c' hc' with hr | ⟨g, t, hd, ho⟩
    · exact Or.inl (hr.congr (hne _ (by simp)))
    · refine Or.inr ⟨g, t, (hne _ (by simp)).trans hd, ho.status, ho.created, ho.bounded, ?_, fun ht => ?_⟩
      · rw [hidx]
        exact ho.indexed
      · obtain ⟨ms, hm, hms⟩ := ho.members ht
        exact ⟨ms, hm, (hne _ (by simp)).trans hms⟩
  · intro sid ms x hms
    rw [hne _ (by simp)] at hms
    exact h.members sid ms x hms
  · intro u hu
    by_cases hj : u = c.jti
    · exact ⟨c, hc, hj.symm⟩
    · rw [hne _ (by simpa using hj)] at hu
      exact h.records u hu
  · intro user
    exact (h.userIndex user).congr (hne _ (by simp))
  · exact h.sessionsIndex.congr (hne _ (by simp))
  · intro user sid hsid
    rw [hidx] at hsid
    exact h.listed user sid hsid
  · intro c₁ h₁ c₂ h₂ hs ha₁ ha₂
    exact h.single c₁ h₁ c₂ h₂ hs (hact _ ha₁) (hact _ ha₂)
  · exact h.jti_inj
  · exact h.one_subject
  · exact h.bound

theorem later_mark_token (s : Sessions) (c : RefreshTokenClaims) (f : Fields) :
    Later r s ⟨marked s.redis (r.tokenKey c.jti.text) f, s.minted⟩ := by
  refine ⟨fun _ hc => hc, Nat.le_refl _, fun sid hs => ?_, fun c' _ => ?_⟩
  · exact hs.congr (data_marked_ne _ (by simp) f)
  · by_cases hj : c'.jti = c.jti
    · refine Or.inr (Or.inr ?_)
      rw [hj]
      exact status_marked _ _ f
    · exact Or.inl (data_marked_ne _ (by simpa using hj) f)

end Marking

section Unindexing

variable {s : Sessions}

/-- A lineage leaves an index only once it is revoked. -/
def Removable (r : RefreshConfig) (s : Sessions) (member : String) : Prop :=
  ∀ c ∈ s.minted, c.sid.text = member → Revoked r s c.sid.text

/-- The keys that hold sorted sets. -/
def IndexKey (r : RefreshConfig) (key : String) : Prop := key = r.sessionsKey ∨ ∃ user, key = r.userKey user

theorem SessionInv.isIndex (h : SessionInv r s) {key : String} (hk : IndexKey r key) :
    IsIndex s.redis key := by
  rcases hk with rfl | ⟨user, rfl⟩
  · exact h.sessionsIndex
  · exact h.userIndex user

theorem data_setIndex_ne {s : Server} {key other : String} (h : other ≠ key) (scores : Scores) :
    (setIndex s key scores).data other = s.data other :=
  Server.data_set_ne s h _

theorem not_indexKey_token (u : Uuid) : ¬ IndexKey r (r.tokenKey u.text) := by simp [IndexKey]

theorem not_indexKey_lineage (sid : String) : ¬ IndexKey r (r.lineageKey sid) := by simp [IndexKey]

theorem not_indexKey_members (sid : String) : ¬ IndexKey r (r.lineageMembersKey sid) := by simp [IndexKey]

/-- A write to an index leaves every other kind of key alone. -/
theorem data_setIndex_other {s : Server} {key other : String} (hk : IndexKey r key) (ho : ¬ IndexKey r other)
    (scores : Scores) : (setIndex s key scores).data other = s.data other := by
  refine data_setIndex_ne ?_ scores
  rintro rfl
  exact ho hk

theorem inv_unindex (h : SessionInv r s) {key member : String} (hk : IndexKey r key)
    (hm : Removable r s member) :
    SessionInv r ⟨setIndex s.redis key ((indexOf s.redis key).erase member), s.minted⟩ := by
  have hne : ∀ other, ¬ IndexKey r other →
      (setIndex s.redis key ((indexOf s.redis key).erase member)).data other = s.redis.data other :=
    fun _ ho => data_setIndex_other hk ho _
  have hidx : ∀ user, indexOf (setIndex s.redis key ((indexOf s.redis key).erase member))
      (r.userKey user) = indexOf s.redis (r.userKey user) ∨
      indexOf (setIndex s.redis key ((indexOf s.redis key).erase member)) (r.userKey user) =
        (indexOf s.redis (r.userKey user)).erase member := by
    intro user
    by_cases he : r.userKey user = key
    · subst he
      exact Or.inr (indexOf_setIndex _ _ _)
    · exact Or.inl (by simp [indexOf, data_setIndex_ne he])
  have hindex : ∀ other, IsIndex s.redis other →
      IsIndex (setIndex s.redis key ((indexOf s.redis key).erase member)) other := by
    intro other ho
    by_cases he : other = key
    · subst he
      exact isIndex_setIndex _ _ _
    · exact ho.congr (data_setIndex_ne he _)
  constructor
  · intro c hc
    rcases h.tokens c hc with hr | ⟨f, t, hd, hk'⟩
    · exact Or.inl (hr.congr (hne _ (not_indexKey_token _)))
    · refine Or.inr ⟨f, t, (hne _ (not_indexKey_token _)).trans hd, hk'.status, hk'.sid, hk'.user, fun g t' hl => ?_⟩
      rw [hne _ (not_indexKey_lineage _)] at hl
      exact hk'.outlived g t' hl
  · intro c hc
    rcases h.lineages c hc with hr | ⟨g, t, hd, ho⟩
    · exact Or.inl (hr.congr (hne _ (not_indexKey_lineage _)))
    · by_cases hsid : c.sid.text = member
      · exact Or.inl ((hm c hc hsid).congr (hne _ (not_indexKey_lineage _)))
      · refine Or.inr ⟨g, t, (hne _ (not_indexKey_lineage _)).trans hd, ho.status, ho.created, ho.bounded, ?_, fun ht => ?_⟩
        · rcases hidx c.subject with he | he
          · rw [he]
            exact ho.indexed
          · rw [he, AList.mem_erase]
            exact ⟨hsid, ho.indexed⟩
        · obtain ⟨ms, hms, hd'⟩ := ho.members ht
          exact ⟨ms, hms, (hne _ (not_indexKey_members _)).trans hd'⟩
  · intro sid ms x hms
    rw [hne _ (not_indexKey_members _)] at hms
    exact h.members sid ms x hms
  · intro u hu
    rw [hne _ (not_indexKey_token _)] at hu
    exact h.records u hu
  · exact fun user => hindex _ (h.userIndex user)
  · exact hindex _ h.sessionsIndex
  · intro user sid hsid
    rcases hidx user with he | he
    · rw [he] at hsid
      exact h.listed user sid hsid
    · rw [he, AList.mem_erase] at hsid
      exact h.listed user sid hsid.2
  · intro c hc c' hc' hs ha ha'
    exact h.single c hc c' hc' hs (ha.congr (hne _ (not_indexKey_token _)).symm) (ha'.congr (hne _ (not_indexKey_token _)).symm)
  · exact h.jti_inj
  · exact h.one_subject
  · exact h.bound

theorem later_unindex (s : Sessions) {key : String} (hk : IndexKey r key) (scores : Scores) :
    Later r s ⟨setIndex s.redis key scores, s.minted⟩ := by
  refine ⟨fun _ hc => hc, Nat.le_refl _, fun sid hs => ?_, fun c _ => Or.inl ?_⟩
  · exact hs.congr (data_setIndex_other hk (not_indexKey_lineage sid) _)
  · exact data_setIndex_other hk (not_indexKey_token _) _

end Unindexing

end Chinwag.Auth

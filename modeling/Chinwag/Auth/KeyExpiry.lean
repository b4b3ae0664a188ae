import Chinwag.Auth.RotationSafety

/-!
# Which hashes expire

`HSET` keeps the expiry of a live key and gives none to a key it creates. The scripts set one after
their writes, except where they mark a lineage revoked; `RevokeLineage` never does.
-/
namespace Chinwag.Auth

open Redis Script Program Transition

variable {r : RefreshConfig} {s t : Server} {key k : String}

/-- A hash under this key, if there is one to be read, carries an expiry. -/
def Expires (s : Server) (key : String) : Prop :=
  ∀ f x, s.get key = some ⟨.hash f, x⟩ → ∃ t, x = some t

/-- No refresh token hash and no lineage hash is there for ever. -/
def NoImmortal (r : RefreshConfig) (s : Server) : Prop :=
  (∀ jti, Expires s (r.tokenKey jti)) ∧ ∀ sid, Expires s (r.lineageKey sid)

/-- Every member of the lineage has a record. -/
def MembersPresent (r : RefreshConfig) (s : Server) (sid : String) : Prop :=
  ∀ ms, s.setAt (r.lineageMembersKey sid) = .ok ms → ∀ m ∈ ms, s.get (r.tokenKey m) ≠ none

/-- A revocation finds the key it writes to, and a rotation that detects a reuse finds the records of
all members. -/
def KeysPresent (r : RefreshConfig) (s : Server) : SessionLabel → Prop
  | .cmd _ (.hset key _) _ => s.get key ≠ none
  | .env (.rotate claims _) => ∀ cur, s.hashAt (r.tokenKey claims.jti.text) = .ok cur →
      cur.lookup "status" = some "consumed" → MembersPresent r s claims.sid.text
  | _ => True

section Writes

theorem expires_iff : Expires s k ↔ ∀ f, s.data k ≠ some ⟨.hash f, none⟩ := by
  constructor
  · intro h f hd
    obtain ⟨t, ht⟩ := h f none (Server.get_eq_some.mpr ⟨hd, rfl⟩)
    cases ht
  · intro h f x hg
    cases x with
    | none => exact absurd (Server.get_eq_some.mp hg).1 (h f)
    | some t => exact ⟨t, rfl⟩

theorem Expires.set (h : Expires s k) {e : Option Entry} (he : key = k → ∀ f, e ≠ some ⟨.hash f, none⟩) :
    Expires (s.set key e) k := by
  rw [expires_iff] at h ⊢
  intro f
  rw [Server.data_set]
  split
  · rename_i heq
    exact he heq.symm f
  · exact h f

theorem Expires.drop (h : Expires s k) : Expires (s.set key none) k := by
  refine h.set ?_
  intro _ _ hg
  cases hg

theorem Expires.expiring (h : Expires s k) (v : Value) (t : Nat) : Expires (s.set key (some ⟨v, some t⟩)) k := by
  refine h.set ?_
  intro _ _ hg
  have hexpiry := congrArg Entry.expireAt (Option.some.inj hg)
  cases hexpiry

/-- A value that is no hash. -/
theorem Expires.other (h : Expires s k) {v : Value} (hv : ∀ f, v ≠ .hash f) (e : Option Nat) :
    Expires (s.set key (some ⟨v, e⟩)) k := by
  refine h.set ?_
  intro _ f hg
  exact hv f (congrArg Entry.value (Option.some.inj hg))

theorem Expires.after (h : Expires s k) (ms : Nat) : Expires (s.after ms) k := by
  rw [expires_iff] at h ⊢
  exact h

/-- Where the key is there, so is the expiry. -/
theorem Expires.on_hset (h : Expires s k) (hlive : key = k → s.get key ≠ none) (pairs : List (String × String)) :
    Expires (exec (hset key pairs) s).2 k := by
  simp only [hset, exec_of]
  cases hf : s.hashAt key with
  | error e => exact h
  | ok f =>
    refine h.set fun heq g hg => ?_
    obtain ⟨hnone, -⟩ | ⟨x, hx⟩ := hashAt_ok hf
    · exact hlive heq hnone
    · rw [heq] at hx hg
      obtain ⟨t, rfl⟩ := h f x hx
      have hexpiry := congrArg Entry.expireAt (Option.some.inj hg)
      simp [Server.ttl, hx] at hexpiry

theorem Expires.on_hset_pexpire {α : Type} (h : Expires s k) (pairs : List (String × String)) {ms : Nat} (hms : 0 < ms)
    {rest : Script α} (hrest : ∀ t, Expires t k → Expires (exec rest t).2 k) :
    Expires (exec (hset key pairs >>= fun _ => pexpire key ms >>= fun _ => rest) s).2 k := by
  cases hf : s.hashAt key with
  | error e =>
    have herror : exec (hset key pairs) s = (.error e, s) := by simp [hset, hf]
    rw [exec_bind, herror]
    exact h
  | ok f =>
    rw [exec_hset_pexpire hf pairs hms]
    exact hrest _ (h.expiring _ _)

theorem Expires.on_pexpire (h : Expires s k) (ms : Nat) : Expires (exec (pexpire key ms) s).2 k := by
  simp only [pexpire, exec_of]
  split
  · exact h
  · split
    · exact h.drop
    · exact h.expiring _ _

theorem Expires.on_sadd (h : Expires s k) (member : String) : Expires (exec (sadd key member) s).2 k := by
  simp only [sadd, exec_of]
  split
  · exact h
  · refine h.other ?_ _
    intro _ hv
    cases hv

theorem Expires.on_zadd (h : Expires s k) (score : Option Int) (member : String) :
    Expires (exec (zadd key score member) s).2 k := by
  simp only [zadd, exec_of]
  split
  · exact h
  · split
    · exact h
    · refine h.other ?_ _
      intro _ hv
      cases hv

theorem Expires.on_zrem (h : Expires s k) (member : String) : Expires (exec (zrem key member) s).2 k := by
  simp only [zrem, exec_of]
  split
  · exact h
  · split
    · exact h.drop
    · refine h.other ?_ _
      intro _ hv
      cases hv

/-- One command after another. -/
theorem Expires.bind {α β : Type} {m : Script α} {f : α → Script β} (hm : Expires (exec m s).2 k)
    (hf : ∀ a t, exec m s = (.ok a, t) → Expires t k → Expires (exec (f a) t).2 k) :
    Expires (exec (m >>= f) s).2 k := by
  refine exec_bind_rule (P := fun t => Expires t k) (fun e t he => ?_) fun a t he => ?_
  · rwa [he] at hm
  · rw [he] at hm
    exact hf a t he hm

end Writes

section Scripts

/-- The end of both scripts: the lineage, its members, the two indexes. -/
theorem Expires.indexed (h : Expires s k) {α : Type} (lineage sid jti user : String) (pairs : List (String × String))
    (score : Option Int) (a : α) :
    Expires (exec (do
      hset lineage pairs
      pexpire lineage (r.ttl * 1000)
      sadd (r.lineageMembersKey sid) jti
      expire (r.lineageMembersKey sid) r.ttl
      zadd (r.userKey user) score sid
      zadd r.sessionsKey score sid
      return a) s).2 k := by
  have hms : 0 < r.ttl * 1000 := Nat.mul_pos r.ttl_pos (by decide)
  refine h.on_hset_pexpire pairs hms fun t ht => ?_
  refine (ht.on_sadd jti).bind fun _ _ _ ht => ?_
  refine (ht.on_pexpire _).bind fun _ _ _ ht => ?_
  refine (ht.on_zadd score sid).bind fun _ _ _ ht => ?_
  exact (ht.on_zadd score sid).bind fun _ _ _ ht => ht

theorem Expires.on_issue (h : Expires s k) (sid jti user jkt created : String) :
    Expires (exec (issueRefreshTokenScript r sid jti user jkt created) s).2 k := by
  have hms : 0 < r.ttl * 1000 := Nat.mul_pos r.ttl_pos (by decide)
  unfold issueRefreshTokenScript
  refine h.on_hset_pexpire _ hms fun t ht => ?_
  exact ht.indexed _ sid jti user _ _ "OK"

theorem Expires.on_rotateActive (h : Expires s k) (key1 key2 : String) (cur lin : Fields)
    (sid newJti user jkt created : String) :
    Expires (exec (rotateActive r key1 key2 cur lin sid newJti user jkt created) s).2 k := by
  have hms : 0 < r.ttl * 1000 := Nat.mul_pos r.ttl_pos (by decide)
  unfold rotateActive
  refine h.on_hset_pexpire _ hms fun t ht => ht.on_hset_pexpire _ hms fun t ht => ?_
  cases lineageCreatedAt lin cur with
  | none => exact ht
  | some first => exact ht.indexed key2 sid newJti user _ _ _

/-- What is there stays there when something is marked. -/
theorem get_marked (h : s.get k ≠ none) (f : Fields) : (marked s key f).get k ≠ none := by
  by_cases heq : k = key
  · rw [heq, marked, get_put_self]
    nofun
  · rw [marked, Server.put, Server.get_set_ne s heq]
    exact h

theorem Expires.on_revokeMembers (h : Expires s k) (members : List String)
    (hlive : ∀ m ∈ members, s.get (r.tokenKey m) ≠ none) : Expires (exec (revokeMembers r members) s).2 k := by
  induction members generalizing s with
  | nil => exact h
  | cons m rest ih =>
    refine (h.on_hset (fun _ => hlive m List.mem_cons_self) _).bind fun _ t ht hexp => ?_
    refine ih hexp fun m' hm' => ?_
    have hm := hlive m' (List.mem_cons_of_mem m hm')
    obtain ⟨e, he⟩ | ⟨f, -, he⟩ := exec_mark s (r.tokenKey m)
    · cases he.symm.trans ht
    · cases he.symm.trans ht
      exact get_marked hm f

theorem Expires.on_revokeReused (h : Expires s k) (sid : Uuid) (user : Option String)
    (hlin : s.get (r.lineageKey sid.text) ≠ none) (hmembers : MembersPresent r s sid.text) :
    Expires (exec (revokeReused r sid.text user) s).2 k := by
  refine (h.on_hset (fun _ => hlin) _).bind fun _ t ht hexp => ?_
  obtain ⟨e, he⟩ | ⟨f, -, he⟩ := exec_mark s (r.lineageKey sid.text)
  · cases he.symm.trans ht
  cases he.symm.trans ht
  refine Expires.bind hexp fun members t ht hexp => ?_
  obtain ⟨hread, rfl⟩ := Prod.mk.inj ht
  have hset : s.setAt (r.lineageMembersKey sid.text) = .ok members := by
    have hsame := data_marked_ne s (membersKey_ne_lineageKey r sid sid.text) f
    exact (setAt_congr (Server.get_congr hsame rfl)).symm.trans hread
  refine (hexp.on_revokeMembers members fun m hm => get_marked (hmembers members hset m hm) f).bind fun _ t _ hexp => ?_
  have huser : Expires (exec (unindexUser r sid.text user) t).2 k := by
    cases user with
    | none => exact hexp
    | some u =>
      unfold unindexUser
      rw [exec_ite]
      split
      · exact hexp
      · exact hexp.on_zrem _
  exact huser.bind fun _ _ _ hexp => hexp.on_zrem _

end Scripts

section Steps

variable {state : Sessions} {c : RefreshTokenClaims}

/-- The lineage of a consumed token that can be read is there as well. -/
theorem lineage_present (h : SessionInv r state) (hc : c ∈ state.minted) {cur : Fields}
    (hread : state.redis.hashAt (r.tokenKey c.jti.text) = .ok cur) (hs : cur.lookup "status" = some "consumed") :
    cur.lookup "sid" = some c.sid.text ∧ state.redis.get (r.lineageKey c.sid.text) ≠ none := by
  have hne : cur ≠ ∅ := by
    rintro rfl
    cases hs
  obtain ⟨-, hempty⟩ | ⟨x, hx⟩ := hashAt_ok hread
  · exact absurd hempty hne
  obtain ⟨hd, hlive⟩ := Server.get_eq_some.mp hx
  rcases h.tokens c hc with ⟨f, y, hf, hrev⟩ | ⟨f, t, hf, hk⟩
  · cases hd.symm.trans hf
    rw [hs] at hrev
    simp at hrev
  · cases hd.symm.trans hf
    refine ⟨hk.sid, fun hnone => ?_⟩
    have ht := (Entry.isLive_iff _ _).mp hlive t rfl
    have hempty : state.redis.hashAt (r.lineageKey c.sid.text) = .ok ∅ := by simp [Server.hashAt, hnone]
    rcases lineage_of_live h hc hk ht with ⟨lin, hl, hr⟩ | ⟨lin, t', hl, -, ho, -⟩
    · cases hempty.symm.trans hl
      simp at hr
    · cases hempty.symm.trans hl
      simpa using ho.status

theorem Expires.on_rotateCall (h : SessionInv r state) (hc : c ∈ state.minted) (hexp : Expires state.redis k)
    (newJti : Uuid) (now : Int)
    (hpresent : ∀ cur, state.redis.hashAt (r.tokenKey c.jti.text) = .ok cur →
      cur.lookup "status" = some "consumed" → MembersPresent r state.redis c.sid.text) :
    Expires (exec (rotateCall r c newJti now) state.redis).2 k := by
  refine Expires.bind hexp fun cur t ht hexp => ?_
  obtain ⟨hread, rfl⟩ := Prod.mk.inj ht
  rw [exec_ite]
  split
  · exact hexp
  rw [exec_ite]
  split
  · exact hexp
  rw [exec_ite]
  split
  · rename_i hs
    obtain ⟨hsid, hlin⟩ := lineage_present h hc hread hs
    rw [hsid]
    dsimp only
    rw [if_neg (Uuid.text_ne_empty c.sid)]
    exact (hexp.on_revokeReused c.sid _ hlin (hpresent cur hread hs)).bind fun _ _ _ hexp => hexp
  · refine Expires.bind hexp fun lin t ht hexp => ?_
    obtain ⟨-, rfl⟩ := Prod.mk.inj ht
    rw [exec_ite]
    split
    · exact hexp
    · exact hexp.on_rotateActive _ _ _ _ _ _ _ _ _

theorem Expires.on_env (h : SessionInv r state) (hexp : Expires state.redis k) {e : Event} {state' : Sessions}
    (he : Env r state e state') (hpresent : KeysPresent r state.redis (.env e)) : Expires state'.redis k := by
  cases he with
  | @issue key subject jkt sid jti drawn now result redis hjti hsid hrun =>
    unfold issueRefreshToken at hrun
    cases key with
    | none =>
      cases hrun
      exact hexp
    | some kid =>
      dsimp only at hrun
      split at hrun
      · cases hrun
        exact hexp
      · have hissued := hexp.on_issue (r := r) (sid.getD drawn).text jti.text subject jkt (toString now)
        split at hrun
        · rename_i he
          cases hrun
          rwa [he] at hissued
        · rename_i he
          cases hrun
          rwa [he] at hissued
  | @rotate key c newJti now result redis hc hj hrun =>
    cases key with
    | none =>
      cases hrun
      exact hexp
    | some kid =>
      rw [rotate_eq h hc] at hrun
      cases hrun
      exact Expires.on_rotateCall h hc hexp newJti now hpresent
  | pass ms => exact hexp.after ms

theorem Expires.on_serve (hexp : Expires s k) {i : Nat} {c : CacheCmd} {reply : CacheReply c}
    (hpresent : KeysPresent r s (.cmd i c reply)) : Expires (serve c s).2 k := by
  cases c with
  | hset key fields => exact hexp.on_hset (fun _ => hpresent) fields
  | expire key seconds => exact hexp.on_pexpire _
  | hgetall key => exact hexp
  | smembers key => exact hexp
  | zrem key member => exact hexp.on_zrem member
  | zrevrange key => exact hexp

theorem Expires.on_step {pool pool' : SessionPool} (hg : SessionGood r pool) (hexp : Expires pool.shared.redis k)
    {l : SessionLabel} (hstep : SessionStep r pool l pool') (hpresent : KeysPresent r pool.shared.redis l) :
    Expires pool'.shared.redis k := by
  cases hstep with
  | cmd hi hexec =>
    rcases hexec with ⟨-, rfl⟩ | ⟨-, rfl | rfl⟩
    · exact hexp.on_serve hpresent
    · exact hexp
    · exact hexp.on_serve hpresent
  | spawn => exact hexp
  | env he => exact hexp.on_env hg.shared he hpresent

end Steps

/-- As long as no call marks a hash that is not there, every hash expires. -/
theorem no_immortal_keys {pool pool' : SessionPool} {trace : List SessionLabel} (h : SessionInit r pool)
    (hrun : Run (SessionStep r) pool trace pool')
    (hpresent : ∀ before l after p p', trace = before ++ l :: after → Run (SessionStep r) pool before p →
      SessionStep r p l p' → Run (SessionStep r) p' after pool' → KeysPresent r p.shared.redis l) :
    NoImmortal r pool'.shared.redis := by
  have hexpires : ∀ suffix, Expires pool'.shared.redis (r.refreshTokenPrefix ++ suffix) := by
    intro suffix
    have hstep : ∀ p l p', SessionGood r p → Expires p.shared.redis (r.refreshTokenPrefix ++ suffix) →
        SessionStep r p l p' → KeysPresent r p.shared.redis l → Expires p'.shared.redis (r.refreshTokenPrefix ++ suffix) :=
      fun _ _ _ hg hexp hst hp => hexp.on_step hg hst hp
    refine hrun.good (fun _ _ _ hg hst => good_step hg hst) hstep (good_init h) ?_ hpresent
    rw [expires_iff, h.1 suffix]
    nofun
  exact ⟨fun jti => hexpires jti, fun sid => hexpires ("lineage:" ++ sid)⟩

theorem no_immortal_keys_login : NoImmortal sampleConfig sampleLogin.redis := by
  refine no_immortal_keys samplePool_init (.single sampleLogin_step) ?_
  intro before l after p p' htrace hbefore hstep hafter
  cases before with
  | nil =>
    obtain ⟨rfl, -⟩ := List.cons.inj htrace
    trivial
  | cons first rest => simp at htrace

/-- Revoking a lineage that does not exist creates one that never goes away. -/
theorem unknown_lineage_immortal : ∃ trace pool, Run (SessionStep sampleConfig) samplePool trace pool ∧
    ¬ NoImmortal sampleConfig pool.shared.redis := by
  obtain ⟨next, hnext⟩ := @revokeLineage_call sampleConfig "unknown" (by decide)
  have hspawn : SessionStep sampleConfig samplePool (.spawn (revokeLineage sampleConfig "unknown"))
      ⟨samplePool.shared, [revokeLineage sampleConfig "unknown"]⟩ := .spawn ⟨"unknown", rfl⟩
  have hmark : SessionStep sampleConfig ⟨samplePool.shared, [revokeLineage sampleConfig "unknown"]⟩
      (.cmd 0 (.hset (sampleConfig.lineageKey "unknown") [("status", "revoked")]) (.ok ()))
      ⟨⟨marked samplePool.shared.redis (sampleConfig.lineageKey "unknown") ∅, []⟩, [next (.ok ())]⟩ := by
    rw [hnext]
    exact .into rfl (Or.inl ⟨rfl, rfl⟩) rfl
  refine ⟨_, _, .cons hspawn (.single hmark), fun h => ?_⟩
  exact expires_iff.mp (h.2 "unknown") _ (Server.data_set_self _ _ _)

end Chinwag.Auth

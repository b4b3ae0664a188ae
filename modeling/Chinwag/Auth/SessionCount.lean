import Mathlib.Data.Set.Card
import Chinwag.Auth.SessionIndex

/-!
# Counting the sessions

`CountSessions` is the size of the global index. Where no lineage expires before it is revoked, the
index holds the live lineages, and those whose revocation is still in progress.
-/
namespace Chinwag.Auth

open Redis Script Program Transition

variable {r : RefreshConfig} {s t : Sessions} {c : RefreshTokenClaims} {α β : Type}

/-- `ZCARD` of the global index. -/
def countSessions (r : RefreshConfig) (s : Server) : Except RedisError Nat :=
  (s.zsetAt r.sessionsKey).map fun scores => scores.entries.length

/-- The hash of the lineage is there and does not say revoked. -/
def LiveLineage (r : RefreshConfig) (s : Server) (sid : String) : Prop :=
  ∃ f x, s.get (r.lineageKey sid) = some ⟨.hash f, x⟩ ∧ f.lookup "status" ≠ some "revoked"

structure IndexExact (r : RefreshConfig) (s : Sessions) : Prop where
  mem : ∀ sid, sid ∈ indexOf s.redis r.sessionsKey ↔ LiveLineage r s.redis sid
  count : countSessions r s.redis = .ok (Set.ncard {sid | LiveLineage r s.redis sid})

/-- Every command reaches Redis and is answered. -/
def answeredSemantics (r : RefreshConfig) : Semantics Sessions Event CacheCmd CacheReply where
  exec _ c s reply t := Answered c s reply t
  env := Env r

abbrev AnsweredStep (r : RefreshConfig) : SessionPool → SessionLabel → SessionPool → Prop :=
  Step (answeredSemantics r) (RevokeCall r)

/-- No revocation is in progress. -/
def Idle (pool : SessionPool) : Prop := ∀ p ∈ pool.threads, ∃ result, p = .ret result

/-- No lineage expires before it is revoked, and no `SMEMBERS` meets a value of another type. -/
def IndexHarmless (r : RefreshConfig) (s : Sessions) : SessionLabel → Prop
  | .env (.pass ms) => ∀ sid, LiveLineage r s.redis sid → LiveLineage r (s.redis.after ms) sid
  | .cmd _ (.smembers key) _ => ∃ members, s.redis.setAt key = .ok members
  | _ => True

section Programs

/-- The replies a revocation gets where it meets values of the right types. -/
def Expected (r : RefreshConfig) : (c : CacheCmd) → CacheReply c → Prop
  | .hset key _, reply => (∃ u : Uuid, key = r.tokenKey u.text) → reply = .ok ()
  | .smembers key, reply => (∃ sid, key = r.lineageMembersKey sid) →
      ∃ members, reply = .ok members ∧ ∀ m ∈ members, ∃ u : Uuid, u.text = m
  | _, _ => True

/-- The program takes the lineage out of the global index before it ends. -/
def Removes (r : RefreshConfig) (sid : String) : CacheProg α → Prop
  | .ret _ => False
  | .call c next => c = .zrem r.sessionsKey sid ∨ ∀ reply, Expected r c reply → Removes r sid (next reply)

/-- The reply that tells a revocation that the lineage is marked. -/
def Marks (r : RefreshConfig) (sid : String) : (c : CacheCmd) → CacheReply c → Prop
  | .hset key _, reply => key = r.lineageKey sid ∧ reply = .ok ()
  | _, _ => False

/-- Once it has marked a lineage, the program takes it out of the global index. -/
def Promises (r : RefreshConfig) : CacheProg α → Prop
  | .ret _ => True
  | .call c next => ∀ reply, Expected r c reply →
      Promises r (next reply) ∧ ∀ sid, Marks r sid c reply → Removes r sid (next reply)

theorem Removes.bind {sid : String} {p : CacheProg α} {f : α → CacheProg β} (h : Removes r sid p) :
    Removes r sid (p >>= f) := by
  induction p with
  | ret a => exact h.elim
  | call c next ih => exact h.imp_right fun hnext reply hreply => ih reply (hnext reply hreply)

/-- A part that may end with any of these results, and one of them is followed by the removal. -/
theorem removes_markMembers {sid : String} {members : List String} {f : Except RedisError Unit → CacheProg β}
    (hm : ∀ m ∈ members, ∃ u : Uuid, u.text = m) (hf : Removes r sid (f (.ok ()))) :
    Removes r sid (markMembers r members >>= f) := by
  induction members with
  | nil => exact hf
  | cons m rest ih =>
    obtain ⟨u, rfl⟩ := hm m List.mem_cons_self
    refine Or.inr fun reply hreply => ?_
    obtain rfl := hreply ⟨u, rfl⟩
    exact ih fun m' hm' => hm m' (List.mem_cons_of_mem _ hm')

theorem removes_unindexLineage {sid lg : String} (members : List String) {f : Unit → CacheProg β}
    (hf : Removes r sid (f ())) : Removes r sid (unindexLineage r lg members >>= f) := by
  cases members with
  | nil => exact hf
  | cons first rest =>
    refine Or.inr fun reply _ => ?_
    cases reply with
    | error e => exact hf
    | ok g =>
      show Removes r sid ((if g.entries.isEmpty then _ else _) >>= _ >>= f)
      split
      · exact hf
      · show Removes r sid ((if (toRecord g).userID = "" then _ else _) >>= f)
        split
        · exact hf
        · exact Or.inr fun _ _ => hf

theorem Promises.bind {p : CacheProg α} {f : α → CacheProg β} (h : Promises r p) (hf : ∀ a, Promises r (f a)) :
    Promises r (p >>= f) := by
  induction p with
  | ret a => exact hf a
  | call c next ih =>
    intro reply hreply
    obtain ⟨hnext, hmarks⟩ := h reply hreply
    exact ⟨ih reply hnext, fun sid hm => (hmarks sid hm).bind⟩

theorem promises_markMembers {members : List String} (hm : ∀ m ∈ members, ∃ u : Uuid, u.text = m) :
    Promises r (markMembers r members) := by
  induction members with
  | nil => trivial
  | cons m rest ih =>
    obtain ⟨u, rfl⟩ := hm m List.mem_cons_self
    intro reply hreply
    obtain rfl := hreply ⟨u, rfl⟩
    exact ⟨ih fun m' hm' => hm m' (List.mem_cons_of_mem _ hm'),
      fun sid hmarks => absurd hmarks.1 (tokenKey_ne_lineageKey r u sid)⟩

theorem promises_unindexLineage (lg : String) (members : List String) : Promises r (unindexLineage r lg members) := by
  cases members with
  | nil => trivial
  | cons first rest =>
    refine fun reply _ => ⟨?_, fun _ hmarks => hmarks.elim⟩
    cases reply with
    | error e => trivial
    | ok g =>
      show Promises r ((if g.entries.isEmpty then _ else _) >>= _)
      split
      · trivial
      · show Promises r (if (toRecord g).userID = "" then _ else _)
        split
        · trivial
        · exact fun _ _ => ⟨trivial, fun _ hmarks => hmarks.elim⟩

theorem promises_revokeLineage (sid : String) : Promises r (revokeLineage r sid) := by
  unfold revokeLineage
  split
  · trivial
  intro reply _
  cases reply with
  | error e => exact ⟨trivial, fun _ hmarks => nomatch hmarks.2⟩
  | ok _ =>
  constructor
  · intro reply hreply
    obtain ⟨members, rfl, hm⟩ := hreply ⟨sid, rfl⟩
    refine ⟨(promises_markMembers hm).bind fun reply => ?_, fun _ hmarks => hmarks.elim⟩
    cases reply with
    | error e => trivial
    | ok _ => exact (promises_unindexLineage sid members).bind fun _ _ _ => ⟨trivial, fun _ hmarks => hmarks.elim⟩
  · rintro sid' ⟨hkey, -⟩
    obtain rfl := (lineageKey_inj r _ _).mp hkey
    refine Or.inr fun reply hreply => ?_
    obtain ⟨members, rfl, hm⟩ := hreply ⟨sid, rfl⟩
    exact removes_markMembers hm (removes_unindexLineage members (Or.inl rfl))

end Programs

section Steps

/-- Every lineage that is listed is live, or its revocation will take it out. -/
def Accounted (r : RefreshConfig) (pool : SessionPool) : Prop :=
  ∀ sid ∈ indexOf pool.shared.redis r.sessionsKey, LiveLineage r pool.shared.redis sid ∨
    ∃ (i : Nat) (p : CacheProg (Except RedisError Unit)), pool.threads[i]? = some p ∧ Removes r sid p

theorem LiveLineage.congr {s t : Server} {sid : String} (h : LiveLineage r s sid)
    (hd : t.data (r.lineageKey sid) = s.data (r.lineageKey sid)) (hn : t.now = s.now) : LiveLineage r t sid := by
  unfold LiveLineage
  rw [Server.get_congr hd hn]
  exact h

theorem LiveLineage.not_revoked {sid : String} (h : LiveLineage r s.redis sid) : ¬ Revoked r s sid := by
  rintro ⟨g, y, hd, hs⟩
  obtain ⟨f, x, hg, hne⟩ := h
  cases hd.symm.trans (Server.get_eq_some.mp hg).1
  exact hne hs

theorem liveLineage_of_data {s : Server} {sid : String} {f : Fields} {x : Nat}
    (hd : s.data (r.lineageKey sid) = some ⟨.hash f, some x⟩) (hx : s.now ≤ x)
    (hs : f.lookup "status" = some "active") : LiveLineage r s sid := by
  refine ⟨f, some x, Server.get_eq_some.mpr ⟨hd, (Entry.isLive_iff _ _).mpr fun y hy => ?_⟩, ?_⟩
  · cases hy
    exact hx
  · rw [hs]
    decide

/-- A live lineage is listed. -/
theorem Indexed.mem_of_live (h : Indexed r s) {sid : String} (hl : LiveLineage r s.redis sid) :
    sid ∈ indexOf s.redis r.sessionsKey := by
  obtain ⟨f, x, hg, hne⟩ := hl
  rcases h.known sid f x (Server.get_eq_some.mp hg).1 with hs | ⟨c, hc, rfl⟩
  · exact absurd hs hne
  · exact (h.listed c hc).resolve_left (LiveLineage.not_revoked ⟨f, x, hg, hne⟩)

/-- The reuse branch goes through where the lineage is live, and then the lineage is not listed. -/
theorem not_mem_revokeReused (hinv : SessionInv r s) (hc : c ∈ s.minted) (userID : Option String)
    (hl : LiveLineage r s.redis c.sid.text) :
    c.sid.text ∉ indexOf (exec (revokeReused r c.sid.text userID) s.redis).2 r.sessionsKey := by
  obtain ⟨f, x, hg, hne⟩ := hl
  obtain ⟨hd, hlive⟩ := Server.get_eq_some.mp hg
  obtain ⟨g, t, hd', ho⟩ := (hinv.lineages c hc).resolve_left (LiveLineage.not_revoked ⟨f, x, hg, hne⟩)
  cases hd.symm.trans hd'
  have ht := (Entry.isLive_iff _ _).mp hlive t rfl
  obtain ⟨members, -, hms⟩ := ho.members ht
  obtain ⟨redis, hrun⟩ := exec_revokeReused_ok hinv hc userID ht hms
  rw [hrun]
  -- the removal is the last command of the branch
  unfold revokeReused at hrun
  obtain ⟨-, s₁, -, hrun⟩ := exec_bind_eq_ok hrun
  obtain ⟨ms, s₂, -, hrun⟩ := exec_bind_eq_ok hrun
  obtain ⟨-, s₃, -, hrun⟩ := exec_bind_eq_ok hrun
  obtain ⟨-, s₄, -, hrun⟩ := exec_bind_eq_ok hrun
  exact not_mem_of_zrem hrun

/-- What stays of the listed lineages in the reuse branch. -/
theorem accounted_revokeReused (hinv : SessionInv r s) (hc : c ∈ s.minted) (userID : Option String) (sid : String)
    (hin : sid ∈ indexOf (exec (revokeReused r c.sid.text userID) s.redis).2 r.sessionsKey) :
    sid ∈ indexOf s.redis r.sessionsKey ∧ (LiveLineage r s.redis sid →
      LiveLineage r (exec (revokeReused r c.sid.text userID) s.redis).2 sid) := by
  have hkept := revokeReused_rule hinv hc (P := fun t => t.now = s.redis.now ∧
      (sid ≠ c.sid.text → t.data (r.lineageKey sid) = s.redis.data (r.lineageKey sid)) ∧
      (sid ∈ indexOf t r.sessionsKey → sid ∈ indexOf s.redis r.sessionsKey)) (fun f _ => ?_) (fun t f c' _ _ ht => ?_)
    (fun t key hk _ ht => ?_) userID
  · refine ⟨hkept.2.2 hin, fun hl => ?_⟩
    by_cases hsid : sid = c.sid.text
    · rw [hsid] at hl hin
      exact absurd hin (not_mem_revokeReused hinv hc userID hl)
    · exact hl.congr (hkept.2.1 hsid) hkept.1
  · refine ⟨rfl, fun hne => data_marked_ne _ (by simpa using hne) f, fun h => ?_⟩
    rwa [indexOf_congr (data_marked_ne _ (by simp) f)] at h
  · refine ⟨ht.1, fun hne => (data_marked_ne _ (by simp) f).trans (ht.2.1 hne), fun h => ht.2.2 ?_⟩
    rwa [indexOf_congr (data_marked_ne _ (by simp) f)] at h
  · refine ⟨ht.1, fun hne => (data_setIndex_ne ?_ _).trans (ht.2.1 hne), fun h => ht.2.2 ?_⟩
    · rcases hk with rfl | ⟨user, rfl⟩ <;> simp
    · by_cases hkey : r.sessionsKey = key
      · subst hkey
        rw [indexOf_setIndex, AList.mem_erase] at h
        exact h.2
      · rwa [indexOf_congr (data_setIndex_ne hkey _)] at h

theorem accounted_env (hinv : SessionInv r s) (h : Indexed r s) {e : Event} (he : Env r s e t)
    (hharm : IndexHarmless r s (.env e)) (sid : String) (hin : sid ∈ indexOf t.redis r.sessionsKey) :
    LiveLineage r t.redis sid ∨
      sid ∈ indexOf s.redis r.sessionsKey ∧ (LiveLineage r s.redis sid → LiveLineage r t.redis sid) := by
  cases envEffect hinv he with
  | same => exact .inr ⟨hin, id⟩
  | issued hjti hsid =>
    rcases mem_sessions_issued.mp hin with rfl | hold
    · exact .inl (liveLineage_of_data issued_lineage (Nat.le_add_right _ _) (by simp))
    · obtain ⟨c, hc, rfl⟩ := h.named sid hold
      refine .inr ⟨hold, fun hl => hl.congr ?_ rfl⟩
      simp [issued, Server.data_set, hsid.unused c hc]
  | @rotated _ c cur lin members created ha newJti hjti now =>
    rcases mem_sessions_rotated.mp hin with rfl | hold
    · exact .inl (liveLineage_of_data rotated_lineage (Nat.le_add_right _ _) (by simp))
    · obtain ⟨c', hc', rfl⟩ := h.named sid hold
      by_cases hsid : c'.sid = c.sid
      · rw [hsid]
        exact .inl (liveLineage_of_data rotated_lineage (Nat.le_add_right _ _) (by simp))
      · exact .inr ⟨hold, fun hl => hl.congr (rotated_lineage_ne hsid) rfl⟩
  | reused hc => exact .inr (accounted_revokeReused hinv hc _ sid hin)
  | passed ms => exact .inr ⟨hin, hharm sid⟩

/-- The reply of a command that is carried out is an expected one. -/
theorem expected_of_answered (hinv : SessionInv r s) {cmd : CacheCmd} {reply : CacheReply cmd} {i : Nat}
    (hcmd : Allowed r s cmd) (hexec : Answered cmd s reply t) (hharm : IndexHarmless r s (.cmd i cmd reply)) :
    Expected r cmd reply := by
  cases cmd with
  | hset key fields =>
    rintro ⟨u, rfl⟩
    obtain ⟨rfl, ⟨sid, hsid⟩ | ⟨c, hc, hkey⟩⟩ := hcmd
    · exact absurd hsid (by simp)
    · obtain ⟨f, hf⟩ := hinv.hashAt_token hc
      have hreply : reply = (exec (hset (r.tokenKey u.text) [("status", "revoked")]) s.redis).1 := hexec.1
      rw [hreply, hkey, exec_mark_ok hf]
  | smembers key =>
    rintro ⟨sid, rfl⟩
    obtain ⟨stored, hstored⟩ := hharm
    have hre : Reordered (.smembers (r.lineageMembersKey sid)) (.ok stored) reply := hstored ▸ hexec.1
    cases reply with
    | error e => exact hre.elim
    | ok members =>
      refine ⟨members, rfl, fun m hm => ?_⟩
      obtain ⟨c, -, hj, -⟩ := hinv.mem_of_setAt hstored m (hre.mem_iff.mpr hm)
      exact ⟨c.jti, hj⟩
  | expire => trivial
  | hgetall => trivial
  | zrem => trivial
  | zrevrange => trivial

/-- What a command leaves of a listed lineage: it is as live as before, or this command marked it. -/
theorem accounted_serve (hinv : SessionInv r s) {cmd : CacheCmd} {reply : CacheReply cmd}
    (hcmd : Allowed r s cmd) (hexec : Answered cmd s reply t) (sid : String)
    (hin : sid ∈ indexOf t.redis r.sessionsKey) : sid ∈ indexOf s.redis r.sessionsKey ∧
      cmd ≠ .zrem r.sessionsKey sid ∧
      (Marks r sid cmd reply ∨ (LiveLineage r s.redis sid → LiveLineage r t.redis sid)) := by
  obtain ⟨hreply, rfl⟩ := hexec
  cases cmd with
  | hset key fields =>
    obtain ⟨rfl, hkey⟩ := hcmd
    simp only [serve] at hreply hin ⊢
    rcases exec_mark s.redis key with ⟨e, he⟩ | ⟨f, -, he⟩
    · rw [he] at hin ⊢
      refine ⟨hin, ?_, .inr id⟩
      intro hzrem
      cases hzrem
    · rw [he] at hin hreply ⊢
      have hsessions : r.sessionsKey ≠ key := by
        rcases hkey with ⟨lg, rfl⟩ | ⟨c, -, rfl⟩ <;> simp
      rw [indexOf_congr (data_marked_ne _ hsessions f)] at hin
      refine ⟨hin, ?_, ?_⟩
      · intro hzrem
        cases hzrem
      by_cases hlin : key = r.lineageKey sid
      · exact .inl ⟨hlin, hreply⟩
      · exact .inr fun hl => hl.congr (data_marked_ne _ (Ne.symm hlin) f) rfl
  | expire => exact hcmd.elim
  | hgetall | smembers | zrevrange =>
    refine ⟨hin, ?_, .inr id⟩
    intro hzrem
    cases hzrem
  | zrem key member =>
    simp only [serve] at hin ⊢
    rw [(hinv.isIndex hcmd.1).exec_zrem] at hin ⊢
    have hlin : r.lineageKey sid ≠ key := by
      rcases hcmd.1 with rfl | ⟨user, rfl⟩ <;> simp
    have hlive : LiveLineage r s.redis sid →
        LiveLineage r (setIndex s.redis key ((indexOf s.redis key).erase member)) sid :=
      fun hl => hl.congr (data_setIndex_ne hlin _) rfl
    by_cases hkey : r.sessionsKey = key
    · subst hkey
      rw [indexOf_setIndex, AList.mem_erase] at hin
      refine ⟨hin.2, fun heq => ?_, .inr hlive⟩
      cases heq
      exact hin.1 rfl
    · rw [indexOf_congr (data_setIndex_ne hkey _)] at hin
      refine ⟨hin, fun heq => ?_, .inr hlive⟩
      cases heq
      exact hkey rfl

/-- What holds between any two steps, where no lineage has expired unrevoked. -/
structure CountInv (r : RefreshConfig) (pool : SessionPool) : Prop where
  good : SessionGood r pool
  indexed : Indexed r pool.shared
  promises : ∀ p ∈ pool.threads, Promises r p
  accounted : Accounted r pool

theorem sessionStep_of_answered {pool pool' : SessionPool} {l : SessionLabel} (h : AnsweredStep r pool l pool') :
    SessionStep r pool l pool' := by
  cases h with
  | cmd hi hexec => exact .cmd hi (.inl hexec)
  | spawn hp => exact .spawn hp
  | env he => exact .env he

theorem countInv_step {pool pool' : SessionPool} (h : CountInv r pool) {l : SessionLabel}
    (hst : AnsweredStep r pool l pool') (hharm : IndexHarmless r pool.shared l) : CountInv r pool' := by
  have hsession := sessionStep_of_answered hst
  refine ⟨good_step h.good hsession, indexed_step h.good h.indexed hsession, ?_, ?_⟩
  · cases hst with
    | @cmd i c next reply s hi hexec =>
      have hallowed : Allowed r pool.shared c := h.good.guar sessionContract_sound hi
      have hexpected := expected_of_answered h.good.shared hallowed hexec hharm
      intro p hp
      rcases List.mem_or_eq_of_mem_set hp with hp | rfl
      · exact h.promises p hp
      · exact (h.promises _ (List.mem_of_getElem? hi) reply hexpected).1
    | spawn hp =>
      obtain ⟨sid, rfl⟩ := hp
      intro p hp
      rcases List.mem_append.mp hp with hp | hp
      · exact h.promises p hp
      · rw [List.mem_singleton.mp hp]
        exact promises_revokeLineage sid
    | env he => exact h.promises
  · intro sid hin
    cases hst with
    | @cmd i c next reply s hi hexec =>
      have hallowed : Allowed r pool.shared c := h.good.guar sessionContract_sound hi
      have hexpected := expected_of_answered h.good.shared hallowed hexec hharm
      obtain ⟨hold, hother, hmarks⟩ := accounted_serve h.good.shared hallowed hexec sid hin
      have hlt : i < pool.threads.length := (List.getElem?_eq_some_iff.mp hi).1
      rcases hmarks with hmarks | hlive
      · -- this thread will see to it
        have hremoves := (h.promises _ (List.mem_of_getElem? hi) reply hexpected).2 sid hmarks
        exact .inr ⟨i, next reply, List.getElem?_set_self hlt, hremoves⟩
      · rcases h.accounted sid hold with hl | ⟨j, p, hj, hp⟩
        · exact .inl (hlive hl)
        · by_cases hij : i = j
          · subst hij
            cases hi.symm.trans hj
            exact .inr ⟨i, next reply, List.getElem?_set_self hlt, hp.resolve_left hother reply hexpected⟩
          · exact .inr ⟨j, p, (List.getElem?_set_ne hij).trans hj, hp⟩
    | spawn hp =>
      rcases h.accounted sid hin with hl | ⟨j, p, hj, hp⟩
      · exact .inl hl
      · exact .inr ⟨j, p, (List.getElem?_append_left (List.getElem?_eq_some_iff.mp hj).1).trans hj, hp⟩
    | env he =>
      rcases accounted_env h.good.shared h.indexed he hharm sid hin with hl | ⟨hold, hlive⟩
      · exact .inl hl
      · exact (h.accounted sid hold).imp_left hlive

theorem countInv_init {pool : SessionPool} (h : SessionInit r pool) : CountInv r pool := by
  have hgood := good_init h
  obtain ⟨⟨redis, minted⟩, threads⟩ := pool
  obtain ⟨hdata, rfl, rfl⟩ := h
  have hindexed := indexed_init hdata
  refine ⟨hgood, hindexed, nofun, fun sid hin => ?_⟩
  obtain ⟨c, hc, -⟩ := hindexed.named sid hin
  cases hc

/-- The size of an index is the number of its members. -/
theorem countSessions_eq (h : IsIndex s.redis r.sessionsKey) :
    countSessions r s.redis = .ok (Set.ncard {sid | sid ∈ indexOf s.redis r.sessionsKey}) := by
  have hkeys : {sid | sid ∈ indexOf s.redis r.sessionsKey} =
      ((indexOf s.redis r.sessionsKey).keys.toFinset : Set String) := by
    ext sid
    simp [AList.mem_keys]
  have hnodup := (indexOf s.redis r.sessionsKey).keys_nodup
  unfold countSessions
  rw [h.zsetAt, hkeys, Set.ncard_coe_finset, List.toFinset_card_of_nodup hnodup, AList.keys, List.keys, List.length_map]
  rfl

theorem indexExact_of_idle {pool : SessionPool} (h : CountInv r pool) (hidle : Idle pool) : IndexExact r pool.shared := by
  have hmem : ∀ sid, sid ∈ indexOf pool.shared.redis r.sessionsKey ↔ LiveLineage r pool.shared.redis sid := by
    intro sid
    constructor
    · intro hin
      refine (h.accounted sid hin).resolve_right ?_
      rintro ⟨i, p, hi, hp⟩
      obtain ⟨result, rfl⟩ := hidle p (List.mem_of_getElem? hi)
      exact hp
    · exact h.indexed.mem_of_live
  refine ⟨hmem, ?_⟩
  rw [countSessions_eq h.good.shared.sessionsIndex]
  simp only [hmem]

end Steps

/-- Where no lineage expires before it is revoked, the index of all sessions is exact whenever no
revocation is in progress. -/
theorem session_index_exact {pool pool' : SessionPool} {trace : List SessionLabel} (h : SessionInit r pool)
    (hrun : Run (AnsweredStep r) pool trace pool')
    (hharm : ∀ before l after p p', trace = before ++ l :: after → Run (AnsweredStep r) pool before p →
      AnsweredStep r p l p' → Run (AnsweredStep r) p' after pool' → IndexHarmless r p.shared l)
    (hidle : Idle pool') : IndexExact r pool'.shared := by
  have hstep : ∀ p l p', True → CountInv r p → AnsweredStep r p l p' → IndexHarmless r p.shared l →
      CountInv r p' := fun _ _ _ _ hp hst hh => countInv_step hp hst hh
  exact indexExact_of_idle (hrun.good (fun _ _ _ _ _ => trivial) hstep trivial (countInv_init h) hharm) hidle

theorem answered_login : AnsweredStep sampleConfig samplePool (.env (.issue (.ok sampleToken))) ⟨sampleLogin, []⟩ := by
  cases sampleLogin_step with
  | env he => exact .env he

theorem session_index_exact_login : IndexExact sampleConfig sampleLogin := by
  refine session_index_exact samplePool_init (.single answered_login) ?_ nofun
  intro before l after p p' htrace _ _ _
  cases before with
  | nil =>
    obtain ⟨rfl, -⟩ := List.cons.inj htrace
    trivial
  | cons first rest => simp at htrace

/-- A lineage that has expired is listed for ever. -/
theorem expired_lineage_counted : ∃ trace pool, Run (AnsweredStep sampleConfig) samplePool trace pool ∧
    Idle pool ∧ ¬ IndexExact sampleConfig pool.shared := by
  have hpass : AnsweredStep sampleConfig ⟨sampleLogin, []⟩ (.env (.pass 60001)) ⟨⟨sampleLogin.redis.after 60001, _⟩, []⟩ :=
    .env (.pass 60001)
  refine ⟨_, _, .cons answered_login (.single hpass), nofun, fun h => ?_⟩
  have hin : sampleSid.text ∈ indexOf sampleLogin.redis sampleConfig.sessionsKey := mem_sessions_issued.mpr (.inl rfl)
  obtain ⟨f, x, hg, -⟩ := (h.mem sampleSid.text).mp hin
  obtain ⟨hd, hlive⟩ := Server.get_eq_some.mp hg
  have hissued : sampleLogin.redis.data (sampleConfig.lineageKey sampleSid.text) =
      some ⟨.hash (setFields ∅ (activeFields sampleSid.text "alice" "jkt" (toString (0 : Int)))), some 60000⟩ :=
    issued_lineage
  cases hissued.symm.trans hd
  have hlate := (Entry.isLive_iff _ _).mp hlive 60000 rfl
  revert hlate
  decide

end Chinwag.Auth

import Chinwag.Auth.RefreshThreads

/-!
# What a failed refresh costs

A request that ends without a new token leaves the presented one as it was, unless the
user or the access token could not be had after the rotation: then the presented token
is spent and the new one is in nobody's hands.
-/
namespace Chinwag.Auth

open Users Redis StringKeys Program Transition

variable {L : RefreshLib} {r : RefreshConfig} {c : RefreshTokenClaims} {x i : Nat} {cookie : String}
  {s t : RefreshState} {pool pool' : RefreshPool} {l : RefreshLabel}
  {trace : List RefreshLabel}

/-- The stored record of the token says active, and expires at `x`. -/
def ActiveUntil (r : RefreshConfig) (s : Sessions) (c : RefreshTokenClaims) (x : Nat) : Prop :=
  ∃ f, s.redis.data (r.tokenKey c.jti.text) = some ⟨.hash f, some x⟩ ∧ f.lookup "status" = some "active"

/-- Sessions some run of the session system leads to, and no request noted yet. -/
structure RefreshStart (r : RefreshConfig) (s : RefreshState) : Prop where
  reachable : ∃ threads, Reachable (SessionStep r) (SessionInit r) ⟨s.sessions, threads⟩
  accepted : s.accepted = []
  abandoned : s.abandoned = []

theorem RefreshStart.inv (h : RefreshStart r s) : RefreshInv r s := by
  obtain ⟨threads, hreach⟩ := h.reachable
  have hnone : ∀ y, y ∉ s.accepted := by
    intro y hy
    rw [h.accepted] at hy
    cases hy
  refine ⟨(good_of_reachable hreach).shared, fun y hy => absurd hy (hnone y), fun y hy => absurd hy (hnone y), ?_⟩
  rw [h.accepted]
  exact List.nodup_nil

abbrev RefreshGood (L : RefreshLib) (r : RefreshConfig) (presented : Nat → RefreshTokenClaims)
    (pool : RefreshPool) : Prop :=
  Good (refreshSemantics L r) (refreshContract r presented) (Ended presented) pool

theorem refreshGood_step {presented : Nat → RefreshTokenClaims} (hg : RefreshGood L r presented pool)
    (h : RefreshStep L r pool l pool') : RefreshGood L r presented pool' :=
  hg.step (refreshContract_sound presented) stable_endedWith (fun _ _ _ he => he.elim) h

/-- A request that does not exist has rotated nothing. -/
def Unstarted (i : Nat) (s : RefreshState) : Prop := s.acceptedBy i = [] ∧ i ∉ s.abandoned

theorem Unstarted.left (h : Unstarted i s) (hl : LeftTo r i s t) : Unstarted i t :=
  ⟨hl.acceptedBy.trans h.1, mt hl.abandoned.mp h.2⟩

theorem abandoned_settle {ε α : Type} (s : RefreshState) (j : Nat) (result : Except ε α) :
    i ∈ (s.settle j result).abandoned ↔ i ∈ s.abandoned ∨ i = j ∧ ∃ e, result = .error e := by
  cases result with
  | ok a => simp [RefreshState.settle]
  | error e => simp [RefreshState.settle, or_comm]

/-- The requests given up are those with a late failure in the trace. -/
theorem abandoned_step (h : RefreshStep L r pool l pool') :
    i ∈ pool'.shared.abandoned ↔ i ∈ pool.shared.abandoned ∨ FailsLate i l := by
  cases h with
  | spawn hp => exact hp.elim
  | env he => cases he <;> exact (or_iff_left id).symm
  | cmd hi hexec =>
    cases hexec with
    | getUser id => exact abandoned_settle _ _ _
    | getUserFailed e => exact abandoned_settle _ _ (.error e : Except DbError User)
    | newAccessToken result => exact abandoned_settle _ _ _
    | _ => exact (or_iff_left id).symm

theorem abandoned_run (h : Run (RefreshStep L r) pool trace pool') :
    i ∈ pool'.shared.abandoned ↔ i ∈ pool.shared.abandoned ∨ ∃ l ∈ trace, FailsLate i l := by
  induction h with
  | nil => simp
  | cons hstep _ ih => rw [ih, abandoned_step hstep, List.exists_mem_cons_iff, or_assoc]

/-- The one request either had its rotation accepted or left the token alone. -/
structure SoloInv (L : RefreshLib) (r : RefreshConfig) (c : RefreshTokenClaims) (x : Nat)
    (pool : RefreshPool) : Prop where
  good : RefreshGood L r (fun _ => c) pool
  single : pool.threads.length = 1
  others : ∀ j, pool.threads.length ≤ j → Unstarted j pool.shared
  minted : c ∈ pool.shared.sessions.minted
  untouched : pool.shared.accepted ≠ [] ∨ x < pool.shared.sessions.redis.now ∨
    ActiveUntil r pool.shared.sessions c x ∧ ¬ Revoked r pool.shared.sessions c.sid.text

theorem later_refresh {presented : Nat → RefreshTokenClaims} (hg : RefreshGood L r presented pool) {l : RefreshLabel}
    (h : RefreshStep L r pool l pool') : Later r pool.shared.sessions pool'.shared.sessions := by
  cases h with
  | spawn hp => exact hp.elim
  | env he => exact ((env_keeps_refresh hg.shared he).2 0).later
  | cmd hi hexec => exact (exec_keeps_refresh hg.shared (hg.guar (refreshContract_sound _) hi) hexec).2.1

/-- A rotation that is not accepted does nothing to an active token. -/
theorem untouched_rotate (h : RefreshInv r s) (hc : c ∈ s.sessions.minted)
    (hactive : ActiveUntil r s.sessions c x) (hopen : ¬ Revoked r s.sessions c.sid.text)
    (hlive : s.sessions.redis.now ≤ x) {key : Option String} {newJti : Uuid} {now : Int}
    {result : Except AuthError RotatedRefreshToken} {redis : Server} (hfresh : FreshJti s.sessions newJti)
    (hrun : rotateRefreshToken r key c newJti now s.sessions.redis = (result, redis)) :
    (∃ rot, result = .ok rot) ∨ ∃ e, result = .error e ∧ redis = s.sessions.redis := by
  cases key with
  | none =>
    cases hrun
    exact Or.inr ⟨_, rfl, rfl⟩
  | some kid =>
    obtain ⟨f, hd, hs⟩ := hactive
    obtain ⟨lin, members, created, ha⟩ := accepts_of_active h.sessions hc hd hs hlive hopen
    rw [rotate_fresh h.sessions ha hfresh kid now] at hrun
    cases hrun
    exact Or.inl ⟨_, rfl⟩

theorem accepted_step (h : RefreshStep L r pool l pool') : pool.shared.accepted <+: pool'.shared.accepted := by
  cases h with
  | spawn hp => exact hp.elim
  | env he => cases he <;> exact List.prefix_rfl
  | cmd hi hexec =>
    cases hexec with
    | rotate => exact List.prefix_append _ _
    | getUser id => simp
    | newAccessToken result => simp
    | _ => exact List.prefix_rfl

theorem untouched_step (hg : RefreshGood L r (fun _ => c) pool) (hc : c ∈ pool.shared.sessions.minted)
    (hactive : ActiveUntil r pool.shared.sessions c x) (hopen : ¬ Revoked r pool.shared.sessions c.sid.text)
    (hlive : pool.shared.sessions.redis.now ≤ x) (h : RefreshStep L r pool l pool') :
    pool'.shared.accepted ≠ [] ∨
      ActiveUntil r pool'.shared.sessions c x ∧ ¬ Revoked r pool'.shared.sessions c.sid.text := by
  cases h with
  | spawn hp => exact hp.elim
  | env he => cases he <;> exact Or.inr ⟨hactive, hopen⟩
  | cmd hi hexec =>
    have hguar := hg.guar (refreshContract_sound _) hi
    cases hexec with
    | @rotate _ key claims newJti now result redis hfresh hrun =>
      obtain ⟨rfl, -, -⟩ := hguar
      rcases untouched_rotate hg.shared hc hactive hopen hlive hfresh hrun with ⟨rot, rfl⟩ | ⟨e, rfl, rfl⟩
      · exact Or.inl (by simp [RefreshState.rotated, rotatedTokens])
      · refine Or.inr ?_
        simp only [RefreshState.rotated, rotatedTokens, List.append_nil]
        exact ⟨hactive, hopen⟩
    | getUser id => exact Or.inr (by rw [sessions_settle]; exact ⟨hactive, hopen⟩)
    | newAccessToken result => exact Or.inr (by rw [sessions_settle]; exact ⟨hactive, hopen⟩)
    | _ => exact Or.inr ⟨hactive, hopen⟩

/-- No request is added, and one that has returned stays as it is. -/
theorem threads_step (h : RefreshStep L r pool l pool') : pool'.threads.length = pool.threads.length ∧
    ∀ (i : Nat) (response : Response), pool.threads[i]? = some (.ret response) →
      pool'.threads[i]? = some (.ret response) := by
  cases h with
  | spawn hp => exact hp.elim
  | env => exact ⟨rfl, fun _ _ h => h⟩
  | @cmd j _ _ _ _ hj =>
    refine ⟨List.length_set .., fun i response hi => ?_⟩
    have hne : j ≠ i := by
      rintro rfl
      cases hj.symm.trans hi
    exact (List.getElem?_set_ne hne).trans hi

theorem soloInv_step (h : SoloInv L r c x pool) (hstep : RefreshStep L r pool l pool') :
    SoloInv L r c x pool' := by
  have hlater := later_refresh h.good hstep
  refine ⟨refreshGood_step h.good hstep, (threads_step hstep).1.trans h.single, ?_, hlater.minted c h.minted, ?_⟩
  · exact h.good.unmarked (refreshContract_sound _) (fun _ _ _ => Unstarted.left) hstep h.others
  · rcases h.untouched with hacc | hpast | ⟨hactive, hopen⟩
    · exact Or.inl fun hnil => hacc (List.prefix_nil.mp (hnil ▸ accepted_step hstep))
    · exact Or.inr (Or.inl (Nat.lt_of_lt_of_le hpast hlater.now))
    · rcases Nat.lt_or_ge x pool.shared.sessions.redis.now with hlt | hlive
      · exact Or.inr (Or.inl (Nat.lt_of_lt_of_le hlt hlater.now))
      · exact (untouched_step h.good h.minted hactive hopen hlive hstep).imp_right Or.inr

theorem soloInv_start (hstart : RefreshStart r s) (hread : L.read cookie = some c)
    (hc : c ∈ s.sessions.minted) (hactive : ActiveUntil r s.sessions c x)
    (hopen : ¬ Revoked r s.sessions c.sid.text) : SoloInv L r c x ⟨s, [refresh (some cookie)]⟩ := by
  have hown : ∀ j, Unstarted j s := by
    intro j
    refine ⟨?_, ?_⟩
    · rw [RefreshState.acceptedBy, hstart.accepted]
      rfl
    · rw [hstart.abandoned]
      exact List.not_mem_nil
  refine ⟨⟨hstart.inv, ?_⟩, rfl, fun j _ => hown j, hc, Or.inr (Or.inr ⟨hactive, hopen⟩)⟩
  intro i p hi
  obtain rfl : p = refresh (some cookie) := List.mem_singleton.mp (List.mem_of_getElem? hi)
  refine safe_refresh_request ?_ ⟨hc, (hown i).1, (hown i).2⟩
  intro c' hc'
  exact Option.some.inj (hc'.symm.trans hread)

/-- With one request, its rotations are all there are. -/
theorem SoloInv.accepted_nil (h : SoloInv L r c x pool) (hnone : pool.shared.acceptedBy 0 = []) :
    pool.shared.accepted = [] := by
  refine List.eq_nil_iff_forall_not_mem.mpr fun y hy => ?_
  have hmem : y ∈ pool.shared.acceptedBy y.thread := List.mem_filter.mpr ⟨hy, beq_self_eq_true _⟩
  rcases Nat.eq_zero_or_pos y.thread with hzero | hpos
  · rw [hzero, hnone] at hmem
    cases hmem
  · rw [(h.others y.thread (by rw [h.single]; exact hpos)).1] at hmem
    cases hmem

theorem SoloInv.spent_of_abandoned (h : SoloInv L r c x pool) (ha : Abandoned c i pool.shared) :
    Spent r pool.shared.sessions c.jti := by
  obtain ⟨new, hnew⟩ := ha.acceptedBy
  have hmem : (⟨i, c, new⟩ : AcceptedRotation) ∈ pool.shared.acceptedBy i := by
    rw [hnew]
    exact List.mem_singleton_self _
  exact (h.good.shared.spent _ (List.mem_filter.mp hmem).1).2

theorem later_solo (h : SoloInv L r c x pool) (hrun : Run (RefreshStep L r) pool trace pool') :
    Later r pool.shared.sessions pool'.shared.sessions := by
  induction hrun with
  | nil => exact .refl _
  | cons hstep _ ih => exact (later_refresh h.good hstep).trans (ih (soloInv_step h hstep))

/-- A request that answers without a new token leaves the presented one usable exactly if it
is still live and neither the user nor the access token was what failed. -/
theorem failed_refresh_rotatable_iff {response : Response} (hstart : RefreshStart r s)
    (hread : L.read cookie = some c) (hc : c ∈ s.sessions.minted) (hactive : ActiveUntil r s.sessions c x)
    (hopen : ¬ Revoked r s.sessions c.sid.text)
    (hrun : Run (RefreshStep L r) ⟨s, [refresh (some cookie)]⟩ trace ⟨t, [.ret response]⟩)
    (hfailed : response.granted = none) :
    Rotatable r t.sessions c ↔ t.sessions.redis.now ≤ x ∧ ∀ l ∈ trace, ¬ FailsLate 0 l := by
  have hstart' := soloInv_start hstart hread hc hactive hopen
  have hsolo := hrun.invariant (fun _ _ _ h hs => soloInv_step h hs) hstart'
  have hended : Ended (fun _ => c) 0 response t := hsolo.good.safe 0 _ rfl
  unfold Ended at hended
  rw [hfailed] at hended
  have hlate : 0 ∈ t.abandoned ↔ ∃ l ∈ trace, FailsLate 0 l := by
    refine (abandoned_run hrun).trans (or_iff_right ?_)
    rw [hstart.abandoned]
    exact List.not_mem_nil
  constructor
  · intro hrot
    obtain ⟨cur, lin, members, created, y, ha, hd, hle, -⟩ :=
      rotatable_before hstart'.good.shared.sessions hsolo.good.shared.sessions (later_solo hstart' hrun) hc hrot
    obtain ⟨f, hd', -⟩ := hactive
    obtain rfl : y = x := by
      have hentry := Option.some.inj (hd.symm.trans hd')
      exact Option.some.inj (congrArg Redis.Entry.expireAt hentry)
    refine ⟨hle, fun l hl hlate' => ?_⟩
    rcases hended with ⟨-, hnot⟩ | hab
    · exact hnot (hlate.mpr ⟨l, hl, hlate'⟩)
    · obtain ⟨cur', lin', members', created', ha'⟩ :=
        (rotatable_iff hsolo.good.shared.sessions hsolo.minted).mp hrot
      exact ha'.not_spent (hsolo.spent_of_abandoned hab)
  · rintro ⟨hlive, hgood⟩
    have hnone : t.acceptedBy 0 = [] := by
      rcases hended with ⟨hnone, -⟩ | hab
      · exact hnone
      · obtain ⟨l, hl, hlate'⟩ := hlate.mp hab.abandoned
        exact absurd hlate' (hgood l hl)
    rcases hsolo.untouched with hacc | hpast | ⟨⟨f, hd, hs⟩, hopen'⟩
    · exact absurd (hsolo.accepted_nil hnone) hacc
    · exact absurd hpast (Nat.not_lt.mpr hlive)
    · obtain ⟨lin, members, created, ha⟩ :=
        accepts_of_active hsolo.good.shared.sessions hsolo.minted hd hs hlive hopen'
      exact rotatable_of_accepts hsolo.good.shared.sessions ha

section Sample

def sampleProof : Dpop.Proof := ⟨"proof", ⟨"dpop+jwt", "ES256", none⟩, ⟨"jti", "POST", "/auth/refresh", 0, ""⟩, ⟨true, 0, 0⟩⟩

def RefreshState.locked (L : RefreshLib) (s : RefreshState) (cookie : String) (u : Uuid) : RefreshState :=
  s.setLocks (s.locks.set (lockKey L cookie) u.text lockTtl)

def RefreshState.unlocked (L : RefreshLib) (s : RefreshState) (cookie : String) (u : Uuid) : RefreshState :=
  s.setLocks (s.locks.compareDel (lockKey L cookie) u.text)

/-- What a request has left to do once it holds the lock. -/
def underLock (cookie : String) (c : RefreshTokenClaims) (u : Uuid) : RefreshProg Response := do
  let response ← rotateAndGrant c c.jkt
  let _ ← Prog.perform (RefreshCmd.releaseLock cookie u)
  return response

/-- A request that nobody disturbs, up to what it does under the lock. -/
theorem advance_refresh (u : Uuid) (hread : L.read cookie = some c)
    (hfree : s.locks.get (lockKey L cookie) = none) :
    Advance (RefreshExec L r i) (refresh (some cookie)) s (underLock cookie c u) (s.locked L cookie u) := by
  have hlock : RefreshExec L r i (.acquireLock cookie u) s (.ok true) (s.locked L cookie u) := by
    have hset : s.locks.setNX (lockKey L cookie) u.text lockTtl =
        (true, s.locks.set (lockKey L cookie) u.text lockTtl) := by
      rw [Strings.setNX, hfree]
    have hexec : RefreshExec L r i (.acquireLock cookie u) s _ _ := .acquireLock cookie u
    rw [hset] at hexec
    exact hexec
  refine .call (.validateProof (.accepted sampleProof "")) ?_
  refine .call (.thumbprint sampleProof.key (some c.jkt)) ?_
  refine .call (.readToken hread rfl) ?_
  refine .call (.newV7 u) ?_
  exact .call hlock (.stop _ _)

theorem alone_refresh {response : Response} (u : Uuid) (hread : L.read cookie = some c)
    (hfree : s.locks.get (lockKey L cookie) = none)
    (h : Alone (RefreshExec L r i) Eq (rotateAndGrant c c.jkt) (s.locked L cookie u) response t) :
    Alone (RefreshExec L r i) Eq (refresh (some cookie)) s response (t.unlocked L cookie u) :=
  (advance_refresh u hread hfree).alone (h.bind (.call rfl (.releaseLock cookie u) (.ret _ _)))

def sampleLib : RefreshLib where
  text token := if token = sampleToken then "first" else if token = sampleToken' then "second" else ""
  read raw := if raw = "first" then some sampleToken else if raw = "second" then some sampleToken' else none
  hash raw := raw

def aliceUser : User := ⟨"alice", "Alice", "alice@example.org", "", .USER, "local", none, 0, 0, none⟩

def sampleStore : RefreshState :=
  ⟨sampleLogin, ⟨fun _ => none, 0⟩, ⟨[aliceUser], List.nodup_singleton _, List.nodup_singleton _⟩, [], []⟩

theorem sampleStore_start : RefreshStart sampleConfig sampleStore :=
  ⟨⟨[], samplePool, _, samplePool_init, .single sampleLogin_step⟩, rfl, rfl⟩

theorem sampleToken_active :
    ActiveUntil sampleConfig sampleLogin sampleToken (deadline sampleConfig samplePool.shared.redis) :=
  ⟨_, issued_token, active_status ..⟩

theorem sampleToken_open : ¬ Revoked sampleConfig sampleLogin sampleToken.sid.text := not_revoked_issued

theorem sampleToken_rotates : ∃ rot redis, rotateRefreshToken sampleConfig (some "kid") sampleToken
    sampleJti' 0 sampleLogin.redis = (.ok rot, redis) := by
  obtain ⟨cur, lin, members, created, ha⟩ := sampleLogin_accepts
  exact ⟨_, _, rotate_fresh sampleLogin_good.shared ha sampleLogin_fresh "kid" 0⟩

end Sample

/-- The rotation is accepted, and then the database does not answer. -/
theorem failed_refresh_spends_token : ∃ trace t response, RefreshStart sampleConfig sampleStore ∧
    Rotatable sampleConfig sampleStore.sessions sampleToken ∧
    Run (RefreshStep sampleLib sampleConfig) ⟨sampleStore, [refresh (some (sampleLib.text sampleToken))]⟩ trace
      ⟨t, [.ret response]⟩ ∧
    response = .error 401 "account unavailable" ∧ ¬ Rotatable sampleConfig t.sessions sampleToken := by
  obtain ⟨rot, redis, hrot⟩ := sampleToken_rotates
  have hmem : sampleToken ∈ sampleLogin.minted := List.mem_singleton_self _
  have hwork : Alone (RefreshExec sampleLib sampleConfig 0) Eq (rotateAndGrant sampleToken sampleToken.jkt)
      (sampleStore.locked sampleLib "first" sampleJti) (.error 401 "account unavailable") _ :=
    .call rfl (.rotate sampleLogin_fresh hrot) <| .call rfl (.getUserFailed .lost) (.ret _ _)
  have halone := alone_refresh sampleJti (rfl : sampleLib.read "first" = some sampleToken) rfl hwork
  obtain ⟨trace, hrun⟩ : ∃ trace, Run (RefreshStep sampleLib sampleConfig)
      ⟨sampleStore, [refresh (some "first")]⟩ trace ⟨_, [.ret _]⟩ :=
    Alone.run (S := refreshSemantics sampleLib sampleConfig) (i := 0) halone rfl
  obtain ⟨cur, lin, members, created, ha⟩ := sampleLogin_accepts
  refine ⟨trace, _, _, sampleStore_start, rotatable_of_accepts sampleLogin_good.shared ha, hrun, rfl, ?_⟩
  intro hagain
  have heff := rotate_effect sampleLogin_good.shared hmem sampleLogin_fresh hrot
  obtain ⟨cur', lin', members', created', ha'⟩ :=
    (rotatable_iff heff.inv (heff.later.minted _ hmem)).mp hagain
  exact ha'.not_spent (heff.ok rot rfl).2.2

/-- A request that found Redis gone under the lock may be repeated. -/
theorem failed_refresh_rotatable_timeout : ∃ trace t response,
    Run (RefreshStep sampleLib sampleConfig) ⟨sampleStore, [refresh (some (sampleLib.text sampleToken))]⟩ trace
      ⟨t, [.ret response]⟩ ∧
    response = .error 503 errDependencyTimeout.message ∧ Rotatable sampleConfig t.sessions sampleToken := by
  have hmem : sampleToken ∈ sampleLogin.minted := List.mem_singleton_self _
  have hlive : sampleLogin.redis.now ≤ deadline sampleConfig samplePool.shared.redis := Nat.le_add_right _ _
  have hwork : Alone (RefreshExec sampleLib sampleConfig 0) Eq (rotateAndGrant sampleToken sampleToken.jkt)
      (sampleStore.locked sampleLib "first" sampleJti) (.error 503 errDependencyTimeout.message) _ :=
    .call rfl (.rotateFailed _ .deadlineExceeded) (.ret _ _)
  have halone := alone_refresh sampleJti (rfl : sampleLib.read "first" = some sampleToken) rfl hwork
  obtain ⟨trace, hrun⟩ : ∃ trace, Run (RefreshStep sampleLib sampleConfig)
      ⟨sampleStore, [refresh (some "first")]⟩ trace ⟨_, [.ret _]⟩ :=
    Alone.run (S := refreshSemantics sampleLib sampleConfig) (i := 0) halone rfl
  refine ⟨trace, _, _, hrun, rfl, ?_⟩
  refine (failed_refresh_rotatable_iff sampleStore_start rfl hmem sampleToken_active sampleToken_open hrun rfl).mpr
    ⟨hlive, fun l hl hlate => ?_⟩
  have habandoned := (abandoned_run hrun).mpr (Or.inr ⟨l, hl, hlate⟩)
  cases habandoned

end Chinwag.Auth

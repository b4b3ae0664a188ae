import Chinwag.Users.LastAdmin

/-!
# Disabled accounts

A login, a refresh, an update or a registration finds active rows only. The upsert of a
Google login goes by the email alone, and it is the one statement that makes a disabled row
active again.
-/
namespace Chinwag.Users

open Program Auth Transition

def Disabled (t : UserTable) (id : String) : Prop := ∃ u ∈ t.rows, u.id = id ∧ u.deletedAt ≠ none

/-- Some response carries a token of this account. -/
def HandedOut (p : UserPool) (id : String) : Prop :=
  ∃ (i : Nat) (access : AccessClaims) (refresh : RefreshTokenClaims),
    p.threads[i]? = some (.ret (.tokens access refresh)) ∧ (access.subject = id ∨ refresh.subject = id)

/-- The account is disabled, and no token of it has been handed out. -/
def ShutOut (p : UserPool) (id : String) : Prop := Disabled p.shared.table id ∧ ¬ HandedOut p id

/-- Everything but the statement of `AdminRestoreUser` for this account. -/
def semanticsBefore (id : String) : Semantics UserState Nat UserCmd UserReply where
  exec i c s r t := Exec i c s r t ∧ c ≠ .write (.restoreUser id)
  env := userSemantics.env

abbrev StepBefore (id : String) : UserPool → UserLabel → UserPool → Prop :=
  Step (semanticsBefore id) Serves

/-- The upsert is for another email than that of the account. -/
def SparesEmail (t : UserTable) (id : String) (user : User) : Prop :=
  ∀ u ∈ t.rows, u.id = id → u.email ≠ user.email

/-- What the state must not remember of an account that is kept out. -/
structure KeptOut (s : UserState) (id : String) : Prop where
  disabled : Disabled s.table id
  activated : id ∉ s.activated
  drawn : id ∉ s.drawn

variable {s s' : UserState} {t t' : UserTable} {id : String} {p p' : UserPool} {l : UserLabel}

theorem stepBefore_iff : StepBefore id p l p' ↔
    UserStep p l p' ∧ ∀ i r, l ≠ .cmd i (.write (.restoreUser id)) r := by
  constructor
  · intro h
    cases h with
    | cmd hi hexec =>
      refine ⟨.cmd hi hexec.1, ?_⟩
      intro i r hl
      cases hl
      exact hexec.2 rfl
    | spawn hp => exact ⟨.spawn hp, nofun⟩
    | env he => exact ⟨.env he, nofun⟩
  · rintro ⟨h, hno⟩
    cases h with
    | cmd hi hexec =>
      refine .cmd hi ⟨hexec, ?_⟩
      intro hc
      subst hc
      exact hno _ _ rfl
    | spawn hp => exact .spawn hp
    | env he => exact .env he

theorem Disabled.not_active (h : Disabled t id) {v : User} (hv : v ∈ t.rows) (hid : v.id = id) :
    v.deletedAt ≠ none := by
  obtain ⟨u, hu, huid, hdel⟩ := h
  obtain rfl : v = u := t.eq_of_id hv hu (hid.trans huid.symm)
  exact hdel

theorem Disabled.not_mem_activeIds (h : Disabled t id) : id ∉ UserState.activeIds t := by
  intro hmem
  obtain ⟨v, hv, hact, hid⟩ := mem_activeIds.mp hmem
  exact h.not_active hv hid hact

/-- Only a restoration and an upsert make a disabled row active. -/
theorem Disabled.after {now : Nat} {w : Write} (h : Disabled t id) (he : w.Effect now t t')
    (hrestore : w ≠ .restoreUser id) (hgoogle : ∀ user, w = .createOAuthUser user → SparesEmail t id user) :
    Disabled t' id := by
  obtain ⟨u, hu, hid, hdel⟩ := h
  obtain ⟨v, hv, hvid, hsame⟩ := he.row hu
  refine ⟨v, hv, hvid.trans hid, ?_⟩
  obtain rfl | ⟨hsel, rfl⟩ := hsame
  · exact hdel
  · cases w with
    | createUser => exact hsel.elim
    | createOAuthUser user => exact absurd hsel (hgoogle user rfl u hu hid)
    | updateUser => exact absurd hsel.2 hdel
    | setRole => exact hdel
    | deleteUser => exact nofun
    | restoreUser id' =>
      obtain rfl : id' = id := (show u.id = id' from hsel).symm.trans hid
      exact absurd rfl hrestore

theorem exec_activated {i : Nat} {c : UserCmd} {reply : UserReply c} (h : Exec i c s reply s') :
    ∀ x ∈ s'.activated, x ∈ s.activated ∨ x ∈ UserState.activeIds s'.table := by
  intro x hx
  have hstore : ∀ t : UserTable, x ∈ (s.store t).activated →
      x ∈ s.activated ∨ x ∈ UserState.activeIds (s.store t).table :=
    fun t hx => (List.mem_append.mp hx).symm
  cases h with
  | receive => exact Or.inl hx
  | read q =>
    rw [(note_table s i q _).2] at hx
    exact Or.inl hx
  | readFailed => exact Or.inl hx
  | write => exact hstore _ hx
  | writeRefused => exact Or.inl hx
  | writeFailed => exact Or.inl hx
  | writeLost => exact hstore _ hx
  | newV7 => exact Or.inl hx
  | fetchUserInfo => exact Or.inl hx
  | fetchFailed => exact Or.inl hx
  | outside => exact Or.inl hx

theorem exec_drawn {i : Nat} {c : UserCmd} {reply : UserReply c} (h : Exec i c s reply s') :
    ∀ x ∈ s'.drawn, x ∈ s.drawn ∨ ∀ u ∈ s.table.rows, u.id ≠ x := by
  intro x hx
  cases h with
  | receive => exact Or.inl hx
  | read q =>
    refine Or.inl ?_
    unfold UserState.note at hx
    split at hx <;> exact hx
  | readFailed => exact Or.inl hx
  | write => exact Or.inl hx
  | writeRefused => exact Or.inl hx
  | writeFailed => exact Or.inl hx
  | writeLost => exact Or.inl hx
  | newV7 fresh free =>
    cases List.mem_cons.mp hx with
    | inl heq =>
      subst heq
      exact Or.inr free
    | inr hold => exact Or.inl hold
  | fetchUserInfo => exact Or.inl hx
  | fetchFailed => exact Or.inl hx
  | outside => exact Or.inl hx

/-- The memory of the state goes with the table: no account is remembered that was not active or new. -/
theorem step_memory (h : UserStep p l p') :
    (∀ x ∈ p'.shared.activated, x ∈ p.shared.activated ∨ x ∈ UserState.activeIds p'.shared.table) ∧
    ∀ x ∈ p'.shared.drawn, x ∈ p.shared.drawn ∨ ∀ u ∈ p.shared.table.rows, u.id ≠ x := by
  cases h with
  | spawn => exact ⟨fun _ hx => Or.inl hx, fun _ hx => Or.inl hx⟩
  | @env e s he =>
    obtain rfl : s = { p.shared with now := p.shared.now + e } := he
    exact ⟨fun _ hx => Or.inl hx, fun _ hx => Or.inl hx⟩
  | cmd hi hexec => exact ⟨exec_activated hexec, exec_drawn hexec⟩

/-- What a step must not do: an upsert for the email of the account. -/
def NoUpsert (id : String) (p : UserPool) (l : UserLabel) : Prop :=
  ∀ i user r, l = .cmd i (.write (.createOAuthUser user)) r → Took r → SparesEmail p.shared.table id user

theorem keptOut_step (h : KeptOut p.shared id) (hs : StepBefore id p l p') (hno : NoUpsert id p l) :
    KeptOut p'.shared id := by
  obtain ⟨hstep, hrestore⟩ := stepBefore_iff.mp hs
  have hdisabled : Disabled p'.shared.table id := by
    cases table_step hstep with
    | same htable _ =>
      rw [htable]
      exact h.disabled
    | wrote i w r hl htook happly =>
      refine h.disabled.after (Write.effect_of_apply happly) ?_ ?_
      · intro hw
        exact hrestore i r (by rw [hl, hw])
      · intro user hw
        exact hno i user r (by rw [hl, hw]) htook
  obtain ⟨hact, hdrawn⟩ := step_memory hstep
  constructor
  · exact hdisabled
  · intro hmem
    cases hact id hmem with
    | inl hold => exact h.activated hold
    | inr hnew => exact hdisabled.not_mem_activeIds hnew
  · intro hmem
    cases hdrawn id hmem with
    | inl hold => exact h.drawn hold
    | inr hfree =>
      obtain ⟨u, hu, hid, -⟩ := h.disabled
      exact hfree u hu hid

theorem shutOut_of_keptOut (hg : UserGood p) (h : KeptOut p.shared id) : ShutOut p id := by
  refine ⟨h.disabled, ?_⟩
  rintro ⟨i, access, refresh, hi, hsubject⟩
  obtain ⟨ha, hr⟩ := hg.safe i _ hi access refresh rfl
  have hnot : ¬ Earned p.shared id := fun he => he.elim h.activated h.drawn
  cases hsubject with
  | inl heq => exact hnot (heq ▸ ha)
  | inr heq => exact hnot (heq ▸ hr)

/-- An upsert for its email makes the account active. -/
theorem not_disabled_of_upsert {now n : Nat} {user u : User}
    (happly : Write.apply now t (.createOAuthUser user) = .ok (t', n)) (hu : u ∈ t.rows)
    (hid : u.id = id) (hemail : u.email = user.email) : ¬ Disabled t' id := by
  intro h
  have hmem := (Write.effect_of_apply happly).revised u hu hemail
  exact h.not_active hmem hid rfl

variable {pool pool' : UserPool} {trace : List UserLabel}

/-- From the moment an account is disabled until it is restored it stays disabled, and no token is
handed out for it, exactly if no Google login upserts its email. -/
theorem disabled_until_restored_iff (h : UsersInit pool) (hd : Disabled pool.shared.table id) :
    (∀ before after p, trace = before ++ after → Run (StepBefore id) pool before p →
      Run (StepBefore id) p after pool' → ShutOut p id) ↔
    ∀ before i user r after p p', trace = before ++ .cmd i (.write (.createOAuthUser user)) r :: after →
      Run (StepBefore id) pool before p → StepBefore id p (.cmd i (.write (.createOAuthUser user)) r) p' →
      Run (StepBefore id) p' after pool' → Took r → SparesEmail p.shared.table id user := by
  constructor
  · intro hall before i user r after p p' htrace hbefore hstep hafter htook u hu hid hemail
    have hshut := hall (before ++ [.cmd i (.write (.createOAuthUser user)) r]) after p'
      (by rw [htrace, List.append_assoc]; rfl) (hbefore.append (.single hstep)) hafter
    cases table_step (stepBefore_iff.mp hstep).1 with
    | same htable hno => exact hno i _ r rfl htook
    | wrote i' w r' hl _ happly =>
      cases hl
      exact not_disabled_of_upsert happly hu hid hemail hshut.1
  · intro hno before after p htrace hbefore hafter
    have hinv : ∀ p l p', UserGood p → StepBefore id p l p' → UserGood p' :=
      fun _ _ _ hg hs => good_step hg (stepBefore_iff.mp hs).1
    have hkeep : ∀ p l p', UserGood p → KeptOut p.shared id → StepBefore id p l p' → NoUpsert id p l →
        KeptOut p'.shared id := fun _ _ _ _ => keptOut_step
    have hkept : KeptOut pool.shared id := by
      refine ⟨hd, ?_, ?_⟩
      · rw [h.activated]
        exact hd.not_mem_activeIds
      · rw [h.drawn]
        exact List.not_mem_nil
    refine shutOut_of_keptOut (hbefore.invariant hinv (good_init h)) ?_
    refine Run.good hinv hkeep hbefore (good_init h) hkept ?_
    intro b l b' q q' hsplit hb hstep hb' i user r hl htook
    subst hl
    refine hno b i user r (b' ++ after) q q' ?_ hb hstep (hb'.append hafter) htook
    rw [htrace, hsplit, List.append_assoc]
    rfl

theorem exists_upsert {now : Nat} {user : User} (h : ∃ u ∈ t.rows, u.email = user.email) :
    ∃ t' n, Write.apply now t (.createOAuthUser user) = .ok (t', n) :=
  ⟨_, _, if_pos h⟩

/-- A Google login that finds no active row of its email, run with nothing in between. -/
theorem alone_googleCallback {i n : Nat} {code state jkt fresh : String} {info : GoogleUserInfo}
    {refreshToken : RefreshTokenClaims} {e : DbError} (hcode : code ≠ "") (hstate : state ≠ "")
    (hjkt : isValidJkt jkt = true) (hnone : s.table.getUserByEmail info.email = .error e)
    (hfresh : fresh ∉ s.drawn) (hfree : ∀ u ∈ s.table.rows, u.id ≠ fresh)
    (happly : Write.apply s.now s.table (.createOAuthUser
      ⟨fresh, info.name, info.email, "", .USER, "google", some info.id, 0, 0, none⟩) = .ok (t, n))
    (htoken : refreshToken.subject = fresh ∧ refreshToken.jkt = jkt) :
    Alone ((semanticsBefore id).exec i) Eq (serve (.googleCallback code state "")) s
      (.tokens ⟨fresh, .USER, jkt⟩ refreshToken)
      ((((s.receive i (.googleCallback code state "")).vouch i info.email).draw fresh).store t) := by
  have hread : ∀ u : UserState, u.table = s.table →
      Exec i (.read (.getUserByEmail info.email)) u (.error e) u := by
    intro u hu
    have hanswer : u.table.answer (.getUserByEmail info.email) = .error e := by
      rw [hu]
      exact hnone
    have h : Exec i (.read (.getUserByEmail info.email)) u _ _ := .read _
    rw [hanswer] at h
    exact h
  have hconsume : ∀ u : UserState, Exec i (.consumeState state) u jkt u := fun _ => .outside trivial
  have haccess : ∀ u : UserState, Exec i (.signWithCNF fresh .USER jkt) u (.ok ⟨fresh, .USER, jkt⟩) u :=
    fun _ => .outside fun _ h => (Except.ok.inj h).symm
  have hrefresh : ∀ u : UserState, Exec i (.issueRefreshToken fresh jkt) u (.ok refreshToken) u := by
    refine fun _ => .outside ?_
    intro token h
    obtain rfl := Except.ok.inj h
    exact htoken
  refine .call rfl ⟨.receive _, nofun⟩ ?_
  show Alone _ _ (handleCallback code state "") _ _ _
  unfold handleCallback
  rw [if_neg (fun h => h rfl), if_neg (fun h => h.elim hcode hstate)]
  refine .call rfl ⟨.fetchUserInfo code info, nofun⟩ (.call rfl ⟨hconsume _, nofun⟩ ?_)
  show Alone _ _ (if isValidJkt jkt then _ else _) _ _ _
  rw [if_pos hjkt]
  refine .call rfl ⟨hread _ rfl, nofun⟩ (.call rfl ⟨.newV7 hfresh hfree, nofun⟩ ?_)
  refine .call rfl ⟨.write happly, nofun⟩ (.call rfl ⟨haccess _, nofun⟩ ?_)
  exact .call rfl ⟨hrefresh _, nofun⟩ (.ret _ _)

section Sample

def bannedUser : User := ⟨"eve", "Eve", "eve@example.org", "", .USER, "local", none, 0, 0, some 0⟩

def bannedTable : UserTable := ⟨[bannedUser], List.nodup_singleton _, List.nodup_singleton _⟩

theorem bannedTable_disabled : Disabled bannedTable "eve" :=
  ⟨bannedUser, List.mem_singleton_self _, rfl, nofun⟩

def eveJkt : String := "NzbLsXh8uDCcd-6MNwXF4W_7noWXFZAfHkxZsRGC9Xs"

theorem eveUuid_canonical : Uuid.isCanonical "01890a5d-ac96-774b-bcce-b302099a8061".toList = true := by decide +kernel

def eveUuid : Uuid := ⟨"01890a5d-ac96-774b-bcce-b302099a8061", eveUuid_canonical⟩

/-- The account logs in with Google and is active again. -/
theorem eve_reactivated : ∃ trace pool', Run (StepBefore "eve") ⟨restingState bannedTable, []⟩ trace pool' ∧
    ¬ ShutOut pool' "eve" := by
  have hbanned : bannedUser ∈ bannedTable.rows := List.mem_singleton_self _
  have hfree : ∀ u ∈ bannedTable.rows, u.id ≠ "new" := by
    intro u hu
    obtain rfl := List.mem_singleton.mp hu
    decide
  obtain ⟨t, n, happly⟩ : ∃ t n, Write.apply 1 bannedTable
      (.createOAuthUser ⟨"new", "Eve", "eve@example.org", "", .USER, "google", some "1", 0, 0, none⟩) =
      .ok (t, n) := exists_upsert ⟨bannedUser, hbanned, rfl⟩
  have hlogin : Alone ((semanticsBefore "eve").exec 0) Eq (serve (.googleCallback "code" "state" ""))
      (restingState bannedTable) _ _ :=
    alone_googleCallback (by decide) (by decide) (by decide +kernel : isValidJkt eveJkt = true)
      (rfl : bannedTable.getUserByEmail (⟨"1", "eve@example.org", "Eve"⟩ : GoogleUserInfo).email = _)
      List.not_mem_nil hfree happly
      (⟨rfl, rfl⟩ : (⟨"new", eveUuid, eveUuid, eveJkt⟩ : RefreshTokenClaims).subject = "new" ∧ _)
  have hserve : Serves (serve (.googleCallback "code" "state" "")) := ⟨_, rfl⟩
  obtain ⟨trace, hrun⟩ : ∃ trace, Run (StepBefore "eve") ⟨restingState bannedTable, []⟩ trace _ :=
    Alone.spawn_run [] hserve hlogin
  refine ⟨trace, _, hrun, ?_⟩
  intro hshut
  exact not_disabled_of_upsert happly hbanned rfl rfl hshut.1

end Sample

theorem disabled_account_reactivated : ∃ pool trace pool', UsersInit pool ∧
    Disabled pool.shared.table "eve" ∧ Run (StepBefore "eve") pool trace pool' ∧ ¬ ShutOut pool' "eve" := by
  obtain ⟨trace, pool', hrun, hnot⟩ := eve_reactivated
  exact ⟨_, trace, pool', restingState_init bannedTable, bannedTable_disabled, hrun, hnot⟩

/-- The condition is the one that fails there. -/
theorem disabled_until_restored_eve : ∃ trace pool',
    Run (StepBefore "eve") ⟨restingState bannedTable, []⟩ trace pool' ∧
    ¬ ∀ before i user r after p p', trace = before ++ .cmd i (.write (.createOAuthUser user)) r :: after →
      Run (StepBefore "eve") ⟨restingState bannedTable, []⟩ before p →
      StepBefore "eve" p (.cmd i (.write (.createOAuthUser user)) r) p' →
      Run (StepBefore "eve") p' after pool' → Took r → SparesEmail p.shared.table "eve" user := by
  obtain ⟨trace, pool', hrun, hnot⟩ := eve_reactivated
  refine ⟨trace, pool', hrun, ?_⟩
  intro hspares
  refine hnot ?_
  exact (disabled_until_restored_iff (restingState_init bannedTable) bannedTable_disabled).mpr hspares
    trace [] pool' (List.append_nil _).symm hrun (.nil _)

end Chinwag.Users

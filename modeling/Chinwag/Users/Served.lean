import Chinwag.Users.Warrants

/-!
# Every handler keeps to its warrants

The handlers one by one, and what follows for the runs of the service: each statement
executed is warranted by the request of its thread, each token handed out is earned.
-/
namespace Chinwag.Users

open Program Auth Transition Dpop

variable {s t : UserState} {i : Nat} {q : Request}

theorem exec_earned {c : UserCmd} {reply : UserReply c} {subject : String} (h : Exec i c s reply t)
    (he : Earned s subject) : Earned t subject := by
  cases h with
  | receive => exact he
  | read r =>
    unfold UserState.note
    split <;> exact he
  | readFailed => exact he
  | write => exact he.mono (undisturbed_store i s _)
  | writeRefused => exact he
  | writeFailed => exact he
  | writeLost => exact he.mono (undisturbed_store i s _)
  | newV7 => exact he.imp id fun hd => List.mem_cons_of_mem _ hd
  | fetchUserInfo => exact he
  | fetchFailed => exact he
  | outside => exact he

theorem exec_vouched {c : UserCmd} {reply : UserReply c} (h : Exec i c s reply t)
    (hc : ∀ code, c ≠ .fetchUserInfo code) : t.vouched i = s.vouched i := by
  cases h with
  | receive => rfl
  | read r =>
    unfold UserState.note
    split <;> rfl
  | readFailed => rfl
  | write => rfl
  | writeRefused => rfl
  | writeFailed => rfl
  | writeLost => rfl
  | newV7 => rfl
  | fetchUserInfo code => exact absurd rfl (hc code)
  | fetchFailed => rfl
  | outside => rfl

theorem earned_of_active (hs : userContract.inv s) {u : User} (hu : u ∈ s.table.rows)
    (hact : u.deletedAt = none) : Earned s u.id :=
  Or.inl (hs u hu hact)

section Tokens

/-- Both tokens of a login are for accounts that have earned them. -/
def Granted (r : Result (AccessClaims × RefreshTokenClaims)) (s : UserState) : Prop :=
  ∀ access refresh, r = .ok (access, refresh) → Earned s access.subject ∧ Earned s refresh.subject

theorem granted_error (e : ServiceError) (s : UserState) : Granted (.error e) s :=
  fun _ _ h => nomatch h

theorem safe_issueTokens {user : User} (jkt : String) (hq : s.received i = some q)
    (he : Earned s user.id) : Safe userSemantics userContract i Granted (issueTokens user jkt) s := by
  refine safe_call hq (fun _ h => nomatch h) (fun _ h => nomatch h) ?_
  intro reply t u _ hrely hexec hu
  have he₁ := exec_earned hexec (he.mono hrely)
  cases reply with
  | error e => exact granted_error e u
  | ok access =>
    have hsubject : access.subject = user.id := by
      cases hexec with
      | outside h =>
        obtain rfl : access = _ := h access rfl
        rfl
    refine safe_call hu (fun _ h => nomatch h) (fun _ h => nomatch h) ?_
    intro reply t' u' _ hrely' hexec' _
    have he₂ := exec_earned hexec' (he₁.mono hrely')
    cases reply with
    | error e => exact granted_error e u'
    | ok token =>
      have htoken : token.subject = user.id := by
        cases hexec' with
        | outside h => exact (h token rfl).1
      intro access' refresh' hok
      obtain ⟨rfl, rfl⟩ := Prod.mk.inj (Except.ok.inj hok)
      rw [hsubject, htoken]
      exact ⟨he₂, he₂⟩

/-- An account read by its email is active. -/
theorem earned_of_email {email : String} {user : User} (hs : userContract.inv s)
    (h : Exec i (.read (.getUserByEmail email)) s (.ok user) t) : Earned t user.id := by
  have he : Earned s user.id := by
    generalize hreply : (Except.ok user : UserReply (.read (.getUserByEmail email))) = reply at h
    cases h with
    | read =>
      obtain ⟨hu, -, hact⟩ := UserTable.getUserByEmail_ok hreply.symm
      exact earned_of_active hs hu hact
    | readFailed => cases hreply
    | outside h => exact h.elim
  exact exec_earned h he

theorem safe_login (email pw jkt : String) (hq : s.received i = some q) :
    Safe userSemantics userContract i Granted (login email pw jkt) s := by
  refine safe_lookup hq ?_
  intro reply t u ht _ hexec hu
  match reply, hexec with
  | .error .noRows, _ => exact granted_error _ u
  | .error .uniqueViolation, _ => exact granted_error _ u
  | .error .unavailable, _ => exact granted_error _ u
  | .error .lost, _ => exact granted_error _ u
  | .ok user, hexec =>
    have he := earned_of_email ht hexec
    refine safe_call hu (fun _ h => nomatch h) (fun _ h => nomatch h) ?_
    intro reply t' u' _ hrely' hexec' hu'
    cases reply with
    | false => exact granted_error _ u'
    | true => exact safe_issueTokens jkt hu' (exec_earned hexec' (he.mono hrely'))

/-- The user made up for a Google login has the id just drawn. -/
theorem safe_createUserFromGoogle {info : GoogleUserInfo} (hq : s.received i = some q)
    (hv : s.vouched i = some info.email)
    (hw : ∀ user t, t.vouched i = some user.email → Warranted t i q (.createOAuthUser user)) :
    Safe userSemantics userContract i
      (fun r t => t.received i = some q ∧ ∀ user, r = .ok user → Earned t user.id)
      (createUserFromGoogle info) s := by
  refine safe_call hq (fun _ h => nomatch h) (fun _ h => nomatch h) ?_
  intro id t u _ hrely hexec hu
  have hvouched : u.vouched i = some info.email := by
    rw [exec_vouched hexec (fun _ h => nomatch h), hrely.vouched, hv]
  have hdrawn : Earned u id := by
    cases hexec with
    | newV7 => exact Or.inr List.mem_cons_self
    | outside h => exact h.elim
  refine safe_call hu (fun _ h => nomatch h) ?_ ?_
  · intro w h t' ht'
    obtain rfl := UserCmd.write.inj h
    exact hw _ t' (ht'.vouched.trans hvouched)
  · intro reply t' u' _ hrely' hexec' hu'
    have he := exec_earned hexec' (hdrawn.mono hrely')
    cases reply with
    | error e => exact ⟨hu', fun _ h => nomatch h⟩
    | ok n =>
      refine ⟨hu', ?_⟩
      intro user hok
      obtain rfl := Except.ok.inj hok
      exact he

theorem safe_findOrCreateUser {info : GoogleUserInfo} (jkt : String) (hq : s.received i = some q)
    (hv : s.vouched i = some info.email)
    (hw : ∀ user t, t.vouched i = some user.email → Warranted t i q (.createOAuthUser user)) :
    Safe userSemantics userContract i Granted (findOrCreateUser info jkt) s := by
  refine safe_lookup hq ?_
  intro reply t u ht hrely hexec hu
  cases reply with
  | ok user => exact safe_issueTokens jkt hu (earned_of_email ht hexec)
  | error e =>
    have hvouched : u.vouched i = some info.email := by
      rw [exec_vouched hexec (fun _ h => nomatch h), hrely.vouched, hv]
    refine (safe_createUserFromGoogle hu hvouched hw).bind ?_
    intro r t' hr
    obtain ⟨ht', hearned⟩ := hr
    cases r with
    | error e => exact granted_error e t'
    | ok user => exact safe_issueTokens jkt ht' (hearned user rfl)

end Tokens

section Refresh

theorem embed_bind {α β : Type} (p : RefreshProg α) (f : α → RefreshProg β) :
    embed (p >>= f) = embed p >>= fun a => embed (f a) := by
  induction p with
  | ret a => rfl
  | call c next ih => exact congrArg (Prog.call (UserCmd.refresh c)) (funext ih)

theorem admitted_error (i status : Nat) (message : String) (s : UserState) :
    Admitted i (.error status message) s :=
  fun _ _ h => nomatch h

theorem Admitted.mono {response : Response} (hr : Undisturbed i s t) (h : Admitted i response s) :
    Admitted i response t := by
  intro access refresh hok
  obtain ⟨ha, hb⟩ := h access refresh hok
  exact ⟨ha.mono hr, hb.mono hr⟩

/-- A user found by `GetUser` is active. -/
theorem earned_of_getUser {id : String} {user : User} (hs : userContract.inv s)
    (h : Exec i (.refresh (.getUser id)) s (.ok user) t) : Earned t id := by
  have he : Earned s id := by
    cases h with
    | outside h =>
      cases h with
      | inl hfound =>
        obtain ⟨hu, hid, hact⟩ := UserTable.getUser_ok hfound.symm
        rw [← hid]
        exact earned_of_active hs hu hact
      | inr hdown => cases hdown
  exact exec_earned h he

theorem safe_grant {rotated : RotatedRefreshToken} (jkt : String) (hq : s.received i = some q)
    (hsame : rotated.newToken.subject = rotated.userID) :
    Safe userSemantics userContract i (Admitted i) (embed (grant rotated jkt)) s := by
  refine safe_call hq (fun _ h => nomatch h) (fun _ h => nomatch h) ?_
  intro reply t u ht _ hexec hu
  cases reply with
  | error e => exact admitted_error i _ _ u
  | ok user =>
    have he := earned_of_getUser ht hexec
    refine safe_call hu (fun _ h => nomatch h) (fun _ h => nomatch h) ?_
    intro reply t' u' _ hrely' hexec' _
    have he' := exec_earned hexec' (he.mono hrely')
    cases reply with
    | error e => exact admitted_error i _ _ u'
    | ok token =>
      have htoken : token.subject = rotated.userID := by
        cases hexec' with
        | outside h =>
          obtain rfl : token = _ := h token rfl
          rfl
      intro access refresh hok
      obtain ⟨rfl, rfl⟩ := Response.tokens.inj hok
      rw [htoken, hsame]
      exact ⟨he', he'⟩

theorem safe_rotateAndGrant (claims : RefreshTokenClaims) (jkt : String) (hq : s.received i = some q) :
    Safe userSemantics userContract i (Admitted i) (embed (rotateAndGrant claims jkt)) s := by
  refine safe_call hq (fun _ h => nomatch h) (fun _ h => nomatch h) ?_
  intro reply t u _ _ hexec hu
  cases reply with
  | error e => exact admitted_error i _ _ u
  | ok rotated =>
    have hsame : rotated.newToken.subject = rotated.userID := by
      cases hexec with
      | outside h =>
        obtain ⟨huser, htoken⟩ := h rotated rfl
        rw [huser, htoken]
    exact safe_grant jkt hu hsame

theorem admitted_dependencyError (i : Nat) (e : Redis.RedisError) (s : UserState) :
    Admitted i (dependencyError e) s := by
  cases e <;> exact admitted_error i _ _ s

/-- The release of the lock comes after the response is settled. -/
theorem safe_releaseLock {response : Response} (cookie : String) (lockToken : Uuid)
    (h : Admitted i response s) : Safe userSemantics userContract i (Admitted i)
      (.call (.refresh (.releaseLock cookie lockToken)) fun _ => .ret response) s := by
  intro t _ hrely
  refine ⟨fun _ h => (nomatch h), ?_⟩
  intro reply u hexec _ access refresh hok
  obtain ⟨ha, hb⟩ := h.mono hrely access refresh hok
  exact ⟨exec_earned hexec ha, exec_earned hexec hb⟩

theorem safe_lockedRefresh (cookie : String) (claims : RefreshTokenClaims) (jkt : String)
    (hq : s.received i = some q) :
    Safe userSemantics userContract i (Admitted i) (embed (lockedRefresh cookie claims jkt)) s := by
  refine safe_ask hq (fun _ h => nomatch h) (fun _ h => nomatch h) ?_
  intro lockToken u hu
  refine safe_ask hu (fun _ h => nomatch h) (fun _ h => nomatch h) ?_
  intro reply u hu
  match reply with
  | .error e => exact admitted_dependencyError i e u
  | .ok false => exact admitted_error i _ _ u
  | .ok true =>
    show Safe _ _ _ _ (embed (rotateAndGrant claims jkt >>= _)) u
    rw [embed_bind]
    refine (safe_rotateAndGrant claims jkt hu).bind ?_
    intro response t ht
    exact safe_releaseLock cookie lockToken ht

theorem safe_refresh (cookie : Option String) (hq : s.received i = some q) :
    Safe userSemantics userContract i (Admitted i) (embed (Auth.refresh cookie)) s := by
  refine safe_ask hq (fun _ h => nomatch h) (fun _ h => nomatch h) ?_
  intro verdict u hu
  cases verdict with
  | unavailable e => exact admitted_dependencyError i e u
  | noIssuer => exact admitted_error i _ _ u
  | rejected nonce e => exact admitted_error i _ _ u
  | accepted proof nonce =>
    refine safe_ask hu (fun _ h => nomatch h) (fun _ h => nomatch h) ?_
    intro jkt u hu
    match jkt, cookie with
    | none, _ => exact admitted_error i _ _ u
    | some jkt, none => exact admitted_error i _ _ u
    | some jkt, some cookie =>
      refine safe_ask hu (fun _ h => nomatch h) (fun _ h => nomatch h) ?_
      intro reply u hu
      cases reply with
      | ok claims => exact safe_lockedRefresh cookie claims jkt hu
      | error e =>
        show Safe _ _ _ _ (embed (if e = errRefreshTokenBindingMismatch then _ else _)) u
        split
        · exact admitted_error i _ _ u
        · exact admitted_error i _ _ u

end Refresh

section Handlers

theorem safe_tokens {r : Result (AccessClaims × RefreshTokenClaims)} (h : Granted r s) :
    Admitted i (respond (fun t => .tokens t.1 t.2) r) s := by
  intro access refresh hok
  cases r with
  | error e => cases hok
  | ok t =>
    obtain ⟨rfl, rfl⟩ := Response.tokens.inj hok
    exact h t.1 t.2 rfl

theorem safe_handleLogin (body : Except String LoginReq) (hq : s.received i = some q) :
    Safe userSemantics userContract i (Admitted i) (handleLogin body) s := by
  cases body with
  | error e => exact admitted_error i _ _ s
  | ok req =>
    refine safe_ask hq (fun _ h => nomatch h) (fun _ h => nomatch h) ?_
    intro verdict u hu
    cases verdict with
    | unavailable e => exact admitted_error i _ _ u
    | noIssuer => exact admitted_error i _ _ u
    | rejected nonce e => exact admitted_error i _ _ u
    | accepted proof nonce =>
      refine safe_ask hu (fun _ h => nomatch h) (fun _ h => nomatch h) ?_
      intro jkt u hu
      cases jkt with
      | none => exact admitted_error i _ _ u
      | some jkt => exact (safe_login req.email req.password jkt hu).bind fun r t hr => safe_tokens hr

theorem safe_handleCallback (code state errParam : String) (hq : s.received i = some q)
    (hw : ∀ user t, t.vouched i = some user.email → Warranted t i q (.createOAuthUser user)) :
    Safe userSemantics userContract i (Admitted i) (handleCallback code state errParam) s := by
  unfold handleCallback
  split
  · exact fun _ _ h => nomatch h
  · split
    · exact admitted_error i _ _ s
    · refine safe_call hq (fun _ h => nomatch h) (fun _ h => nomatch h) ?_
      intro reply t u _ _ hexec hu
      cases reply with
      | error reason => exact fun _ _ h => nomatch h
      | ok info =>
        have hv : u.vouched i = some info.email := by
          cases hexec with
          | fetchUserInfo => exact Function.update_self _ _ _
          | outside h => exact h.elim
        refine safe_call hu (fun _ h => nomatch h) (fun _ h => nomatch h) ?_
        intro jkt t' u' _ hrely' hexec' hu'
        have hv' : u'.vouched i = some info.email := by
          rw [exec_vouched hexec' (fun _ h => nomatch h), hrely'.vouched, hv]
        show Safe _ _ _ _ (if _ then _ else _) u'
        split
        · refine (safe_findOrCreateUser jkt hu' hv' hw).bind ?_
          intro r t hr
          cases r with
          | error e => exact fun _ _ h => nomatch h
          | ok tokens => exact safe_tokens hr
        · exact fun _ _ h => nomatch h

/-- Behind the role check the caller is an administrator. -/
theorem safe_adminOnly {auth : Except AppError AccessClaims} {next : AccessClaims → UserProg Response}
    (hnext : ∀ claims, auth = .ok claims → claims.role = .ADMIN →
      Safe userSemantics userContract i (Admitted i) (next claims) s) :
    Safe userSemantics userContract i (Admitted i) (adminOnly auth next) s := by
  cases auth with
  | error e => exact admitted_error i _ _ s
  | ok claims =>
    show Safe _ _ _ _ (if claims.role = .ADMIN then _ else _) s
    split
    · next hrole => exact hnext claims rfl hrole
    · exact admitted_error i _ _ s

theorem safe_privately {auth : Except AppError AccessClaims} {next : AccessClaims → UserProg Response}
    (hnext : ∀ claims, auth = .ok claims → Safe userSemantics userContract i (Admitted i) (next claims) s) :
    Safe userSemantics userContract i (Admitted i) (privately auth next) s := by
  cases auth with
  | error e => exact admitted_error i _ _ s
  | ok claims => exact hnext claims rfl

theorem safe_handleUpdateRole {claims : AccessClaims} {id : String} (body : Except String String)
    (hq : s.received i = some q)
    (hw : ∀ role t, role = .ADMIN ∨ Cleared t i id → Warranted t i q (.setRole id role)) :
    Safe userSemantics userContract i (Admitted i) (handleUpdateRole claims id body) s := by
  cases body with
  | error e => exact admitted_error i _ _ s
  | ok role =>
    refine (safe_adminSetRole hq hw).bind ?_
    intro r t ht
    cases r with
    | error e => exact admitted_error i _ _ t
    | ok => exact safe_respond (fun _ _ _ h => by cases h) (safe_adminGetUser id ht)

/-- Every handler, by the group its route is in. -/
theorem safe_handle (hq : s.received i = some q) :
    Safe userSemantics userContract i (Admitted i) (handle q) s := by
  cases q with
  | login body => exact safe_handleLogin body hq
  | refresh cookie => exact safe_refresh cookie hq
  | createUser body =>
    cases body with
    | error e => exact admitted_error i _ _ s
    | ok req =>
      exact safe_respond (fun _ _ _ h => by cases h) (safe_createUser req hq fun _ _ => .createUser)
  | getUserByID id => exact safe_respond (fun _ _ _ h => by cases h) (safe_getUser id hq)
  | getUserByEmail email => exact safe_respond (fun _ _ _ h => by cases h) (safe_getUserByEmail email hq)
  | googleCallback code state errParam => exact safe_handleCallback code state errParam hq fun _ _ => .google
  | whoAmI auth =>
    exact safe_privately fun claims _ => safe_respond (fun _ _ _ h => by cases h) (safe_getUser _ hq)
  | updateUser auth id body =>
    refine safe_privately ?_
    intro claims hauth
    subst hauth
    cases body with
    | error e => exact admitted_error i _ _ s
    | ok req =>
      exact safe_respond (fun _ _ _ h => by cases h) (safe_updateUser req hq fun _ _ hid => .updateUser hid)
  | deleteUser auth id =>
    refine safe_privately ?_
    intro claims hauth
    subst hauth
    exact safe_respond (fun _ _ _ h => by cases h) (safe_deleteUser hq fun _ _ => .deleteUser)
  | adminCreateUser auth body =>
    refine safe_adminOnly ?_
    intro claims hauth hrole
    subst hauth
    cases body with
    | error e => exact admitted_error i _ _ s
    | ok req =>
      exact safe_respond (fun _ _ _ h => by cases h) (safe_adminCreateUser req hq
        (fun _ _ => .adminCreateUser hrole) fun _ _ _ => .adminFirstRole hrole)
  | adminGetUser auth id =>
    exact safe_adminOnly fun _ _ _ => safe_respond (fun _ _ _ h => by cases h) (safe_adminGetUser id hq)
  | adminUpdateUser auth id body =>
    refine safe_adminOnly ?_
    intro claims hauth hrole
    subst hauth
    cases body with
    | error e => exact admitted_error i _ _ s
    | ok req =>
      exact safe_respond (fun _ _ _ h => by cases h)
        (safe_adminUpdateUser req hq fun _ _ _ => .adminUpdateUser hrole)
  | adminSetRole auth id body =>
    refine safe_adminOnly ?_
    intro claims hauth hrole
    subst hauth
    exact safe_handleUpdateRole body hq fun _ _ => .adminSetRole hrole
  | adminDisableUser auth id =>
    refine safe_adminOnly ?_
    intro claims hauth hrole
    subst hauth
    exact safe_respond (fun _ _ _ h => by cases h) (safe_adminDisableUser hq fun _ => .adminDisableUser hrole)
  | adminRestoreUser auth id =>
    refine safe_adminOnly ?_
    intro claims hauth hrole
    subst hauth
    exact safe_respond (fun _ _ _ h => by cases h) (safe_adminRestoreUser hq fun _ => .adminRestoreUser hrole)

theorem safe_serve (q : Request) (i : Nat) (s : UserState) :
    Safe userSemantics userContract i (Admitted i) (serve q) s := by
  intro t _ _
  refine ⟨fun _ h => (nomatch h), ?_⟩
  intro reply u hexec _
  cases hexec with
  | receive => exact safe_handle (Function.update_self _ _ _)
  | outside h => exact h.elim

end Handlers

section Runs

variable {pool pool' : UserPool} {trace : List UserLabel}

abbrev UserGood (pool : UserPool) : Prop := Good userSemantics userContract Admitted pool

theorem good_init (h : UsersInit pool) : UserGood pool where
  shared := by
    intro u hu hact
    rw [h.activated]
    exact mem_activeIds.mpr ⟨u, hu, hact, rfl⟩
  safe := by
    intro i p hp
    rw [h.threads] at hp
    cases hp

theorem good_step {l : UserLabel} (hg : UserGood pool) (h : UserStep pool l pool') : UserGood pool' := by
  refine hg.step userContract_sound (fun i _ _ _ h hrely => h.mono hrely) ?_ h
  rintro i p s ⟨q, rfl⟩ _
  exact safe_serve q i s

theorem good_run (hg : UserGood pool) (h : Run UserStep pool trace pool') : UserGood pool' := by
  refine h.invariant ?_ hg
  intro p l p' hp hs
  exact good_step hp hs

/-- Every statement executed in a run is warranted by the request of its thread. -/
theorem write_warranted {i : Nat} {w : Write} {r : Except DbError Nat} (hg : UserGood pool)
    (h : UserStep pool (.cmd i (.write w) r) pool') :
    ∃ q, pool.shared.received i = some q ∧ Warranted pool.shared i q w := by
  cases h with
  | cmd hi hexec => exact hg.guar userContract_sound hi w rfl

end Runs

end Chinwag.Users

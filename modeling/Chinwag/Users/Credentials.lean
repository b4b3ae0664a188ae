import Chinwag.Users.DisabledAccounts
import Chinwag.Users.LastAdmin
import Chinwag.Lib.History

/-!
# Who is handed tokens

Tokens come from a login, a refresh or Google. What each of them must have seen is a property of its
handler alone; what the answers mean is a matter of the table at the moments they were given.
-/
namespace Chinwag.Users

open Program Auth Transition Dpop

section Handlers

/-- The thread had this password hashed, at a request that makes the account or names it. Whether the caller owns it is
not asked. -/
inductive SetsPassword (seen : Seen UserReply) (id hash : String) : Prop where
  | registered {req : CreateUserReq} (hq : Saw seen (.receive (.createUser (.ok req))) ())
      (hid : Saw seen .newV7 id) (hhash : Saw seen (.generateFromPassword req.password) (some hash))
  | registeredByAdmin {claims : AccessClaims} {req : CreateAdminUserRequest}
      (hq : Saw seen (.receive (.adminCreateUser (.ok claims) (.ok req))) ()) (hadmin : claims.role = .ADMIN)
      (hid : Saw seen .newV7 id) (hhash : Saw seen (.generateFromPassword req.password) (some hash))
  | updated {claims : AccessClaims} {req : UpdateUserReq} {pw : String}
      (hq : Saw seen (.receive (.updateUser (.ok claims) id (.ok req))) ()) (hpw : req.password = some pw)
      (hhash : Saw seen (.generateFromPassword pw) (some hash))
  | updatedByAdmin {claims : AccessClaims} {req : UpdateUserReq} {pw : String}
      (hq : Saw seen (.receive (.adminUpdateUser (.ok claims) id (.ok req))) ()) (hadmin : claims.role = .ADMIN)
      (hpw : req.password = some pw) (hhash : Saw seen (.generateFromPassword pw) (some hash))

/-- Where the password of a statement comes from. -/
inductive Worded (seen : Seen UserReply) : Write → Prop where
  | createUser {user : User} (h : SetsPassword seen user.id user.password) : Worded seen (.createUser user)
  | createOAuthUser {user : User} (h : user.password = "") : Worded seen (.createOAuthUser user)
  | updateUser {id : String} {row user : User} (hread : Saw seen (.read (.getUser id)) (.ok row))
      (hid : user.id = row.id) (h : user.password = row.password ∨ SetsPassword seen id user.password) :
      Worded seen (.updateUser user)
  | setRole {id : String} {role : Role} : Worded seen (.setRole id role)
  | deleteUser {id : String} : Worded seen (.deleteUser id)
  | restoreUser {id : String} : Worded seen (.restoreUser id)

/-- What a thread has seen that hands out a pair of tokens. -/
inductive Handed (seen : Seen UserReply) : AccessClaims → RefreshTokenClaims → Prop where
  | login {req : LoginReq} {proof : Proof} {nonce jkt : String} {row : User} {access : AccessClaims}
      {refresh : RefreshTokenClaims} (hq : Saw seen (.receive (.login (.ok req))) ())
      (hproof : Saw seen (.refresh .validateProof) (.accepted proof nonce))
      (hjkt : Saw seen (.refresh (.thumbprint proof.key)) (some jkt))
      (hrow : Saw seen (.read (.getUserByEmail req.email)) (.ok row))
      (hcompare : Saw seen (.compareHashAndPassword row.password req.password) true)
      (haccess : Saw seen (.signWithCNF row.id row.role jkt) (.ok access))
      (hrefresh : Saw seen (.issueRefreshToken row.id jkt) (.ok refresh)) : Handed seen access refresh
  | refresh {cookie : String} {proof : Proof} {nonce jkt : String} {claims : RefreshTokenClaims}
      {rotated : RotatedRefreshToken} {user : User} {access : AccessClaims}
      (hq : Saw seen (.receive (.refresh (some cookie))) ())
      (hproof : Saw seen (.refresh .validateProof) (.accepted proof nonce))
      (hjkt : Saw seen (.refresh (.thumbprint proof.key)) (some jkt))
      (hclaims : Saw seen (.refresh (.validateRefreshToken cookie jkt)) (.ok claims))
      (hrotated : Saw seen (.refresh (.rotateRefreshToken claims)) (.ok rotated))
      (huser : Saw seen (.refresh (.getUser rotated.userID)) (.ok user))
      (haccess : Saw seen (.refresh (.newAccessToken rotated.userID user.role jkt)) (.ok access)) :
      Handed seen access rotated.newToken
  | google {code state : String} {info : GoogleUserInfo} {jkt : String} {user : User} {access : AccessClaims}
      {refresh : RefreshTokenClaims} (hq : Saw seen (.receive (.googleCallback code state "")) ())
      (hinfo : Saw seen (.fetchUserInfo code) (.ok info)) (hjkt : Saw seen (.consumeState state) jkt)
      (hvalid : isValidJkt jkt = true)
      (huser : Saw seen (.read (.getUserByEmail info.email)) (.ok user) ∨
        Saw seen .newV7 user.id ∧ user.role = .USER)
      (haccess : Saw seen (.signWithCNF user.id user.role jkt) (.ok access))
      (hrefresh : Saw seen (.issueRefreshToken user.id jkt) (.ok refresh)) : Handed seen access refresh

/-- Each statement is worded, and tokens are handed out only in one of these ways. -/
abbrev Words (seen : Seen UserReply) (c : UserCmd) : Prop := ∀ w, c = .write w → Worded seen w

def Hands (seen : Seen UserReply) (response : Response) : Prop :=
  ∀ access refresh, response = .tokens access refresh → Handed seen access refresh

variable {seen later : Seen UserReply} {id hash : String} {α β : Type} {Q : Seen UserReply → α → Prop}

theorem SetsPassword.grow (h : SetsPassword seen id hash) (hsub : seen ⊆ later) : SetsPassword later id hash := by
  cases h with
  | registered hq hid hhash => exact .registered (hsub hq) (hsub hid) (hsub hhash)
  | registeredByAdmin hq hadmin hid hhash => exact .registeredByAdmin (hsub hq) hadmin (hsub hid) (hsub hhash)
  | updated hq hpw hhash => exact .updated (hsub hq) hpw (hsub hhash)
  | updatedByAdmin hq hadmin hpw hhash => exact .updatedByAdmin (hsub hq) hadmin hpw (hsub hhash)

theorem Handed.grow {access : AccessClaims} {refresh : RefreshTokenClaims} (h : Handed seen access refresh)
    (hsub : seen ⊆ later) : Handed later access refresh := by
  cases h with
  | login hq hproof hjkt hrow hcompare haccess hrefresh =>
    exact .login (hsub hq) (hsub hproof) (hsub hjkt) (hsub hrow) (hsub hcompare) (hsub haccess) (hsub hrefresh)
  | refresh hq hproof hjkt hclaims hrotated huser haccess =>
    exact .refresh (hsub hq) (hsub hproof) (hsub hjkt) (hsub hclaims) (hsub hrotated) (hsub huser) (hsub haccess)
  | google hq hinfo hjkt hvalid huser haccess hrefresh =>
    have huser' := huser.imp (fun h => hsub h) fun h => And.intro (hsub h.1) h.2
    exact .google (hsub hq) (hsub hinfo) (hsub hjkt) hvalid huser' (hsub haccess) (hsub hrefresh)

theorem hands_error (seen : Seen UserReply) (status : Nat) (message : String) : Hands seen (.error status message) :=
  fun _ _ h => nomatch h

theorem hands_redirect (seen : Seen UserReply) (path : String) : Hands seen (.redirect path) := fun _ _ h => nomatch h

/-- A command that is no statement. -/
theorem upholds_ask {c : UserCmd} {next : UserReply c → UserProg α} (hc : ∀ w, c ≠ .write w)
    (hnext : ∀ r, Upholds Words Q (next r) (⟨c, r⟩ :: seen)) : Upholds Words Q (.call c next) seen :=
  .call (fun w hw => absurd hw (hc w)) hnext

theorem upholds_write {w : Write} {next : Except DbError Nat → UserProg α} (hw : Worded seen w)
    (hnext : ∀ r, Upholds Words Q (next r) (⟨.write w, r⟩ :: seen)) :
    Upholds Words Q (.call (.write w) next) seen := by
  refine .call ?_ hnext
  rintro w' ⟨⟩
  exact hw

/-- A handler that only words the result of a service call hands out no tokens. -/
theorem upholds_respond {ok : β → Response} (hok : ∀ b access refresh, ok b ≠ .tokens access refresh)
    {p : UserProg (Result β)} (hp : Upholds Words (fun _ _ => True) p seen) :
    Upholds Words Hands (do return respond ok (← p)) seen := by
  refine hp.bind fun later r _ access refresh htokens => ?_
  cases r with
  | error e => cases htokens
  | ok b => exact absurd htokens (hok b access refresh)

/-- A read or a statement that sets no password, reported at once. -/
theorem upholds_report {c : UserCmd} {next : UserReply c → UserProg α} (hc : Words seen c)
    (hret : ∀ r, ∃ a, next r = .ret a) : Upholds Words (fun _ _ => True) (.call c next) seen := by
  refine .call hc fun r => ?_
  obtain ⟨a, ha⟩ := hret r
  rw [ha]
  trivial

theorem upholds_createUser (req : CreateUserReq)
    (hset : ∀ {later id hash}, seen ⊆ later → Saw later .newV7 id →
      Saw later (.generateFromPassword req.password) (some hash) → SetsPassword later id hash) :
    Upholds Words (fun _ _ => True) (createUser req) seen := by
  refine upholds_ask (fun _ h => nomatch h) fun id => ?_
  refine upholds_ask (fun _ h => nomatch h) fun hash => ?_
  cases hash with
  | none => trivial
  | some hash =>
    refine upholds_write (.createUser (hset ?_ (.before .latest) .latest)) fun r => ?_
    · exact fun _ he => .tail _ (.tail _ he)
    · cases r <;> trivial

theorem upholds_setRole (id : String) (role : Role) : Upholds Words (fun _ _ => True) (setRole id role) seen := by
  refine upholds_report ?_ fun r => by cases r <;> exact ⟨_, rfl⟩
  rintro w ⟨⟩
  exact .setRole

theorem upholds_deleteUser (id : String) : Upholds Words (fun _ _ => True) (deleteUser id) seen := by
  refine upholds_report ?_ fun r => by cases r <;> exact ⟨_, rfl⟩
  rintro w ⟨⟩
  exact .deleteUser

theorem upholds_adminGetUser (id : String) : Upholds Words (fun _ _ => True) (adminGetUser id) seen :=
  upholds_report (fun _ h => nomatch h) fun r => by cases r <;> exact ⟨_, rfl⟩

theorem upholds_getUser (id : String) : Upholds Words (fun _ _ => True) (getUser id) seen :=
  upholds_report (fun _ h => nomatch h) fun r => by cases r <;> exact ⟨_, rfl⟩

theorem upholds_getUserByEmail (email : String) : Upholds Words (fun _ _ => True) (getUserByEmail email) seen :=
  upholds_report (fun _ h => nomatch h) fun r => by cases r <;> exact ⟨_, rfl⟩

theorem upholds_repoUpdateUser {user : User} (hw : Worded seen (.updateUser user)) :
    Upholds Words (fun _ _ => True) (repoUpdateUser user) seen := by
  refine upholds_write hw fun r => ?_
  rcases r with e | _ | n <;> trivial

/-- The password written back is the one read, or the one hashed for the request. -/
theorem upholds_updateUser (id : String) (req : UpdateUserReq)
    (hset : ∀ {later pw hash}, seen ⊆ later → req.password = some pw →
      Saw later (.generateFromPassword pw) (some hash) → SetsPassword later id hash) :
    Upholds Words (fun _ _ => True) (updateUser id req) seen := by
  refine upholds_ask (fun _ h => nomatch h) fun answer => ?_
  cases answer with
  | error e => trivial
  | ok row =>
    cases hpw : req.password with
    | none =>
      simp only [Prog.bind]
      exact upholds_repoUpdateUser (.updateUser .latest rfl (.inl rfl))
    | some pw =>
      simp only [Prog.bind]
      refine upholds_ask (fun _ h => nomatch h) fun hash => ?_
      cases hash with
      | none => trivial
      | some hash =>
        have hsub : seen ⊆ ⟨.generateFromPassword pw, some hash⟩ :: ⟨.read (.getUser id), .ok row⟩ :: seen :=
          fun _ he => .tail _ (.tail _ he)
        have hsets := hset hsub hpw .latest
        exact upholds_repoUpdateUser (.updateUser (.before .latest) rfl (.inr hsets))

theorem upholds_adminCreateUser (req : CreateAdminUserRequest)
    (hset : ∀ {later id hash}, seen ⊆ later → Saw later .newV7 id →
      Saw later (.generateFromPassword req.password) (some hash) → SetsPassword later id hash) :
    Upholds Words (fun _ _ => True) (adminCreateUser req) seen := by
  unfold adminCreateUser
  split
  · trivial
  · refine (upholds_createUser ⟨req.name, req.email, req.password⟩ hset).bind fun later r _ => ?_
    cases r with
    | error e => trivial
    | ok u =>
      show Upholds _ _ (if _ then _ else _) later
      split
      · trivial
      · refine (upholds_setRole u.id _).bind fun _ r _ => ?_
        cases r <;> trivial

theorem upholds_adminUpdateUser (id : String) (req : UpdateUserReq)
    (hset : ∀ {later pw hash}, seen ⊆ later → req.password = some pw →
      Saw later (.generateFromPassword pw) (some hash) → SetsPassword later id hash) :
    Upholds Words (fun _ _ => True) (adminUpdateUser id req) seen := by
  refine (upholds_updateUser id req hset).bind fun _ r _ => ?_
  cases r <;> trivial

theorem upholds_ensureOtherAdmin {next : UserProg (Result Unit)}
    (h : ∀ n, Upholds Words (fun _ _ => True) next (⟨.read .countAdmins, .ok n⟩ :: seen)) :
    Upholds Words (fun _ _ => True) (ensureOtherAdmin next) seen := by
  refine upholds_ask (fun _ h => nomatch h) fun answer => ?_
  cases answer with
  | error e => trivial
  | ok n =>
    show Upholds _ _ (if _ then _ else _) _
    split
    · trivial
    · exact h n

theorem upholds_adminSetRole (id actorID role : String) :
    Upholds Words (fun _ _ => True) (adminSetRole id actorID role) seen := by
  unfold adminSetRole
  split
  · trivial
  · split
    · trivial
    · refine upholds_ask (fun _ h => nomatch h) fun answer => ?_
      cases answer with
      | error e => trivial
      | ok current =>
        show Upholds _ _ (if _ then _ else _) _
        split
        · exact upholds_ensureOtherAdmin fun _ => upholds_setRole id _
        · exact upholds_setRole id _

theorem upholds_adminDisableUser (id : String) : Upholds Words (fun _ _ => True) (adminDisableUser id) seen := by
  refine upholds_ask (fun _ h => nomatch h) fun answer => ?_
  cases answer with
  | error e => trivial
  | ok current =>
    show Upholds _ _ (if _ then _ else _) _
    split
    · exact upholds_ensureOtherAdmin fun _ => upholds_deleteUser id
    · exact upholds_deleteUser id

theorem upholds_adminRestoreUser (id : String) : Upholds Words (fun _ _ => True) (adminRestoreUser id) seen := by
  refine upholds_write .restoreUser fun r => ?_
  cases r with
  | error e => trivial
  | ok n => exact upholds_adminGetUser id

end Handlers

section Tokens

variable {seen later : Seen UserReply}

/-- The two tokens of a user, as they were drawn. -/
def Drawn (user : User) (jkt : String) (seen : Seen UserReply) (r : Result (AccessClaims × RefreshTokenClaims)) :
    Prop :=
  ∀ t, r = .ok t → Saw seen (.signWithCNF user.id user.role jkt) (.ok t.1) ∧
    Saw seen (.issueRefreshToken user.id jkt) (.ok t.2)

theorem upholds_issueTokens (user : User) (jkt : String) :
    Upholds Words (Drawn user jkt) (issueTokens user jkt) seen := by
  refine upholds_ask (fun _ h => nomatch h) fun access => ?_
  cases access with
  | error e => exact fun _ h => nomatch h
  | ok access =>
    refine upholds_ask (fun _ h => nomatch h) fun refresh => ?_
    cases refresh with
    | error e => exact fun _ h => nomatch h
    | ok refresh =>
      rintro _ ⟨⟩
      exact ⟨.before .latest, .latest⟩

theorem upholds_handleLogin (body : Except String LoginReq) (hq : Saw seen (.receive (.login body)) ()) :
    Upholds Words Hands (handleLogin body) seen := by
  cases body with
  | error e => exact hands_error seen _ _
  | ok req =>
    refine upholds_ask (fun _ h => nomatch h) fun verdict => ?_
    cases verdict with
    | unavailable e => exact hands_error _ _ _
    | noIssuer => exact hands_error _ _ _
    | rejected nonce e => exact hands_error _ _ _
    | accepted proof nonce =>
      refine upholds_ask (fun _ h => nomatch h) fun jkt => ?_
      cases jkt with
      | none => exact hands_error _ _ _
      | some jkt =>
        refine upholds_ask (fun _ h => nomatch h) fun answer => ?_
        cases answer with
        | error e => cases e <;> exact hands_error _ _ _
        | ok row =>
          refine upholds_ask (fun _ h => nomatch h) fun matched => ?_
          cases matched with
          | false => exact hands_error _ _ _
          | true =>
            refine (upholds_issueTokens row jkt).grows.bind fun later r hr => ?_
            obtain ⟨hdrawn, hsub⟩ := hr
            intro access refresh hok
            cases r with
            | error e => cases hok
            | ok t =>
              obtain ⟨rfl, rfl⟩ := Response.tokens.inj hok
              obtain ⟨haccess, hrefresh⟩ := hdrawn t rfl
              exact .login (hsub hq.before.before.before.before) (hsub Saw.latest.before.before.before)
                (hsub Saw.latest.before.before) (hsub Saw.latest.before) (hsub Saw.latest) haccess hrefresh

/-- Either a pair of tokens is handed out, or none is there. -/
def HandsPair (seen : Seen UserReply) (r : Result (AccessClaims × RefreshTokenClaims)) : Prop :=
  ∀ t, r = .ok t → Handed seen t.1 t.2

section Google

variable {code state : String} {info : GoogleUserInfo} {jkt : String}

/-- Google's account and the key of the state, and the user found or made up for it. -/
theorem upholds_googleTokens {user : User} (hq : Saw seen (.receive (.googleCallback code state "")) ())
    (hinfo : Saw seen (.fetchUserInfo code) (.ok info)) (hjkt : Saw seen (.consumeState state) jkt)
    (hvalid : isValidJkt jkt = true)
    (huser : Saw seen (.read (.getUserByEmail info.email)) (.ok user) ∨
      Saw seen .newV7 user.id ∧ user.role = .USER) :
    Upholds Words HandsPair (issueTokens user jkt) seen := by
  refine (upholds_issueTokens user jkt).grows.mono fun later r hr => ?_
  obtain ⟨hdrawn, hsub⟩ := hr
  intro t ht
  obtain ⟨haccess, hrefresh⟩ := hdrawn t ht
  have huser' := huser.imp (fun h => hsub h) fun h => And.intro (hsub h.1) h.2
  exact .google (hsub hq) (hsub hinfo) (hsub hjkt) hvalid huser' haccess hrefresh

theorem upholds_findOrCreateUser (hq : Saw seen (.receive (.googleCallback code state "")) ())
    (hinfo : Saw seen (.fetchUserInfo code) (.ok info)) (hjkt : Saw seen (.consumeState state) jkt)
    (hvalid : isValidJkt jkt = true) : Upholds Words HandsPair (findOrCreateUser info jkt) seen := by
  refine upholds_ask (fun _ h => nomatch h) fun answer => ?_
  cases answer with
  | ok user => exact upholds_googleTokens hq.before hinfo.before hjkt.before hvalid (.inl .latest)
  | error e =>
    refine upholds_ask (fun _ h => nomatch h) fun id => ?_
    refine upholds_write (.createOAuthUser rfl) fun r => ?_
    cases r with
    | error e => exact fun _ h => nomatch h
    | ok n =>
      exact upholds_googleTokens hq.before.before.before hinfo.before.before.before hjkt.before.before.before hvalid
        (.inr ⟨Saw.latest.before, rfl⟩)

theorem upholds_handleCallback (errParam : String)
    (hq : Saw seen (.receive (.googleCallback code state errParam)) ()) :
    Upholds Words Hands (handleCallback code state errParam) seen := by
  unfold handleCallback
  split
  · exact hands_redirect seen _
  · next herr =>
    obtain rfl := not_not.mp herr
    split
    · exact hands_error seen _ _
    · refine upholds_ask (fun _ h => nomatch h) fun answer => ?_
      cases answer with
      | error reason => exact hands_redirect _ _
      | ok info =>
        refine upholds_ask (fun _ h => nomatch h) fun jkt => ?_
        show Upholds _ _ (if _ then _ else _) _
        split
        · next hvalid =>
          refine (upholds_findOrCreateUser hq.before.before Saw.latest.before .latest hvalid).bind fun later r hr => ?_
          cases r with
          | error e => exact hands_redirect later _
          | ok t =>
            rintro access refresh ⟨⟩
            exact hr t rfl
        · exact hands_redirect _ _

end Google

section Refresh

theorem hands_dependencyError (seen : Seen UserReply) (e : Redis.RedisError) : Hands seen (dependencyError e) := by
  cases e <;> exact hands_error seen _ _

/-- A refresh that has got as far as the rotation. -/
structure Presented (seen : Seen UserReply) (cookie jkt : String) (claims : RefreshTokenClaims) : Prop where
  request : Saw seen (.receive (.refresh (some cookie))) ()
  proved : ∃ proof nonce, Saw seen (.refresh .validateProof) (.accepted proof nonce) ∧
    Saw seen (.refresh (.thumbprint proof.key)) (some jkt)
  valid : Saw seen (.refresh (.validateRefreshToken cookie jkt)) (.ok claims)

theorem Presented.grow {cookie jkt : String} {claims : RefreshTokenClaims} (h : Presented seen cookie jkt claims)
    (hsub : seen ⊆ later) : Presented later cookie jkt claims := by
  obtain ⟨proof, nonce, hproof, hjkt⟩ := h.proved
  exact ⟨hsub h.request, ⟨proof, nonce, hsub hproof, hsub hjkt⟩, hsub h.valid⟩

theorem upholds_rotateAndGrant {cookie jkt : String} {claims : RefreshTokenClaims}
    (h : Presented seen cookie jkt claims) : Upholds Words Hands (embed (rotateAndGrant claims jkt)) seen := by
  refine upholds_ask (fun _ h => nomatch h) fun answer => ?_
  cases answer with
  | error e => exact hands_error _ _ _
  | ok rotated =>
    refine upholds_ask (fun _ h => nomatch h) fun answer => ?_
    cases answer with
    | error e => exact hands_error _ _ _
    | ok user =>
      refine upholds_ask (fun _ h => nomatch h) fun answer => ?_
      cases answer with
      | error e => exact hands_error _ _ _
      | ok access =>
        rintro _ _ ⟨⟩
        have hpresented := h.grow (fun _ he => .tail _ (.tail _ (.tail _ he)) :
          seen ⊆ ⟨.refresh (.newAccessToken rotated.userID user.role jkt), .ok access⟩ ::
            ⟨.refresh (.getUser rotated.userID), .ok user⟩ ::
            ⟨.refresh (.rotateRefreshToken claims), .ok rotated⟩ :: seen)
        obtain ⟨proof, nonce, hproof, hjkt⟩ := hpresented.proved
        exact .refresh hpresented.request hproof hjkt hpresented.valid Saw.latest.before.before Saw.latest.before
          .latest

theorem upholds_lockedRefresh {cookie jkt : String} {claims : RefreshTokenClaims}
    (h : Presented seen cookie jkt claims) : Upholds Words Hands (embed (lockedRefresh cookie claims jkt)) seen := by
  refine upholds_ask (fun _ h => nomatch h) fun lockToken => ?_
  refine upholds_ask (fun _ h => nomatch h) fun answer => ?_
  rcases answer with e | _ | _
  · exact hands_dependencyError _ e
  · exact hands_error _ _ _
  · show Upholds _ _ (embed (rotateAndGrant claims jkt >>= _)) _
    rw [embed_bind]
    refine (upholds_rotateAndGrant (h.grow fun _ he => .tail _ (.tail _ he))).bind fun later response hr => ?_
    refine upholds_ask (fun _ h => nomatch h) fun _ access refresh hok => ?_
    exact (hr access refresh hok).grow fun _ he => .tail _ he

theorem upholds_refresh (cookie : Option String) (hq : Saw seen (.receive (.refresh cookie)) ()) :
    Upholds Words Hands (embed (Auth.refresh cookie)) seen := by
  refine upholds_ask (fun _ h => nomatch h) fun verdict => ?_
  cases verdict with
  | unavailable e => exact hands_dependencyError _ e
  | noIssuer => exact hands_error _ _ _
  | rejected nonce e => exact hands_error _ _ _
  | accepted proof nonce =>
    refine upholds_ask (fun _ h => nomatch h) fun jkt => ?_
    cases jkt with
    | none => exact hands_error _ _ _
    | some jkt =>
      cases cookie with
      | none => exact hands_error _ _ _
      | some cookie =>
        refine upholds_ask (fun _ h => nomatch h) fun answer => ?_
        cases answer with
        | error e =>
          show Upholds _ _ (embed (if e = errRefreshTokenBindingMismatch then _ else _)) _
          split <;> exact hands_error _ _ _
        | ok claims =>
          exact upholds_lockedRefresh
            ⟨hq.before.before.before, ⟨proof, nonce, Saw.latest.before.before, Saw.latest.before⟩, .latest⟩

end Refresh

end Tokens

section Serve

variable {seen : Seen UserReply}

theorem upholds_privately {auth : Except AppError AccessClaims} {next : AccessClaims → UserProg Response}
    (hnext : ∀ claims, auth = .ok claims → Upholds Words Hands (next claims) seen) :
    Upholds Words Hands (privately auth next) seen := by
  cases auth with
  | error e => exact hands_error seen _ _
  | ok claims => exact hnext claims rfl

theorem upholds_adminOnly {auth : Except AppError AccessClaims} {next : AccessClaims → UserProg Response}
    (hnext : ∀ claims, auth = .ok claims → claims.role = .ADMIN → Upholds Words Hands (next claims) seen) :
    Upholds Words Hands (adminOnly auth next) seen := by
  refine upholds_privately fun claims hauth => ?_
  show Upholds _ _ (if claims.role = .ADMIN then _ else _) seen
  split
  · next hadmin => exact hnext claims hauth hadmin
  · exact hands_error seen _ _

theorem upholds_handleUpdateRole (claims : AccessClaims) (id : String) (body : Except String String) :
    Upholds Words Hands (handleUpdateRole claims id body) seen := by
  cases body with
  | error e => exact hands_error seen _ _
  | ok role =>
    refine (upholds_adminSetRole id claims.subject role).bind fun later r _ => ?_
    cases r with
    | error e => exact hands_error later _ _
    | ok _ => exact upholds_respond (fun _ _ _ h => by cases h) (upholds_adminGetUser id)

/-- Every handler, by the group its route is in. -/
theorem upholds_handle (q : Request) (hq : Saw seen (.receive q) ()) : Upholds Words Hands (handle q) seen := by
  cases q with
  | login body => exact upholds_handleLogin body hq
  | refresh cookie => exact upholds_refresh cookie hq
  | googleCallback code state errParam => exact upholds_handleCallback errParam hq
  | getUserByID id => exact upholds_respond (fun _ _ _ h => by cases h) (upholds_getUser id)
  | getUserByEmail email => exact upholds_respond (fun _ _ _ h => by cases h) (upholds_getUserByEmail email)
  | whoAmI auth =>
    exact upholds_privately fun claims _ => upholds_respond (fun _ _ _ h => by cases h) (upholds_getUser _)
  | deleteUser auth id =>
    exact upholds_privately fun _ _ => upholds_respond (fun _ _ _ h => by cases h) (upholds_deleteUser id)
  | createUser body =>
    cases body with
    | error e => exact hands_error seen _ _
    | ok req =>
      refine upholds_respond (fun _ _ _ h => by cases h) (upholds_createUser req fun hsub hid hhash => ?_)
      exact .registered (hsub hq) hid hhash
  | updateUser auth id body =>
    refine upholds_privately fun claims hauth => ?_
    subst hauth
    cases body with
    | error e => exact hands_error seen _ _
    | ok req =>
      refine upholds_respond (fun _ _ _ h => by cases h) (upholds_updateUser id req fun hsub hpw hhash => ?_)
      exact .updated (hsub hq) hpw hhash
  | adminCreateUser auth body =>
    refine upholds_adminOnly fun claims hauth hadmin => ?_
    subst hauth
    cases body with
    | error e => exact hands_error seen _ _
    | ok req =>
      refine upholds_respond (fun _ _ _ h => by cases h) (upholds_adminCreateUser req fun hsub hid hhash => ?_)
      exact .registeredByAdmin (hsub hq) hadmin hid hhash
  | adminGetUser auth id =>
    exact upholds_adminOnly fun _ _ _ => upholds_respond (fun _ _ _ h => by cases h) (upholds_adminGetUser id)
  | adminUpdateUser auth id body =>
    refine upholds_adminOnly fun claims hauth hadmin => ?_
    subst hauth
    cases body with
    | error e => exact hands_error seen _ _
    | ok req =>
      refine upholds_respond (fun _ _ _ h => by cases h) (upholds_adminUpdateUser id req fun hsub hpw hhash => ?_)
      exact .updatedByAdmin (hsub hq) hadmin hpw hhash
  | adminSetRole auth id body => exact upholds_adminOnly fun claims _ _ => upholds_handleUpdateRole claims id body
  | adminDisableUser auth id =>
    exact upholds_adminOnly fun _ _ _ => upholds_respond (fun _ _ _ h => by cases h) (upholds_adminDisableUser id)
  | adminRestoreUser auth id =>
    exact upholds_adminOnly fun _ _ _ => upholds_respond (fun _ _ _ h => by cases h) (upholds_adminRestoreUser id)

theorem upholds_serves (p : UserProg Response) (hp : Serves p) : Upholds Words Hands p [] := by
  obtain ⟨q, rfl⟩ := hp
  exact upholds_ask (fun _ h => nomatch h) fun _ => upholds_handle q .latest

end Serve

section Passwords

variable {pool₀ pool pool' : UserPool} {trace past : List UserLabel} {l : UserLabel} {t₀ : UserTable}
  {id hash : String}

/-- The hash is the account's from before the run, or a request of the run had it made. -/
def Chosen (t₀ : UserTable) (trace : List UserLabel) (id hash : String) : Prop :=
  (∃ u ∈ t₀.rows, u.id = id ∧ u.password = hash) ∨ ∃ j, SetsPassword (seenBy j trace) id hash

/-- An account Google made has no password until one is chosen. -/
abbrev PasswordKept (t₀ : UserTable) (trace : List UserLabel) (id hash : String) : Prop :=
  hash = "" ∨ Chosen t₀ trace id hash

theorem PasswordKept.append (h : PasswordKept t₀ past id hash) (trace : List UserLabel) :
    PasswordKept t₀ (past ++ trace) id hash := by
  refine h.imp_right fun h => h.imp_right fun ⟨j, hset⟩ => ⟨j, hset.grow ?_⟩
  rintro ⟨c, r⟩ hmem
  exact saw_seenBy.mpr (List.mem_append_left _ (saw_seenBy.mp hmem))

/-- The passwords in the table, and those read for an update, are all of known origin. -/
structure PasswordsKept (pool₀ : UserPool) (past : List UserLabel) (pool : UserPool) : Prop where
  run : Run UserStep pool₀ past pool
  rows : ∀ u ∈ pool.shared.table.rows, PasswordKept pool₀.shared.table past u.id u.password
  reads : ∀ j id row, .cmd j (.read (.getUser id)) (.ok row) ∈ past →
    row.id = id ∧ PasswordKept pool₀.shared.table past row.id row.password

theorem getUser_answered {s t : UserState} {i : Nat} {row : User} (h : Exec i (.read (.getUser id)) s (.ok row) t) :
    row ∈ s.table.rows ∧ row.id = id := by
  generalize hreply : (Except.ok row : UserReply (.read (.getUser id))) = reply at h
  cases h with
  | read =>
    obtain ⟨hrow, hid, -⟩ := UserTable.getUser_ok hreply.symm
    exact ⟨hrow, hid⟩
  | readFailed => cases hreply
  | outside h => exact h.elim

/-- What a worded statement leaves in the password of a row. -/
theorem kept_of_effect {w : Write} {now j : Nat} {t t' : UserTable}
    (hrows : ∀ u ∈ t.rows, PasswordKept t₀ past u.id u.password)
    (hreads : ∀ id row, Saw (seenBy j past) (.read (.getUser id)) (.ok row) →
      row.id = id ∧ PasswordKept t₀ past row.id row.password)
    (hw : Worded (seenBy j past) w) (heffect : w.Effect now t t') :
    ∀ v ∈ t'.rows, PasswordKept t₀ past v.id v.password := by
  intro v hv
  rcases heffect.origin v hv with ⟨hold, -⟩ | ⟨u, hu, hsel, rfl⟩ | ⟨hinserted, -⟩
  · exact hrows v hold
  · cases hw with
    | createUser => exact hsel.elim
    | createOAuthUser => exact hrows u hu
    | @updateUser id row user hread hid hpassword =>
      obtain ⟨hrow, hkept⟩ := hreads id row hread
      have huid : u.id = row.id := hsel.1.trans hid
      show PasswordKept t₀ past u.id user.password
      rw [huid]
      cases hpassword with
      | inl hsame =>
        rw [hsame]
        exact hkept
      | inr hset =>
        rw [hrow]
        exact .inr (.inr ⟨j, hset⟩)
    | setRole => exact hrows u hu
    | deleteUser => exact hrows u hu
    | restoreUser => exact hrows u hu
  · cases hw with
    | createUser hset =>
      cases hinserted
      exact .inr (.inr ⟨j, hset⟩)
    | createOAuthUser hpw =>
      cases hinserted
      exact .inl hpw
    | updateUser => cases hinserted
    | setRole => cases hinserted
    | deleteUser => cases hinserted
    | restoreUser => cases hinserted

theorem passwordsKept_step (h₀ : UsersInit pool₀) (h : PasswordsKept pool₀ past pool)
    (hstep : UserStep pool l pool') :
    PasswordsKept pool₀ (past ++ [l]) pool' := by
  refine ⟨h.run.append (.single hstep), ?_, ?_⟩
  · intro v hv
    refine PasswordKept.append ?_ [l]
    cases table_step hstep with
    | same htable _ =>
      rw [htable] at hv
      exact h.rows v hv
    | @wrote i w r n hl _ happly =>
      subst hl
      have hworded : Worded (seenBy i past) w := by
        cases hstep with
        | cmd hi _ =>
          have hlen : pool₀.threads.length ≤ i := by
            rw [h₀.threads]
            exact Nat.zero_le i
          exact Upholds.issued upholds_serves h.run hlen hi w rfl
      exact kept_of_effect h.rows (fun id row hread => h.reads i id row (saw_seenBy.mp hread)) hworded
        (Write.effect_of_apply happly) v hv
  · intro j id row hmem
    cases List.mem_append.mp hmem with
    | inl hold => exact ⟨(h.reads j id row hold).1, (h.reads j id row hold).2.append [l]⟩
    | inr hnew =>
      obtain rfl := List.mem_singleton.mp hnew
      cases hstep with
      | cmd _ hexec =>
        obtain ⟨hrow, hid⟩ := getUser_answered hexec
        exact ⟨hid, (h.rows row hrow).append _⟩

theorem passwordsKept_run (h₀ : UsersInit pool₀) (hrun : Run UserStep pool₀ trace pool) :
    PasswordsKept pool₀ trace pool := by
  refine Run.history (P := PasswordsKept pool₀) (fun _ _ _ _ h hs => passwordsKept_step h₀ h hs) hrun [] ?_
  exact ⟨.nil pool₀, fun u hu => .inr (.inl ⟨u, hu, rfl, rfl⟩), fun _ _ _ h => nomatch h⟩

/-- Thread `i` was answered this row, and the account was active then. -/
def ActiveWhen (pool₀ : UserPool) (trace : List UserLabel) (i : Nat) (c : UserCmd) (r : UserReply c) (user : User) :
    Prop :=
  ∃ before after p, trace = before ++ .cmd i c r :: after ∧ Run UserStep pool₀ before p ∧
    user ∈ p.shared.table.rows ∧ user.deletedAt = none

/-- The tokens of a pair: whose they are, and what they were given for. -/
inductive Issued (pool₀ : UserPool) (trace : List UserLabel) (i : Nat) : AccessClaims → RefreshTokenClaims → Prop where
  | login {req : LoginReq} {proof : Proof} {nonce jkt : String} {row : User} {refresh : RefreshTokenClaims}
      (hq : .cmd i (.receive (.login (.ok req))) () ∈ trace)
      (hproof : .cmd i (.refresh .validateProof) (.accepted proof nonce) ∈ trace)
      (hjkt : .cmd i (.refresh (.thumbprint proof.key)) (some jkt) ∈ trace)
      (hrow : ActiveWhen pool₀ trace i (.read (.getUserByEmail req.email)) (.ok row) row)
      (hemail : row.email = req.email)
      (hcompare : .cmd i (.compareHashAndPassword row.password req.password) true ∈ trace)
      (hchosen : Chosen pool₀.shared.table trace row.id row.password)
      (hsubject : refresh.subject = row.id) (hbound : refresh.jkt = jkt) :
      Issued pool₀ trace i ⟨row.id, row.role, jkt⟩ refresh
  | refresh {cookie : String} {proof : Proof} {nonce jkt : String} {claims : RefreshTokenClaims}
      {rotated : RotatedRefreshToken} {user : User} (hq : .cmd i (.receive (.refresh (some cookie))) () ∈ trace)
      (hproof : .cmd i (.refresh .validateProof) (.accepted proof nonce) ∈ trace)
      (hjkt : .cmd i (.refresh (.thumbprint proof.key)) (some jkt) ∈ trace)
      (hclaims : .cmd i (.refresh (.validateRefreshToken cookie jkt)) (.ok claims) ∈ trace)
      (hrotated : .cmd i (.refresh (.rotateRefreshToken claims)) (.ok rotated) ∈ trace)
      (huser : ActiveWhen pool₀ trace i (.refresh (.getUser rotated.userID)) (.ok user) user)
      (hid : user.id = claims.subject) (hsubject : rotated.newToken.subject = user.id) :
      Issued pool₀ trace i ⟨user.id, user.role, jkt⟩ rotated.newToken
  | google {code state : String} {info : GoogleUserInfo} {jkt : String} {user : User} {refresh : RefreshTokenClaims}
      (hq : .cmd i (.receive (.googleCallback code state "")) () ∈ trace)
      (hinfo : .cmd i (.fetchUserInfo code) (.ok info) ∈ trace)
      (hjkt : .cmd i (.consumeState state) jkt ∈ trace) (hvalid : isValidJkt jkt = true)
      (huser : (ActiveWhen pool₀ trace i (.read (.getUserByEmail info.email)) (.ok user) user ∧
        user.email = info.email) ∨ .cmd i .newV7 user.id ∈ trace ∧ user.role = .USER)
      (hsubject : refresh.subject = user.id) (hbound : refresh.jkt = jkt) :
      Issued pool₀ trace i ⟨user.id, user.role, jkt⟩ refresh

section Answers

variable {s t : UserState} {i : Nat} {user : User} {access : AccessClaims} {refresh : RefreshTokenClaims} {jkt : String}

theorem getUserByEmail_answered {email : String} (h : Exec i (.read (.getUserByEmail email)) s (.ok user) t) :
    user ∈ s.table.rows ∧ user.email = email ∧ user.deletedAt = none := by
  generalize hreply : (Except.ok user : UserReply (.read (.getUserByEmail email))) = reply at h
  cases h with
  | read => exact UserTable.getUserByEmail_ok hreply.symm
  | readFailed => cases hreply
  | outside h => exact h.elim

theorem refreshGetUser_answered (h : Exec i (.refresh (.getUser id)) s (.ok user) t) :
    user ∈ s.table.rows ∧ user.id = id ∧ user.deletedAt = none := by
  cases h with
  | outside h =>
    cases h with
    | inl hfound => exact UserTable.getUser_ok hfound.symm
    | inr hdown => cases hdown

theorem signWithCNF_answered {role : Role} (h : Exec i (.signWithCNF id role jkt) s (.ok access) t) :
    access = ⟨id, role, jkt⟩ := by
  cases h with
  | outside h => exact h access rfl

theorem newAccessToken_answered {role : Role} (h : Exec i (.refresh (.newAccessToken id role jkt)) s (.ok access) t) :
    access = ⟨id, role, jkt⟩ := by
  cases h with
  | outside h => exact h access rfl

theorem issueRefreshToken_answered (h : Exec i (.issueRefreshToken id jkt) s (.ok refresh) t) :
    refresh.subject = id ∧ refresh.jkt = jkt := by
  cases h with
  | outside h => exact h refresh rfl

theorem rotateRefreshToken_answered {claims : RefreshTokenClaims} {rotated : RotatedRefreshToken}
    (h : Exec i (.refresh (.rotateRefreshToken claims)) s (.ok rotated) t) :
    rotated.userID = claims.subject ∧ rotated.newToken.subject = claims.subject := by
  cases h with
  | outside h => exact h rotated rfl

end Answers

variable {i : Nat} {access : AccessClaims} {refresh : RefreshTokenClaims}

theorem issued_of_handed (h₀ : UsersInit pool₀) (hrun : Run UserStep pool₀ trace pool)
    (hempty : ∀ j pw, .cmd j (.compareHashAndPassword "" pw) true ∉ trace)
    (h : Handed (seenBy i trace) access refresh) : Issued pool₀ trace i access refresh := by
  cases h with
  | @login req proof nonce jkt row _ _ hq hproof hjkt hrow hcompare haccess hrefresh =>
    obtain ⟨before, after, p, t, htrace, hbefore, hread⟩ := executed_of_mem hrun (saw_seenBy.mp hrow)
    obtain ⟨hmem, hemail, hactive⟩ := getUserByEmail_answered hread
    obtain ⟨_, _, _, _, _, _, hsign⟩ := executed_of_mem hrun (saw_seenBy.mp haccess)
    obtain ⟨_, _, _, _, _, _, hissue⟩ := executed_of_mem hrun (saw_seenBy.mp hrefresh)
    obtain rfl := signWithCNF_answered hsign
    obtain ⟨hsubject, hbound⟩ := issueRefreshToken_answered hissue
    have hcompared := saw_seenBy.mp hcompare
    have hchosen : Chosen pool₀.shared.table trace row.id row.password := by
      rw [htrace]
      refine (((passwordsKept_run h₀ hbefore).rows row hmem).append _).resolve_left fun hnone => ?_
      rw [hnone] at hcompared
      exact hempty _ _ hcompared
    exact .login (saw_seenBy.mp hq) (saw_seenBy.mp hproof) (saw_seenBy.mp hjkt)
      ⟨before, after, p, htrace, hbefore, hmem, hactive⟩ hemail hcompared hchosen hsubject hbound
  | @refresh cookie proof nonce jkt claims rotated user _ hq hproof hjkt hclaims hrotated huser haccess =>
    obtain ⟨_, _, _, _, _, _, hrotate⟩ := executed_of_mem hrun (saw_seenBy.mp hrotated)
    obtain ⟨_, _, _, _, _, _, hsign⟩ := executed_of_mem hrun (saw_seenBy.mp haccess)
    obtain ⟨before, after, p, t, htrace, hbefore, hread⟩ := executed_of_mem hrun (saw_seenBy.mp huser)
    obtain ⟨hmem, hid, hactive⟩ := refreshGetUser_answered hread
    obtain ⟨hrotatedID, hnew⟩ := rotateRefreshToken_answered hrotate
    obtain rfl : access = ⟨user.id, user.role, jkt⟩ := by rw [newAccessToken_answered hsign, hid]
    exact .refresh (saw_seenBy.mp hq) (saw_seenBy.mp hproof) (saw_seenBy.mp hjkt) (saw_seenBy.mp hclaims)
      (saw_seenBy.mp hrotated) ⟨before, after, p, htrace, hbefore, hmem, hactive⟩ (hid.trans hrotatedID)
      (hnew.trans (hid.trans hrotatedID).symm)
  | @google code state info jkt user _ _ hq hinfo hjkt hvalid huser haccess hrefresh =>
    obtain ⟨_, _, _, _, _, _, hsign⟩ := executed_of_mem hrun (saw_seenBy.mp haccess)
    obtain ⟨_, _, _, _, _, _, hissue⟩ := executed_of_mem hrun (saw_seenBy.mp hrefresh)
    obtain rfl := signWithCNF_answered hsign
    obtain ⟨hsubject, hbound⟩ := issueRefreshToken_answered hissue
    refine .google (saw_seenBy.mp hq) (saw_seenBy.mp hinfo) (saw_seenBy.mp hjkt) hvalid ?_ hsubject hbound
    cases huser with
    | inl hfound =>
      obtain ⟨before, after, p, t, htrace, hbefore, hread⟩ := executed_of_mem hrun (saw_seenBy.mp hfound)
      obtain ⟨hmem, hemail, hactive⟩ := getUserByEmail_answered hread
      exact .inl ⟨⟨before, after, p, htrace, hbefore, hmem, hactive⟩, hemail⟩
    | inr hmade => exact .inr ⟨saw_seenBy.mp hmade.1, hmade.2⟩

end Passwords

section Sample

def annProof : Proof :=
  ⟨"", ⟨"dpop+jwt", "ES256", none⟩, ⟨"jti", "POST", "https://chinwag/login", 0, "nonce"⟩, ⟨true, 0, 0⟩⟩

def registeredUser : User := ⟨"ann", "Ann", "ann@example.org", "hash", .USER, "", none, 0, 0, none⟩

def registeredRow : User := UserTable.newRow registeredUser "local" none 1

def emptyTable : UserTable := ⟨[], List.nodup_nil, List.nodup_nil⟩

def registeredTable : UserTable := ⟨[registeredRow], List.nodup_singleton _, List.nodup_singleton _⟩

def annRequest : Request := .createUser (.ok ⟨"Ann", "ann@example.org", "secret"⟩)

def afterRegistration : UserState := (((restingState emptyTable).receive 0 annRequest).draw "ann").store registeredTable

def annLogin : Request := .login (.ok ⟨"ann@example.org", "secret"⟩)

/-- What `bcrypt` may answer: an empty hash is too short. -/
def Bcrypt : (c : UserCmd) → UserReply c → Prop
  | .compareHashAndPassword hash _, matched => hash = "" → matched = false
  | _, _ => True

theorem ann_registers : Alone ((userSemantics.among Bcrypt).exec 0) Eq (serve annRequest) (restingState emptyTable)
    (.user registeredUser.toProjection) afterRegistration := by
  have hdraw : Exec 0 .newV7 ((restingState emptyTable).receive 0 annRequest) "ann"
      (((restingState emptyTable).receive 0 annRequest).draw "ann") := .newV7 List.not_mem_nil fun _ h => nomatch h
  have hhash : ∀ s, Exec 0 (.generateFromPassword "secret") s (some "hash") s := fun _ => .outside trivial
  refine .call rfl ⟨.receive _, trivial⟩ (.call rfl ⟨hdraw, trivial⟩ (.call rfl ⟨hhash _, trivial⟩ ?_))
  exact .call rfl ⟨.write (t := registeredTable) rfl, trivial⟩ (.ret _ _)

theorem ann_logs_in : Alone ((userSemantics.among Bcrypt).exec 1) Eq (serve annLogin) afterRegistration
    (.tokens ⟨"ann", .USER, eveJkt⟩ ⟨"ann", eveUuid, eveUuid, eveJkt⟩) (afterRegistration.receive 1 annLogin) := by
  have hproof : ∀ s, Exec 1 (.refresh .validateProof) s (.accepted annProof "") s := fun _ => .outside trivial
  have hjkt : ∀ s, Exec 1 (.refresh (.thumbprint annProof.key)) s (some eveJkt) s := fun _ => .outside trivial
  have hread : Exec 1 (.read (.getUserByEmail "ann@example.org")) (afterRegistration.receive 1 annLogin) (.ok registeredRow)
      (afterRegistration.receive 1 annLogin) := .read _
  have hcompare : ∀ s, Exec 1 (.compareHashAndPassword "hash" "secret") s true s := fun _ => .outside trivial
  have hsign : ∀ s, Exec 1 (.signWithCNF "ann" .USER eveJkt) s (.ok ⟨"ann", .USER, eveJkt⟩) s :=
    fun _ => .outside fun _ h => (Except.ok.inj h).symm
  have hissue : ∀ s, Exec 1 (.issueRefreshToken "ann" eveJkt) s (.ok ⟨"ann", eveUuid, eveUuid, eveJkt⟩) s := by
    refine fun _ => .outside fun _ h => ?_
    obtain rfl := Except.ok.inj h
    exact ⟨rfl, rfl⟩
  refine .call rfl ⟨.receive _, trivial⟩ (.call rfl ⟨hproof _, trivial⟩ (.call rfl ⟨hjkt _, trivial⟩ ?_))
  refine .call rfl ⟨hread, trivial⟩ (.call rfl ⟨hcompare _, fun h => absurd h (by decide)⟩ ?_)
  exact .call rfl ⟨hsign _, trivial⟩ (.call rfl ⟨hissue _, trivial⟩ (.ret _ _))

end Sample

end Chinwag.Users

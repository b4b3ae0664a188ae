import Chinwag.Users.Service

/-!
# The handlers and their routes

The public, the private and the admin group. A private handler runs only with the verified
claims of an access token, an admin handler only with the role `ADMIN` in them.
-/
namespace Chinwag.Users

open Program Auth Dpop

open Prog (perform)

/-- The refresh handler among the other commands of the service. -/
def embed {α : Type} : RefreshProg α → UserProg α
  | .ret a => .ret a
  | .call c next => .call (.refresh c) fun r => embed (next r)

def respond {α : Type} (ok : α → Response) : Result α → Response
  | .error e => .ofError e
  | .ok a => ok a

/-- `respondDPoPError`. -/
def dpopFailure : Verdict → Response
  | .rejected _ e => .error e.status e.message
  | _ => .error 400 "invalid DPoP proof"

def handleLogin (body : Except String LoginReq) : UserProg Response := do
  match body with
  | .error e => return .error 400 e
  | .ok req =>
    match ← perform (UserCmd.refresh .validateProof) with
    | .accepted proof _ =>
      match ← perform (UserCmd.refresh (.thumbprint proof.key)) with
      | none => return .error 400 "failed to derive DPoP key thumbprint"
      | some jkt => return respond (fun t => .tokens t.1 t.2) (← login req.email req.password jkt)
    | verdict => return dpopFailure verdict

def handleCreateUser (body : Except String CreateUserReq) : UserProg Response := do
  match body with
  | .error e => return .error 400 e
  | .ok req => return respond (fun u => .user u.toProjection) (← createUser req)

def handleGetUserByID (id : String) : UserProg Response := do
  return respond (fun u => .user u.toProjection) (← getUser id)

def handleGetUserByEmail (email : String) : UserProg Response := do
  return respond (fun u => .user u.toProjection) (← getUserByEmail email)

/-- `isValidJkt`: 43 characters of the URL alphabet of base64. -/
def isValidJkt (s : String) : Bool :=
  s.length == 43 && s.toList.all fun c =>
    ('A' ≤ c && c ≤ 'Z') || ('a' ≤ c && c ≤ 'z') || ('0' ≤ c && c ≤ '9') || c == '-' || c == '_'

/-- What `HandleCallback` does with an account Google vouched for. -/
def loginWithGoogle (state : String) (info : GoogleUserInfo) : UserProg Response := do
  let jkt ← perform (UserCmd.consumeState state)
  if isValidJkt jkt then
    match ← findOrCreateUser info jkt with
    | .error _ => return .redirect "/login?error=oauth_user_failed"
    | .ok t => return .tokens t.1 t.2
  else return .redirect "/login?error=oauth_binding_lost"

def handleCallback (code state errParam : String) : UserProg Response := do
  if errParam ≠ "" then return .redirect "/login?error=oauth_denied"
  else if code = "" ∨ state = "" then return .error 400 "missing code or state"
  else
    match ← perform (UserCmd.fetchUserInfo code) with
    | .error reason => return .redirect ("/login?error=" ++ reason)
    | .ok info => loginWithGoogle state info

def handleWhoAmI (claims : AccessClaims) : UserProg Response := do
  return respond (fun u => .whoAmI u.toProjection u.role) (← getUser claims.subject)

/-- The id is the one of the path; the claims of the caller are not asked. -/
def handleUpdateUser (id : String) (body : Except String UpdateUserReq) : UserProg Response := do
  match body with
  | .error e => return .error 400 e
  | .ok req => return respond (fun u => .user u.toProjection) (← updateUser id req)

def handleDeleteUser (id : String) : UserProg Response := do
  return respond (fun _ => .empty) (← deleteUser id)

def handleAdminCreateUser (body : Except String CreateAdminUserRequest) : UserProg Response := do
  match body with
  | .error e => return .error 400 e
  | .ok req => return respond (.adminUser 201) (← adminCreateUser req)

def handleAdminGetUser (id : String) : UserProg Response := do
  return respond (.adminUser 200) (← adminGetUser id)

def handleAdminUpdateUser (id : String) (body : Except String UpdateUserReq) : UserProg Response := do
  match body with
  | .error e => return .error 400 e
  | .ok req => return respond (.adminUser 200) (← adminUpdateUser id req)

def handleUpdateRole (claims : AccessClaims) (id : String) (body : Except String String) :
    UserProg Response := do
  match body with
  | .error e => return .error 400 e
  | .ok role =>
    match ← adminSetRole id claims.subject role with
    | .error e => return .ofError e
    | .ok () => handleAdminGetUser id

def handleDisableUser (id : String) : UserProg Response := do
  return respond (fun _ => .empty) (← adminDisableUser id)

def handleRestoreUser (id : String) : UserProg Response := do
  return respond (.adminUser 200) (← adminRestoreUser id)

/-- The private group: behind `NewMiddleware`. -/
def privately (auth : Except AppError AccessClaims) (next : AccessClaims → UserProg Response) :
    UserProg Response :=
  match auth with
  | .error e => return .error e.status e.message
  | .ok claims => next claims

/-- The admin group: behind `RequireRole(RoleAdmin)` as well. -/
def adminOnly (auth : Except AppError AccessClaims) (next : AccessClaims → UserProg Response) :
    UserProg Response :=
  privately auth fun claims => if claims.role = .ADMIN then next claims else return .error 403 "forbidden"

def handle : Request → UserProg Response
  | .login body => handleLogin body
  | .refresh cookie => embed (Auth.refresh cookie)
  | .createUser body => handleCreateUser body
  | .getUserByID id => handleGetUserByID id
  | .getUserByEmail email => handleGetUserByEmail email
  | .googleCallback code state errParam => handleCallback code state errParam
  | .whoAmI auth => privately auth handleWhoAmI
  | .updateUser auth id body => privately auth fun _ => handleUpdateUser id body
  | .deleteUser auth id => privately auth fun _ => handleDeleteUser id
  | .adminCreateUser auth body => adminOnly auth fun _ => handleAdminCreateUser body
  | .adminGetUser auth id => adminOnly auth fun _ => handleAdminGetUser id
  | .adminUpdateUser auth id body => adminOnly auth fun _ => handleAdminUpdateUser id body
  | .adminSetRole auth id body => adminOnly auth fun claims => handleUpdateRole claims id body
  | .adminDisableUser auth id => adminOnly auth fun _ => handleDisableUser id
  | .adminRestoreUser auth id => adminOnly auth fun _ => handleRestoreUser id

def serve (q : Request) : UserProg Response := do
  perform (UserCmd.receive q)
  handle q

end Chinwag.Users

import Chinwag.Users.Statements
import Chinwag.Auth.RefreshHandler

/-!
# The user service

Each operation is a program that reads, counts and writes in separate commands, so other
requests may run between them. What the table does not decide is a command of its own:
password hashes, keys, tokens, Google's answers.
-/
namespace Chinwag.Users

open Program Auth Redis Dpop

structure CreateUserReq where
  name : String
  email : String
  password : String

structure LoginReq where
  email : String
  password : String

structure UpdateUserReq where
  name : Option String
  email : Option String
  password : Option String

structure CreateAdminUserRequest where
  name : String
  email : String
  password : String
  role : String

structure GoogleUserInfo where
  id : String
  email : String
  name : String

/-- A request as a handler finds it. Behind `NewMiddleware` it comes with the verified claims of its
token or with the error it was turned away with; a body that does not bind has its error. -/
inductive Request where
  | login (body : Except String LoginReq)
  | refresh (cookie : Option String)
  | createUser (body : Except String CreateUserReq)
  | getUserByID (id : String)
  | getUserByEmail (email : String)
  | googleCallback (code state errParam : String)
  | whoAmI (auth : Except AppError AccessClaims)
  | updateUser (auth : Except AppError AccessClaims) (id : String) (body : Except String UpdateUserReq)
  | deleteUser (auth : Except AppError AccessClaims) (id : String)
  | adminCreateUser (auth : Except AppError AccessClaims) (body : Except String CreateAdminUserRequest)
  | adminGetUser (auth : Except AppError AccessClaims) (id : String)
  | adminUpdateUser (auth : Except AppError AccessClaims) (id : String) (body : Except String UpdateUserReq)
  | adminSetRole (auth : Except AppError AccessClaims) (id : String) (body : Except String String)
  | adminDisableUser (auth : Except AppError AccessClaims) (id : String)
  | adminRestoreUser (auth : Except AppError AccessClaims) (id : String)

/-- `receive` marks the arrival of a request. -/
inductive UserCmd where
  | receive (q : Request)
  | read (q : Query)
  | write (w : Write)
  | newV7
  | generateFromPassword (password : String)
  | compareHashAndPassword (hash password : String)
  | signWithCNF (userId : String) (role : Role) (jkt : String)
  | issueRefreshToken (subject jkt : String)
  | fetchUserInfo (code : String)
  | consumeState (state : String)
  | refresh (c : RefreshCmd)

abbrev UserReply : UserCmd → Type
  | .receive _ => Unit
  | .read q => Except DbError q.Row
  | .write _ => Except DbError Nat
  | .newV7 => String
  | .generateFromPassword _ => Option String
  | .compareHashAndPassword _ _ => Bool
  | .signWithCNF _ _ _ => Except ServiceError AccessClaims
  | .issueRefreshToken _ _ => Except ServiceError RefreshTokenClaims
  | .fetchUserInfo _ => Except String GoogleUserInfo
  | .consumeState _ => String
  | .refresh c => RefreshReply c

abbrev UserProg (α : Type) := Prog UserCmd UserReply α

abbrev Result (α : Type) := Except ServiceError α

open Prog (perform)

/-- The fields that are not set here are never read: the table fills in its defaults. -/
def createUser (req : CreateUserReq) : UserProg (Result User) := do
  let id ← perform UserCmd.newV7
  match ← perform (UserCmd.generateFromPassword req.password) with
  | none => return .error .other
  | some hash =>
    let newUser : User := ⟨id, req.name, req.email, hash, .USER, "", none, 0, 0, none⟩
    match ← perform (UserCmd.write (.createUser newUser)) with
    | .error e => return .error (.db e)
    | .ok _ => return .ok newUser

def getUser (id : String) : UserProg (Result User) := do
  match ← perform (UserCmd.read (.getUser id)) with
  | .error e => return .error (.db e)
  | .ok user => return .ok user

def getUserByEmail (email : String) : UserProg (Result User) := do
  match ← perform (UserCmd.read (.getUserByEmail email)) with
  | .error e => return .error (.db e)
  | .ok user => return .ok user

def deleteUser (id : String) : UserProg (Result Unit) := do
  match ← perform (UserCmd.write (.deleteUser id)) with
  | .error e => return .error (.db e)
  | .ok _ => return .ok ()

/-- `UserRepo.UpdateUser`: no row affected is `ErrNotFound`. -/
def repoUpdateUser (user : User) : UserProg (Result User) := do
  match ← perform (UserCmd.write (.updateUser user)) with
  | .error e => return .error (.db e)
  | .ok 0 => return .error (.app errNotFound)
  | .ok _ => return .ok user

def updateUser (id : String) (req : UpdateUserReq) : UserProg (Result User) := do
  match ← perform (UserCmd.read (.getUser id)) with
  | .error e => return .error (.db e)
  | .ok user =>
    let user := { user with name := req.name.getD user.name, email := req.email.getD user.email }
    match req.password with
    | none => repoUpdateUser user
    | some password =>
      match ← perform (UserCmd.generateFromPassword password) with
      | none => return .error .other
      | some hash => repoUpdateUser { user with password := hash }

def createOAuthUser (user : User) : UserProg (Result Unit) := do
  match ← perform (UserCmd.write (.createOAuthUser user)) with
  | .error e => return .error (.db e)
  | .ok _ => return .ok ()

/-- The end of a login: the access token of the user, then a refresh token of a new lineage. -/
def issueTokens (user : User) (jkt : String) : UserProg (Result (AccessClaims × RefreshTokenClaims)) := do
  match ← perform (UserCmd.signWithCNF user.id user.role jkt) with
  | .error e => return .error e
  | .ok access =>
    match ← perform (UserCmd.issueRefreshToken user.id jkt) with
    | .error e => return .error e
    | .ok refresh => return .ok (access, refresh)

/-- `UserService.Login`. -/
def login (email pw jkt : String) : UserProg (Result (AccessClaims × RefreshTokenClaims)) := do
  match ← perform (UserCmd.read (.getUserByEmail email)) with
  | .error .noRows => return .error (.app errInvalidCreds)
  | .error e => return .error (.db e)
  | .ok user =>
    if ← perform (UserCmd.compareHashAndPassword user.password pw) then issueTokens user jkt
    else return .error (.app errInvalidCreds)

def adminGetUser (id : String) : UserProg (Result AdminUserResponse) := do
  match ← perform (UserCmd.read (.getUserIncludingDeleted id)) with
  | .error e => return .error (.db e)
  | .ok u => return .ok (toAdminUser u)

/-- `validRole`, as the role it lets through. -/
def validRole (role : String) : Option Role :=
  if role = "USER" then some .USER
  else if role = "MANAGER" then some .MANAGER
  else if role = "ADMIN" then some .ADMIN
  else none

def setRole (id : String) (role : Role) : UserProg (Result Unit) := do
  match ← perform (UserCmd.write (.setRole id role)) with
  | .error e => return .error (.db e)
  | .ok _ => return .ok ()

def adminCreateUser (req : CreateAdminUserRequest) : UserProg (Result AdminUserResponse) := do
  match validRole (if req.role = "" then "USER" else req.role) with
  | none => return .error (.app errInvalidRole)
  | some role =>
    match ← createUser ⟨req.name, req.email, req.password⟩ with
    | .error e => return .error e
    | .ok u =>
      if role = .USER then return .ok { toAdminUser u with role := role }
      else
        match ← setRole u.id role with
        | .error e => return .error e
        | .ok () => return .ok { toAdminUser u with role := role }

def adminUpdateUser (id : String) (req : UpdateUserReq) : UserProg (Result AdminUserResponse) := do
  match ← updateUser id req with
  | .error e => return .error e
  | .ok u => return .ok (toAdminUser u)

/-- The guard of the two operations that may take an administrator away. -/
def ensureOtherAdmin (next : UserProg (Result Unit)) : UserProg (Result Unit) := do
  match ← perform (UserCmd.read .countAdmins) with
  | .error e => return .error (.db e)
  | .ok n => if (n : Nat) ≤ 1 then return .error (.app errLastAdmin) else next

def adminSetRole (id actorID role : String) : UserProg (Result Unit) := do
  match validRole role with
  | none => return .error (.app errInvalidRole)
  | some role =>
    if id = actorID ∧ role ≠ .ADMIN then return .error (.app errSelfDemotion)
    else
      match ← perform (UserCmd.read (.getUserIncludingDeleted id)) with
      | .error e => return .error (.db e)
      | .ok current =>
        if current.role = .ADMIN ∧ role ≠ .ADMIN then ensureOtherAdmin (setRole id role)
        else setRole id role

def adminDisableUser (id : String) : UserProg (Result Unit) := do
  match ← perform (UserCmd.read (.getUserIncludingDeleted id)) with
  | .error e => return .error (.db e)
  | .ok current =>
    -- Disabling an ADMIN effectively removes an admin; protect the last one.
    if current.role = .ADMIN then ensureOtherAdmin (deleteUser id)
    else deleteUser id

def adminRestoreUser (id : String) : UserProg (Result AdminUserResponse) := do
  match ← perform (UserCmd.write (.restoreUser id)) with
  | .error e => return .error (.db e)
  | .ok _ => adminGetUser id

/-- `createUserFromGoogle`: the user returned is the one made up here, whatever row the upsert hit. -/
def createUserFromGoogle (info : GoogleUserInfo) : UserProg (Result User) := do
  let id ← perform UserCmd.newV7
  let newUser : User := ⟨id, info.name, info.email, "", .USER, "google", some info.id, 0, 0, none⟩
  match ← createOAuthUser newUser with
  | .error e => return .error e
  | .ok () => return .ok newUser

/-- `findOrCreateUser`: any error of the lookup leads to the creation. -/
def findOrCreateUser (info : GoogleUserInfo) (jkt : String) :
    UserProg (Result (AccessClaims × RefreshTokenClaims)) := do
  match ← getUserByEmail info.email with
  | .ok user => issueTokens user jkt
  | .error _ =>
    match ← createUserFromGoogle info with
    | .error e => return .error e
    | .ok user => issueTokens user jkt

end Chinwag.Users

import Mathlib.Data.List.Basic
import Chinwag.Dpop.Client
import Chinwag.Lib.Json

/-!
# The API client of a page, and who it shows as signed in

All requests of a page share its access token and at most one refresh of it. A stretch of code between two
awaits runs undivided; the calls are interleaved at their awaits.
-/
namespace Chinwag.Session

open Program Transition
open Handshake (FetchCall)
open Prog (perform)

structure User where
  id : String
  name : String
  email : String
  role : Option String
deriving DecidableEq

/-- What is read of the `data` of a response. -/
structure Data where
  token : Option String
  user : Option User
  role : Option String

structure ApiResponse where
  success : Bool
  data : Option Data
  code : Option String
  message : Option String

/-- What `doFetch` resolves to; a body that is no JSON object counts as none. -/
structure Response where
  status : Nat
  body : Option ApiResponse

def Response.ok (res : Response) : Bool := 200 ≤ res.status && res.status < 300

inductive Failure where
  | api (status : Nat) (code message : String) (data : Option Data)
  | other

def isAuthUnavailable : Failure → Bool
  | .api status _ _ _ => 500 ≤ status
  | .other => false

/-- What the browser does for the page: `JSON.parse(atob(part))`, none where either throws, and the
encoding of `URLSearchParams`. -/
structure PageLib where
  decode : String → Option Json
  encode : String → String

/-- A promise of `refreshAccessToken` is known by its number. -/
structure Page where
  accessToken : Option String
  refreshPromise : Option Nat
  promises : List (Option (Option String))
  user : Option User
  isLoading : Bool
  readOnly : Bool
  cachedUser : Option User
  now : Nat

def API_BASE : String := "/api"

def refreshUrl : String := API_BASE ++ "/auth/refresh"

namespace API_PATHS

def whoami : String := "/auth/whoami"

def login : String := "/auth/login"

def register : String := "/auth/user"

def logout : String := "/auth/logout"

end API_PATHS

section Tokens

variable (lib : PageLib)

def payload (token : String) : Option Json := (token.splitOn ".")[1]?.bind lib.decode

/-- Of two members of one name the last counts. -/
def member (name : String) : Json → Option Json
  | .obj fields => ((fields.filter fun f => f.1 = name).getLast?).map Prod.snd
  | _ => none

/-- `exp` is a number where it is there; where it is not, the comparison is one with `NaN`. -/
def isTokenExpired (token : String) (now : Nat) : Bool :=
  match payload lib token with
  | none => true
  | some .null => true
  | some claims =>
    match member "exp" claims with
    | some (.int exp) => exp * 1000 ≤ now
    | some .null => true
    | _ => false

def roleClaim (token : String) : Option String :=
  match (payload lib token).bind (member "role") with
  | some (.str role) => some role
  | _ => none

def tokenRole (page : Page) : Option String := (page.accessToken.filter (· ≠ "")).bind (roleClaim lib)

def withRole (page : Page) (user : User) (role : Option String) : User :=
  match (role.or (tokenRole lib page)).filter (· ≠ "") with
  | none => user
  | some r => { user with role := some r }

end Tokens

/-- A refresh that was under way, or one that the caller has started and is to bring about. -/
inductive RefreshPromise where
  | pending (k : Nat)
  | started (k : Nat)

inductive TokenPromise where
  | ready (token : String)
  | refresh (promise : RefreshPromise)

/-- The body of the `try` of `refreshAccessToken`, after the answer. -/
def refreshedToken : Except String Response → Option String
  | .error _ => none
  | .ok res =>
    if !res.ok then none
    else
      match res.body with
      | none => none
      | some body => if body.success then body.data.bind fun data => data.token.filter (· ≠ "") else none

namespace Page

variable (lib : PageLib) (page : Page)

/-- `refreshAccessToken` up to its first await. -/
def refreshAccessToken : RefreshPromise × Page :=
  match page.refreshPromise with
  | some k => (.pending k, page)
  | none =>
    let k := page.promises.length
    (.started k, { page with refreshPromise := some k, promises := page.promises ++ [none] })

def getValidToken : TokenPromise × Page :=
  match page.accessToken.filter (· ≠ "") with
  | some token =>
    if isTokenExpired lib token page.now then (.refresh page.refreshAccessToken.1, page.refreshAccessToken.2)
    else (.ready token, page)
  | none => (.refresh page.refreshAccessToken.1, page.refreshAccessToken.2)

/-- The rest of `refreshAccessToken`. -/
def settleRefresh (k : Nat) (answer : Except String Response) : Page :=
  let token := refreshedToken answer
  { page with accessToken := token, refreshPromise := none, promises := page.promises.set k (some token) }

def setAccessToken (token : Option String) : Page := { page with accessToken := token }

/-- What `login` does after its whoami. -/
def signIn (user : User) (role : Option String) : Page :=
  let next := withRole lib page user role
  { page with user := some next, cachedUser := some next, readOnly := false }

/-- What `restoreSession` and `checkSession` do after theirs. -/
def restore (answer : Except Failure ApiResponse) : Bool × Page :=
  let signedOut := { page with user := none, readOnly := false, isLoading := false }
  match answer with
  | .ok res =>
    match if res.success then res.data else none with
    | none => (false, signedOut)
    | some data =>
      match data.user with
      | none => (false, signedOut)
      | some user => (true, { page.signIn lib user data.role with isLoading := false })
  | .error e =>
    if isAuthUnavailable e then
      match page.cachedUser with
      | some cached =>
        (true, { page with user := some (withRole lib page cached none), readOnly := true, isLoading := false })
      | none => (false, signedOut)
    else (false, signedOut)

def signOut : Page := { page with user := none, cachedUser := none, readOnly := false, accessToken := none }

end Page

/-- What a call awaits, and its stretches in between. -/
inductive PageCmd where
  | getValidToken
  | refreshAccessToken
  | settleRefresh (k : Nat) (answer : Except String Response)
  | awaitRefresh (k : Nat)
  | doFetch (c : FetchCall)
  | setAccessToken (token : Option String)
  | signIn (user : User) (role : Option String)
  | restore (answer : Except Failure ApiResponse)
  | signOut
  | setIsLoading

abbrev PageReply : PageCmd → Type
  | .getValidToken => TokenPromise
  | .refreshAccessToken => RefreshPromise
  | .settleRefresh _ _ => Option String
  | .awaitRefresh _ => Option String
  | .doFetch _ => Except String Response
  | .setAccessToken _ => Unit
  | .signIn _ _ => Unit
  | .restore _ => Bool
  | .signOut => Unit
  | .setIsLoading => Unit

abbrev PageProg (α : Type) := Prog PageCmd PageReply α

structure RequestOptions where
  method : String
  body : Option String
  params : List (String × Option String)
  auth : Bool

def requestUrl (lib : PageLib) (path : String) (params : List (String × Option String)) : String :=
  let pairs := params.filterMap fun p =>
    (p.2.filter (· ≠ "")).map fun value => lib.encode p.1 ++ "=" ++ lib.encode value
  let qs := "&".intercalate pairs
  API_BASE ++ path ++ if qs = "" then "" else "?" ++ qs

def setHeader (name value : String) (headers : List (String × String)) : List (String × String) :=
  headers.filter (fun h => h.1 ≠ name) ++ [(name, value)]

def authorize (token : String) (headers : List (String × String)) : List (String × String) :=
  setHeader "Authorization" ("DPoP " ++ token) headers

def refreshCall : FetchCall := ⟨refreshUrl, "POST", [], none⟩

/-- What is awaited of `refreshAccessToken`; whoever starts a refresh brings it about. -/
def awaitRefresh : RefreshPromise → PageProg (Option String)
  | .pending k => perform (PageCmd.awaitRefresh k)
  | .started k => do
    let answer ← perform (PageCmd.doFetch refreshCall)
    perform (PageCmd.settleRefresh k answer)

def awaitToken : TokenPromise → PageProg (Option String)
  | .ready token => return some token
  | .refresh promise => awaitRefresh promise

def baseHeaders (o : RequestOptions) : List (String × String) :=
  if o.body.isSome then [("Content-Type", "application/json")] else []

/-- The headers of the first attempt. -/
def authorizedHeaders (o : RequestOptions) : PageProg (List (String × String)) :=
  if o.auth then do
    let promise ← perform PageCmd.getValidToken
    match (← awaitToken promise).filter (· ≠ "") with
    | some token => return authorize token (baseHeaders o)
    | none => return baseHeaders o
  else return baseHeaders o

/-- The second attempt, after an answer of 401. -/
def retry (c : FetchCall) (o : RequestOptions) (res : Response) : PageProg (Except String Response) :=
  if res.status = 401 && o.auth then do
    let promise ← perform PageCmd.refreshAccessToken
    match (← awaitRefresh promise).filter (· ≠ "") with
    | some token => perform (PageCmd.doFetch { c with headers := authorize token c.headers })
    | none => return .ok res
  else return .ok res

/-- What `apiRequest` makes of the answer. -/
def parseResponse (res : Response) : Except Failure ApiResponse :=
  match res.body with
  | none => .error .other
  | some json =>
    if !res.ok then
      .error (.api res.status (json.code.getD "UNKNOWN") (json.message.getD "An unexpected error occurred") json.data)
    else .ok json

def apiRequest (lib : PageLib) (path : String) (o : RequestOptions) : PageProg (Except Failure ApiResponse) := do
  let headers ← authorizedHeaders o
  let c : FetchCall := ⟨requestUrl lib path o.params, o.method, headers, o.body⟩
  match ← perform (PageCmd.doFetch c) with
  | .error _ => return .error .other
  | .ok res =>
    match ← retry c o res with
    | .error _ => return .error .other
    | .ok res => return parseResponse res

def apiGet (lib : PageLib) (path : String) : PageProg (Except Failure ApiResponse) :=
  apiRequest lib path ⟨"GET", none, [], true⟩

def apiPost (lib : PageLib) (path : String) (body : Option String) (auth : Bool) :
    PageProg (Except Failure ApiResponse) :=
  apiRequest lib path ⟨"POST", body, [], auth⟩

/-- `restoreSession`, and `checkSession` with what it returns. -/
def checkSession (lib : PageLib) : PageProg Bool := do
  let answer ← apiGet lib API_PATHS.whoami
  perform (PageCmd.restore answer)

def refreshSession (lib : PageLib) : PageProg Bool := do
  perform PageCmd.setIsLoading
  checkSession lib

/-- The token and the user that `login` asks for one after the other; whether it got them. -/
def login (lib : PageLib) (body : String) : PageProg Bool := do
  match ← apiPost lib API_PATHS.login (some body) false with
  | .error _ => return false
  | .ok res =>
    match if res.success then res.data.bind fun data => data.token.filter (· ≠ "") else none with
    | none => return false
    | some token =>
      perform (PageCmd.setAccessToken (some token))
      match ← apiGet lib API_PATHS.whoami with
      | .error _ => return false
      | .ok whoami =>
        match if whoami.success then whoami.data else none with
        | none => return false
        | some data =>
          match data.user with
          | none => return false
          | some user =>
            perform (PageCmd.signIn user data.role)
            return true

def register (lib : PageLib) (body loginBody : String) : PageProg Bool := do
  match ← apiPost lib API_PATHS.register (some body) false with
  | .error _ => return false
  | .ok res => if res.success then login lib loginBody else return false

def logout (lib : PageLib) : PageProg Bool := do
  let _ ← apiPost lib API_PATHS.logout none false
  perform PageCmd.signOut
  return true

/-- The page that Google's answer leads to takes the token from its address. -/
def oauthCallback (lib : PageLib) (token : String) : PageProg Bool :=
  if token = "" then return false
  else do
    perform (PageCmd.setAccessToken (some token))
    checkSession lib

/-- What a page calls, with whether it came to something. -/
inductive PageCall where
  | request (path : String) (o : RequestOptions)
  | checkSession
  | refreshSession
  | login (body : String)
  | register (body loginBody : String)
  | logout
  | oauthCallback (token : String)

def PageCall.prog (lib : PageLib) : PageCall → PageProg Bool
  | .request path o => do return (← apiRequest lib path o).isOk
  | .checkSession => Session.checkSession lib
  | .refreshSession => Session.refreshSession lib
  | .login body => Session.login lib body
  | .register body loginBody => Session.register lib body loginBody
  | .logout => Session.logout lib
  | .oauthCallback token => Session.oauthCallback lib token

/-- A promise is awaited until it is settled; an answer may be any, or none. -/
inductive Exec (lib : PageLib) : (c : PageCmd) → Page → PageReply c → Page → Prop where
  | getValidToken (s : Page) : Exec lib .getValidToken s (s.getValidToken lib).1 (s.getValidToken lib).2
  | refreshAccessToken (s : Page) : Exec lib .refreshAccessToken s s.refreshAccessToken.1 s.refreshAccessToken.2
  | settleRefresh (s : Page) (k : Nat) (answer : Except String Response) :
      Exec lib (.settleRefresh k answer) s (refreshedToken answer) (s.settleRefresh k answer)
  | awaitRefresh {s : Page} {k : Nat} {token : Option String} (h : s.promises[k]? = some (some token)) :
      Exec lib (.awaitRefresh k) s token s
  | doFetch (s : Page) (c : FetchCall) (answer : Except String Response) : Exec lib (.doFetch c) s answer s
  | setAccessToken (s : Page) (token : Option String) : Exec lib (.setAccessToken token) s () (s.setAccessToken token)
  | signIn (s : Page) (user : User) (role : Option String) : Exec lib (.signIn user role) s () (s.signIn lib user role)
  | restore (s : Page) (answer : Except Failure ApiResponse) :
      Exec lib (.restore answer) s (s.restore lib answer).1 (s.restore lib answer).2
  | signOut (s : Page) : Exec lib .signOut s () s.signOut
  | setIsLoading (s : Page) : Exec lib .setIsLoading s () { s with isLoading := true }

/-- Time passes, and other pages of the site write to the local storage. -/
inductive PageEvent where
  | elapsed (n : Nat)
  | storage (user : Option User)

def pageSemantics (lib : PageLib) : Semantics Page PageEvent PageCmd PageReply where
  exec _ := Exec lib
  env s e t :=
    match e with
    | .elapsed n => t = { s with now := s.now + n }
    | .storage user => t = { s with cachedUser := user }

abbrev PagePool := Pool Page PageCmd PageReply Bool

abbrev PageLabel := Label PageEvent PageCmd PageReply Bool

def Calls (lib : PageLib) (p : PageProg Bool) : Prop := ∃ call : PageCall, p = call.prog lib

abbrev PageStep (lib : PageLib) : PagePool → PageLabel → PagePool → Prop := Step (pageSemantics lib) (Calls lib)

/-- The page has been loaded; somebody may be in the local storage. -/
structure PageInit (pool : PagePool) : Prop where
  threads : pool.threads = []
  accessToken : pool.shared.accessToken = none
  refreshPromise : pool.shared.refreshPromise = none
  promises : pool.shared.promises = []
  user : pool.shared.user = none
  readOnly : pool.shared.readOnly = false

end Chinwag.Session

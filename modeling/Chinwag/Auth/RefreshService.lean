import Chinwag.Lib.Program
import Chinwag.Auth.RefreshScripts

/-!
# The refresh token service

`RotateRefreshToken` and `IssueRefreshToken` are one script call each. Revocation and
session listing are programs of separate Redis commands, so anything may happen
between two of them.
-/
namespace Chinwag.Auth

open Redis Program

/-- The errors of package `errs` met here, and Redis errors passed on as they are. -/
inductive AuthError where
  | rotationFailed
  | dependencyTimeout
  | dependencyUnavailable
  | invalidGrant
  | refreshTokenRevoked
  | refreshTokenReused
  | cacheNotFound
  | redis (e : RedisError)
  deriving DecidableEq, Repr

structure RefreshTokenClaims where
  subject : String
  jti : Uuid
  sid : Uuid
  jkt : String
  deriving DecidableEq

/-- The claims `SignRefreshToken` signs; a token without a DPoP binding is refused. -/
def signRefreshToken (subject : String) (jti sid : Uuid) (jkt : String) : Option RefreshTokenClaims :=
  if jkt = "" then none else some ⟨subject, jti, sid, jkt⟩

def classifyDependencyError : RedisError → AuthError
  | .deadlineExceeded => .dependencyTimeout
  | _ => .dependencyUnavailable

structure RotatedRefreshToken where
  newToken : RefreshTokenClaims
  newJTI : Uuid
  sid : String
  userID : String

/-- What `RotateRefreshToken` makes of the reply of the script. -/
def rotationResult (newToken : RefreshTokenClaims) :
    Except RedisError (List String) → Except AuthError RotatedRefreshToken
  | .error e => .error (classifyDependencyError e)
  | .ok (status :: sid :: userID :: _) =>
    if status = "OK" then .ok ⟨newToken, newToken.jti, sid, userID⟩
    else if status = "NOT_FOUND" then .error .invalidGrant
    else if status = "REVOKED" ∨ status = "LINEAGE_REVOKED" then .error .refreshTokenRevoked
    else if status = "REUSED" then .error .refreshTokenReused
    else .error .invalidGrant
  | .ok _ => .error .invalidGrant

/-- The script call of a rotation: the claims name both keys and the first arguments. -/
def rotateCall (r : RefreshConfig) (claims : RefreshTokenClaims) (newJti : Uuid) (now : Int) :
    Script (List String) :=
  rotateRefreshTokenScript r (r.tokenKey claims.jti.text) (r.lineageKey claims.sid.text)
    claims.sid.text newJti.text claims.subject claims.jkt (toString now)

/-- `RotateRefreshToken` with the signing key found, the UUID drawn and the clock read. -/
def rotateRefreshToken (r : RefreshConfig) (key : Option String) (claims : RefreshTokenClaims)
    (newJti : Uuid) (now : Int) (s : Server) : Except AuthError RotatedRefreshToken × Server :=
  match key with
  | none => (.error .rotationFailed, s)
  | some _ =>
    match signRefreshToken claims.subject newJti claims.sid claims.jkt with
    | none => (.error .rotationFailed, s)
    | some newToken =>
      let (reply, s') := Script.exec (rotateCall r claims newJti now) s
      (rotationResult newToken reply, s')

/-- `IssueRefreshToken`; `sid` is the caller's, or else the one drawn. -/
def issueRefreshToken (r : RefreshConfig) (key : Option String) (subject jkt : String)
    (sid : Option Uuid) (jti drawn : Uuid) (now : Int) (s : Server) :
    Except AuthError RefreshTokenClaims × Server :=
  match key with
  | none => (.error .rotationFailed, s)
  | some _ =>
    let sid := sid.getD drawn
    match signRefreshToken subject jti sid jkt with
    | none => (.error .rotationFailed, s)
    | some token =>
      match Script.exec (issueRefreshTokenScript r sid.text jti.text subject jkt (toString now)) s with
      | (.error e, s') => (.error (classifyDependencyError e), s')
      | (.ok _, s') => (.ok token, s')

/-- The calls of `cache.Cache` that revocation and listing make. -/
inductive CacheCmd where
  | hset (key : String) (fields : List (String × String))
  | expire (key : String) (seconds : Nat)
  | hgetall (key : String)
  | smembers (key : String)
  | zrem (key member : String)
  | zrevrange (key : String)

abbrev CacheReply : CacheCmd → Type
  | .hset _ _ => Except RedisError Unit
  | .expire _ _ => Except RedisError Unit
  | .hgetall _ => Except RedisError Fields
  | .smembers _ => Except RedisError (List String)
  | .zrem _ _ => Except RedisError Unit
  | .zrevrange _ => Except RedisError (List String)

abbrev CacheProg (α : Type) := Prog CacheCmd CacheReply α

open Prog (perform)

def hGetAll (key : String) : CacheProg (Except RedisError Fields) := perform (CacheCmd.hgetall key)

def sMembers (key : String) : CacheProg (Except RedisError (List String)) := perform (CacheCmd.smembers key)

def zRem (key member : String) : CacheProg (Except RedisError Unit) := perform (CacheCmd.zrem key member)

/-- `ZRevRangeByScore` from `+inf` to `-inf` with no limit. -/
def zRevRange (key : String) : CacheProg (Except RedisError (List String)) := perform (CacheCmd.zrevrange key)

def hsetFields (key : String) (fields : List (String × String)) : CacheProg (Except RedisError Unit) :=
  perform (CacheCmd.hset key fields)

/-- `RedisCache.HSet`: the expiry is a second command, and none without a lifetime. -/
def hSet (key : String) (fields : List (String × String)) (ttl : Nat) :
    CacheProg (Except RedisError Unit) := do
  match ← hsetFields key fields with
  | .error e => return .error e
  | .ok () => if 0 < ttl then perform (CacheCmd.expire key ttl) else return .ok ()

structure RefreshTokenRecord where
  userID : String
  lineageID : String
  jkt : String
  used : Bool
  revoked : Bool
  createdAt : Int

/-- A field a Go map does not hold reads as the empty string. -/
def field (f : Fields) (name : String) : String := (f.lookup name).getD ""

def toRecord (f : Fields) : RefreshTokenRecord where
  userID := field f "user_id"
  lineageID := field f "sid"
  jkt := field f "jkt"
  used := field f "status" == "consumed"
  revoked := field f "status" == "revoked"
  createdAt := (tonumber (field f "created_at")).getD 0

def getRecord (r : RefreshConfig) (jti : String) : CacheProg (Except AuthError RefreshTokenRecord) := do
  match ← hGetAll (r.tokenKey jti) with
  | .error e => return .error (.redis e)
  | .ok f => if f.entries.isEmpty then return .error .cacheNotFound else return .ok (toRecord f)

/-- The loop of `RevokeLineage` over the members; it stops at the first failed write. -/
def markMembers (r : RefreshConfig) : List String → CacheProg (Except RedisError Unit)
  | [] => return .ok ()
  | jti :: rest => do
    match ← hSet (r.tokenKey jti) [("status", "revoked")] 0 with
    | .error e => return .error e
    | .ok () => markMembers r rest

/-- Index removal goes by the record of the first member, and its errors are dropped. -/
def unindexLineage (r : RefreshConfig) (lineageID : String) (members : List String) :
    CacheProg Unit := do
  match members with
  | [] => return ()
  | first :: _ =>
    match ← getRecord r first with
    | .error _ => return ()
    | .ok rec =>
      if rec.userID = "" then return ()
      else
        let _ ← zRem (r.userKey rec.userID) lineageID
        return ()

def revokeLineage (r : RefreshConfig) (lineageID : String) : CacheProg (Except RedisError Unit) := do
  if lineageID = "" then return .ok ()
  else
    match ← hSet (r.lineageKey lineageID) [("status", "revoked")] 0 with
    | .error e => return .error e
    | .ok () =>
      match ← sMembers (r.lineageMembersKey lineageID) with
      | .error e => return .error e
      | .ok members =>
        match ← markMembers r members with
        | .error e => return .error e
        | .ok () =>
          unindexLineage r lineageID members
          let _ ← zRem r.sessionsKey lineageID
          return .ok ()

structure AdminSession where
  lineageId : String
  userId : String
  createdAt : Int
  used : Bool
  revoked : Bool
  jkt : String
  tokens : Nat

/-- A lineage is loaded through whichever member the set lists first. -/
def sessionFromLineage (r : RefreshConfig) (lineageID : String) :
    CacheProg (Except AuthError (Option AdminSession)) := do
  match ← sMembers (r.lineageMembersKey lineageID) with
  | .error e => return .error (.redis e)
  | .ok [] => return .ok none
  | .ok (first :: others) =>
    match ← getRecord r first with
    | .error e => return .error e
    | .ok rec => return .ok (some
        ⟨lineageID, rec.userID, rec.createdAt, rec.used, rec.revoked, rec.jkt, others.length + 1⟩)

/-- The loop of `ListSessionsByUser`: a lineage that does not load is left out. -/
def loadSessions (r : RefreshConfig) : List String → CacheProg (List AdminSession)
  | [] => return []
  | lg :: rest => do
    match ← sessionFromLineage r lg with
    | .ok (some session) =>
      let out ← loadSessions r rest
      return session :: out
    | _ => loadSessions r rest

def listSessionsByUser (r : RefreshConfig) (userId : String) :
    CacheProg (Except RedisError (List AdminSession)) := do
  match ← zRevRange (r.userKey userId) with
  | .error e => return .error e
  | .ok lineages => return .ok (← loadSessions r lineages)

def revokeSessions (r : RefreshConfig) : List AdminSession → CacheProg (Except RedisError Unit)
  | [] => return .ok ()
  | session :: rest => do
    match ← revokeLineage r session.lineageId with
    | .error e => return .error e
    | .ok () => revokeSessions r rest

def revokeUserSessions (r : RefreshConfig) (userId : String) : CacheProg (Except RedisError Unit) := do
  match ← listSessionsByUser r userId with
  | .error e => return .error e
  | .ok sessions => revokeSessions r sessions

end Chinwag.Auth

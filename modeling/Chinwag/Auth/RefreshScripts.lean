import Chinwag.Lib.Redis
import Chinwag.Auth.RefreshKeys

/-!
# The issue and rotation scripts

Both are transcribed command by command. The lifetime and the prefix are the
service's own; identifiers, thumbprint and creation time are the script's arguments.
-/
namespace Chinwag.Auth

open Redis

/-- The five fields both scripts write into token and lineage hashes. -/
def activeFields (sid userID jkt createdAt : String) : List (String × String) :=
  [("sid", sid), ("user_id", userID), ("jkt", jkt), ("status", "active"), ("created_at", createdAt)]

def issueRefreshTokenScript (r : RefreshConfig) (sid jti userID jkt createdAt : String) :
    Script String := do
  hset (r.tokenKey jti) (activeFields sid userID jkt createdAt)
  pexpire (r.tokenKey jti) (r.ttl * 1000)
  hset (r.lineageKey sid) (activeFields sid userID jkt createdAt)
  pexpire (r.lineageKey sid) (r.ttl * 1000)
  sadd (r.lineageMembersKey sid) jti
  expire (r.lineageMembersKey sid) r.ttl
  zadd (r.userKey userID) (tonumber createdAt) sid
  zadd r.sessionsKey (tonumber createdAt) sid
  return "OK"

/-- The loop of the reuse branch: every member is marked revoked. -/
def revokeMembers (r : RefreshConfig) : List String → Script Unit
  | [] => return ()
  | jti :: rest => do
    hset (r.tokenKey jti) [("status", "revoked")]
    revokeMembers r rest

/-- The record may name no user; then only the global index is cleaned. -/
def unindexUser (r : RefreshConfig) (sid : String) : Option String → Script Unit
  | some u => if u = "" then return () else zrem (r.userKey u) sid
  | none => return ()

/-- Reuse of a rotated token revokes its whole lineage in the same step. -/
def revokeReused (r : RefreshConfig) (sid : String) (userID : Option String) : Script Unit := do
  hset (r.lineageKey sid) [("status", "revoked")]
  let members ← smembers (r.lineageMembersKey sid)
  revokeMembers r members
  unindexUser r sid userID
  zrem r.sessionsKey sid

/-- The lineage keeps its first creation time; a lineage without one takes the token's. -/
def lineageCreatedAt (lin cur : Fields) : Option String :=
  match lin.lookup "created_at" with
  | some t => if t = "" then cur.lookup "created_at" else some t
  | none => cur.lookup "created_at"

/-- The part of the rotation after the checks. -/
def rotateActive (r : RefreshConfig) (key1 key2 : String) (cur lin : Fields)
    (sid newJti userID jkt createdAt : String) : Script (List String) := do
  hset key1 [("status", "consumed")]
  pexpire key1 (r.ttl * 1000)
  hset (r.tokenKey newJti) (activeFields sid userID jkt createdAt)
  pexpire (r.tokenKey newJti) (r.ttl * 1000)
  match lineageCreatedAt lin cur with
  | none => throw .notNumber
  | some created =>
    hset key2 (activeFields sid userID jkt created)
    pexpire key2 (r.ttl * 1000)
    sadd (r.lineageMembersKey sid) newJti
    expire (r.lineageMembersKey sid) r.ttl
    zadd (r.userKey userID) (tonumber created) sid
    zadd r.sessionsKey (tonumber created) sid
    return luaArray [some "OK", cur.lookup "sid", some userID]

def rotateRefreshTokenScript (r : RefreshConfig) (key1 key2 : String)
    (sid newJti userID jkt createdAt : String) : Script (List String) := do
  let cur ← hgetall key1
  if cur.entries.isEmpty then
    return ["NOT_FOUND", "", ""]
  else if cur.lookup "status" = some "revoked" then
    return luaArray [some "REVOKED", cur.lookup "sid", cur.lookup "user_id"]
  else if cur.lookup "status" = some "consumed" then
    match cur.lookup "sid" with
    | some s => if s = "" then pure () else revokeReused r s (cur.lookup "user_id")
    | none => pure ()
    return luaArray [some "REUSED", cur.lookup "sid", cur.lookup "user_id"]
  else
    let lin ← hgetall key2
    if lin.lookup "status" = some "revoked" then
      return luaArray [some "LINEAGE_REVOKED", cur.lookup "sid", cur.lookup "user_id"]
    else
      rotateActive r key1 key2 cur lin sid newJti userID jkt createdAt

end Chinwag.Auth

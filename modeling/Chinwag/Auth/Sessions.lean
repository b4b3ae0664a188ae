import Chinwag.Lib.Program
import Chinwag.Auth.RefreshEffects

/-!
# The session system

Redis, the refresh tokens minted so far, and the calls that reach Redis. Issue and
rotation are one step each; a revocation is a thread whose commands interleave with
everything else. A call may also fail, before or after the server has acted.
-/
namespace Chinwag.Auth

open Redis Script Program

structure Sessions where
  redis : Server
  minted : List RefreshTokenClaims

variable (r : RefreshConfig)

/-- A token UUID never drawn before. -/
def FreshJti (s : Sessions) (jti : Uuid) : Prop := ∀ c ∈ s.minted, c.jti ≠ jti

/-- A lineage UUID never drawn before, and so under no key. -/
structure FreshSid (s : Sessions) (sid : Uuid) : Prop where
  unused : ∀ c ∈ s.minted, c.sid ≠ sid
  lineage : s.redis.data (r.lineageKey sid.text) = none
  members : s.redis.data (r.lineageMembersKey sid.text) = none

inductive Event where
  | issue (result : Except AuthError RefreshTokenClaims)
  | rotate (claims : RefreshTokenClaims) (result : Except AuthError RotatedRefreshToken)
  | pass (ms : Nat)

/-- The tokens a call handed out. -/
def issuedTokens : Except AuthError RefreshTokenClaims → List RefreshTokenClaims
  | .ok token => [token]
  | .error _ => []

def rotatedTokens : Except AuthError RotatedRefreshToken → List RefreshTokenClaims
  | .ok rotated => [rotated.newToken]
  | .error _ => []

/-- Any minted token may be presented at any time and any number of times. -/
inductive Env (r : RefreshConfig) : Sessions → Event → Sessions → Prop where
  | issue {s : Sessions} {key : Option String} {subject jkt : String} {sid : Option Uuid}
      {jti drawn : Uuid} {now : Int} {result : Except AuthError RefreshTokenClaims} {redis : Server}
      (hjti : FreshJti s jti) (hsid : FreshSid r s (sid.getD drawn))
      (h : issueRefreshToken r key subject jkt sid jti drawn now s.redis = (result, redis)) :
      Env r s (.issue result) ⟨redis, s.minted ++ issuedTokens result⟩
  | rotate {s : Sessions} {key : Option String} {claims : RefreshTokenClaims} {newJti : Uuid}
      {now : Int} {result : Except AuthError RotatedRefreshToken} {redis : Server}
      (hminted : claims ∈ s.minted) (hjti : FreshJti s newJti)
      (h : rotateRefreshToken r key claims newJti now s.redis = (result, redis)) :
      Env r s (.rotate claims result) ⟨redis, s.minted ++ rotatedTokens result⟩
  | pass {s : Sessions} (ms : Nat) : Env r s (.pass ms) ⟨s.redis.after ms, s.minted⟩

/-- A command as the server runs it. -/
def serve : (c : CacheCmd) → Server → CacheReply c × Server
  | .hset key fields, s => exec (hset key fields) s
  | .expire key seconds, s => exec (expire key seconds) s
  | .hgetall key, s => exec (hgetall key) s
  | .smembers key, s => exec (smembers key) s
  | .zrem key member, s => exec (zrem key member) s
  | .zrevrange key, s => exec (zrevrange key) s

/-- A set has no order: its members may come back in any. -/
def Reordered : (c : CacheCmd) → CacheReply c → CacheReply c → Prop
  | .smembers _, .ok stored, .ok sent => stored.Perm sent
  | .smembers _, .error e, sent => sent = .error e
  | .smembers _, .ok _, .error _ => False
  | .hset _ _, stored, sent => sent = stored
  | .expire _ _, stored, sent => sent = stored
  | .hgetall _, stored, sent => sent = stored
  | .zrem _ _, stored, sent => sent = stored
  | .zrevrange _, stored, sent => sent = stored

def failed : (c : CacheCmd) → RedisError → CacheReply c
  | .hset _ _, e => .error e
  | .expire _ _, e => .error e
  | .hgetall _, e => .error e
  | .smembers _, e => .error e
  | .zrem _ _, e => .error e
  | .zrevrange _, e => .error e

/-- The command reached the server and its reply reached the caller. -/
def Answered (c : CacheCmd) (s : Sessions) (reply : CacheReply c) (t : Sessions) : Prop :=
  Reordered c (serve c s.redis).1 reply ∧ t = ⟨(serve c s.redis).2, s.minted⟩

/-- A failed call may have been carried out all the same. -/
def Failed (c : CacheCmd) (s : Sessions) (reply : CacheReply c) (t : Sessions) : Prop :=
  (∃ e, reply = failed c e) ∧ (t = s ∨ t = ⟨(serve c s.redis).2, s.minted⟩)

def sessionSemantics : Semantics Sessions Event CacheCmd CacheReply where
  exec _ c s reply t := Answered c s reply t ∨ Failed c s reply t
  env := Env r

/-- Threads are calls of `RevokeLineage`, of any identifier. -/
def RevokeCall (p : CacheProg (Except RedisError Unit)) : Prop :=
  ∃ lineageID, p = revokeLineage r lineageID

abbrev SessionPool := Pool Sessions CacheCmd CacheReply (Except RedisError Unit)

abbrev SessionLabel := Label Event CacheCmd CacheReply (Except RedisError Unit)

abbrev SessionStep : SessionPool → SessionLabel → SessionPool → Prop :=
  Step (sessionSemantics r) (RevokeCall r)

/-- Nothing under the prefix, no token minted, no call in progress. -/
def SessionInit (pool : SessionPool) : Prop :=
  (∀ suffix, pool.shared.redis.data (r.refreshTokenPrefix ++ suffix) = none) ∧ pool.shared.minted = [] ∧ pool.threads = []

end Chinwag.Auth

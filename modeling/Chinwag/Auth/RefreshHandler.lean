import Chinwag.Auth.Responses
import Chinwag.Dpop.Validator

/-!
# The refresh handler

`Refresh` as a program of the calls it makes: the proof check, the token check, the lock,
the rotation, and then the user and the access token.
-/
namespace Chinwag.Auth

open Users Redis Program Dpop

inductive RefreshCmd where
  | validateProof
  | thumbprint (key : EcKey)
  | validateRefreshToken (rawToken jkt : String)
  | acquireLock (cookie : String) (lockToken : Uuid)
  | rotateRefreshToken (claims : RefreshTokenClaims)
  | getUser (id : String)
  | newAccessToken (userId : String) (role : Role) (jkt : String)
  | releaseLock (cookie : String) (lockToken : Uuid)
  | newV7

abbrev RefreshReply : RefreshCmd → Type
  | .validateProof => Verdict
  | .thumbprint _ => Option String
  | .validateRefreshToken _ _ => Except AppError RefreshTokenClaims
  | .acquireLock _ _ => Except RedisError Bool
  | .rotateRefreshToken _ => Except AuthError RotatedRefreshToken
  | .getUser _ => Except DbError User
  | .newAccessToken _ _ _ => Except ServiceError AccessClaims
  | .releaseLock _ _ => Except RedisError Unit
  | .newV7 => Uuid

abbrev RefreshProg (α : Type) := Prog RefreshCmd RefreshReply α

open Prog (perform)

/-- `dependencyError`: a deadline and any other failure give the same response. -/
def dependencyError : RedisError → Response
  | .deadlineExceeded => .ofError (.app errDependencyTimeout)
  | _ => .ofError (.app errDependencyUnavailable)

def bindingMismatch : Response := .error 401 "DPoP key does not match the bound refresh token"

/-- The part of `Refresh` after the point where the presented token is spent. -/
def grant (rotated : RotatedRefreshToken) (jkt : String) : RefreshProg Response := do
  match ← perform (RefreshCmd.getUser rotated.userID) with
  | .error _ => return .error 401 "account unavailable"
  | .ok user =>
    match ← perform (RefreshCmd.newAccessToken rotated.userID user.role jkt) with
    | .error e => return .ofError e
    | .ok token => return .tokens token rotated.newToken

/-- What is done while the lock is held. -/
def rotateAndGrant (claims : RefreshTokenClaims) (jkt : String) : RefreshProg Response := do
  match ← perform (RefreshCmd.rotateRefreshToken claims) with
  | .error e => return .ofError e.toServiceError
  | .ok rotated => grant rotated jkt

/-- The lock, what is done under it, and the deferred release, whose error is dropped. -/
def lockedRefresh (cookie : String) (claims : RefreshTokenClaims) (jkt : String) :
    RefreshProg Response := do
  let lockToken ← perform RefreshCmd.newV7
  match ← perform (RefreshCmd.acquireLock cookie lockToken) with
  | .error e => return dependencyError e
  | .ok false => return .error 429 "refresh in progress"
  | .ok true =>
    let response ← rotateAndGrant claims jkt
    let _ ← perform (RefreshCmd.releaseLock cookie lockToken)
    return response

/-- `RefreshHandlerImpl.Refresh` of a request with this refresh cookie. -/
def refresh (cookie : Option String) : RefreshProg Response := do
  match ← perform RefreshCmd.validateProof with
  | .unavailable e => return dependencyError e
  | .noIssuer => return .ofError (.app errDependencyUnavailable)
  | .rejected _ e => return .error e.status e.message
  | .accepted proof _ =>
    match ← perform (RefreshCmd.thumbprint proof.key) with
    | none => return .error 400 "failed to derive DPoP key thumbprint"
    | some jkt =>
      match cookie with
      | none => return .error 400 "missing refresh token"
      | some cookie =>
        match ← perform (RefreshCmd.validateRefreshToken cookie jkt) with
        | .error e =>
          if e = errRefreshTokenBindingMismatch then return bindingMismatch
          else return .ofError (.app e)
        | .ok claims => lockedRefresh cookie claims jkt

end Chinwag.Auth

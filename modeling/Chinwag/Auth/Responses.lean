import Chinwag.Auth.RefreshService
import Chinwag.Users.Table

/-!
# Errors and responses of the auth service

A handler answers with one of these; headers other than the refresh cookie are left out.
-/
namespace Chinwag.Auth

open Users Redis

structure AppError where
  status : Nat
  message : String
  deriving DecidableEq

def errConflict : AppError := ⟨409, "User already exists"⟩
def errNotFound : AppError := ⟨404, "User not found"⟩
def errCacheNotFound : AppError := ⟨404, "Cached data not found"⟩
def errInvalidCreds : AppError := ⟨400, "Invalid Credentials"⟩
def invalidAlgErr : AppError := ⟨400, "Algorithm invalid"⟩
def errRefreshTokenReused : AppError := ⟨401, "Refresh token reuse detected"⟩
def errRefreshTokenRevoked : AppError := ⟨401, "Refresh token revoked"⟩
def errInvalidRefreshToken : AppError := ⟨401, "Invalid refresh token"⟩
def errInvalidGrant : AppError := ⟨401, "Invalid grant"⟩
def errRefreshTokenBindingMismatch : AppError := ⟨401, "Refresh token DPoP binding mismatch"⟩
def errDependencyUnavailable : AppError := ⟨503, "Refresh service temporarily unavailable"⟩
def errDependencyTimeout : AppError := ⟨503, "Refresh service temporarily unavailable"⟩
def errRotationFailed : AppError := ⟨500, "Refresh rotation failed"⟩
def errInvalidRole : AppError := ⟨400, "Invalid role"⟩
def errSelfDemotion : AppError := ⟨400, "Cannot demote yourself"⟩
def errLastAdmin : AppError := ⟨409, "Cannot remove the last administrator"⟩

/-- An error as it reaches a handler: one of package `errs`, one of the database, or another. -/
inductive ServiceError where
  | app (e : AppError)
  | db (e : DbError)
  | other

/-- `errs.ParseError`. -/
def parseError : ServiceError → Nat × String
  | .app e => (e.status, e.message)
  | .db .noRows => (errNotFound.status, errNotFound.message)
  | .db .uniqueViolation => (errConflict.status, errConflict.message)
  | .db _ => (500, "Internal Server Error")
  | .other => (500, "Internal Server Error")

def AuthError.toServiceError : AuthError → ServiceError
  | .rotationFailed => .app errRotationFailed
  | .dependencyTimeout => .app errDependencyTimeout
  | .dependencyUnavailable => .app errDependencyUnavailable
  | .invalidGrant => .app errInvalidGrant
  | .refreshTokenRevoked => .app errRefreshTokenRevoked
  | .refreshTokenReused => .app errRefreshTokenReused
  | .cacheNotFound => .app errCacheNotFound
  | .redis _ => .other

/-- The claims of an access token. -/
structure AccessClaims where
  subject : String
  role : Role
  jkt : String
  deriving DecidableEq

structure UserResponse where
  id : String
  name : String
  email : String

/-- A user as administrators see it, without the password. -/
structure AdminUserResponse where
  id : String
  name : String
  email : String
  role : Role
  provider : String
  createdAt : Nat
  updatedAt : Nat
  deletedAt : Option Nat

inductive Response where
  | error (status : Nat) (message : String)
  | empty
  | user (u : UserResponse)
  | whoAmI (u : UserResponse) (role : Role)
  | adminUser (status : Nat) (u : AdminUserResponse)
  | redirect (path : String)
  | tokens (access : AccessClaims) (refresh : RefreshTokenClaims)

def Response.ofError (e : ServiceError) : Response :=
  .error (parseError e).1 (parseError e).2

end Chinwag.Auth

namespace Chinwag.Users

open Auth

def User.toProjection (u : User) : UserResponse := ⟨u.id, u.name, u.email⟩

def toAdminUser (u : User) : AdminUserResponse :=
  ⟨u.id, u.name, u.email, u.role, u.provider, u.createdAt, u.updatedAt, u.deletedAt⟩

end Chinwag.Users

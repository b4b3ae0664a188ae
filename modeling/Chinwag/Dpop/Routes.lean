import Chinwag.Dpop.Validator

/-!
# What a client is told of its proof

The shared middleware and the two handlers that issue tokens answer from the verdict of `Validate`.
A response is kept as far as `doFetch` reads it.
-/
namespace Chinwag.Handshake

open Dpop Program

def errorInvalidBinding : String := "invalid_token_binding"

/-- The status, the `code` of a JSON body where that is a text, and the `DPoP-Nonce` header. -/
structure Response where
  status : Nat
  code : Option String
  nonce : Option String

/-- `isUseNonceResponse`. -/
def isUseNonceResponse (res : Response) : Bool := res.status = 400 && res.code = some "use_dpop_nonce"

/-- `setDPoPNonce` of a handler: an empty nonce sets no header. -/
def nonceHeader (nonce : String) : Option String := if nonce = "" then none else some nonce

/-- What may end a request before anybody looks at its proof. -/
inductive Refusal where
  | gateway (status : Nat)
  | badToken
  | unboundToken
  | badBody

def Refusal.response : Refusal → Response
  | .gateway status => ⟨status, none, none⟩
  | .badToken => ⟨401, none, none⟩
  | .unboundToken => ⟨401, some errorInvalidBinding, none⟩
  | .badBody => ⟨400, none, none⟩

/-- What a valid proof is found to be good for. No handler sets the `code` of its own answer. -/
inductive Served where
  | noThumbprint
  | wrongKey
  | handled (status : Nat)

/-- `verifyDPoP` and `respondDPoPError` of the middleware, and the handler behind it. -/
def middleware (served : Served) : Verdict → Response
  | .rejected nonce e => ⟨e.status, some e.code, nonceHeader nonce⟩
  | .unavailable _ => ⟨500, some errorInvalidProof, none⟩
  | .noIssuer => ⟨500, some errorInvalidProof, none⟩
  | .accepted _ nonce =>
    match served with
    | .noThumbprint => ⟨400, some errorInvalidProof, nonceHeader nonce⟩
    | .wrongKey => ⟨401, some errorInvalidBinding, nonceHeader nonce⟩
    | .handled status => ⟨status, none, nonceHeader nonce⟩

/-- `respondDPoPError` of the auth handlers; an error of another type is reported as a bad proof. -/
def respondDPoPError (nonce : String) : Option DpopError → Response
  | some e => ⟨if e.status ≠ 0 then e.status else 400, some e.code, nonceHeader nonce⟩
  | none => ⟨400, some errorInvalidProof, nonceHeader nonce⟩

/-- `Login`; its tokens are bound to whatever key the proof is of. -/
def login (thumbprint : Bool) (status : Nat) : Verdict → Response
  | .rejected nonce e => respondDPoPError nonce (some e)
  | .unavailable _ => respondDPoPError "" none
  | .noIssuer => respondDPoPError "" none
  | .accepted _ nonce =>
    if thumbprint then ⟨status, none, nonceHeader nonce⟩
    else respondDPoPError nonce (some ⟨errorInvalidProof, 0, "failed to derive DPoP key thumbprint"⟩)

/-- `Refresh`; a store that is down is a dependency error. -/
def refresh (served : Served) : Verdict → Response
  | .rejected nonce e => respondDPoPError nonce (some e)
  | .unavailable _ => ⟨503, none, none⟩
  | .noIssuer => ⟨503, none, none⟩
  | .accepted _ nonce =>
    match served with
    | .noThumbprint => respondDPoPError nonce (some ⟨errorInvalidProof, 0, "failed to derive DPoP key thumbprint"⟩)
    | .wrongKey =>
      respondDPoPError nonce
        (some ⟨errorInvalidBinding, 401, "DPoP key does not match the bound refresh token"⟩)
    | .handled status => ⟨status, none, nonceHeader nonce⟩

inductive Route where
  | protectedRoute (served : Served)
  | login (thumbprint : Bool) (status : Nat)
  | refresh (served : Served)

def Route.respond : Route → Verdict → Response
  | .protectedRoute served => middleware served
  | .login thumbprint status => Handshake.login thumbprint status
  | .refresh served => Handshake.refresh served

/-- The verdict on the proof, where it was looked at, and the response. -/
structure Outcome where
  verdict : Option Verdict
  response : Response

def serve (lib : Libraries) (v : Validator) (route : Route) (r : Request) : DpopProg Outcome := do
  let verdict ← validate lib v r
  return ⟨some verdict, route.respond verdict⟩

/-- A service that begins to handle a request. -/
inductive Handles (lib : Libraries) (r : Request) : DpopProg Outcome → Prop where
  | refused (refusal : Refusal) : Handles lib r (.ret ⟨none, refusal.response⟩)
  | served (v : Validator) (route : Route) (hissues : v.issuesNonces = true) : Handles lib r (serve lib v route r)

def Outcome.passed (o : Outcome) : Prop := ∃ proof nonce, o.verdict = some (.accepted proof nonce)

theorem isUseNonce_iff (res : Response) :
    isUseNonceResponse res = true ↔ res.status = 400 ∧ res.code = some errorUseNonce := by
  simp [isUseNonceResponse, errorUseNonce]

theorem Refusal.not_useNonce (refusal : Refusal) : isUseNonceResponse refusal.response = false := by
  cases refusal with
  | gateway status => simp [isUseNonceResponse, Refusal.response]
  | badToken => rfl
  | unboundToken => rfl
  | badBody => rfl

/-- Only a rejected proof is answered with a challenge, and the challenge carries the nonce of the verdict. -/
theorem Route.useNonce {route : Route} {verdict : Verdict} (h : isUseNonceResponse (route.respond verdict) = true) :
    ∃ nonce e, verdict = .rejected nonce e ∧ e.code = errorUseNonce ∧
      (route.respond verdict).nonce = nonceHeader nonce := by
  have hcode := ((isUseNonce_iff _).mp h).2
  have hproof : (some errorInvalidProof : Option String) ≠ some errorUseNonce := by decide
  have hbinding : (some errorInvalidBinding : Option String) ≠ some errorUseNonce := by decide
  cases verdict with
  | rejected nonce e =>
    refine ⟨nonce, e, rfl, ?_, ?_⟩
    · cases route <;> exact Option.some.inj hcode
    · cases route <;> rfl
  | noIssuer => cases route <;> first | exact absurd hcode hproof | cases hcode
  | unavailable e =>
    cases route with
    | protectedRoute served => exact absurd hcode hproof
    | login thumbprint status => exact absurd hcode hproof
    | refresh served => cases hcode
  | accepted proof nonce =>
    have hserved : ∀ served, (middleware served (.accepted proof nonce)).code ≠ some errorUseNonce ∧
        (Handshake.refresh served (.accepted proof nonce)).code ≠ some errorUseNonce := by
      intro served
      cases served with
      | noThumbprint => exact ⟨hproof, hproof⟩
      | wrongKey => exact ⟨hbinding, hbinding⟩
      | handled status => exact ⟨Option.some_ne_none _ ∘ Eq.symm, Option.some_ne_none _ ∘ Eq.symm⟩
    cases route with
    | protectedRoute served => exact absurd hcode (hserved served).1
    | login thumbprint status =>
      cases thumbprint with
      | true => cases hcode
      | false => exact absurd hcode hproof
    | refresh served => exact absurd hcode (hserved served).2

end Chinwag.Handshake

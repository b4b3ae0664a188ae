import Chinwag.Lib.Json
import Chinwag.Lib.Program
import Chinwag.Lib.Redis

/-!
# DPoP proofs and their validation

A proof is a function of the header text: what base64, JSON and the key and signature
libraries make of it is a parameter. `Validate` is a program of the clock and of three
Redis calls, so other validations may run between any two of them.
-/
namespace Chinwag.Dpop

open Program Redis

/-- What `jwk.Export` fills in of an `ecdsa.PublicKey`. -/
structure EcKey where
  p256 : Bool
  x : Int
  y : Int

/-- `base64.RawURLEncoding`, `encoding/json` and `jwx`, with the error texts they give. -/
structure Libraries where
  decodeString : String → Except String String
  unmarshal : String → Except String Json
  mismatch : String
  parseKey : Json → Except String EcKey
  isOnCurve : EcKey → Bool
  verify : String → EcKey → Bool

structure ProofHeader where
  typ : String
  alg : String
  jwk : Option Json

structure ProofClaims where
  jti : String
  htm : String
  htu : String
  iat : Int
  nonce : String

structure Proof where
  raw : String
  header : ProofHeader
  claims : ProofClaims
  key : EcKey

def ProofHeader.decode (v : Json) : Option ProofHeader := do
  let fields ← v.asStruct
  let typ ← Json.stringField "typ" fields
  let alg ← Json.stringField "alg" fields
  return ⟨typ, alg, Json.rawField "jwk" fields⟩

def ProofClaims.decode (v : Json) : Option ProofClaims := do
  let fields ← v.asStruct
  let jti ← Json.stringField "jti" fields
  let htm ← Json.stringField "htm" fields
  let htu ← Json.stringField "htu" fields
  let iat ← Json.int64Field "iat" fields
  let nonce ← Json.stringField "nonce" fields
  return ⟨jti, htm, htu, iat, nonce⟩

/-- An error wrapped with a text in front, as `fmt.Errorf` does with `%w`. -/
def wrap {α : Type} (text : String) : Except String α → Except String α
  | .ok a => .ok a
  | .error e => .error (text ++ e)

section Parsing

variable (lib : Libraries)

/-- `json.Unmarshal` into a struct. -/
def unmarshalInto {α : Type} (decode : Json → Option α) (text : String) : Except String α := do
  let v ← lib.unmarshal text
  match decode v with
  | none => throw lib.mismatch
  | some a => return a

def parsePublicKey (raw : Json) : Except String EcKey := do
  let pub ← lib.parseKey raw
  if ¬ pub.p256 then throw "unsupported curve, expected P-256"
  else if pub.x ≤ 0 ∨ pub.y ≤ 0 then throw "invalid public key point"
  else if ¬ lib.isOnCurve pub then throw "public key point not on curve"
  else return pub

/-- `strings.Split(raw, ".")`. -/
def splitDots (raw : String) : List String := (raw.toList.splitOn '.').map String.ofList

def parseProof (raw : String) : Except String Proof := do
  match splitDots raw with
  | [header, payload, _] =>
    let headerJSON ← wrap "decode header: " (lib.decodeString header)
    let payloadJSON ← wrap "decode payload: " (lib.decodeString payload)
    let hdr ← wrap "parse header: " (unmarshalInto lib ProofHeader.decode headerJSON)
    if hdr.typ ≠ "dpop+jwt" then throw "unexpected typ header"
    else if hdr.alg ≠ "ES256" then throw ("unexpected alg header " ++ hdr.alg.quote)
    else
      match hdr.jwk with
      | none => throw "missing jwk header"
      | some jwk =>
        let key ← wrap "parse jwk: " (parsePublicKey lib jwk)
        let claims ← wrap "parse claims: " (unmarshalInto lib ProofClaims.decode payloadJSON)
        return ⟨raw, hdr, claims, key⟩
  | _ => throw "invalid compact JWS"

end Parsing

/-- `time.Second`, in the nanoseconds clocks and durations are given in. -/
def second : Int := 1000000000

/-- `Proof.Validate`. -/
def Proof.validate (p : Proof) (method htu : String) (now maxAge futureSkew : Int) :
    Except String Unit :=
  if p.claims.jti = "" then throw "missing jti claim"
  else if p.claims.iat = 0 then throw "missing iat claim"
  else if Json.foldName p.claims.htm ≠ Json.foldName method then
    throw ("htm mismatch: " ++ p.claims.htm.quote ++ " != " ++ method.quote)
  else if p.claims.htu = "" ∨ p.claims.htu ≠ htu then
    throw ("htu mismatch: " ++ p.claims.htu.quote ++ " != " ++ htu.quote)
  else if now + futureSkew < p.claims.iat * second then throw "iat too far in the future"
  else if maxAge < now - p.claims.iat * second then throw "proof expired"
  else return ()

/-- The request as far as a proof is checked against it; an absent header reads as empty. -/
structure Request where
  method : String
  dpop : String
  forwardedProto : String
  forwardedHost : String
  forwardedPrefix : String
  tls : Bool
  host : String
  path : String

def Request.htu (r : Request) : String :=
  let proto := if r.forwardedProto = "" then (if r.tls then "https" else "http") else r.forwardedProto
  let host := if r.forwardedHost = "" then r.host else r.forwardedHost
  proto ++ "://" ++ host ++ r.forwardedPrefix ++ r.path

structure DpopError where
  code : String
  status : Nat
  message : String

def errorUseNonce : String := "use_dpop_nonce"

def errorInvalidProof : String := "invalid_dpop_proof"

def errMissingProof : DpopError := ⟨errorUseNonce, 400, "DPoP proof is required"⟩

def errMissingNonce : DpopError := ⟨errorUseNonce, 400, "missing DPoP nonce"⟩

def errInvalidNonce : DpopError := ⟨errorUseNonce, 400, "invalid or expired DPoP nonce"⟩

def errReplay : DpopError := ⟨errorInvalidProof, 400, "DPoP proof replay detected"⟩

structure Validator where
  nonceStore : Bool
  issuesNonces : Bool
  proofMaxAge : Int
  futureSkew : Int
  jtiTTL : Int

/-- `setDefaults`. -/
def Validator.setDefaults (v : Validator) : Validator :=
  { v with
    proofMaxAge := if v.proofMaxAge ≤ 0 then 60 * second else v.proofMaxAge
    futureSkew := if v.futureSkew ≤ 0 then 60 * second else v.futureSkew
    jtiTTL := if v.jtiTTL ≤ 0 then 120 * second else v.jtiTTL }

/-- The clock and the Redis calls of a validation. -/
inductive DpopCmd where
  | now
  | consumeNonce (nonce : String)
  | reserveJti (jti : String) (ttl : Int)
  | issueNonce

abbrev DpopReply : DpopCmd → Type
  | .now => Int
  | .consumeNonce _ => Except RedisError Bool
  | .reserveJti _ _ => Except RedisError Bool
  | .issueNonce => Except RedisError String

abbrev DpopProg (α : Type) := Prog DpopCmd DpopReply α

open Prog (perform)

/-- What `Validate` returns: a proof and a fresh nonce, an `*Error` with a nonce to go on with,
or the plain error of a store that is down. -/
inductive Verdict where
  | accepted (proof : Proof) (nonce : String)
  | rejected (nonce : String) (e : DpopError)
  | noIssuer
  | unavailable (e : RedisError)

/-- `issueOrEmpty`: a nonce that could not be stored is the empty one. -/
def issueOrEmpty (v : Validator) : DpopProg String := do
  if v.issuesNonces then
    match ← perform DpopCmd.issueNonce with
    | .ok nonce => return nonce
    | .error _ => return ""
  else return ""

def reject (v : Validator) (e : DpopError) : DpopProg Verdict := do
  let nonce ← issueOrEmpty v
  return .rejected nonce e

/-- The end of `Validate`: the nonce for the next request. -/
def accept (v : Validator) (proof : Proof) : DpopProg Verdict := do
  if v.issuesNonces then
    match ← perform DpopCmd.issueNonce with
    | .ok nonce => return .accepted proof nonce
    | .error e => return .unavailable e
  else return .noIssuer

/-- The nonce and the replay check. -/
def spend (v : Validator) (proof : Proof) : DpopProg Verdict := do
  if proof.claims.nonce = "" then reject v errMissingNonce
  else
    match ← perform (DpopCmd.consumeNonce proof.claims.nonce) with
    | .error e => return .unavailable e
    | .ok false => reject v errInvalidNonce
    | .ok true =>
      match ← perform (DpopCmd.reserveJti proof.claims.jti v.jtiTTL) with
      | .error e => return .unavailable e
      | .ok false => reject v errReplay
      | .ok true => accept v proof

/-- The checks that need the clock, and the signature. -/
def checkProof (lib : Libraries) (v : Validator) (r : Request) (proof : Proof) (now : Int) :
    DpopProg Verdict :=
  match proof.validate r.method r.htu now v.proofMaxAge v.futureSkew with
  | .error e => reject v ⟨errorInvalidProof, 400, e⟩
  | .ok () =>
    if ¬ lib.verify proof.raw proof.key then
      reject v ⟨errorInvalidProof, 400, "invalid DPoP proof signature"⟩
    else if v.nonceStore then spend v proof
    else accept v proof

def validateWith (lib : Libraries) (v : Validator) (r : Request) : DpopProg Verdict := do
  if r.dpop = "" then reject v errMissingProof
  else
    match parseProof lib r.dpop with
    | .error e => reject v ⟨errorInvalidProof, 400, "invalid DPoP proof: " ++ e⟩
    | .ok proof =>
      let now ← perform DpopCmd.now
      checkProof lib v r proof now

/-- `Validator.Validate`. -/
def validate (lib : Libraries) (v : Validator) (r : Request) : DpopProg Verdict :=
  validateWith lib v.setDefaults r

end Chinwag.Dpop

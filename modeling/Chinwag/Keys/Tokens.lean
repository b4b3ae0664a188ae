/-!
# Signed tokens and JWK sets

A token is its protected header, its claims and the private key that signed both; a missing text
claim is the empty text. Keys, their encodings and the signature check belong to libraries and
stay parameters. Times are nanoseconds, those inside a token Unix seconds.
-/
namespace Chinwag.Keys

/-- An entry of a JWK set. `jwk.Import` and `jwk.Export` are inverse on ECDSA public keys. -/
structure Jwk (PublicKey : Type) where
  kid : String
  use : String
  alg : String
  key : PublicKey

/-- P-256 keys, their base64 encodings, and the two checks made by the token libraries. -/
structure KeyLib where
  PrivateKey : Type
  PublicKey : Type
  publicKey : PrivateKey → PublicKey
  encodePublicKey : PublicKey → Except String String
  encodePrivateKey : PrivateKey → Except String String
  decodePublicKey : String → Except String PublicKey
  decodePrivateKey : String → Except String PrivateKey
  /-- Whether a signature made with the private key passes under the public key. -/
  verifies : PublicKey → PrivateKey → Bool
  /-- Whether `AddKey` finds the key in the set already. -/
  holds : List (Jwk PublicKey) → Jwk PublicKey → Bool

/-- What the code relies on: encodings can be read back, and a signature passes under its own key. -/
structure KeyLib.Lawful (L : KeyLib) : Prop where
  decode_public : ∀ pub raw, L.encodePublicKey pub = .ok raw → L.decodePublicKey raw = .ok pub
  decode_private : ∀ priv raw, L.encodePrivateKey priv = .ok raw → L.decodePrivateKey raw = .ok priv
  verifies_own : ∀ priv, L.verifies (L.publicKey priv) priv = true

def second : Nat := 1000000000

def minute : Nat := 60 * second

def hour : Nat := 60 * minute

def unix (t : Nat) : Nat := t / second

structure TokenClaims where
  iss : String
  sub : String
  aud : List String
  iat : Option Nat
  exp : Option Nat
  jti : String
  sid : String
  role : String
  jkt : String
  deriving DecidableEq

variable {L : KeyLib}

structure Token (L : KeyLib) where
  alg : String
  kid : Option String
  claims : TokenClaims
  signer : L.PrivateKey

section Refresh

def refreshTokenIssuer : String := "chinwag-auth"

def refreshTokenAudience : String := "chinwag"

def signRefreshToken (subject jti sid jkt : String) (privateKey : L.PrivateKey) (kid : String)
    (now ttl : Nat) : Except String (Token L) :=
  if jkt = "" then .error "refresh token requires a DPoP jkt binding"
  else .ok {
    alg := "ES256"
    kid := some kid
    claims := {
      iss := refreshTokenIssuer
      sub := subject
      aud := [refreshTokenAudience]
      iat := some (unix now)
      exp := some (unix (now + ttl))
      jti := jti
      sid := sid
      role := ""
      jkt := jkt }
    signer := privateKey }

/-- `jwt.WithValidate` for `iat` and `exp`; it compares whole seconds. -/
def TokenClaims.timely (c : TokenClaims) (now : Nat) : Bool :=
  c.iat.all (· ≤ unix now) && c.exp.all (unix now < ·)

structure VerifiedRefreshToken where
  subject : String
  jti : String
  sid : String
  jkt : String
  issuedAt : Option Nat
  expires : Option Nat

def verifyRefreshToken (tok : Token L) (pub : L.PublicKey) (now : Nat) :
    Except String (VerifiedRefreshToken × String) :=
  if tok.alg ≠ "ES256" then .error "unexpected refresh token alg"
  else if tok.kid.getD "" = "" then .error "refresh token missing kid"
  else if L.verifies pub tok.signer = false then .error "invalid refresh token signature"
  else if tok.claims.timely now = false ∨ tok.claims.iss ≠ refreshTokenIssuer ∨
      refreshTokenAudience ∉ tok.claims.aud then .error "invalid refresh token claims"
  else if tok.claims.jti = "" then .error "refresh token missing jti"
  else if tok.claims.sid = "" then .error "refresh token missing sid"
  else if tok.claims.sub = "" then .error "refresh token missing sub"
  else .ok (⟨tok.claims.sub, tok.claims.jti, tok.claims.sid, tok.claims.jkt, tok.claims.iat,
    tok.claims.exp⟩, tok.kid.getD "")

end Refresh

section Access

/-- The clock is read once for `iat` and once for `exp`. -/
def signWithCNF (subject role : String) (privateKey : L.PrivateKey) (kid jkt : String)
    (issued signed : Nat) : Token L where
  alg := "ES256"
  kid := some kid
  claims := {
    iss := "github.com/Sephy314/Chinwag"
    sub := subject
    aud := []
    iat := some (unix issued)
    exp := some (unix (signed + 15 * minute))
    jti := ""
    sid := ""
    role := role
    jkt := jkt }
  signer := privateKey

/-- The key set object `jwk.Set`. -/
structure JwkSet (L : KeyLib) where
  entries : List (Jwk L.PublicKey)

namespace JwkSet

def empty : JwkSet L := ⟨[]⟩

/-- `Set.Keys()` of jwx v3 lists the private parameters of the set, of which there are none. -/
def keys (_ : JwkSet L) : List String := []

def addKey (set : JwkSet L) (key : Jwk L.PublicKey) : Except String (JwkSet L) :=
  if L.holds set.entries key then .error "key already exists" else .ok ⟨set.entries ++ [key]⟩

def lookupKeyID (set : JwkSet L) (kid : String) : Option (Jwk L.PublicKey) :=
  set.entries.find? fun k => k.kid == kid

end JwkSet

/-- The JWKS client of a resource service. Its cache is stale from the start. -/
structure JWKSClient (L : KeyLib) where
  set : JwkSet L
  loadedAt : Option Nat
  cacheTTL : Nat

namespace JWKSClient

def expired (c : JWKSClient L) (now : Nat) : Bool :=
  match c.loadedAt with
  | none => true
  | some t => c.cacheTTL < now - t

/-- The key of a kid, given what the JWKS endpoint answers if it is asked. -/
def getKey (c : JWKSClient L) (now : Nat) (endpoint : Except String (JwkSet L)) (kid : String) :
    Except String L.PublicKey × JWKSClient L :=
  match c.set.lookupKeyID kid, c.expired now with
  | some key, false => (.ok key.key, c)
  | _, _ =>
    match endpoint with
    | .error e =>
      match c.set.lookupKeyID kid with
      | some key => (.ok key.key, c)
      | none => (.error ("failed to refresh JWKS and key " ++ kid ++ " not found in cache: " ++ e), c)
    | .ok set =>
      match set.lookupKeyID kid with
      | some key => (.ok key.key, { c with set := set, loadedAt := some now })
      | none =>
        (.error ("key " ++ kid ++ " not found in JWKS"), { c with set := set, loadedAt := some now })

end JWKSClient

/-- The algorithms of `jwt.SigningMethodECDSA`. -/
def ecdsaMethods : List String := ["ES256", "ES384", "ES512"]

/-- `KeyFunc`, over a way to look up keys. -/
def keyFunc (getKey : String → Except String L.PublicKey) (tok : Token L) :
    Except String L.PublicKey :=
  if tok.alg ∉ ecdsaMethods then .error ("unexpected signing method: " ++ tok.alg)
  else match tok.kid with
    | none => .error "missing kid in token header"
    | some kid => getKey kid

/-- `jwt.ParseWithClaims`: the key, the signature, and that the token has not expired. -/
def parseWithClaims (tok : Token L) (key : Token L → Except String L.PublicKey) (now : Nat) :
    Except String TokenClaims :=
  match key tok with
  | .error e => .error e
  | .ok pub =>
    if L.verifies pub tok.signer = false then .error "token signature is invalid"
    else if tok.claims.exp.any (· ≤ unix now) then .error "token is expired"
    else .ok tok.claims

/-- The keys of one set, and nothing else to ask. -/
def JwkSet.getKey (set : JwkSet L) (kid : String) : Except String L.PublicKey :=
  match set.lookupKeyID kid with
  | some key => .ok key.key
  | none => .error ("key " ++ kid ++ " not found in JWKS")

end Access

end Chinwag.Keys

import Chinwag.Keys.Separation

/-!
# Refresh tokens survive key rotation

Rotating or expiring a key changes the status of its row and nothing else, and the query by kid
does not ask for the status. So a refresh token verifies as long as it has not expired itself.
-/
namespace Chinwag.Keys

open Program Transition

variable {L : KeyLib} {k : SigningKeyEntity} {t : KeyTable} {tok : Token L} {now : Nat}

/-- What `ValidateRefreshToken` reads out of a token it accepts. -/
def Token.verified (tok : Token L) : VerifiedRefreshToken :=
  ⟨tok.claims.sub, tok.claims.jti, tok.claims.sid, tok.claims.jkt, tok.claims.iat, tok.claims.exp⟩

/-- A well-formed row decodes to its key pair. -/
theorem WellFormed.decoded (hL : L.Lawful) (h : WellFormed L k) :
    ∃ priv, L.decodePrivateKey k.privateKey = .ok priv ∧
      L.decodePublicKey k.publicKey = .ok (L.publicKey priv) := by
  obtain ⟨priv, hpriv, hpub⟩ := h.keyPair
  exact ⟨priv, hL.decode_private _ _ hpriv, hL.decode_public _ _ hpub⟩

/-- Whoever signed with the key of a row signed with the private half of its public key. -/
theorem WellFormed.verifies (hL : L.Lawful) (h : WellFormed L k) {priv : L.PrivateKey} {pub : L.PublicKey}
    (hpriv : L.decodePrivateKey k.privateKey = .ok priv) (hpub : L.decodePublicKey k.publicKey = .ok pub) :
    L.verifies pub priv = true := by
  obtain ⟨priv', hpriv', hpub'⟩ := h.decoded hL
  rw [hpriv] at hpriv'
  rw [hpub] at hpub'
  obtain rfl := Except.ok.inj hpriv'
  obtain rfl := Except.ok.inj hpub'
  exact hL.verifies_own priv

theorem unix_mono {a b : Nat} (h : a ≤ b) : unix a ≤ unix b := Nat.div_le_div_right h

/-- What a freshly signed refresh token carries. -/
theorem signed_claims {subject jti sid jkt kid : String} {priv : L.PrivateKey} {signed ttl : Nat}
    (h : signRefreshToken subject jti sid jkt priv kid signed ttl = .ok tok) :
    jkt ≠ "" ∧ tok = ⟨"ES256", some kid, ⟨refreshTokenIssuer, subject, [refreshTokenAudience],
      some (unix signed), some (unix (signed + ttl)), jti, sid, "", jkt⟩, priv⟩ := by
  unfold signRefreshToken at h
  split at h
  · cases h
  · next hjkt =>
    obtain rfl := Except.ok.inj h
    exact ⟨hjkt, rfl⟩

/-- A signed refresh token passes under the public key of its row until it expires. -/
theorem verifyRefreshToken_ok {pub : L.PublicKey} {clock : Nat} {kid : String} (hkid : kid ≠ "")
    {subject jti sid jkt : String} {priv : L.PrivateKey} {signed ttl : Nat}
    (hsign : signRefreshToken subject jti sid jkt priv kid signed ttl = .ok tok)
    (hverifies : L.verifies pub priv = true) (hsub : subject ≠ "") (hjti : jti ≠ "") (hsid : sid ≠ "")
    (hpast : signed ≤ clock) (hexp : ∀ exp, tok.claims.exp = some exp → unix clock < exp) :
    verifyRefreshToken tok pub clock = .ok (tok.verified, kid) := by
  obtain ⟨-, rfl⟩ := signed_claims hsign
  have hlive : unix clock < unix (signed + ttl) := hexp _ rfl
  have htimely : unix signed ≤ unix clock := unix_mono hpast
  simp [verifyRefreshToken, TokenClaims.timely, Token.verified, hkid, hverifies, hsub, hjti, hsid, hlive,
    htimely]

theorem getRefreshKeyByKid_ok (hL : L.Lawful) (hk : k ∈ t.rows) (htype : k.type = .Refresh)
    (h : WellFormed L k) : ∃ key, getRefreshKeyByKid L (t.getKeyByKid k.kid) = .ok key ∧
      key.type = .Refresh ∧ L.decodePublicKey k.publicKey = .ok key.publicKey := by
  obtain ⟨priv, hpriv, hpub⟩ := h.decoded hL
  rw [getKeyByKid_of_mem hk]
  refine ⟨⟨k.kid, k.type, L.publicKey priv, priv, k.status, k.createdAt, k.updatedAt, k.expiredAt⟩, ?_,
    htype, hpub⟩
  simp [getRefreshKeyByKid, signingKeyEntityToSigningKey, htype, hpriv, hpub]

theorem validate_refresh (hL : L.Lawful) {s : KeyState L} (hs : KeyInv s)
    (h : Genuine s.table s.now .Refresh tok) (hclock : s.now ≤ now)
    (hexp : ∀ exp, tok.claims.exp = some exp → unix now < exp) :
    validateRefreshToken s.table.getKeyByKid tok tok.claims.jkt now = .ok tok.verified := by
  obtain ⟨k, hk, htype, hsigned⟩ := h
  have hkid : k.kid ≠ "" := (hs.rows k hk).kid
  cases hsigned with
  | @refresh subject jti sid jkt priv signed ttl _ hkey hsign hsub hjti hsid hpast =>
    obtain ⟨key, hget, hktype, hpub⟩ := getRefreshKeyByKid_ok hL hk htype (hs.rows k hk)
    have hverifies := (hs.rows k hk).verifies hL hkey hpub
    have hverify := verifyRefreshToken_ok hkid hsign hverifies hsub hjti hsid (Nat.le_trans hpast hclock) hexp
    obtain ⟨hjkt, rfl⟩ := signed_claims hsign
    simp [validateRefreshToken, hkid, hget, hktype, hverify, Token.verified, hjkt]

variable {pool pool' : KeyPool L} {trace : List (KeyLabel L)}

end Chinwag.Keys

import Chinwag.Keys.Calls

/-!
# Access and refresh tokens are not interchangeable

What separates them on the resource side is not a claim but the keys a verifier can look up:
no set ever served has the kid of a Refresh row. The auth service in turn refuses a kid whose
row is not of type Refresh.
-/
namespace Chinwag.Keys

open Program Transition

variable {L : KeyLib} {s : KeyState L} {tok : Token L}

/-- The client has in its cache, and is sent by the endpoint, only sets that were served. -/
def WorksFrom (served : JwkSet L → Prop) (c : JWKSClient L) (endpoint : Except String (JwkSet L)) : Prop :=
  (c.set = .empty ∨ served c.set) ∧ ∀ set, endpoint = .ok set → served set

/-- A kid that no set at hand has is not found, cached or fetched. -/
theorem getKey_unknown {c : JWKSClient L} {endpoint : Except String (JwkSet L)} {now : Nat} {kid : String}
    (hcache : c.set.lookupKeyID kid = none)
    (hendpoint : ∀ set, endpoint = .ok set → set.lookupKeyID kid = none) (pub : L.PublicKey) :
    (c.getKey now endpoint kid).1 ≠ .ok pub := by
  intro h
  unfold JWKSClient.getKey at h
  rw [hcache] at h
  cases endpoint with
  | error e => cases h
  | ok set =>
    simp only [hendpoint set rfl] at h
    cases h

theorem Genuine.unpublished {t : KeyTable} {now : Nat} {set : JwkSet L} (h : Genuine t now .Refresh tok)
    (hset : Stems t set) {kid : String} (hkid : tok.kid = some kid) : set.lookupKeyID kid = none := by
  obtain ⟨k, hk, htype, hsigned⟩ := h
  rw [hsigned.kid] at hkid
  obtain rfl := Option.some.inj hkid
  exact hset.lookup_refresh hk htype

/-- `KeyFunc` finds no key for a refresh token. -/
theorem keyFunc_refresh {t : KeyTable} {now clock : Nat} {c : JWKSClient L}
    {endpoint : Except String (JwkSet L)} (h : Genuine t now .Refresh tok)
    (hc : WorksFrom (Stems t) c endpoint) (pub : L.PublicKey) :
    keyFunc (fun kid => (c.getKey clock endpoint kid).1) tok ≠ .ok pub := by
  intro hok
  unfold keyFunc at hok
  split at hok
  · cases hok
  · split at hok
    · cases hok
    · next kid hkid =>
      have hcache : c.set.lookupKeyID kid = none := by
        cases hc.1 with
        | inl hempty =>
          rw [hempty]
          rfl
        | inr hserved => exact h.unpublished hserved hkid
      exact getKey_unknown hcache (fun set hset => h.unpublished (hc.2 set hset) hkid) pub hok

/-- `ValidateRefreshToken` refuses the key of an access token. -/
theorem validate_access {t : KeyTable} {now clock : Nat} {jkt : String} (h : Genuine t now .Access tok)
    (verified : VerifiedRefreshToken) : validateRefreshToken t.getKeyByKid tok jkt clock ≠ .ok verified := by
  obtain ⟨k, hk, htype, hsigned⟩ := h
  have hkey : getRefreshKeyByKid L (t.getKeyByKid (tok.kid.getD "")) = .error .noKey := by
    rw [hsigned.kid, Option.getD_some, getKeyByKid_of_mem hk]
    unfold getRefreshKeyByKid
    simp [htype]
  intro hok
  unfold validateRefreshToken at hok
  split at hok
  · cases hok
  · split at hok
    · cases hok
    · rw [hkey] at hok
      cases hok

variable {pool pool' : KeyPool L} {trace : List (KeyLabel L)}

/-- The sets and the tokens of a run. -/
def ServedIn (trace : List (KeyLabel L)) (set : JwkSet L) : Prop := ∃ i n, .cmd i (.serve n) set ∈ trace

def SignedIn (trace : List (KeyLabel L)) (kt : KeyType) (tok : Token L) : Prop :=
  ∃ i, .cmd i (.sign kt tok) () ∈ trace

theorem SignedIn.genuine {kt : KeyType} (h : SignedIn trace kt tok) (hinit : KeysInit pool)
    (hrun : Run KeyStep pool trace pool') : Genuine pool'.shared.table pool'.shared.now kt tok := by
  obtain ⟨i, hi⟩ := h
  obtain ⟨x, hx, rfl, rfl⟩ := run_recorded hrun _ hi
  exact (good_run hinit hrun).good.shared.issued x hx

theorem ServedIn.stems {set : JwkSet L} (h : ServedIn trace set) (hinit : KeysInit pool)
    (hrun : Run KeyStep pool trace pool') : Stems pool'.shared.table set := by
  obtain ⟨i, n, hi⟩ := h
  exact (good_run hinit hrun).good.shared.served set (run_recorded hrun _ hi)

section Sample

/-- Keys and their encodings are texts. -/
def textLib : KeyLib where
  PrivateKey := String
  PublicKey := String
  publicKey priv := "public " ++ priv
  encodePublicKey := .ok
  encodePrivateKey := .ok
  decodePublicKey := .ok
  decodePrivateKey := .ok
  verifies pub priv := pub == "public " ++ priv
  holds _ _ := false

theorem textLib_lawful : textLib.Lawful where
  decode_public _ _ h := h.symm
  decode_private _ _ h := h.symm
  verifies_own _ := beq_self_eq_true _

def sampleKey (kid : String) (kt : KeyType) (expiredAt : Nat) : SigningKeyEntity :=
  ⟨kid, kt, "public " ++ kid, kid, .Active, 0, some 0, some expiredAt⟩

theorem sampleKey_wellFormed {kid : String} (hkid : kid ≠ "") (kt : KeyType) (expiredAt : Nat) :
    WellFormed textLib (sampleKey kid kt expiredAt) :=
  ⟨hkid, ⟨kid, rfl, rfl⟩, fun h => nomatch h⟩

/-- A database and instances nobody has called yet. -/
def restingKeys (t : KeyTable) (now : Nat) : KeyState textLib :=
  ⟨t, now, [], fun _ => [], fun _ => none, fun _ => ⟨.empty, 0⟩, [], [], fun _ => [], fun _ => [], fun _ => []⟩

theorem restingKeys_init {t : KeyTable} (now : Nat) (h : ∀ k ∈ t.rows, WellFormed textLib k) :
    KeysInit ⟨restingKeys t now, []⟩ :=
  ⟨rfl, h, fun _ => rfl, fun _ => rfl, fun _ => rfl, rfl, rfl, fun _ => rfl, fun _ => rfl, fun _ => rfl⟩

/-- One key of each type; the access key is overdue after a day. -/
def twoKeys : KeyTable :=
  ⟨[sampleKey "a" .Access (24 * hour), sampleKey "r" .Refresh (48 * hour)], by decide⟩

theorem twoKeys_wellFormed : ∀ k ∈ twoKeys.rows, WellFormed textLib k := by
  intro k hk
  rcases List.mem_pair.mp hk with rfl | rfl
  · exact sampleKey_wellFormed (by decide) _ _
  · exact sampleKey_wellFormed (by decide) _ _

def firstUuid : Uuid := ⟨"01890000-0000-7000-8000-000000000001", by decide⟩

def sampleRefresh (s : KeyState textLib) (kid : String) : Token textLib where
  alg := "ES256"
  kid := some kid
  claims := ⟨refreshTokenIssuer, "alice", [refreshTokenAudience], some (unix s.now),
    some (unix (s.now + minute)), firstUuid.text, "sid", "", "jkt"⟩
  signer := kid

/-- A login that is alone with the database. -/
theorem alone_issue {i : Nat} {s : KeyState textLib} {kid : String} {expiredAt : Nat}
    (hk : sampleKey kid .Refresh expiredAt ∈ s.table.activeKeys .Refresh) (fresh : firstUuid ∉ s.drawn)
    (free : firstUuid.text ∉ s.table.kids) :
    Alone (Exec i) Eq (serve (.issueRefreshToken minute "alice" "jkt" "sid")) s ()
      (((s.arrive i).draw firstUuid).noteIssued .Refresh (sampleRefresh s kid)) :=
  .call rfl (.arrive _) <| .call rfl (.getActiveKey hk) <| .call rfl (.newV7 fresh free) <|
    .call rfl .now <| .call rfl (.sign _ _) (.ret _ _)

theorem refresh_issued : ∃ trace pool', Run KeyStep ⟨restingKeys twoKeys 0, []⟩ trace pool' ∧
    SignedIn trace .Refresh (sampleRefresh (restingKeys twoKeys 0) "r") ∧ pool'.shared.now = 0 := by
  have hserve : Serves (serve (L := textLib) (.issueRefreshToken minute "alice" "jkt" "sid")) :=
    ⟨.issueRefreshToken minute "alice" "jkt" "sid", (by decide : "alice" ≠ ""), rfl⟩
  have hkey : sampleKey "r" .Refresh (48 * hour) ∈ twoKeys.activeKeys .Refresh := by decide
  obtain ⟨trace, hrun⟩ : ∃ trace, Run KeyStep ⟨restingKeys twoKeys 0, []⟩ trace _ :=
    Alone.spawn_run [] hserve (alone_issue hkey (by simp [restingKeys]) (by decide))
  refine ⟨trace, _, hrun, ?_, rfl⟩
  cases signed_of_issued hrun _ List.mem_cons_self with
  | inl h => cases h
  | inr h => exact h

end Sample

end Chinwag.Keys

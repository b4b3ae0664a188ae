import Mathlib.Data.List.Basic
import Mathlib.Data.List.Nodup
import Chinwag.Keys.Tokens
import Chinwag.Users.Table

/-!
# The signing_keys table

Rows are inserted and change their status; no statement of the service deletes one or touches
its keys. `Ages` says so for one row, `Descends` for the table.
-/
namespace Chinwag.Keys

open Users (DbError)

inductive KeyType where
  | Access
  | Refresh
  deriving DecidableEq, Repr

inductive KeyStatus where
  | Active
  | Inactive
  | Expired
  deriving DecidableEq, Repr

def KeyStatus.includeInJWKS : KeyStatus → Bool
  | .Active => true
  | .Inactive => true
  | .Expired => false

structure SigningKeyEntity where
  kid : String
  type : KeyType
  publicKey : String
  privateKey : String
  status : KeyStatus
  createdAt : Nat
  updatedAt : Option Nat
  expiredAt : Option Nat
  deriving DecidableEq

structure SigningKey (L : KeyLib) where
  kid : String
  type : KeyType
  publicKey : L.PublicKey
  privateKey : L.PrivateKey
  status : KeyStatus
  createdAt : Nat
  updatedAt : Option Nat
  expiredAt : Option Nat

/-- The errors of the key service: those of the database, of the libraries, and `errs.ErrNoKey`. -/
inductive KeyError where
  | db (e : DbError)
  | library (text : String)
  | noKey

def ofLibrary {α : Type} : Except String α → Except KeyError α
  | .ok a => .ok a
  | .error text => .error (.library text)

variable (L : KeyLib)

def signingKeyEntityToSigningKey (key : SigningKeyEntity) : Except KeyError (SigningKey L) :=
  match L.decodePublicKey key.publicKey with
  | .error text => .error (.library text)
  | .ok pub =>
    match L.decodePrivateKey key.privateKey with
    | .error text => .error (.library text)
    | .ok priv => .ok ⟨key.kid, key.type, pub, priv, key.status, key.createdAt, key.updatedAt, key.expiredAt⟩

/-- The loop of `ToJWKSet`, over the set built so far. -/
def addKeys : List SigningKeyEntity → JwkSet L → Except KeyError (JwkSet L)
  | [], set => .ok set
  | k :: keys, set =>
    if k.type ≠ .Access ∨ k.status.includeInJWKS = false then addKeys keys set
    else match L.decodePublicKey k.publicKey with
      | .error text => .error (.library text)
      | .ok pub =>
        match set.addKey ⟨k.kid, "sig", "ES256", pub⟩ with
        | .error text => .error (.library text)
        | .ok set' => addKeys keys set'

def toJWKSet (keys : List SigningKeyEntity) : Except KeyError (JwkSet L) := addKeys L keys .empty

structure KeyTable where
  rows : List SigningKeyEntity
  signing_keys_pkey : (rows.map SigningKeyEntity.kid).Nodup

namespace KeyTable

variable (t : KeyTable)

/-- `SELECT ... WHERE status IN ('ACTIVE', 'INACTIVE')`, in the order of the rows. -/
def load : List SigningKeyEntity := t.rows.filter fun k => k.status.includeInJWKS

/-- What `WHERE status = 'ACTIVE' AND key_type = $1` selects. -/
def activeKeys (kt : KeyType) : List SigningKeyEntity :=
  t.rows.filter fun k => k.status == .Active && k.type == kt

def getKeyByKid (kid : String) : Except DbError SigningKeyEntity :=
  match t.rows.find? fun k => k.kid == kid with
  | none => .error .noRows
  | some k => .ok k

/-- `SELECT MAX(updated_at)`. -/
def getVersion : Option Nat := (t.rows.filterMap SigningKeyEntity.updatedAt).max?

def kids : List String := t.rows.map SigningKeyEntity.kid

/-- `UPDATE signing_keys SET status = ...` over the rows that a condition selects. -/
def setStatus (p : SigningKeyEntity → Bool) (status : KeyStatus) : KeyTable where
  rows := t.rows.map fun k => if p k then { k with status := status } else k
  signing_keys_pkey := by
    have hkid : (SigningKeyEntity.kid ∘ fun k => if p k then { k with status := status } else k) =
        SigningKeyEntity.kid := by
      funext k
      show SigningKeyEntity.kid (if p k then _ else _) = k.kid
      split <;> rfl
    rw [List.map_map, hkid]
    exact t.signing_keys_pkey

def insert (row : SigningKeyEntity) : Except DbError KeyTable :=
  if h : row.kid ∈ t.rows.map SigningKeyEntity.kid then .error .uniqueViolation
  else .ok ⟨t.rows ++ [row], by
    rw [List.map_append, List.map_singleton, ← List.concat_eq_append]
    exact t.signing_keys_pkey.concat h⟩

theorem eq_of_kid {k l : SigningKeyEntity} (hk : k ∈ t.rows) (hl : l ∈ t.rows) (h : k.kid = l.kid) :
    k = l :=
  List.inj_on_of_nodup_map t.signing_keys_pkey hk hl h

end KeyTable

/-- `GetRefreshKeyByKid`, given what the query answers. -/
def getRefreshKeyByKid (answer : Except DbError SigningKeyEntity) : Except KeyError (SigningKey L) :=
  match answer with
  | .error e => .error (.db e)
  | .ok ent => if ent.type ≠ .Refresh then .error .noKey else signingKeyEntityToSigningKey L ent

/-- The errors of `ValidateRefreshToken`. -/
inductive RefreshTokenError where
  | invalidRefreshToken
  | invalidAlg
  | bindingMismatch
  deriving DecidableEq, Repr

variable {L}

/-- `ValidateRefreshToken` over a parsed token, with what the key query answers and the clock read. -/
def validateRefreshToken (query : String → Except DbError SigningKeyEntity) (tok : Token L)
    (jkt : String) (now : Nat) : Except RefreshTokenError VerifiedRefreshToken :=
  if tok.alg ≠ "ES256" then .error .invalidAlg
  else if tok.kid.getD "" = "" then .error .invalidRefreshToken
  else match getRefreshKeyByKid L (query (tok.kid.getD "")) with
    | .error _ => .error .invalidRefreshToken
    | .ok key =>
      if key.type ≠ .Refresh then .error .invalidRefreshToken
      else match verifyRefreshToken tok key.publicKey now with
        | .error _ => .error .invalidRefreshToken
        | .ok (verified, _) =>
          if verified.jkt = "" ∨ verified.jkt ≠ jkt then .error .bindingMismatch else .ok verified

/-- What may become of a row: its status, and only as long as it is active. -/
structure Ages (k l : SigningKeyEntity) : Prop where
  kid : l.kid = k.kid
  type : l.type = k.type
  publicKey : l.publicKey = k.publicKey
  privateKey : l.privateKey = k.privateKey
  updatedAt : l.updatedAt = k.updatedAt
  status : k.status ≠ .Active → l.status = k.status

/-- Every row of the first table is still there, aged. -/
def Descends (t u : KeyTable) : Prop := ∀ k ∈ t.rows, ∃ l ∈ u.rows, Ages k l

/-- A row as `rotate` inserts it: it has a name, `updated_at` is `NOT NULL`, and its keys are encodings
of one key pair. -/
structure WellFormed (L : KeyLib) (k : SigningKeyEntity) : Prop where
  kid : k.kid ≠ ""
  keyPair : ∃ priv, L.encodePrivateKey priv = .ok k.privateKey ∧
    L.encodePublicKey (L.publicKey priv) = .ok k.publicKey
  updatedAt : k.updatedAt ≠ none

variable {t u v : KeyTable} {k l m : SigningKeyEntity}

theorem Ages.refl (k : SigningKeyEntity) : Ages k k := ⟨rfl, rfl, rfl, rfl, rfl, fun _ => rfl⟩

theorem Ages.trans (h₁ : Ages k l) (h₂ : Ages l m) : Ages k m where
  kid := h₂.kid.trans h₁.kid
  type := h₂.type.trans h₁.type
  publicKey := h₂.publicKey.trans h₁.publicKey
  privateKey := h₂.privateKey.trans h₁.privateKey
  updatedAt := h₂.updatedAt.trans h₁.updatedAt
  status hk := by
    have hl : l.status = k.status := h₁.status hk
    have hm : m.status = l.status := h₂.status (by rw [hl]; exact hk)
    rw [hm, hl]

theorem Descends.refl (t : KeyTable) : Descends t t := fun k hk => ⟨k, hk, .refl k⟩

theorem Descends.trans (h₁ : Descends t u) (h₂ : Descends u v) : Descends t v := by
  intro k hk
  obtain ⟨l, hl, hkl⟩ := h₁ k hk
  obtain ⟨m, hm, hlm⟩ := h₂ l hl
  exact ⟨m, hm, hkl.trans hlm⟩

theorem Descends.kids (h : Descends t u) {kid : String} (hkid : kid ∈ t.kids) : kid ∈ u.kids := by
  obtain ⟨k, hk, rfl⟩ := List.mem_map.mp hkid
  obtain ⟨l, hl, hage⟩ := h k hk
  exact List.mem_map.mpr ⟨l, hl, hage.kid⟩

/-- A row whose kid the older table had is an aged row of it. -/
theorem Descends.back (h : Descends t u) {l : SigningKeyEntity} (hl : l ∈ u.rows) (hkid : l.kid ∈ t.kids) :
    ∃ k ∈ t.rows, Ages k l := by
  obtain ⟨k, hk, hkl⟩ := List.mem_map.mp hkid
  obtain ⟨l', hl', hage⟩ := h k hk
  obtain rfl : l' = l := u.eq_of_kid hl' hl (hage.kid.trans hkl)
  exact ⟨k, hk, hage⟩

theorem Ages.wellFormed (h : Ages k l) (hk : WellFormed L k) : WellFormed L l where
  kid := by
    rw [h.kid]
    exact hk.kid
  keyPair := by
    obtain ⟨priv, hpriv, hpub⟩ := hk.keyPair
    exact ⟨priv, by rw [h.privateKey, hpriv], by rw [h.publicKey, hpub]⟩
  updatedAt := by
    rw [h.updatedAt]
    exact hk.updatedAt

theorem Ages.active (h : Ages k l) (hl : l.status = .Active) : k.status = .Active := by
  by_contra hk
  exact hk (by rw [← h.status hk, hl])

/-- A status is only ever set on active rows. -/
theorem ages_setStatus {p : SigningKeyEntity → Bool} {status : KeyStatus}
    (hp : ∀ k, p k = true → k.status = .Active) (k : SigningKeyEntity) :
    Ages k (if p k then { k with status := status } else k) := by
  split
  · next h => exact ⟨rfl, rfl, rfl, rfl, rfl, fun hk => absurd (hp k h) hk⟩
  · exact .refl k

theorem descends_setStatus {p : SigningKeyEntity → Bool} {status : KeyStatus}
    (hp : ∀ k, p k = true → k.status = .Active) (t : KeyTable) : Descends t (t.setStatus p status) :=
  fun k hk => ⟨_, List.mem_map_of_mem hk, ages_setStatus hp k⟩

theorem rows_insert (h : t.insert k = .ok u) : u.rows = t.rows ++ [k] ∧ k.kid ∉ t.kids := by
  unfold KeyTable.insert at h
  split at h
  · cases h
  · next hfree =>
    obtain rfl := Except.ok.inj h
    exact ⟨rfl, hfree⟩

theorem descends_insert (h : t.insert k = .ok u) : Descends t u := by
  intro l hl
  rw [(rows_insert h).1]
  exact ⟨l, List.mem_append_left _ hl, .refl l⟩

/-- The query by kid finds every row, whatever its status. -/
theorem getKeyByKid_of_mem (h : k ∈ t.rows) : t.getKeyByKid k.kid = .ok k := by
  have hsome : (t.rows.find? fun l => l.kid == k.kid).isSome = true :=
    List.find?_isSome.mpr ⟨k, h, beq_self_eq_true _⟩
  obtain ⟨l, hl⟩ := Option.isSome_iff_exists.mp hsome
  have hkid := List.find?_some hl
  obtain rfl : l = k := t.eq_of_kid (List.mem_of_find?_eq_some hl) h (eq_of_beq hkid)
  unfold KeyTable.getKeyByKid
  rw [hl]

theorem mem_load : k ∈ t.load ↔ k ∈ t.rows ∧ k.status ≠ .Expired := by
  unfold KeyTable.load
  rw [List.mem_filter]
  refine and_congr_right fun _ => ?_
  cases k.status <;> decide

theorem mem_activeKeys {kt : KeyType} :
    k ∈ t.activeKeys kt ↔ k ∈ t.rows ∧ k.status = .Active ∧ k.type = kt := by
  unfold KeyTable.activeKeys
  rw [List.mem_filter, Bool.and_eq_true, beq_iff_eq, beq_iff_eq]

end Chinwag.Keys

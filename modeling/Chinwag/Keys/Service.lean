import Chinwag.Lib.Program
import Chinwag.Lib.Uuid
import Chinwag.Keys.JwkSets

/-!
# The key service

Each operation is a program over single SQL statements. An `UPDATE` is two commands: the
snapshot that selects its rows, and the write, which waits for the locks of other transactions.
-/
namespace Chinwag.Keys

open Program
open Users (DbError)

variable (L : KeyLib)

/-- What an instance keeps in memory. -/
structure Memory where
  set : JwkSet L
  version : Nat

/-- A call of the service. The instance is named where its memory matters, the lifetime of
refresh tokens where one is signed. -/
inductive KeyCall where
  | loadJWKS (n : Nat)
  | getJwkSet (n : Nat)
  | rotateAccess
  | rotateRefresh
  | tick
  | newAccessToken (userId role jkt : String)
  | issueRefreshToken (ttl : Nat) (subject jkt sid : String)
  | rotateRefreshToken (ttl : Nat) (claims : VerifiedRefreshToken)

/-- `arrive` marks the start of a call, `sign` the moment a token is signed, and `serve` the
read of the set that `GetJwkSet` returns. -/
inductive KeyCmd where
  | arrive (call : KeyCall)
  | getVersion
  | load
  | getActiveKey (kt : KeyType)
  | newV7
  | generateKey
  | now
  | begin
  | scan (kt : KeyType)
  | deactivate (kt : KeyType)
  | insert (row : SigningKeyEntity)
  | commit
  | rollback
  | expire (kt : KeyType)
  | memory (n : Nat)
  | store (n : Nat) (m : Memory L)
  | serve (n : Nat)
  | sign (kt : KeyType) (tok : Token L)

abbrev KeyReply : KeyCmd L → Type
  | .arrive _ => Unit
  | .getVersion => Except DbError (Option Nat)
  | .load => Except DbError (List SigningKeyEntity)
  | .getActiveKey _ => Except DbError SigningKeyEntity
  | .newV7 => Uuid
  | .generateKey => Except String L.PrivateKey
  | .now => Nat
  | .begin => Except DbError Unit
  | .scan _ => Except DbError Unit
  | .deactivate _ => Except DbError Unit
  | .insert _ => Except DbError Unit
  | .commit => Except DbError Unit
  | .rollback => Unit
  | .expire _ => Except DbError Unit
  | .memory _ => Memory L
  | .store _ _ => Unit
  | .serve _ => JwkSet L
  | .sign _ _ => Unit

abbrev KeyProg (α : Type) := Prog (KeyCmd L) (KeyReply L) α

variable {L}

abbrev KeyResult (α : Type) := Except KeyError α

def perform (c : KeyCmd L) : KeyProg L (KeyReply L c) := Prog.perform c

/-- `if err != nil { return err }`. -/
def attempt {ε α β : Type} (p : KeyProg L (Except ε α)) (next : α → KeyProg L (Except ε β)) :
    KeyProg L (Except ε β) := do
  match ← p with
  | .error e => return .error e
  | .ok a => next a

def ofDb {α : Type} (p : KeyProg L (Except DbError α)) : KeyProg L (KeyResult α) := do
  match ← p with
  | .error e => return .error (.db e)
  | .ok a => return .ok a

section Repository

/-- The two statements inside the transaction of `Rotate`. -/
def rotateRows (signingKey : SigningKeyEntity) : KeyProg L (Except DbError Unit) :=
  attempt (perform (.scan signingKey.type)) fun _ =>
  attempt (perform (.deactivate signingKey.type)) fun _ =>
  perform (.insert signingKey)

/-- `JwksRepo.Rotate`. -/
def rotateInTx (signingKey : SigningKeyEntity) : KeyProg L (Except DbError Unit) :=
  attempt (perform .begin) fun _ => do
    match ← rotateRows signingKey with
    | .error e =>
      perform .rollback
      return .error e
    | .ok _ => perform .commit

def expireActiveKey (kt : KeyType) : KeyProg L (Except DbError Unit) :=
  attempt (perform (.scan kt)) fun _ => perform (.expire kt)

end Repository

section Rotation

def newKey (kid : Uuid) (kt : KeyType) (pub priv : String) (now : Nat) : SigningKeyEntity where
  kid := kid.text
  type := kt
  publicKey := pub
  privateKey := priv
  status := .Active
  createdAt := now
  updatedAt := some now
  expiredAt := some (now + 24 * hour)

/-- `JwksService.rotate`. -/
def rotate (kt : KeyType) : KeyProg L (KeyResult Unit) := do
  let newKid ← perform .newV7
  match ← perform .generateKey with
  | .error text => return .error (.library text)
  | .ok newPriv =>
    match L.encodePublicKey (L.publicKey newPriv) with
    | .error text => return .error (.library text)
    | .ok serialisedPub =>
      match L.encodePrivateKey newPriv with
      | .error text => return .error (.library text)
      | .ok serialisedPriv =>
        let now ← perform .now
        ofDb (rotateInTx (newKey newKid kt serialisedPub serialisedPriv now))

def rotateAccess : KeyProg L (KeyResult Unit) := rotate .Access

def rotateRefresh : KeyProg L (KeyResult Unit) := rotate .Refresh

/-- A tick of the rotation scheduler; its errors are only logged. -/
def tick : KeyProg L Unit := do
  let _ ← rotateAccess
  let _ ← rotateRefresh
  return ()

end Rotation

section Loading

def keyTypes : List KeyType := [.Access, .Refresh]

/-- `ensureKeys`, over the types left. -/
def ensureKeys : List KeyType → KeyProg L (KeyResult Unit)
  | [] => return .ok ()
  | kt :: rest => do
    match ← perform (.getActiveKey kt) with
    | .ok _ => ensureKeys rest
    | .error .noRows => attempt (rotate kt) fun _ => ensureKeys rest
    | .error e => return .error (.db e)

def firstActive (keys : List SigningKeyEntity) (kt : KeyType) : Option SigningKeyEntity :=
  keys.find? fun k => k.type == kt && k.status == .Active

def rotateIfNeeded (keys : List SigningKeyEntity) (kt : KeyType) : KeyProg L (KeyResult Bool) :=
  match firstActive keys kt with
  | none => attempt (rotate kt) fun _ => return .ok true
  | some active =>
    match active.expiredAt with
    | none => return .ok false
    | some expiredAt => do
      let now ← perform .now
      if expiredAt < now then
        attempt (ofDb (expireActiveKey kt)) fun _ =>
        attempt (rotate kt) fun _ => return .ok true
      else return .ok false

/-- The loop of `LoadJWKS` over the key types left. -/
def rotateDue (keys : List SigningKeyEntity) : List KeyType → Bool → KeyProg L (KeyResult Bool)
  | [], rotated => return .ok rotated
  | kt :: rest, rotated =>
    attempt (rotateIfNeeded keys kt) fun didRotate => rotateDue keys rest (rotated || didRotate)

/-- The version row, seeding one key per type on first boot. -/
def versionOrSeed : KeyProg L (KeyResult (Option Nat)) :=
  attempt (ofDb (perform .getVersion)) fun version =>
    match version with
    | some v => return .ok (some v)
    | none => attempt (ensureKeys keyTypes) fun _ => ofDb (perform .getVersion)

/-- What `LoadJWKS` does from the first `Load` on. -/
def reload (n : Nat) (version : Nat) : KeyProg L (KeyResult Unit) :=
  attempt (ofDb (perform .load)) fun keys =>
  attempt (rotateDue keys keyTypes false) fun rotated =>
  attempt (if rotated then ofDb (perform .load) else return .ok keys) fun keys =>
    match toJWKSet L keys with
    | .error e => return .error e
    | .ok set => do
      perform (.store n ⟨set, version⟩)
      return .ok ()

def loadJWKS (n : Nat) : KeyProg L (KeyResult Unit) :=
  attempt versionOrSeed fun dbVersion =>
    match dbVersion with
    | none => return .ok ()
    | some v => do
      let m ← perform (.memory n)
      if ¬ m.version < v ∧ 0 < m.set.keys.length then return .ok ()
      else reload n v

def getJwkSet (n : Nat) : KeyProg L (KeyResult (JwkSet L)) :=
  attempt (loadJWKS n) fun _ => do return .ok (← perform (.serve n))

end Loading

section Signing

def getActiveAccessKey : KeyProg L (KeyResult (SigningKey L)) :=
  attempt (ofDb (perform (.getActiveKey .Access))) fun key =>
    return signingKeyEntityToSigningKey L key

def getActiveRefreshKey : KeyProg L (KeyResult (SigningKey L)) :=
  attempt (ofDb (perform (.getActiveKey .Refresh))) fun key =>
    return signingKeyEntityToSigningKey L key

def newAccessToken (userId role jkt : String) : KeyProg L (KeyResult (Token L)) :=
  attempt getActiveAccessKey fun key => do
    let issued ← perform .now
    let signed ← perform .now
    let tok := signWithCNF userId role key.privateKey key.kid jkt issued signed
    perform (.sign .Access tok)
    return .ok tok

/-- Signing with the active refresh key, as both callers of `SignRefreshToken` do. -/
def signWithActiveKey (ttl : Nat) (subject sid jkt : String) (key : SigningKey L) (jti : Uuid) :
    KeyProg L (KeyResult (Token L)) := do
  let now ← perform .now
  match signRefreshToken subject jti.text sid jkt key.privateKey key.kid now ttl with
  | .error text => return .error (.library text)
  | .ok tok =>
    perform (.sign .Refresh tok)
    return .ok tok

/-- `IssueRefreshToken` up to its script. -/
def issueRefreshToken (ttl : Nat) (subject jkt sid : String) : KeyProg L (KeyResult (Token L)) :=
  attempt getActiveRefreshKey fun key => do
    let jti ← perform .newV7
    if sid = "" then
      let drawn ← perform .newV7
      signWithActiveKey ttl subject drawn.text jkt key jti
    else signWithActiveKey ttl subject sid jkt key jti

/-- `RotateRefreshToken` up to its script. -/
def rotateRefreshToken (ttl : Nat) (claims : VerifiedRefreshToken) : KeyProg L (KeyResult (Token L)) :=
  attempt getActiveRefreshKey fun key => do
    let newJTI ← perform .newV7
    signWithActiveKey ttl claims.subject claims.sid claims.jkt key newJTI

end Signing

/-- What callers promise: subjects are user ids, and rotated claims have been verified. -/
def KeyCall.Promised : KeyCall → Prop
  | .issueRefreshToken _ subject _ _ => subject ≠ ""
  | .rotateRefreshToken _ claims => claims.subject ≠ "" ∧ claims.sid ≠ ""
  | _ => True

/-- Run an operation for its effects. -/
def drop {α : Type} (p : KeyProg L α) : KeyProg L Unit := do
  let _ ← p
  return ()

def operation : KeyCall → KeyProg L Unit
  | .loadJWKS n => drop (loadJWKS n)
  | .getJwkSet n => drop (getJwkSet n)
  | .rotateAccess => drop rotateAccess
  | .rotateRefresh => drop rotateRefresh
  | .tick => tick
  | .newAccessToken userId role jkt => drop (newAccessToken userId role jkt)
  | .issueRefreshToken ttl subject jkt sid => drop (issueRefreshToken ttl subject jkt sid)
  | .rotateRefreshToken ttl claims => drop (rotateRefreshToken ttl claims)

def serve (call : KeyCall) : KeyProg L Unit := do
  perform (.arrive call)
  operation call

end Chinwag.Keys

import Mathlib.Logic.Function.Basic
import Chinwag.Keys.Service

/-!
# Instances of the auth service over one signing_keys table

Statements run under READ COMMITTED. Beside the database and the memory of each instance the
state remembers, for the statements to come, which tokens were signed, which sets were served,
and which rows the last table read of a call and the set in an instance's memory go back to.
-/
namespace Chinwag.Keys

open Program Transition
open Users (DbError)

/-- An open transaction: the type its `UPDATE` was about, the rows it wrote and so locked, and the
row it inserted. -/
structure Tx where
  updated : Option KeyType
  deactivated : List String
  inserted : Option SigningKeyEntity

/-- A signed token; `current` if its key was active at that moment. -/
structure Issued (L : KeyLib) where
  type : KeyType
  token : Token L
  current : Bool

structure KeyState (L : KeyLib) where
  table : KeyTable
  now : Nat
  drawn : List Uuid
  scans : Nat → List String
  txs : Nat → Option Tx
  memory : Nat → Memory L
  issued : List (Issued L)
  served : List (JwkSet L)
  started : Nat → List (Issued L)
  loaded : Nat → List String
  sources : Nat → List String

namespace KeyTable

variable (t : KeyTable)

/-- The rows of an `UPDATE` that are still active when it writes them. -/
def stillActive (kt : KeyType) (scanned : List String) : List String :=
  ((t.activeKeys kt).filter fun k => scanned.contains k.kid).map SigningKeyEntity.kid

def expireKeys (kt : KeyType) (scanned : List String) : KeyTable :=
  t.setStatus (fun k => k.status == .Active && (k.type == kt && scanned.contains k.kid)) .Expired

def applyTx (tx : Tx) : Except DbError KeyTable :=
  let updated := t.setStatus (fun k => k.status == .Active && tx.deactivated.contains k.kid) .Inactive
  match tx.inserted with
  | none => .ok updated
  | some row => updated.insert row

end KeyTable

namespace KeyState

variable {L : KeyLib} (s : KeyState L) (i : Nat)

def arrive : KeyState L := { s with started := Function.update s.started i s.issued }

def draw (u : Uuid) : KeyState L := { s with drawn := u :: s.drawn }

def noteLoad : KeyState L := { s with loaded := Function.update s.loaded i s.table.kids }

def setTx (tx : Option Tx) : KeyState L := { s with txs := Function.update s.txs i tx }

def scan (kt : KeyType) : KeyState L :=
  { s with scans := Function.update s.scans i ((s.table.activeKeys kt).map SigningKeyEntity.kid) }

def setTable (t : KeyTable) : KeyState L := { s with table := t }

def store (n : Nat) (m : Memory L) : KeyState L := { s with
  memory := Function.update s.memory n m
  sources := Function.update s.sources n (s.loaded i) }

def noteServed (set : JwkSet L) : KeyState L := { s with served := set :: s.served }

/-- Whether the active key of the type could just now be the one that signed the token. -/
def isCurrent (kt : KeyType) (tok : Token L) : Bool :=
  (s.table.activeKeys kt).any fun k => some k.kid == tok.kid

def noteIssued (kt : KeyType) (tok : Token L) : KeyState L :=
  { s with issued := ⟨kt, tok, s.isCurrent kt tok⟩ :: s.issued }

/-- No row that the running `UPDATE` selected is locked by another transaction. -/
def Unlocked : Prop :=
  ∀ j tx, j ≠ i → s.txs j = some tx → ∀ kid ∈ s.scans i, kid ∉ tx.deactivated

end KeyState

variable {L : KeyLib}

/-- A call that fails without effect. -/
def Fails : (c : KeyCmd L) → KeyReply L c → Prop
  | .getVersion, r => r = .error .unavailable
  | .load, r => r = .error .unavailable
  | .getActiveKey _, r => r = .error .unavailable
  | .begin, r => r = .error .unavailable
  | .scan _, r => r = .error .unavailable
  | .deactivate _, r => r = .error .unavailable
  | .insert _, r => r = .error .unavailable
  | .expire _, r => r = .error .unavailable
  | .generateKey, r => ∃ text, r = .error text
  | _, _ => False

/-- Every call may fail; a commit may take effect and its answer be lost. A drawn UUID is one
never used before. -/
inductive Exec (i : Nat) : (c : KeyCmd L) → KeyState L → KeyReply L c → KeyState L → Prop where
  | arrive {s : KeyState L} (call : KeyCall) : Exec i (.arrive call) s () (s.arrive i)
  | getVersion {s : KeyState L} : Exec i .getVersion s (.ok s.table.getVersion) s
  | load {s : KeyState L} {keys : List SigningKeyEntity} (h : keys.Perm s.table.load) :
      Exec i .load s (.ok keys) (s.noteLoad i)
  | getActiveKey {s : KeyState L} {kt : KeyType} {k : SigningKeyEntity} (h : k ∈ s.table.activeKeys kt) :
      Exec i (.getActiveKey kt) s (.ok k) s
  | noActiveKey {s : KeyState L} {kt : KeyType} (h : s.table.activeKeys kt = []) :
      Exec i (.getActiveKey kt) s (.error .noRows) s
  | newV7 {s : KeyState L} {u : Uuid} (fresh : u ∉ s.drawn) (free : u.text ∉ s.table.kids) :
      Exec i .newV7 s u (s.draw u)
  | generateKey {s : KeyState L} (priv : L.PrivateKey) : Exec i .generateKey s (.ok priv) s
  | now {s : KeyState L} : Exec i .now s s.now s
  | begin {s : KeyState L} : Exec i .begin s (.ok ()) (s.setTx i (some ⟨none, [], none⟩))
  | scan {s : KeyState L} (kt : KeyType) : Exec i (.scan kt) s (.ok ()) (s.scan i kt)
  | deactivate {s : KeyState L} {kt : KeyType} {tx : Tx} (h : s.txs i = some tx) (hlock : s.Unlocked i) :
      Exec i (.deactivate kt) s (.ok ()) (s.setTx i (some { tx with
        updated := some kt
        deactivated := s.table.stillActive kt (s.scans i) ++ tx.deactivated }))
  | insert {s : KeyState L} {row : SigningKeyEntity} {tx : Tx} (h : s.txs i = some tx)
      (free : row.kid ∉ s.table.kids) :
      Exec i (.insert row) s (.ok ()) (s.setTx i (some { tx with inserted := some row }))
  | insertRefused {s : KeyState L} {row : SigningKeyEntity} (h : row.kid ∈ s.table.kids) :
      Exec i (.insert row) s (.error .uniqueViolation) s
  | commit {s : KeyState L} {tx : Tx} {t : KeyTable} (h : s.txs i = some tx) (ht : s.table.applyTx tx = .ok t) :
      Exec i .commit s (.ok ()) ((s.setTable t).setTx i none)
  | commitLost {s : KeyState L} {tx : Tx} {t : KeyTable} (h : s.txs i = some tx)
      (ht : s.table.applyTx tx = .ok t) : Exec i .commit s (.error .lost) ((s.setTable t).setTx i none)
  | commitFailed {s : KeyState L} : Exec i .commit s (.error .unavailable) (s.setTx i none)
  | rollback {s : KeyState L} : Exec i .rollback s () (s.setTx i none)
  | expire {s : KeyState L} {kt : KeyType} (hlock : s.Unlocked i) :
      Exec i (.expire kt) s (.ok ()) (s.setTable (s.table.expireKeys kt (s.scans i)))
  | expireLost {s : KeyState L} {kt : KeyType} (hlock : s.Unlocked i) :
      Exec i (.expire kt) s (.error .lost) (s.setTable (s.table.expireKeys kt (s.scans i)))
  | memory {s : KeyState L} (n : Nat) : Exec i (.memory n) s (s.memory n) s
  | store {s : KeyState L} (n : Nat) (m : Memory L) : Exec i (.store n m) s () (s.store i n m)
  | serve {s : KeyState L} (n : Nat) : Exec i (.serve n) s (s.memory n).set (s.noteServed (s.memory n).set)
  | sign {s : KeyState L} (kt : KeyType) (tok : Token L) : Exec i (.sign kt tok) s () (s.noteIssued kt tok)
  | failed {s : KeyState L} {c : KeyCmd L} {r : KeyReply L c} (h : Fails c r) : Exec i c s r s

/-- Time passes, or a database session dies with its transaction. -/
inductive KeyEvent where
  | elapse (d : Nat)
  | disconnect (i : Nat)

def KeyEnv (s : KeyState L) : KeyEvent → KeyState L → Prop
  | .elapse d, t => t = { s with now := s.now + d }
  | .disconnect i, t => t = s.setTx i none

variable (L) in
def keySemantics : Semantics (KeyState L) KeyEvent (KeyCmd L) (KeyReply L) where
  exec := Exec
  env := KeyEnv

abbrev KeyPool (L : KeyLib) := Pool (KeyState L) (KeyCmd L) (KeyReply L) Unit

abbrev KeyLabel (L : KeyLib) := Label KeyEvent (KeyCmd L) (KeyReply L) Unit

def Serves (p : KeyProg L Unit) : Prop := ∃ call, KeyCall.Promised call ∧ p = serve call

abbrev KeyStep : KeyPool L → KeyLabel L → KeyPool L → Prop := Step (keySemantics L) Serves

/-- No call under way, nothing in memory, and a table of well-formed rows. -/
structure KeysInit (pool : KeyPool L) : Prop where
  threads : pool.threads = []
  rows : ∀ k ∈ pool.shared.table.rows, WellFormed L k
  scans : ∀ i, pool.shared.scans i = []
  txs : ∀ i, pool.shared.txs i = none
  memory : ∀ n, (pool.shared.memory n).set = .empty
  issued : pool.shared.issued = []
  served : pool.shared.served = []
  started : ∀ i, pool.shared.started i = []
  loaded : ∀ i, pool.shared.loaded i = []
  sources : ∀ n, pool.shared.sources n = []

/-- A token signed with the key of a row, as one of the two signing functions signs it. -/
inductive SignedBy (k : SigningKeyEntity) (now : Nat) : KeyType → Token L → Prop where
  | access {userId role jkt : String} {priv : L.PrivateKey} {issued signed : Nat}
      (hkey : L.decodePrivateKey k.privateKey = .ok priv) :
      SignedBy k now .Access (signWithCNF userId role priv k.kid jkt issued signed)
  | refresh {subject jti sid jkt : String} {priv : L.PrivateKey} {signed ttl : Nat} {tok : Token L}
      (hkey : L.decodePrivateKey k.privateKey = .ok priv)
      (hsign : signRefreshToken subject jti sid jkt priv k.kid signed ttl = .ok tok)
      (hsub : subject ≠ "") (hjti : jti ≠ "") (hsid : sid ≠ "") (hpast : signed ≤ now) :
      SignedBy k now .Refresh tok

/-- The token goes back to a row of its type. -/
def Genuine (t : KeyTable) (now : Nat) (kt : KeyType) (tok : Token L) : Prop :=
  ∃ k ∈ t.rows, k.type = kt ∧ SignedBy k now kt tok

structure KeyInv (s : KeyState L) : Prop where
  rows : ∀ k ∈ s.table.rows, WellFormed L k
  inserted : ∀ i tx row, s.txs i = some tx → tx.inserted = some row →
    WellFormed L row ∧ row.status = .Active ∧ tx.updated = some row.type
  scans : ∀ i, ∀ kid ∈ s.scans i, kid ∈ s.table.kids
  deactivated : ∀ i tx, s.txs i = some tx → ∀ kid ∈ tx.deactivated, kid ∈ s.scans i
  updated : ∀ i tx kt, s.txs i = some tx → tx.updated = some kt → ∀ k ∈ s.table.rows,
    k.status = .Active → k.type = kt → k.kid ∈ s.scans i → k.kid ∈ tx.deactivated
  issued : ∀ x ∈ s.issued, Genuine s.table s.now x.type x.token
  started : ∀ i, ∀ x ∈ s.started i, x ∈ s.issued
  stems : ∀ n, Stems s.table (s.memory n).set
  served : ∀ set ∈ s.served, Stems s.table set
  loaded : ∀ i, ∀ kid ∈ s.loaded i, kid ∈ s.table.kids
  sources : ∀ n, ∀ kid ∈ s.sources n, kid ∈ s.table.kids
  covers : ∀ n, Covers s.table (s.sources n) (s.memory n).set

/-- Other calls leave alone what belongs to call `i`, at most its session dies. -/
structure Undisturbed (i : Nat) (s t : KeyState L) : Prop where
  table : Descends s.table t.table
  now : s.now ≤ t.now
  tx : t.txs i = s.txs i ∨ t.txs i = none
  scans : t.scans i = s.scans i
  started : t.started i = s.started i
  loaded : t.loaded i = s.loaded i

/-- Every token signed before call `i` began goes back to a row of its last table read. -/
def CaughtUp (s : KeyState L) (i : Nat) : Prop :=
  ∀ x ∈ s.started i, ∀ kid, x.token.kid = some kid → kid ∈ s.loaded i

/-- What each command must meet when it is issued. -/
def Guarantee (i : Nat) : KeyCmd L → KeyState L → Prop
  | .scan _, s => ∀ tx, s.txs i = some tx → tx = ⟨none, [], none⟩
  | .deactivate _, s => ∀ tx, s.txs i = some tx → tx.inserted = none
  | .insert row, s => WellFormed L row ∧ row.status = .Active ∧
      ∀ tx, s.txs i = some tx → tx.updated = some row.type
  | .store _ m, s => Stems s.table m.set ∧ Covers s.table (s.loaded i) m.set
  | .serve _, s => CaughtUp s i
  | .sign kt tok, s => Genuine s.table s.now kt tok
  | _, _ => True

variable (L) in
def keyContract : Contract (KeyState L) (KeyCmd L) where
  inv := KeyInv
  rely := Undisturbed
  guar := Guarantee

end Chinwag.Keys

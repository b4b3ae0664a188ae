import Mathlib.Data.List.Sort
import Mathlib.Logic.Function.Basic
import Chinwag.Chat.Commands

/-!
# The database of the command service

The two tables, the transactions open on them and the calls to JetStream made so far.
Transactions run at READ COMMITTED: a statement sees the committed rows and its own
writes, and a row written by an open transaction is locked for all others. Tables are
changed by commits and by the publisher's two single-statement updates only.
-/
namespace Chinwag.Chat

open Rfc3339 Program

structure MessageRow where
  roomId : Uuid
  authorId : Uuid
  messageType : MessageType
  content : String
  createdAt : Nat
  updatedAt : Option Nat
  deletedAt : Option Nat
  deriving DecidableEq

/-- `chat_messages`, by primary key. -/
abbrev Messages := Uuid → Option MessageRow

/-- A change of one row of `chat_messages`. -/
inductive Mutation where
  | insert (id : Uuid) (row : MessageRow)
  | setContent (id : Uuid) (content : String) (now : Nat)
  | softDelete (id : Uuid) (now : Nat)
  deriving DecidableEq

def Mutation.target : Mutation → Uuid
  | .insert id _ => id
  | .setContent id _ _ => id
  | .softDelete id _ => id

/-- What a change makes of the row it meets. -/
def Mutation.on : Mutation → Option MessageRow → Option MessageRow
  | .insert _ row, _ => some row
  | .setContent _ content now, row => row.map fun r => { r with content := content, updatedAt := some now }
  | .softDelete _ now, row => row.map fun r => { r with deletedAt := some now }

def Mutation.apply (w : Mutation) (m : Messages) : Messages :=
  Function.update m w.target (w.on (m w.target))

/-- Rows the statements of the service can see: those not soft-deleted. -/
def Visible (row : Option MessageRow) : Prop := ∃ r, row = some r ∧ r.deletedAt = none

/-- A change that finds its row: a new key for an insert, which is not a deleted row, and a
visible row otherwise. -/
def Mutation.Enabled (w : Mutation) (m : Messages) : Prop :=
  match w with
  | .insert id row => m id = none ∧ row.deletedAt = none
  | .setContent id _ _ => Visible (m id)
  | .softDelete id _ => Visible (m id)

/-- A transaction: when it began, and what it has written so far. -/
structure Tx where
  start : Nat
  writes : List Mutation
  events : List OutboxEvent

def Tx.view (tx : Tx) (m : Messages) : Messages := tx.writes.foldl (fun m w => w.apply m) m

/-- The trace a committed transaction leaves. -/
structure Commit where
  thread : Nat
  start : Nat
  writes : List Mutation
  events : List OutboxEvent

/-- `created_at` defaults to the time the transaction began. -/
def newRow (start : Nat) (event : OutboxEvent) : OutboxRow :=
  { event with createdAt := start, publishedAt := none, retryCount := 0 }

def OutboxRow.marked (now : Nat) (r : OutboxRow) : OutboxRow := { r with publishedAt := some now }

def OutboxRow.retried (r : OutboxRow) : OutboxRow := { r with retryCount := r.retryCount + 1 }

/-- `history` lists the commits, `attempts` the `PublishRaw` calls with their outcomes and
`owed` the failed ones whose `IncrementRetry` has not run; no command reads them. -/
structure Store where
  messages : Messages
  outbox : List OutboxRow
  txs : Nat → Option Tx
  now : Nat
  timers : Nat → Uuid → Option Int
  history : List Commit
  attempts : List (Uuid × Bool)
  owed : List (Nat × Uuid)

namespace Store

def setTx (s : Store) (i : Nat) (tx : Option Tx) : Store := { s with txs := Function.update s.txs i tx }

/-- No other transaction has written the row. -/
def Unlocked (s : Store) (i : Nat) (id : Uuid) : Prop :=
  ∀ j tx, j ≠ i → s.txs j = some tx → ∀ w ∈ tx.writes, w.target ≠ id

def outboxIds (s : Store) : List Uuid := s.outbox.map (·.id)

/-- No committed or staged event has this primary key. -/
def EventIdFree (s : Store) (id : Uuid) : Prop :=
  id ∉ s.outboxIds ∧ ∀ j tx, s.txs j = some tx → ∀ e ∈ tx.events, e.id ≠ id

def addWrite (s : Store) (i : Nat) (tx : Tx) (w : Mutation) : Store :=
  s.setTx i (some { tx with writes := tx.writes ++ [w] })

def addEvent (s : Store) (i : Nat) (tx : Tx) (e : OutboxEvent) : Store :=
  s.setTx i (some { tx with events := tx.events ++ [e] })

def commitTx (s : Store) (i : Nat) (tx : Tx) : Store :=
  { s.setTx i none with
    messages := tx.view s.messages
    outbox := s.outbox ++ tx.events.map (newRow tx.start)
    history := s.history ++ [⟨i, tx.start, tx.writes, tx.events⟩] }

def updateOutbox (s : Store) (id : Uuid) (f : OutboxRow → OutboxRow) : Store :=
  { s with outbox := s.outbox.map fun r => if r.id = id then f r else r }

def setOwed (s : Store) (owed : List (Nat × Uuid)) : Store := { s with owed := owed }

def setTimer (s : Store) (publisher : Nat) (id : Uuid) (t : Option Int) : Store :=
  { s with timers := Function.update s.timers publisher (Function.update (s.timers publisher) id t) }

end Store

/-- A statement that may fail before it ran, or run and lose its reply. -/
def Fallible {α : Type} (effect : α → Store → Prop) (s : Store) (r : Except ChatError α) (s' : Store) :
    Prop :=
  match r with
  | .ok a => effect a s'
  | .error _ => s' = s ∨ ∃ a, effect a s'

/-- An insert into `chat_messages`; the row's `created_at` is the transaction's start. -/
def InsertMessage (i : Nat) (msg : ChatMessage) (s : Store) (_ : Unit) (s' : Store) : Prop :=
  ∃ tx, s.txs i = some tx ∧ tx.view s.messages msg.id = none ∧ s.Unlocked i msg.id ∧
    s' = s.addWrite i tx (.insert msg.id
      ⟨msg.roomId, msg.authorId, msg.messageType, msg.content, tx.start, none, none⟩)

/-- An `UPDATE … WHERE id = $n AND deleted_at IS NULL`: it waits for the lock of a row it
sees, and affects none where it sees no row. -/
def UpdateRow (i : Nat) (w : Nat → Mutation) (s : Store) (rows : Nat) (s' : Store) : Prop :=
  ∃ tx, s.txs i = some tx ∧
    (Visible (tx.view s.messages (w tx.start).target) ∧ s.Unlocked i (w tx.start).target ∧ rows = 1 ∧
        s' = s.addWrite i tx (w tx.start) ∨
      ¬ Visible (tx.view s.messages (w tx.start).target) ∧ rows = 0 ∧ s' = s)

def InsertOutbox (i : Nat) (event : OutboxEvent) (s : Store) (_ : Unit) (s' : Store) : Prop :=
  ∃ tx, s.txs i = some tx ∧ s.EventIdFree event.id ∧ s' = s.addEvent i tx event

/-- The rows `PollPending` selects from. -/
def Eligible (r : OutboxRow) : Prop := r.publishedAt = none ∧ r.retryCount < 20

instance (r : OutboxRow) : Decidable (Eligible r) :=
  inferInstanceAs (Decidable (r.publishedAt = none ∧ r.retryCount < 20))

/-- `ORDER BY created_at ASC LIMIT n`; rows of one `created_at` come in any order. -/
def PollPending (outbox : List OutboxRow) (n : Nat) (result : List OutboxRow) : Prop :=
  ∃ sorted : List OutboxRow, sorted.Perm (outbox.filter (fun r => Eligible r)) ∧
    sorted.Pairwise (fun a b => a.createdAt ≤ b.createdAt) ∧ result = sorted.take n

/-- A row as the driver hands it to the service; `present` gives instants their zone. -/
def MessageRow.read (present : Nat → Time) (id : Uuid) (row : MessageRow) : ChatMessage where
  id := id
  roomId := row.roomId
  authorId := row.authorId
  messageType := row.messageType
  content := row.content
  createdAt := present row.createdAt
  updatedAt := row.updatedAt.map present
  deletedAt := row.deletedAt.map present

/-- How the shared state answers a command of thread `i`. A reply of another service or of
a clock is arbitrary. -/
def exec (present : Nat → Time) (i : Nat) : (c : ChatCmd) → Store → ChatReply c → Store → Prop
  | .now, s, _, s' => s' = s
  | .newV7, s, _, s' => s' = s
  | .getRoomById _, s, _, s' => s' = s
  | .getMembersByRoomId _, s, _, s' => s' = s
  | .getUser _, s, _, s' => s' = s
  | .getMessageById id, s, r, s' =>
    s' = s ∧ ∀ msg, r = .ok msg → ∃ row, s.messages id = some row ∧ row.deletedAt = none ∧
      msg = row.read present id
  | .begin, s, r, s' =>
    match r with
    | .ok _ => s' = s.setTx i (some ⟨s.now, [], []⟩)
    | .error _ => s' = s
  | .insertMessage msg, s, r, s' => Fallible (InsertMessage i msg s) s r s'
  | .updateMessage id content, s, r, s' =>
    Fallible (UpdateRow i (fun now => .setContent id content now) s) s r s'
  | .deleteMessage id, s, r, s' => Fallible (UpdateRow i (fun now => .softDelete id now) s) s r s'
  | .insertOutbox event, s, r, s' => Fallible (InsertOutbox i event s) s r s'
  | .commit, s, r, s' =>
    match r with
    | .ok _ => ∃ tx, s.txs i = some tx ∧ s' = s.commitTx i tx
    | .error _ => s' = s ∨ s' = s.setTx i none
  | .rollback, s, r, s' =>
    match r with
    | .ok _ => s' = s.setTx i none
    | .error _ => s' = s ∨ s' = s.setTx i none
  | .pollPending n, s, r, s' => s' = s ∧ ∀ rows, r = .ok rows → PollPending s.outbox n rows
  | .markPublished id, s, r, s' =>
    Fallible (fun _ s' => s' = s.updateOutbox id (OutboxRow.marked s.now)) s r s'
  | .incrementRetry id, s, r, s' =>
    Fallible (fun _ s' => s' = (s.updateOutbox id OutboxRow.retried).setOwed (s.owed.erase (i, id))) s r s'
  | .publishRaw evt, s, r, s' =>
    match r with
    | .ok _ => s' = { s with attempts := s.attempts ++ [(evt.id, true)] }
    | .error _ =>
      s' = { s with attempts := s.attempts ++ [(evt.id, false)], owed := (i, evt.id) :: s.owed }
  | .cleanupBackoff p, s, _, s' =>
    ∃ t : Int, s' = { s with
      timers := Function.update s.timers p (fun id => (s.timers p id).filter fun u => t ≤ u) }
  | .inBackoff p id, s, r, s' => s' = s ∧ ∃ t : Int, r = (s.timers p id).any fun u => t < u
  | .setBackoff p id retryCount, s, _, s' =>
    ∃ t : Int, s' = s.setTimer p id (some (t + backoffDuration retryCount))
  | .clearBackoff p id, s, _, s' => s' = s.setTimer p id none

/-- What happens on its own: the database clock moves, a connection and its transaction
are lost, a publisher restarts with no timers. -/
inductive Ambient where
  | elapse (n : Nat)
  | abort (i : Nat)
  | restart (publisher : Nat)

def ambient (s : Store) (e : Ambient) (s' : Store) : Prop :=
  match e with
  | .elapse n => s' = { s with now := s.now + n }
  | .abort i => s' = s.setTx i none
  | .restart p => s' = { s with timers := Function.update s.timers p (fun _ => none) }

def chatSemantics (present : Nat → Time) : Semantics Store Ambient ChatCmd ChatReply where
  exec := exec present
  env := ambient

/-- Any tables whose outbox has a primary key, with nothing under way. -/
structure Starts (s : Store) : Prop where
  keys : s.outboxIds.Nodup
  txs : ∀ i, s.txs i = none
  timers : ∀ p id, s.timers p id = none
  history : s.history = []
  attempts : s.attempts = []
  owed : s.owed = []

abbrev ChatPool := Pool Store ChatCmd ChatReply Outcome

def InitialPool (pool : ChatPool) : Prop := pool.threads = [] ∧ Starts pool.shared

abbrev ChatStep (present : Nat → Time) := Step (chatSemantics present) Entry

end Chinwag.Chat

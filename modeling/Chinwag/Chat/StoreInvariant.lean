import Chinwag.Chat.Store

/-!
# What every state of the command service's database satisfies

The write side: committed transactions couple one change with the event announcing it,
and open ones are on the way to that. The publishing side: what the flags, counters and
timers say has happened to `PublishRaw`.
-/
namespace Chinwag.Chat

open Program

/-- The message an event carries is the row, as far as consumers read it. -/
structure Describes (id : Uuid) (row : MessageRow) (msg : ChatMessage) : Prop where
  id : msg.id = id
  roomId : msg.roomId = row.roomId
  authorId : msg.authorId = row.authorId
  messageType : msg.messageType = row.messageType
  content : msg.content = row.content

/-- The event has the type, subject and payload for a change that left this row. -/
def Announces (w : Mutation) (row : MessageRow) (e : OutboxEvent) : Prop :=
  match w with
  | .insert id _ => ∃ msg name payload, Describes id row msg ∧
      newMessagePayload (toResponse msg name) = some payload ∧ e = createdEvent e.id row.roomId payload
  | .setContent id _ _ => ∃ msg name payload t, Describes id row msg ∧ msg.updatedAt = some t ∧
      updatedMessagePayload (toResponse msg name) = some payload ∧
      e = updatedEvent e.id row.roomId payload
  | .softDelete id _ => e = deletedEvent e.id row.roomId (deletedMessagePayload id row.roomId)

def Coupled (m : Messages) (w : Mutation) (e : OutboxEvent) : Prop :=
  ∃ row, w.apply m w.target = some row ∧ Announces w row e

/-- The table is what the commits made of the first one, each of them one change that
found its row together with the one event announcing it. -/
inductive Replays (m₀ : Messages) : List Commit → Messages → Prop where
  | nil : Replays m₀ [] m₀
  | snoc {history : List Commit} {m : Messages} {w : Mutation} {e : OutboxEvent} (i start : Nat) :
      Replays m₀ history m → w.Enabled m → Coupled m w e →
      Replays m₀ (history ++ [⟨i, start, [w], [e]⟩]) (w.apply m)

/-- A transaction of the service before, between and after its two statements. -/
inductive TxShape (m : Messages) : Tx → Prop where
  | started (start : Nat) : TxShape m ⟨start, [], []⟩
  | written {w : Mutation} (start : Nat) : w.Enabled m → TxShape m ⟨start, [w], []⟩
  | complete {w : Mutation} {e : OutboxEvent} (start : Nat) : w.Enabled m → Coupled m w e →
      TxShape m ⟨start, [w], [e]⟩

/-- What is fixed about an outbox row once it is committed. -/
def OutboxRow.written (r : OutboxRow) : OutboxEvent × Nat := (r.toOutboxEvent, r.createdAt)

theorem OutboxRow.written_marked (now : Nat) (r : OutboxRow) : (r.marked now).written = r.written := rfl

theorem OutboxRow.written_retried (r : OutboxRow) : r.retried.written = r.written := rfl

def Store.written (s : Store) : List (OutboxEvent × Nat) := s.outbox.map OutboxRow.written

def Commit.written (c : Commit) : List (OutboxEvent × Nat) := c.events.map fun e => (e, c.start)

structure WriteInv (s₀ s : Store) : Prop where
  replays : Replays s₀.messages s.history s.messages
  written : s.written = s₀.written ++ s.history.flatMap Commit.written
  keys : s.outboxIds.Nodup
  shape : ∀ i tx, s.txs i = some tx → TxShape s.messages tx
  locks : ∀ i j tx tx', i ≠ j → s.txs i = some tx → s.txs j = some tx' →
    ∀ w ∈ tx.writes, ∀ w' ∈ tx'.writes, w.target ≠ w'.target
  fresh : ∀ i tx, s.txs i = some tx → ∀ e ∈ tx.events, e.id ∉ s.outboxIds
  apart : ∀ i j tx tx', i ≠ j → s.txs i = some tx → s.txs j = some tx' →
    ∀ e ∈ tx.events, ∀ e' ∈ tx'.events, e.id ≠ e'.id
  threads : (s.history.map Commit.thread).Nodup

def Attempted (attempts : List (Uuid × Bool)) (id : Uuid) : Prop := ∃ b, (id, b) ∈ attempts

/-- Event `a` was committed before event `b`, and its transaction began before that of `b`. -/
def Precedes (written : List (OutboxEvent × Nat)) (a b : Uuid) : Prop :=
  ∃ x y, [x, y].Sublist written ∧ x.1.id = a ∧ y.1.id = b ∧ x.2 < y.2

/-- For the events committed since the state `s₀`. -/
structure PublishInv (s₀ s : Store) : Prop where
  published : ∀ r ∈ s.outbox, r.id ∉ s₀.outboxIds → r.publishedAt ≠ none → (r.id, true) ∈ s.attempts
  retries : ∀ r ∈ s.outbox, r.id ∉ s₀.outboxIds →
    r.retryCount + s.owed.countP (fun o => o.2 = r.id) ≤ s.attempts.count (r.id, false)
  owed : ∀ o ∈ s.owed, (o.2, false) ∈ s.attempts
  timers : ∀ p id u, s.timers p id = some u → (id, false) ∈ s.attempts
  attempted : ∀ a ∈ s.attempts, a.1 ∈ s.outboxIds
  ordered : ∀ before after b, s.attempts = before ++ (b, true) :: after →
    ∀ a, Precedes s.written a b → a ∉ s₀.outboxIds → Attempted before a

structure StoreInv (s₀ s : Store) : Prop where
  write : WriteInv s₀ s
  publish : PublishInv s₀ s

/-- Rows stay, with the columns no statement changes. -/
def RowsPersist (m m' : Messages) : Prop :=
  ∀ id row, m id = some row → ∃ row', m' id = some row' ∧ row'.roomId = row.roomId ∧
    row'.authorId = row.authorId ∧ row'.messageType = row.messageType

/-- What thread `i` may assume of the others. -/
structure Rely (i : Nat) (s t : Store) : Prop where
  tx : t.txs i = s.txs i ∨ t.txs i = none
  rows : RowsPersist s.messages t.messages
  mine : t.history.filter (fun c => c.thread = i) = s.history.filter (fun c => c.thread = i)
  written : s.written <+: t.written
  attempts : s.attempts <+: t.attempts
  owed : ∀ id, (i, id) ∈ s.owed → (i, id) ∈ t.owed

/-- What a thread establishes before it issues a command. -/
def guarantee (s₀ : Store) (i : Nat) (c : ChatCmd) (s : Store) : Prop :=
  match c with
  | .insertMessage _ | .updateMessage _ _ | .deleteMessage _ =>
    ∀ tx, s.txs i = some tx → tx.writes = [] ∧ tx.events = []
  | .insertOutbox e => ∀ tx, s.txs i = some tx →
      ∃ w, tx.writes = [w] ∧ tx.events = [] ∧ Coupled s.messages w e
  | .commit => (∀ tx, s.txs i = some tx → tx.events ≠ []) ∧ ∀ c ∈ s.history, c.thread ≠ i
  | .markPublished id => (id, true) ∈ s.attempts
  | .incrementRetry id => (i, id) ∈ s.owed
  | .publishRaw evt => evt.id ∈ s.outboxIds ∧
      ∀ a, Precedes s.written a evt.id → a ∉ s₀.outboxIds → Attempted s.attempts a
  | .setBackoff _ id _ => (id, false) ∈ s.attempts
  | _ => True

def chatContract (s₀ : Store) : Contract Store ChatCmd where
  inv := StoreInv s₀
  rely := Rely
  guar := guarantee s₀

theorem RowsPersist.refl (m : Messages) : RowsPersist m m :=
  fun _ row h => ⟨row, h, rfl, rfl, rfl⟩

theorem RowsPersist.trans {m m' m'' : Messages} (h : RowsPersist m m') (h' : RowsPersist m' m'') :
    RowsPersist m m'' := by
  intro id row hr
  obtain ⟨r', hr', h₁, h₂, h₃⟩ := h id row hr
  obtain ⟨r'', hr'', h₁', h₂', h₃'⟩ := h' id r' hr'
  exact ⟨r'', hr'', h₁'.trans h₁, h₂'.trans h₂, h₃'.trans h₃⟩

@[simp] theorem Mutation.apply_target (w : Mutation) (m : Messages) :
    w.apply m w.target = w.on (m w.target) := by
  simp [Mutation.apply]

theorem Mutation.apply_ne (w : Mutation) (m : Messages) {id : Uuid} (h : id ≠ w.target) :
    w.apply m id = m id := by
  simp [Mutation.apply, h]

/-- A change that found its row removes none. -/
theorem Mutation.rowsPersist {w : Mutation} {m : Messages} (h : w.Enabled m) :
    RowsPersist m (w.apply m) := by
  intro id row hr
  by_cases hid : id = w.target
  · subst hid
    rw [w.apply_target, hr]
    cases w with
    | insert id row' =>
      have hnone : m id = none := h.1
      simp only [target] at hr
      rw [hnone] at hr
      cases hr
    | setContent id content now => exact ⟨_, rfl, rfl, rfl, rfl⟩
    | softDelete id now => exact ⟨_, rfl, rfl, rfl, rfl⟩
  · exact ⟨row, by rw [w.apply_ne m hid, hr], rfl, rfl, rfl⟩

end Chinwag.Chat

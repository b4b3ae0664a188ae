import Chinwag.Chat.StoreInvariant

/-!
# Calls and batches that run alone

With no transaction open and every call answered, a unit of work commits its change and
its event; a publisher that is not in backoff publishes, or counts a failure.
-/
namespace Chinwag.Chat

open Program Rfc3339

variable {present : Nat → Time} {i : Nat} {s t : Store} {α β : Type}

/-- A thread of the command service running with no other one. -/
abbrev Solo (present : Nat → Time) (i : Nat) (p : ChatProg α) (s : Store) (a : α) (t : Store) : Prop :=
  Alone (exec present i) Eq p s a t

theorem solo_perform {c : ChatCmd} {r : ChatReply c} (h : exec present i c s r t) :
    Solo present i (Prog.perform c) s r t :=
  .perform rfl h

theorem solo_checked {p : ChatProg (Except ChatError α)} {f : α → ChatProg (Except ChatError β)}
    {a : α} {b : Except ChatError β} {u : Store} (h : Solo present i p s (.ok a) t)
    (hf : Solo present i (f a) t b u) : Solo present i (checked p f) s b u :=
  h.bind hf

/-- The store after a thread committed one change with its event. -/
def Store.committed (s : Store) (i : Nat) (w : Mutation) (e : OutboxEvent) : Store :=
  { s with
    messages := w.apply s.messages
    outbox := s.outbox ++ [newRow s.now e]
    history := s.history ++ [⟨i, s.now, [w], [e]⟩] }

/-- The store with the transaction of thread `i` opened and its change staged. -/
def Store.staging (s : Store) (i : Nat) (w : Mutation) : Store :=
  s.setTx i (some ⟨s.now, [w], []⟩)

theorem solo_unitOfWork {statement : ChatProg (Except ChatError Unit)} {w : Mutation}
    (event : Uuid → OutboxEvent) {id : Uuid} (hidle : ∀ j, s.txs j = none)
    (hid : (event id).id = id) (hfree : id ∉ s.outboxIds)
    (hstatement : Solo present i statement (s.setTx i (some ⟨s.now, [], []⟩)) (.ok ()) (s.staging i w)) :
    Solo present i (unitOfWork (checked statement fun _ => insertEvent event)) s (.ok ())
      (s.committed i w (event id)) := by
  have hself : (s.staging i w).txs i = some ⟨s.now, [w], []⟩ := by simp [Store.staging, Store.setTx]
  have hothers : ∀ j tx, (s.staging i w).txs j = some tx → tx.events = [] := by
    intro j tx hj
    by_cases hji : j = i
    · subst hji
      rw [hself, Option.some.injEq] at hj
      rw [← hj]
    · simp [Store.staging, Store.setTx, hji, hidle] at hj
  set s₁ := (s.staging i w).addEvent i ⟨s.now, [w], []⟩ (event id)
  have hinsert : Solo present i (insertEvent event) (s.staging i w) (.ok ()) s₁ := by
    refine .bind (solo_perform (c := ChatCmd.newV7) (r := id) rfl) (solo_perform ?_)
    refine ⟨⟨s.now, [w], []⟩, hself, ⟨?_, fun j tx hj e he => ?_⟩, rfl⟩
    · rw [hid]
      exact hfree
    · rw [hothers j tx hj] at he
      cases he
  have hcommit : Solo present i commit s₁ (.ok ()) (s.committed i w (event id)) := by
    refine solo_perform ⟨⟨s.now, [w], [event id]⟩, ?_, ?_⟩
    · simp [s₁, Store.addEvent, Store.setTx]
    · have hclosed : Function.update s.txs i none = s.txs := by
        rw [← hidle i, Function.update_eq_self]
      simp [s₁, Store.committed, Store.commitTx, Store.addEvent, Store.staging, Store.setTx, Tx.view,
        hclosed]
  refine solo_checked (solo_perform (c := ChatCmd.begin) (r := .ok ()) rfl) ?_
  exact .bind (solo_checked hstatement hinsert) hcommit

/-- The row a create inserts. -/
def createdRow (roomId authorId : Uuid) (req : CreateMessageRequest) (now : Nat) : MessageRow :=
  ⟨roomId, authorId, req.messageType, req.content, now, none, none⟩

/-- The message a create writes and answers with. -/
def createdMessage (roomId authorId : Uuid) (req : CreateMessageRequest) (now : Time) : ChatMessage :=
  { id := req.id, roomId := roomId, authorId := authorId, messageType := req.messageType
    content := req.content, createdAt := now, updatedAt := none, deletedAt := none }

theorem unlocked_of_idle (hidle : ∀ j, s.txs j = none) (o : Option Tx) (id : Uuid) :
    (s.setTx i o).Unlocked i id := by
  intro j tx hj htx
  simp [Store.setTx, hj, hidle] at htx

/-- A member of an open room creates a message under a new id. -/
theorem solo_create {roomId authorId id : Uuid} {req : CreateMessageRequest} {now : Time} {name : String}
    {payload : Json} (hidle : ∀ j, s.txs j = none) (hnew : s.messages req.id = none)
    (hfree : id ∉ s.outboxIds)
    (hpay : newMessagePayload (toResponse (createdMessage roomId authorId req now) name) = some payload) :
    Solo present i (serve (.create roomId authorId req)) s
      (.returned (.create roomId authorId req)
        (.ok (some (toResponse (createdMessage roomId authorId req now) name))))
      (s.committed i (.insert req.id (createdRow roomId authorId req s.now))
        (createdEvent id roomId payload)) := by
  have hmember : ([⟨authorId.toText⟩] : List RoomMemberInfo).any (fun m => m.userId == authorId.toText) := by
    simp
  have hstatement : Solo present i (insertMessage (createdMessage roomId authorId req now))
      (s.setTx i (some ⟨s.now, [], []⟩)) (.ok ())
      (s.staging i (.insert req.id (createdRow roomId authorId req s.now))) := by
    refine solo_perform ⟨⟨s.now, [], []⟩, by simp [Store.setTx], hnew, unlocked_of_idle hidle _ _, ?_⟩
    simp [Store.staging, Store.addWrite, Store.setTx, createdRow, createdMessage]
  have hwork := solo_unitOfWork (fun id => createdEvent id roomId payload) hidle rfl hfree hstatement
  refine .bind (solo_checked ?_ (.ret _ _)) (.ret _ _)
  refine solo_checked (solo_perform (c := ChatCmd.getRoomById _) (r := .ok ⟨none⟩) rfl) ?_
  refine solo_checked (solo_perform (c := ChatCmd.getMembersByRoomId _)
    (r := .ok [⟨authorId.toText⟩]) rfl) ?_
  rw [if_pos hmember]
  refine solo_checked (solo_perform (c := ChatCmd.getUser _) (r := .ok ⟨name⟩) rfl) ?_
  refine .bind (solo_perform (c := ChatCmd.now) (r := now) rfl) ?_
  have hpay' := hpay
  unfold createdMessage at hpay'
  simp only [hpay', marshalled]
  exact solo_checked hwork (.ret _ _)

/-- The message an edit writes and answers with. -/
def editedMessage (msg : ChatMessage) (content : String) (now : Time) : ChatMessage :=
  { msg with content := content, updatedAt := some now }

/-- The author edits a message of an open room. -/
theorem solo_update {messageId authorId id : Uuid} {row : MessageRow} {content : String} {now : Time}
    {name : String} {payload : Json} (hidle : ∀ j, s.txs j = none)
    (hrow : s.messages messageId = some row) (hlive : row.deletedAt = none)
    (hauthor : row.authorId = authorId) (hfree : id ∉ s.outboxIds)
    (hpay : updatedMessagePayload (toResponse (editedMessage (row.read present messageId) content now) name)
      = some payload) :
    Solo present i (serve (.update messageId authorId ⟨some content⟩)) s
      (.returned (.update messageId authorId ⟨some content⟩)
        (.ok (some (toResponse (editedMessage (row.read present messageId) content now) name))))
      (s.committed i (.setContent messageId content s.now) (updatedEvent id row.roomId payload)) := by
  have hstatement : Solo present i
      (repoUpdateMessage { row.read present messageId with content := content })
      (s.setTx i (some ⟨s.now, [], []⟩)) (.ok ())
      (s.staging i (.setContent messageId content s.now)) := by
    refine solo_checked (a := 1) (solo_perform ?_) (.ret _ _)
    refine ⟨⟨s.now, [], []⟩, by simp [Store.setTx], Or.inl ⟨⟨row, hrow, hlive⟩,
      unlocked_of_idle hidle _ _, rfl, ?_⟩⟩
    simp [Store.staging, Store.addWrite, Store.setTx, MessageRow.read]
  have hwork := solo_unitOfWork (fun id => updatedEvent id row.roomId payload) hidle rfl hfree hstatement
  refine .bind (solo_checked ?_ (.ret _ _)) (.ret _ _)
  refine solo_checked (solo_perform (c := ChatCmd.getMessageById _)
    (r := .ok (row.read present messageId)) ⟨rfl, ?_⟩) ?_
  · rintro msg ⟨⟩
    exact ⟨row, hrow, hlive, rfl⟩
  refine solo_checked (solo_perform (c := ChatCmd.getRoomById _) (r := .ok ⟨none⟩) rfl) ?_
  have hown : ¬ (row.read present messageId).authorId ≠ authorId := fun hne => hne hauthor
  rw [if_neg (by simp), if_neg hown]
  refine .bind (solo_perform (c := ChatCmd.now) (r := now) rfl) ?_
  refine solo_checked (solo_perform (c := ChatCmd.getUser _) (r := .ok ⟨name⟩) rfl) ?_
  have hpay' := hpay
  unfold editedMessage at hpay'
  simp only [Option.getD_some, hpay', marshalled]
  exact solo_checked hwork (.ret _ _)

/-- A database just migrated. -/
def emptyStore : Store where
  messages := fun _ => none
  outbox := []
  txs := fun _ => none
  now := 0
  timers := fun _ _ => none
  history := []
  attempts := []
  owed := []

theorem starts_empty : Starts emptyStore :=
  ⟨List.nodup_nil, fun _ => rfl, fun _ _ => rfl, rfl, rfl, rfl⟩

section Sample

def sampleTime : Time := ⟨2026, 7, 30, 12, 0, 0, 0, 0, by decide⟩

def sampleRoom : Uuid := ⟨"aaaaaaaa-0000-4000-8000-000000000000", by decide⟩

def sampleAuthor : Uuid := ⟨"bbbbbbbb-0000-4000-8000-000000000000", by decide⟩

def sampleMessage : Uuid := ⟨"cccccccc-0000-4000-8000-000000000000", by decide⟩

def sampleEvent : Uuid := ⟨"dddddddd-0000-4000-8000-000000000000", by decide⟩

def sampleRequest : CreateMessageRequest := ⟨sampleMessage, ⟨0, by decide⟩, "hello"⟩

def sampleCreate : Call := .create sampleRoom sampleAuthor sampleRequest

def sampleCreated : ChatMessage := createdMessage sampleRoom sampleAuthor sampleRequest sampleTime

theorem exists_samplePayload :
    ∃ payload, newMessagePayload (toResponse sampleCreated "Ann") = some payload := by
  have htime : ∃ text, marshal sampleTime = some text := exists_marshal (by decide) (by decide)
  obtain ⟨json, hjson⟩ : ∃ json, (toResponse sampleCreated "Ann").marshalJson = some json :=
    exists_marshalJson htime ⟨[], rfl⟩
  exact ⟨_, by rw [newMessagePayload, hjson]; rfl⟩

def sampleEditEvent : Uuid := ⟨"eeeeeeee-0000-4000-8000-000000000000", by decide⟩

theorem exists_sampleEditPayload :
    ∃ payload, updatedMessagePayload (toResponse (editedMessage sampleCreated "edited" sampleTime) "Ann") =
      some payload := by
  obtain ⟨text, htime⟩ : ∃ text, marshal sampleTime = some text := exists_marshal (by decide) (by decide)
  obtain ⟨json, hjson⟩ :
      ∃ json, (toResponse (editedMessage sampleCreated "edited" sampleTime) "Ann").marshalJson = some json :=
    exists_marshalJson ⟨text, htime⟩ ⟨_, marshalUpdatedAt_some htime⟩
  exact ⟨_, by rw [updatedMessagePayload, hjson]; rfl⟩

/-- From an empty database one create runs to its end. -/
theorem sampleCreate_run {payload : Json}
    (hpay : newMessagePayload (toResponse sampleCreated "Ann") = some payload) :
    ∃ trace, Transition.Run (ChatStep fun _ => sampleTime) ⟨emptyStore, []⟩ trace
      ⟨emptyStore.committed 0
        (.insert sampleMessage (createdRow sampleRoom sampleAuthor sampleRequest 0))
        (createdEvent sampleEvent sampleRoom payload),
        [.ret (.returned sampleCreate (.ok (some (toResponse sampleCreated "Ann"))))]⟩ :=
  Alone.spawn_run [] (.serve sampleCreate)
    (solo_create starts_empty.txs rfl List.not_mem_nil hpay)

end Sample

/-- The outbox after one event was published, or failed and was counted. -/
def attemptRow (now : Nat) (ok : Bool) (id : Uuid) (r : OutboxRow) : OutboxRow :=
  if r.id = id then (if ok then r.marked now else r.retried) else r

/-- What a publisher's work on some events leaves: each attempted once, each marked or counted. -/
structure Worked (events : List (Uuid × Bool)) (s t : Store) : Prop where
  outbox : t.outbox = events.foldl (fun o e => o.map (attemptRow s.now e.2 e.1)) s.outbox
  attempts : t.attempts = s.attempts ++ events
  messages : t.messages = s.messages
  history : t.history = s.history
  txs : t.txs = s.txs
  now : t.now = s.now

theorem Worked.trans {events events' : List (Uuid × Bool)} {u : Store} (h : Worked events s t)
    (h' : Worked events' t u) : Worked (events ++ events') s u where
  outbox := by rw [h'.outbox, h.now, h.outbox, List.foldl_append]
  attempts := by rw [h'.attempts, h.attempts, List.append_assoc]
  messages := h'.messages.trans h.messages
  history := h'.history.trans h.history
  txs := h'.txs.trans h.txs
  now := h'.now.trans h.now

/-- A publisher attempts an event as soon as its clock has passed the timer. -/
theorem solo_publishEvent (publisher : Nat) (evt : OutboxRow) (ok : Bool) (s : Store) :
    ∃ t, Solo present i (publishEvent publisher evt) s () t ∧ Worked [(evt.id, ok)] s t := by
  have hready : ∃ time : Int, false = (s.timers publisher evt.id).any fun u => time < u := by
    cases s.timers publisher evt.id with
    | none => exact ⟨0, rfl⟩
    | some u => exact ⟨u, by simp⟩
  have hbackoff : Solo present i (inBackoff publisher evt.id) s false s := solo_perform ⟨rfl, hready⟩
  cases ok with
  | true =>
    let s₁ : Store := { s with attempts := s.attempts ++ [(evt.id, true)] }
    refine ⟨(s₁.setTimer publisher evt.id none).updateOutbox evt.id (OutboxRow.marked s.now), ?_, ?_⟩
    · refine .bind hbackoff ?_
      refine .bind (solo_perform (c := ChatCmd.publishRaw evt) (r := .ok ()) (t := s₁) rfl) ?_
      refine .bind (solo_perform (c := ChatCmd.clearBackoff publisher evt.id) (r := ()) rfl) ?_
      exact .bind (solo_perform (c := ChatCmd.markPublished evt.id) (r := .ok ()) rfl) (.ret _ _)
    · exact ⟨rfl, rfl, rfl, rfl, rfl, rfl⟩
  | false =>
    let s₁ : Store := { s with
      attempts := s.attempts ++ [(evt.id, false)], owed := (i, evt.id) :: s.owed }
    let s₂ : Store := (s₁.updateOutbox evt.id OutboxRow.retried).setOwed (s₁.owed.erase (i, evt.id))
    refine ⟨s₂.setTimer publisher evt.id (some (0 + backoffDuration (evt.retryCount + 1))), ?_, ?_⟩
    · refine .bind hbackoff ?_
      refine .bind (solo_perform (c := ChatCmd.publishRaw evt) (r := .error (.call "publish"))
        (t := s₁) rfl) ?_
      refine .bind (solo_perform (c := ChatCmd.incrementRetry evt.id) (r := .ok ()) (t := s₂) rfl) ?_
      exact solo_perform (c := ChatCmd.setBackoff publisher evt.id _) ⟨0, rfl⟩
    · exact ⟨rfl, rfl, rfl, rfl, rfl, rfl⟩

theorem solo_publishEach (publisher : Nat) (ok : OutboxRow → Bool) (events : List OutboxRow) (s : Store) :
    ∃ t, Solo present i (publishEach publisher events) s () t ∧
      Worked (events.map fun e => (e.id, ok e)) s t := by
  induction events generalizing s with
  | nil => exact ⟨s, .ret () s, by simp, by simp, rfl, rfl, rfl, rfl⟩
  | cons evt events ih =>
    obtain ⟨t, hrun, hwork⟩ := solo_publishEvent publisher evt (ok evt) s
    obtain ⟨u, hrun', hwork'⟩ := ih t
    exact ⟨u, hrun.bind hrun', hwork.trans hwork'⟩

/-- One tick over a poll whose outcomes are given. -/
theorem solo_publish (publisher : Nat) (ok : OutboxRow → Bool) {rows : List OutboxRow}
    (hpoll : PollPending s.outbox batchSize rows) :
    ∃ t, Solo present i (publish publisher) s .ticked t ∧
      Worked (rows.map fun e => (e.id, ok e)) s t := by
  let s₁ : Store := { s with
    timers := Function.update s.timers publisher (fun id => (s.timers publisher id).filter fun u => 0 ≤ u) }
  obtain ⟨t, hrun, hwork⟩ := solo_publishEach publisher ok rows s₁
  have hbatch : Solo present i (processBatch publisher) s₁ () t := by
    refine .bind (solo_perform (c := ChatCmd.pollPending batchSize) (r := .ok rows) ⟨rfl, ?_⟩) hrun
    rintro rows' ⟨⟩
    exact hpoll
  have hclean : Solo present i (cleanupBackoff publisher) s () s₁ := solo_perform ⟨0, rfl⟩
  exact ⟨t, .bind (.bind hclean hbatch) (.ret _ _), hwork.outbox, hwork.attempts, hwork.messages,
    hwork.history, hwork.txs, hwork.now⟩

end Chinwag.Chat

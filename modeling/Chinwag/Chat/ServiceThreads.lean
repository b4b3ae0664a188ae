import Chinwag.Chat.StoreContract

/-!
# What a call of the chat service leaves behind

Every call is safe under the contract; it returns an error with nothing committed, or
a result with the one transaction it committed.
-/
namespace Chinwag.Chat

open Program Rfc3339

/-- Thread `i` has committed nothing. -/
def Uncommitted (i : Nat) (s : Store) : Prop := s.history.filter (fun c => c.thread = i) = []

/-- Thread `i` has committed one transaction, of one change and one event. -/
def Committed (i : Nat) (performed : Mutation → Prop) (s : Store) : Prop :=
  ∃ start w e, s.history.filter (fun c => c.thread = i) = [⟨i, start, [w], [e]⟩] ∧ performed w

/-- A fallible program: an error only with nothing committed, `R` otherwise. -/
def Returns {α : Type} (i : Nat) (R : α → Store → Prop) : Except ChatError α → Store → Prop
  | .error _, s => Uncommitted i s
  | .ok a, s => R a s

/-- The steps of the other threads leave it true. -/
def Lasting (i : Nat) (P : Store → Prop) : Prop := ∀ s t, P s → Rely i s t → P t

theorem uncommitted_iff {i : Nat} {s : Store} :
    Uncommitted i s ↔ ∀ c ∈ s.history, c.thread ≠ i := by
  simp [Uncommitted, List.filter_eq_nil_iff]

theorem lasting_uncommitted (i : Nat) : Lasting i (Uncommitted i) :=
  fun _ _ h hr => hr.mine.trans h

theorem lasting_committed (i : Nat) (performed : Mutation → Prop) :
    Lasting i (Committed i performed) := by
  rintro s t ⟨start, w, e, h, hw⟩ hr
  exact ⟨start, w, e, hr.mine.trans h, hw⟩

/-- The transaction of thread `i`, while it is open, stands as described. -/
structure Holding (i : Nat) (P : Messages → Tx → Prop) (s : Store) : Prop where
  uncommitted : Uncommitted i s
  holds : ∀ tx, s.txs i = some tx → P s.messages tx

theorem lasting_holding {i : Nat} {P : Messages → Tx → Prop}
    (hP : ∀ m m' tx, P m tx → RowsPersist m m' → P m' tx) : Lasting i (Holding i P) := by
  intro s t h hr
  refine ⟨lasting_uncommitted i s t h.uncommitted hr, fun tx htx => ?_⟩
  rcases hr.tx with hsame | hnone
  · rw [hsame] at htx
    exact hP _ _ tx (h.holds tx htx) hr.rows
  · rw [hnone] at htx
    cases htx

def Opened (_ : Messages) (tx : Tx) : Prop := tx.writes = [] ∧ tx.events = []

/-- An open transaction that has written nothing, over tables of which `P` is known. -/
def OpenedWith (P : Messages → Prop) (m : Messages) (tx : Tx) : Prop := Opened m tx ∧ P m

/-- The change is staged, and its event will fit whatever id it gets. -/
def Written (performed : Mutation → Prop) (event : Uuid → OutboxEvent) (m : Messages) (tx : Tx) : Prop :=
  ∃ w, tx.writes = [w] ∧ tx.events = [] ∧ performed w ∧ ∀ id, Coupled m w (event id)

def Staged (performed : Mutation → Prop) (_ : Messages) (tx : Tx) : Prop :=
  ∃ w e, tx.writes = [w] ∧ tx.events = [e] ∧ performed w

theorem lasting_opened (i : Nat) : Lasting i (Holding i Opened) :=
  lasting_holding fun _ _ _ h _ => h

theorem lasting_openedWith {i : Nat} {P : Messages → Prop}
    (hP : ∀ m m', P m → RowsPersist m m' → P m') : Lasting i (Holding i (OpenedWith P)) :=
  lasting_holding fun m m' _ h hr => ⟨h.1, hP m m' h.2 hr⟩

theorem lasting_staged (i : Nat) (performed : Mutation → Prop) :
    Lasting i (Holding i (Staged performed)) :=
  lasting_holding fun _ _ _ h _ => h

theorem lasting_written (i : Nat) (performed : Mutation → Prop) (event : Uuid → OutboxEvent) :
    Lasting i (Holding i (Written performed event)) := by
  refine lasting_holding ?_
  rintro m m' tx ⟨w, hw, he, hp, hc⟩ hrows
  exact ⟨w, hw, he, hp, fun id => (hc id).persist hrows⟩

variable {present : Nat → Time} {s₀ s : Store} {i : Nat} {α β : Type}

/-- Safety of a thread of the command service. -/
abbrev SafeThread (present : Nat → Time) (s₀ : Store) (i : Nat) (Q : α → Store → Prop)
    (p : ChatProg α) (s : Store) : Prop :=
  Safe (chatSemantics present) (chatContract s₀) i Q p s

theorem safe_perform_inv {c : ChatCmd} {P : Store → Prop} {Q : ChatReply c → Store → Prop} (hs : P s)
    (hlast : Lasting i P) (hguar : ∀ t, StoreInv s₀ t → P t → guarantee s₀ i c t)
    (hpost : ∀ t r u, StoreInv s₀ t → P t → exec present i c t r u → Q r u) :
    SafeThread present s₀ i Q (Prog.perform c) s := by
  intro s₁ hinv hrely
  have h₁ : P s₁ := hlast s s₁ hs hrely
  exact ⟨hguar s₁ hinv h₁, fun r s₂ hexec _ => hpost s₁ r s₂ hinv h₁ hexec⟩

theorem safe_perform {c : ChatCmd} {P : Store → Prop} {Q : ChatReply c → Store → Prop} (hs : P s)
    (hlast : Lasting i P) (hguar : ∀ t, P t → guarantee s₀ i c t)
    (hpost : ∀ t r u, P t → exec present i c t r u → Q r u) :
    SafeThread present s₀ i Q (Prog.perform c) s :=
  safe_perform_inv hs hlast (fun t _ => hguar t) fun t r u _ => hpost t r u

theorem safe_checked {R : α → Store → Prop} {R' : β → Store → Prop} {p : ChatProg (Except ChatError α)}
    {f : α → ChatProg (Except ChatError β)} (hp : SafeThread present s₀ i (Returns i R) p s)
    (hf : ∀ a t, R a t → SafeThread present s₀ i (Returns i R') (f a) t) :
    SafeThread present s₀ i (Returns i R') (checked p f) s := by
  refine hp.bind fun r t ht => ?_
  cases r with
  | error e => exact ht
  | ok a => exact hf a t ht

section Reads

variable {P : Store → Prop}

theorem safe_getRoomById (hlast : Lasting i P) (hunc : ∀ t, P t → Uncommitted i t) (roomId : String)
    (hs : P s) : SafeThread present s₀ i (Returns i fun _ => P) (getRoomById roomId) s := by
  refine safe_perform hs hlast (fun _ _ => trivial) fun t r u ht hexec => ?_
  have hu : u = t := hexec
  subst hu
  cases r with
  | error e => exact hunc u ht
  | ok a => exact ht

theorem safe_getMembersByRoomId (hlast : Lasting i P) (hunc : ∀ t, P t → Uncommitted i t)
    (roomId : String) (hs : P s) :
    SafeThread present s₀ i (Returns i fun _ => P) (getMembersByRoomId roomId) s := by
  refine safe_perform hs hlast (fun _ _ => trivial) fun t r u ht hexec => ?_
  have hu : u = t := hexec
  subst hu
  cases r with
  | error e => exact hunc u ht
  | ok a => exact ht

theorem safe_getUser (hlast : Lasting i P) (hunc : ∀ t, P t → Uncommitted i t) (userId : String)
    (hs : P s) : SafeThread present s₀ i (Returns i fun _ => P) (getUser userId) s := by
  refine safe_perform hs hlast (fun _ _ => trivial) fun t r u ht hexec => ?_
  have hu : u = t := hexec
  subst hu
  cases r with
  | error e => exact hunc u ht
  | ok a => exact ht

theorem safe_timeNow (hlast : Lasting i P) (hs : P s) :
    SafeThread present s₀ i (fun _ => P) timeNow s := by
  refine safe_perform hs hlast (fun _ _ => trivial) fun t r u ht hexec => ?_
  have hu : u = t := hexec
  rw [hu]
  exact ht

end Reads

/-- The columns that stay are those of the row the message was read from. -/
def Knows (msg : ChatMessage) (m : Messages) : Prop :=
  ∃ row, m msg.id = some row ∧ msg.roomId = row.roomId ∧ msg.authorId = row.authorId ∧
    msg.messageType = row.messageType

theorem Knows.persist {msg : ChatMessage} {m m' : Messages} (h : Knows msg m)
    (hp : RowsPersist m m') : Knows msg m' := by
  obtain ⟨row, hrow, h₁, h₂, h₃⟩ := h
  obtain ⟨row', hrow', h₁', h₂', h₃'⟩ := hp _ row hrow
  exact ⟨row', hrow', h₁.trans h₁'.symm, h₂.trans h₂'.symm, h₃.trans h₃'.symm⟩

/-- What a call knows after it has read its message. -/
structure HasRead (i : Nat) (messageId : Uuid) (msg : ChatMessage) (s : Store) : Prop where
  uncommitted : Uncommitted i s
  id : msg.id = messageId
  knows : Knows msg s.messages

theorem lasting_hasRead (i : Nat) (messageId : Uuid) (msg : ChatMessage) :
    Lasting i (HasRead i messageId msg) :=
  fun s t h hr => ⟨lasting_uncommitted i s t h.uncommitted hr, h.id, h.knows.persist hr.rows⟩

theorem safe_getMessageById (id : Uuid) (hs : Uncommitted i s) :
    SafeThread present s₀ i (Returns i (HasRead i id)) (getMessageById id) s := by
  refine safe_perform hs (lasting_uncommitted i) (fun _ _ => trivial) fun t r u ht hexec => ?_
  obtain ⟨hu, hread⟩ := hexec
  subst hu
  cases r with
  | error e => exact ht
  | ok msg =>
    obtain ⟨row, hrow, -, rfl⟩ := hread msg rfl
    exact ⟨ht, rfl, row, hrow, rfl, rfl, rfl⟩

section Transactions

variable {performed : Mutation → Prop} {event : Uuid → OutboxEvent}

/-- The unit of work commits what its function staged, or nothing. -/
theorem safe_unitOfWork {fn : ChatProg (Except ChatError Unit)} {P : Messages → Prop}
    (hP : ∀ m m', P m → RowsPersist m m' → P m') (hs : Uncommitted i s) (hm : P s.messages)
    (hfn : ∀ t, Holding i (OpenedWith P) t →
      SafeThread present s₀ i (Returns i fun _ => Holding i (Staged performed)) fn t) :
    SafeThread present s₀ i (Returns i fun _ => Committed i performed) (unitOfWork fn) s := by
  have hlast : Lasting i (fun t => Uncommitted i t ∧ P t.messages) := fun s t h hr =>
    ⟨lasting_uncommitted i s t h.1 hr, hP _ _ h.2 hr.rows⟩
  refine safe_checked (R := fun _ => Holding i (OpenedWith P))
    (safe_perform ⟨hs, hm⟩ hlast (fun _ _ => trivial) fun t r u ht hexec => ?_) fun _ t ht => ?_
  · cases r with
    | error e =>
      have hu : u = t := hexec
      rw [hu]
      exact ht.1
    | ok a =>
      have hu : u = t.setTx i (some ⟨t.now, [], []⟩) := hexec
      subst hu
      refine ⟨ht.1, fun tx htx => ?_⟩
      have hself : (t.setTx i (some ⟨t.now, [], []⟩)).txs i = some ⟨t.now, [], []⟩ := by
        simp [Store.setTx]
      rw [hself, Option.some.injEq] at htx
      rw [← htx]
      exact ⟨⟨rfl, rfl⟩, ht.2⟩
  · refine (hfn t ht).bind fun r u hu => ?_
    cases r with
    | error e =>
      -- whatever the rollback replies, the call returns an error
      refine Safe.bind (Q := fun _ => Uncommitted i) (safe_perform hu (lasting_uncommitted i)
        (fun _ _ => trivial) fun v r w hv hexec => ?_) fun r v hv => ?_
      · cases r with
        | ok _ =>
          have hw : w = v.setTx i none := hexec
          rw [hw]
          exact hv
        | error _ =>
          rcases hexec with hw | hw
          · rw [hw]
            exact hv
          · rw [hw]
            exact hv
      · cases r with
        | ok _ => exact hv
        | error _ => exact hv
    | ok a =>
      refine safe_perform hu (lasting_staged i performed) (fun v hv => ?_) fun v r w hv hexec => ?_
      · refine ⟨fun tx htx => ?_, uncommitted_iff.mp hv.uncommitted⟩
        obtain ⟨_, e, _, he, _⟩ := hv.holds tx htx
        rw [he]
        simp
      · cases r with
        | error _ =>
          rcases hexec with hw | hw
          · rw [hw]
            exact hv.uncommitted
          · rw [hw]
            exact hv.uncommitted
        | ok _ =>
          obtain ⟨tx, htx, hw⟩ := hexec
          obtain ⟨w', e, hw', he, hperf⟩ := hv.holds tx htx
          have hnone : v.history.filter (fun c => decide (c.thread = i)) = [] := hv.uncommitted
          refine ⟨tx.start, w', e, ?_, hperf⟩
          rw [hw]
          simp only [Store.commitTx, List.filter_append, hnone, List.nil_append]
          simp [hw', he]

/-- The event joins the change it announces. -/
theorem safe_insertEvent (hs : Holding i (Written performed event) s) :
    SafeThread present s₀ i (Returns i fun _ => Holding i (Staged performed)) (insertEvent event) s := by
  have hlast := lasting_written i performed event
  refine Safe.bind (Q := fun _ => Holding i (Written performed event))
    (safe_perform hs hlast (fun _ _ => trivial) fun t r u ht hexec => ?_) fun id t ht => ?_
  · have hu : u = t := hexec
    rw [hu]
    exact ht
  · refine safe_perform ht hlast (fun u hu tx htx => ?_) fun u r v hu hexec => ?_
    · obtain ⟨w, hw, he, -, hc⟩ := hu.holds tx htx
      exact ⟨w, hw, he, hc id⟩
    · have hstaged : ∀ v, InsertOutbox i (event id) u () v → Holding i (Staged performed) v := by
        rintro v ⟨tx, htx, -, rfl⟩
        obtain ⟨w, hw, he, hperf, -⟩ := hu.holds tx htx
        refine ⟨hu.uncommitted, fun tx' htx' => ?_⟩
        have hself : (u.addEvent i tx (event id)).txs i =
            some { tx with events := tx.events ++ [event id] } := by
          simp [Store.addEvent, Store.setTx]
        rw [hself, Option.some.injEq] at htx'
        rw [← htx']
        exact ⟨w, event id, hw, by simp [he], hperf⟩
      cases r with
      | ok _ => exact hstaged v hexec
      | error _ =>
        rcases hexec with rfl | ⟨_, hv⟩
        · exact hu.uncommitted
        · exact (hstaged v hv).uncommitted

/-- A change staged in an open transaction by a statement of thread `i`. -/
theorem holding_addWrite {tx : Tx} {w : Mutation} (hs : Uncommitted i s) (hempty : Opened s.messages tx)
    (hperf : performed w) (hc : ∀ id, Coupled s.messages w (event id)) :
    Holding i (Written performed event) (s.addWrite i tx w) := by
  refine ⟨hs, fun tx' htx' => ?_⟩
  have hself : (s.addWrite i tx w).txs i = some { tx with writes := tx.writes ++ [w] } := by
    simp [Store.addWrite, Store.setTx]
  rw [hself, Option.some.injEq] at htx'
  rw [← htx']
  exact ⟨w, by simp [hempty.1], hempty.2, hperf, hc⟩

theorem safe_insertMessage {msg : ChatMessage}
    (hs : Holding i Opened s)
    (hrow : ∀ n, performed (.insert msg.id
      ⟨msg.roomId, msg.authorId, msg.messageType, msg.content, n, none, none⟩))
    (hc : ∀ n m id, Coupled m (.insert msg.id
      ⟨msg.roomId, msg.authorId, msg.messageType, msg.content, n, none, none⟩) (event id)) :
    SafeThread present s₀ i (Returns i fun _ => Holding i (Written performed event))
      (insertMessage msg) s := by
  refine safe_perform hs (lasting_opened i) (fun t ht tx htx => ht.holds tx htx) fun t r u ht hexec => ?_
  have hwritten : ∀ u, InsertMessage i msg t () u → Holding i (Written performed event) u := by
    rintro u ⟨tx, htx, -, -, rfl⟩
    exact holding_addWrite ht.uncommitted (ht.holds tx htx) (hrow _) (hc _ _)
  cases r with
  | ok _ => exact hwritten u hexec
  | error _ =>
    rcases hexec with rfl | ⟨_, hu⟩
    · exact ht.uncommitted
    · exact (hwritten u hu).uncommitted

/-- An update either affects no row, or stages its change. -/
theorem updateRow_returns {w : Nat → Mutation} {P : Messages → Prop} {t u : Store}
    {r : Except ChatError Nat} (ht : Holding i (OpenedWith P) t) (hperf : ∀ n, performed (w n))
    (hc : ∀ n m id, P m → Visible (m (w n).target) → Coupled m (w n) (event id))
    (hexec : Fallible (UpdateRow i w t) t r u) :
    Returns i (fun rows u => if rows = 0 then Uncommitted i u else Holding i (Written performed event) u)
      r u := by
  have hrows : ∀ rows u, UpdateRow i w t rows u → Uncommitted i u ∧
      (rows ≠ 0 → Holding i (Written performed event) u) := by
    rintro rows u ⟨tx, htx, ⟨hvis, -, -, rfl⟩ | ⟨-, hzero, rfl⟩⟩
    · obtain ⟨hempty, hp⟩ := ht.holds tx htx
      rw [view_of_empty hempty.1] at hvis
      have hheld : Holding i (Written performed event) (t.addWrite i tx (w tx.start)) :=
        holding_addWrite ht.uncommitted hempty (hperf _) fun id => hc _ _ id hp hvis
      exact ⟨hheld.uncommitted, fun _ => hheld⟩
    · exact ⟨ht.uncommitted, fun hne => absurd hzero hne⟩
  cases r with
  | ok rows =>
    obtain ⟨hunc, hheld⟩ := hrows rows u hexec
    show if rows = 0 then _ else _
    split
    · exact hunc
    · exact hheld ‹_›
  | error _ =>
    rcases hexec with rfl | ⟨rows, hu⟩
    · exact ht.uncommitted
    · exact (hrows rows u hu).1

/-- The check on the number of rows turns an update that affected none into an error. -/
theorem safe_affectsRow {statement : ChatProg (Except ChatError Nat)}
    (h : SafeThread present s₀ i (Returns i fun rows u =>
      if rows = 0 then Uncommitted i u else Holding i (Written performed event) u) statement s) :
    SafeThread present s₀ i (Returns i fun _ => Holding i (Written performed event))
      (affectsRow statement) s := by
  refine safe_checked h fun rows t ht => ?_
  split
  · rename_i hzero
    rw [if_pos hzero] at ht
    exact ht
  · rename_i hpos
    rw [if_neg hpos] at ht
    exact ht

theorem safe_repoUpdateMessage {msg : ChatMessage} {P : Messages → Prop}
    (hP : ∀ m m', P m → RowsPersist m m' → P m') (hs : Holding i (OpenedWith P) s)
    (hperf : ∀ n, performed (.setContent msg.id msg.content n))
    (hc : ∀ n m id, P m → Visible (m msg.id) → Coupled m (.setContent msg.id msg.content n) (event id)) :
    SafeThread present s₀ i (Returns i fun _ => Holding i (Written performed event))
      (repoUpdateMessage msg) s := by
  refine safe_affectsRow (safe_perform hs (lasting_openedWith hP) (fun t ht tx htx => ?_) ?_)
  · exact (ht.holds tx htx).1
  · intro t r u ht hexec
    exact updateRow_returns ht hperf hc hexec

theorem safe_repoDeleteMessage {id : Uuid} {P : Messages → Prop}
    (hP : ∀ m m', P m → RowsPersist m m' → P m') (hs : Holding i (OpenedWith P) s)
    (hperf : ∀ n, performed (.softDelete id n))
    (hc : ∀ n m eid, P m → Visible (m id) → Coupled m (.softDelete id n) (event eid)) :
    SafeThread present s₀ i (Returns i fun _ => Holding i (Written performed event))
      (repoDeleteMessage id) s := by
  refine safe_affectsRow (safe_perform hs (lasting_openedWith hP) (fun t ht tx htx => ?_) ?_)
  · exact (ht.holds tx htx).1
  · intro t r u ht hexec
    exact updateRow_returns ht hperf hc hexec

end Transactions

/-- The change a call asks for. -/
def Performs (call : Call) (w : Mutation) : Prop :=
  match call with
  | .create roomId authorId req => ∃ row, w = .insert req.id row ∧ row.roomId = roomId ∧
      row.authorId = authorId ∧ row.messageType = req.messageType ∧ row.content = req.content
  | .update messageId _ req => ∃ content now, w = .setContent messageId content now ∧
      ∀ c, req.content = some c → content = c
  | .delete messageId _ => ∃ now, w = .softDelete messageId now
  | .adminDelete messageId => ∃ now, w = .softDelete messageId now

theorem safe_marshalled {R : β → Store → Prop} {payload : Option Json}
    {f : Json → ChatProg (Except ChatError β)} (hs : Uncommitted i s)
    (hf : ∀ json, payload = some json → SafeThread present s₀ i (Returns i R) (f json) s) :
    SafeThread present s₀ i (Returns i R) (marshalled payload f) s := by
  cases payload with
  | none => exact hs
  | some json => exact hf json rfl

theorem coupled_insert {msg : ChatMessage} {name : String} {payload : Json}
    (hp : newMessagePayload (toResponse msg name) = some payload) (n : Nat) (m : Messages) (id : Uuid) :
    Coupled m (.insert msg.id ⟨msg.roomId, msg.authorId, msg.messageType, msg.content, n, none, none⟩)
      (createdEvent id msg.roomId payload) :=
  ⟨_, Mutation.apply_target _ m, msg, name, payload, ⟨rfl, rfl, rfl, rfl, rfl⟩, hp, rfl⟩

theorem coupled_setContent (msg : ChatMessage) {name : String} {payload : Json} {t : Time}
    (ht : msg.updatedAt = some t) (hp : updatedMessagePayload (toResponse msg name) = some payload)
    (n : Nat) {m : Messages} (id : Uuid) (hk : Knows msg m) :
    Coupled m (.setContent msg.id msg.content n) (updatedEvent id msg.roomId payload) := by
  obtain ⟨row, hrow, h₁, h₂, h₃⟩ := hk
  refine ⟨{ row with content := msg.content, updatedAt := some n }, ?_, msg, name, payload, t, ?_, ht,
    hp, ?_⟩
  · rw [Mutation.apply_target]
    simp [Mutation.target, Mutation.on, hrow]
  · exact ⟨rfl, h₁, h₂, h₃, rfl⟩
  · simp only [h₁, updatedEvent]

theorem coupled_softDelete {msg : ChatMessage} (n : Nat) {m : Messages} (id : Uuid) (hk : Knows msg m) :
    Coupled m (.softDelete msg.id n)
      (deletedEvent id msg.roomId (deletedMessagePayload msg.id msg.roomId)) := by
  obtain ⟨row, hrow, h₁, -, -⟩ := hk
  refine ⟨{ row with deletedAt := some n }, ?_, ?_⟩
  · rw [Mutation.apply_target]
    simp [Mutation.target, Mutation.on, hrow]
  · simp only [Announces, h₁, deletedEvent]

theorem safe_createMessage (roomId authorId : Uuid) (req : CreateMessageRequest) (hs : Uncommitted i s) :
    SafeThread present s₀ i (Returns i fun _ => Committed i (Performs (.create roomId authorId req)))
      (createMessage roomId authorId req) s := by
  have hlast := lasting_uncommitted i
  refine safe_checked (safe_getRoomById hlast (fun _ h => h) _ hs) fun room s₁ h₁ => ?_
  split
  · exact h₁
  refine safe_checked (safe_getMembersByRoomId hlast (fun _ h => h) _ h₁) fun members s₂ h₂ => ?_
  split
  · refine safe_checked (safe_getUser hlast (fun _ h => h) _ h₂) fun user s₃ h₃ => ?_
    refine (safe_timeNow hlast h₃).bind fun now s₄ h₄ => ?_
    refine safe_marshalled h₄ fun payload hp => ?_
    refine safe_checked (safe_unitOfWork (P := fun _ => True) (fun _ _ h _ => h) h₄ trivial
      fun t ht => ?_) fun _ _ h => h
    have hopen : Holding i Opened t := ⟨ht.uncommitted, fun tx htx => (ht.holds tx htx).1⟩
    refine safe_checked (safe_insertMessage hopen ?_ fun n m id => coupled_insert hp n m id)
      fun _ _ h => safe_insertEvent h
    exact fun n => ⟨_, rfl, rfl, rfl, rfl, rfl⟩
  · exact h₂

theorem safe_updateMessage (messageId userId : Uuid) (req : UpdateMessageRequest)
    (hs : Uncommitted i s) :
    SafeThread present s₀ i (Returns i fun _ => Committed i (Performs (.update messageId userId req)))
      (updateMessage messageId userId req) s := by
  refine safe_checked (safe_getMessageById messageId hs) fun msg s₁ h₁ => ?_
  have hlast := lasting_hasRead i messageId msg
  refine safe_checked (safe_getRoomById hlast (fun _ h => h.uncommitted) _ h₁) fun room s₂ h₂ => ?_
  split
  · exact h₂.uncommitted
  split
  · exact h₂.uncommitted
  refine (safe_timeNow hlast h₂).bind fun now s₃ h₃ => ?_
  refine safe_checked (safe_getUser hlast (fun _ h => h.uncommitted) _ h₃) fun user s₄ h₄ => ?_
  refine safe_marshalled h₄.uncommitted fun payload hp => ?_
  refine safe_checked (safe_unitOfWork (P := Knows msg) (fun _ _ h hr => h.persist hr) h₄.uncommitted
    h₄.knows fun t ht => ?_) fun _ _ h => h
  refine safe_checked (safe_repoUpdateMessage (fun _ _ h hr => h.persist hr) ht ?_ ?_)
    fun _ _ h => safe_insertEvent h
  · intro n
    refine ⟨req.content.getD msg.content, n, by rw [h₄.id], fun c hreq => ?_⟩
    rw [hreq]
    rfl
  · intro n m id hk _
    exact coupled_setContent { msg with content := req.content.getD msg.content, updatedAt := some now }
      rfl hp n id hk

/-- The unit of work both ways of deleting a message run. -/
theorem safe_deleteWork {messageId : Uuid} {msg : ChatMessage} {performed : Mutation → Prop}
    (hperf : ∀ n, performed (.softDelete messageId n)) (hs : HasRead i messageId msg s) :
    SafeThread present s₀ i (Returns i fun _ => Committed i performed)
      (checked (unitOfWork (checked (repoDeleteMessage messageId) fun _ =>
        insertEvent fun id => deletedEvent id msg.roomId (deletedMessagePayload messageId msg.roomId)))
        fun _ => .ret (.ok ())) s := by
  have hid := hs.id
  subst hid
  refine safe_checked (safe_unitOfWork (P := Knows msg) (fun _ _ h hr => h.persist hr) hs.uncommitted
    hs.knows fun t ht => ?_) fun _ _ h => h
  refine safe_checked (safe_repoDeleteMessage (fun _ _ h hr => h.persist hr) ht hperf ?_)
    fun _ _ h => safe_insertEvent h
  intro n m id hk _
  exact coupled_softDelete n id hk

theorem safe_deleteMessage (messageId userId : Uuid) (hs : Uncommitted i s) :
    SafeThread present s₀ i (Returns i fun _ => Committed i (Performs (.delete messageId userId)))
      (deleteMessage messageId userId) s := by
  refine safe_checked (safe_getMessageById messageId hs) fun msg s₁ h₁ => ?_
  refine safe_checked (safe_getRoomById (lasting_hasRead i messageId msg) (fun _ h => h.uncommitted) _
    h₁) fun room s₂ h₂ => ?_
  split
  · exact h₂.uncommitted
  split
  · exact h₂.uncommitted
  exact safe_deleteWork (fun n => ⟨n, rfl⟩) h₂

theorem safe_adminDeleteMessage (messageId : Uuid) (hs : Uncommitted i s) :
    SafeThread present s₀ i (Returns i fun _ => Committed i (Performs (.adminDelete messageId)))
      (adminDeleteMessage messageId) s :=
  safe_checked (safe_getMessageById messageId hs) fun _ _ h₁ => safe_deleteWork (fun n => ⟨n, rfl⟩) h₁

theorem safe_call (call : Call) (hs : Uncommitted i s) :
    SafeThread present s₀ i (Returns i fun _ => Committed i (Performs call)) call.run s := by
  cases call with
  | create roomId authorId req =>
    exact safe_checked (safe_createMessage roomId authorId req hs) fun _ _ h => h
  | update messageId userId req =>
    exact safe_checked (safe_updateMessage messageId userId req hs) fun _ _ h => h
  | delete messageId userId => exact safe_checked (safe_deleteMessage messageId userId hs) fun _ _ h => h
  | adminDelete messageId => exact safe_checked (safe_adminDeleteMessage messageId hs) fun _ _ h => h

end Chinwag.Chat

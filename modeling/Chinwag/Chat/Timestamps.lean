import Chinwag.Chat.ProjectionRefines

/-!
# The times of a message on both sides

A call takes its times from its own clock, the statements take theirs from the transaction. Both
go out: the one in the response and the event, and so to the projection, the other in the row.
-/
namespace Chinwag.Chat

open Program Transition Rfc3339

section Replies

variable {α β : Type} {replies : List (Σ c, ChatReply c)}

theorem did_checked {p : ChatProg (Except ChatError α)} {f : α → ChatProg (Except ChatError β)} {b : β}
    (h : Did (checked p f) replies (.ok b)) :
    ∃ a first second, replies = first ++ second ∧ Did p first (.ok a) ∧ Did (f a) second (.ok b) := by
  obtain ⟨r, first, second, hsplit, hfirst, hsecond⟩ := did_bind h
  cases r with
  | error e =>
    obtain ⟨-, heq⟩ := did_ret hsecond
    cases heq
  | ok a => exact ⟨a, first, second, hsplit, hfirst, hsecond⟩

theorem not_did_fail {e : ChatError} {b : β} (h : Did (fail e : ChatProg (Except ChatError β)) replies (.ok b)) :
    False := by
  obtain ⟨-, heq⟩ := did_ret h
  cases heq

theorem did_marshalled {payload : Option Json} {f : Json → ChatProg (Except ChatError β)} {b : β}
    (h : Did (marshalled payload f) replies (.ok b)) : ∃ json, payload = some json ∧ Did (f json) replies (.ok b) := by
  cases payload with
  | none => exact (not_did_fail h).elim
  | some json => exact ⟨json, rfl, h⟩

/-- A unit of work that succeeds ends with its commit. -/
theorem did_unitOfWork {fn : ChatProg (Except ChatError Unit)} (h : Did (unitOfWork fn) replies (.ok ())) :
    ∃ work, replies = ⟨.begin, .ok ()⟩ :: (work ++ [⟨.commit, .ok ()⟩]) ∧ Did fn work (.ok ()) := by
  obtain ⟨_, first, rest, rfl, hbegin, hrest⟩ := did_checked h
  obtain rfl := did_perform hbegin
  obtain ⟨r, work, last, rfl, hwork, hlast⟩ := did_bind hrest
  cases r with
  | error e =>
    obtain ⟨r, _, _, -, -, hfail⟩ := did_bind hlast
    cases r <;> exact (not_did_fail hfail).elim
  | ok _ =>
    obtain rfl := did_perform hlast
    exact ⟨work, rfl, hwork⟩

theorem did_insertEvent {event : Uuid → OutboxEvent} (h : Did (insertEvent event) replies (.ok ())) :
    ∃ id, replies = [⟨.newV7, id⟩, ⟨.insertOutbox (event id), .ok ()⟩] := by
  obtain ⟨id, first, second, rfl, hfirst, hsecond⟩ := did_bind h
  obtain rfl := did_perform hfirst
  obtain rfl := did_perform hsecond
  exact ⟨id, rfl⟩

theorem did_affectsRow {c : ChatCmd} {statement : ChatProg (Except ChatError Nat)}
    (hstatement : ∀ replies n, Did statement replies (.ok n) → ∃ r, replies = [⟨c, r⟩])
    (h : Did (affectsRow statement) replies (.ok ())) : ∃ r, replies = [⟨c, r⟩] := by
  obtain ⟨n, first, second, rfl, hfirst, hsecond⟩ := did_checked h
  obtain ⟨r, rfl⟩ := hstatement first n hfirst
  split at hsecond
  · exact (not_did_fail hsecond).elim
  · obtain ⟨rfl, -⟩ := did_ret hsecond
    exact ⟨r, rfl⟩

end Replies

section Transactions

/-- The change a statement stages in a transaction that began then. -/
def WroteBy (start : Nat) : ChatCmd → Mutation → Prop
  | .insertMessage msg, w =>
    w = .insert msg.id ⟨msg.roomId, msg.authorId, msg.messageType, msg.content, start, none, none⟩
  | .updateMessage id content, w => w = .setContent id content start
  | .deleteMessage id, w => w = .softDelete id start
  | _, _ => False

/-- What a command can make of the transaction of its thread. -/
inductive TxStep (c : ChatCmd) (now : Nat) : Option Tx → Tx → Prop where
  | kept (tx : Tx) : TxStep c now (some tx) tx
  | begun (old : Option Tx) : TxStep c now old ⟨now, [], []⟩
  | wrote {tx : Tx} {w : Mutation} (h : WroteBy tx.start c w) :
      TxStep c now (some tx) { tx with writes := tx.writes ++ [w] }
  | announced {tx : Tx} {e : OutboxEvent} (h : c = .insertOutbox e) :
      TxStep c now (some tx) { tx with events := tx.events ++ [e] }

variable {present : Nat → Time} {i j : Nat} {s t : Store} {tx : Tx}

theorem txs_setTx {o : Option Tx} (h : (s.setTx i o).txs j = some tx) :
    j ≠ i ∧ s.txs j = some tx ∨ j = i ∧ o = some tx := by
  by_cases hj : j = i
  · subst hj
    simp only [Store.setTx, Function.update_self] at h
    exact .inr ⟨rfl, h⟩
  · simp only [Store.setTx, Function.update_of_ne hj] at h
    exact .inl ⟨hj, h⟩

/-- A transaction after a command of thread `i`: another thread's as it was, its own as the
command makes it. -/
def TxAfter (i : Nat) (c : ChatCmd) (s : Store) (j : Nat) (tx : Tx) : Prop :=
  s.txs j = some tx ∨ j = i ∧ TxStep c s.now (s.txs i) tx

theorem txAfter_setTx {c : ChatCmd} {o : Option Tx} (ho : ∀ tx, o = some tx → TxStep c s.now (s.txs i) tx)
    (h : (s.setTx i o).txs j = some tx) : TxAfter i c s j tx := by
  rcases txs_setTx h with ⟨-, hsame⟩ | ⟨hj, hown⟩
  · exact .inl hsame
  · exact .inr ⟨hj, ho tx hown⟩

theorem txAfter_fallible {α : Type} {c : ChatCmd} {effect : α → Store → Prop} {r : Except ChatError α}
    (heffect : ∀ a t, effect a t → t.txs j = some tx → TxAfter i c s j tx) (h : Fallible effect s r t)
    (htx : t.txs j = some tx) : TxAfter i c s j tx := by
  cases r with
  | ok a => exact heffect a t h htx
  | error e =>
    rcases h with rfl | ⟨a, ha⟩
    · exact .inl htx
    · exact heffect a t ha htx

theorem txAfter_updateRow {c : ChatCmd} {w : Nat → Mutation} {rows : Nat} (hw : ∀ n, WroteBy n c (w n))
    (h : UpdateRow i w s rows t) (htx : t.txs j = some tx) : TxAfter i c s j tx := by
  obtain ⟨old, hold, ⟨-, -, -, rfl⟩ | ⟨-, -, rfl⟩⟩ := h
  · refine txAfter_setTx ?_ htx
    rintro _ ⟨⟩
    rw [hold]
    exact .wrote (hw _)
  · exact .inl htx

theorem txAfter_exec {c : ChatCmd} {r : ChatReply c} (h : exec present i c s r t) (htx : t.txs j = some tx) :
    TxAfter i c s j tx := by
  have hdrop : (s.setTx i none).txs j = some tx → TxAfter i c s j tx := txAfter_setTx fun _ h => nomatch h
  cases c with
  | begin =>
    cases r with
    | ok _ =>
      obtain rfl := h
      refine txAfter_setTx ?_ htx
      rintro _ ⟨⟩
      exact .begun _
    | error e =>
      obtain rfl := h
      exact .inl htx
  | insertMessage msg =>
    refine txAfter_fallible ?_ h htx
    rintro _ _ ⟨old, hold, -, -, rfl⟩ htx
    refine txAfter_setTx ?_ htx
    rintro _ ⟨⟩
    rw [hold]
    exact .wrote rfl
  | updateMessage id content =>
    exact txAfter_fallible (fun _ _ => txAfter_updateRow fun _ => rfl) h htx
  | deleteMessage id =>
    exact txAfter_fallible (fun _ _ => txAfter_updateRow fun _ => rfl) h htx
  | insertOutbox e =>
    refine txAfter_fallible ?_ h htx
    rintro _ _ ⟨old, hold, -, rfl⟩ htx
    refine txAfter_setTx ?_ htx
    rintro _ ⟨⟩
    rw [hold]
    exact .announced rfl
  | commit =>
    cases r with
    | ok _ =>
      obtain ⟨old, hold, rfl⟩ := h
      exact hdrop htx
    | error e =>
      rcases h with rfl | rfl
      · exact .inl htx
      · exact hdrop htx
  | rollback =>
    cases r with
    | ok _ =>
      obtain rfl := h
      exact hdrop htx
    | error e =>
      rcases h with rfl | rfl
      · exact .inl htx
      · exact hdrop htx
  | markPublished id | incrementRetry id =>
    cases r with
    | ok _ =>
      obtain rfl := h
      exact .inl htx
    | error e =>
      rcases h with rfl | ⟨_, rfl⟩ <;> exact .inl htx
  | getMessageById id | pollPending n | inBackoff p id =>
    obtain ⟨rfl, -⟩ := h
    exact .inl htx
  | publishRaw evt =>
    cases r <;> (obtain rfl := h; exact .inl htx)
  | cleanupBackoff p | setBackoff p id n =>
    obtain ⟨_, rfl⟩ := h
    exact .inl htx
  | _ =>
    obtain rfl := h
    exact .inl htx

/-- Every change and every event of an open transaction is that of a command its thread issued. -/
def TxsIssued (trace : List (Label Ambient ChatCmd ChatReply Outcome)) (pool : ChatPool) : Prop :=
  ∀ j tx, pool.shared.txs j = some tx →
    (∀ w ∈ tx.writes, ∃ c r, .cmd j c r ∈ trace ∧ WroteBy tx.start c w) ∧
      ∀ e ∈ tx.events, ∃ r, .cmd j (.insertOutbox e) r ∈ trace

theorem txsIssued_step {past : List (Label Ambient ChatCmd ChatReply Outcome)} {pool pool' : ChatPool}
    {l : Label Ambient ChatCmd ChatReply Outcome} (h : TxsIssued past pool) (hs : ChatStep present pool l pool') :
    TxsIssued (past ++ [l]) pool' := by
  have hpast : ∀ l', l' ∈ past → l' ∈ past ++ [l] := fun _ => List.mem_append_left _
  have hlater : ∀ j tx, pool.shared.txs j = some tx →
      (∀ w ∈ tx.writes, ∃ c r, .cmd j c r ∈ past ++ [l] ∧ WroteBy tx.start c w) ∧
        ∀ e ∈ tx.events, ∃ r, .cmd j (.insertOutbox e) r ∈ past ++ [l] := by
    intro j tx htx
    obtain ⟨hw, he⟩ := h j tx htx
    refine ⟨fun w hmem => ?_, fun e hmem => ?_⟩
    · obtain ⟨c, r, hl, hwrote⟩ := hw w hmem
      exact ⟨c, r, hpast _ hl, hwrote⟩
    · obtain ⟨r, hl⟩ := he e hmem
      exact ⟨r, hpast _ hl⟩
  intro j tx htx
  cases hs with
  | spawn => exact hlater j tx htx
  | @env e t he =>
    refine hlater j tx ?_
    cases e with
    | elapse n =>
      obtain rfl : t = { pool.shared with now := pool.shared.now + n } := he
      exact htx
    | restart p =>
      obtain rfl : t = { pool.shared with timers := Function.update pool.shared.timers p (fun _ => none) } := he
      exact htx
    | abort i =>
      obtain rfl : t = pool.shared.setTx i none := he
      rcases txs_setTx htx with ⟨-, hsame⟩ | ⟨-, hnone⟩
      · exact hsame
      · cases hnone
  | @cmd i c next r s hi hexec =>
    have hlast : .cmd i c r ∈ past ++ [.cmd i c r] := List.mem_append_right _ (List.mem_singleton_self _)
    rcases txAfter_exec hexec htx with hsame | ⟨rfl, hown⟩
    · exact hlater j tx hsame
    · generalize hold : pool.shared.txs j = old at hown
      cases hown with
      | kept => exact hlater j tx hold
      | begun => exact ⟨fun _ hmem => (nomatch hmem), fun _ hmem => (nomatch hmem)⟩
      | @wrote old w hwrote =>
        obtain ⟨hw, he⟩ := hlater j old hold
        refine ⟨fun w' hmem => ?_, he⟩
        rcases List.mem_append.mp hmem with hmem | hmem
        · exact hw w' hmem
        · rw [List.mem_singleton.mp hmem]
          exact ⟨c, r, hlast, hwrote⟩
      | @announced old e hc =>
        subst hc
        obtain ⟨hw, he⟩ := hlater j old hold
        refine ⟨hw, fun e' hmem => ?_⟩
        rcases List.mem_append.mp hmem with hmem | hmem
        · exact he e' hmem
        · rw [List.mem_singleton.mp hmem]
          exact ⟨r, hlast⟩

end Transactions

section Times

/-- Rows stay, with the time they were created at. -/
def CreatedPersist (m m' : Messages) : Prop :=
  ∀ id row, m id = some row → ∃ row', m' id = some row' ∧ row'.createdAt = row.createdAt

theorem Mutation.createdPersist {w : Mutation} {m : Messages} (h : w.Enabled m) : CreatedPersist m (w.apply m) := by
  intro id row hrow
  by_cases hid : id = w.target
  · subst hid
    rw [w.apply_target, hrow]
    cases w with
    | insert id row' =>
      have hnone : m id = none := h.1
      rw [show m id = some row from hrow] at hnone
      cases hnone
    | setContent id content now => exact ⟨_, rfl, rfl⟩
    | softDelete id now => exact ⟨_, rfl, rfl⟩
  · exact ⟨row, by rw [w.apply_ne m hid, hrow], rfl⟩

variable {present : Nat → Time} {i : Nat} {s t : Store}

theorem messages_fallible {α : Type} {effect : α → Store → Prop} {r : Except ChatError α}
    (heffect : ∀ a t, effect a t → t.messages = s.messages) (h : Fallible effect s r t) :
    t.messages = s.messages := by
  cases r with
  | ok a => exact heffect a t h
  | error e =>
    rcases h with rfl | ⟨a, ha⟩
    · rfl
    · exact heffect a t ha

theorem messages_updateRow {w : Nat → Mutation} {rows : Nat} (h : UpdateRow i w s rows t) :
    t.messages = s.messages := by
  obtain ⟨tx, -, ⟨-, -, -, rfl⟩ | ⟨-, -, rfl⟩⟩ := h <;> rfl

/-- Only a commit changes the table. -/
theorem messages_exec {c : ChatCmd} {r : ChatReply c} (h : exec present i c s r t) (hc : c ≠ .commit) :
    t.messages = s.messages := by
  cases c with
  | commit => exact absurd rfl hc
  | begin => cases r <;> (obtain rfl := h; rfl)
  | insertMessage msg =>
    refine messages_fallible ?_ h
    rintro _ _ ⟨tx, -, -, -, rfl⟩
    rfl
  | updateMessage id content => exact messages_fallible (fun _ _ => messages_updateRow) h
  | deleteMessage id => exact messages_fallible (fun _ _ => messages_updateRow) h
  | insertOutbox e =>
    refine messages_fallible ?_ h
    rintro _ _ ⟨tx, -, -, rfl⟩
    rfl
  | rollback =>
    cases r with
    | ok _ => rw [show t = s.setTx i none from h]; rfl
    | error e => rcases h with rfl | rfl <;> rfl
  | markPublished id | incrementRetry id =>
    cases r with
    | ok _ => obtain rfl := h; rfl
    | error e => rcases h with rfl | ⟨_, rfl⟩ <;> rfl
  | getMessageById id | pollPending n | inBackoff p id =>
    obtain ⟨rfl, -⟩ := h
    rfl
  | publishRaw evt => cases r <;> (obtain rfl := h; rfl)
  | cleanupBackoff p | setBackoff p id n =>
    obtain ⟨_, rfl⟩ := h
    rfl
  | _ =>
    obtain rfl := h
    rfl

/-- What a commit makes of the table: one change, which finds its row. -/
theorem Running.commit {s₀ : Store} {pool pool' : ChatPool} {tx : Tx} (h : Running present s₀ pool)
    (hs : ChatStep present pool (.cmd i .commit (.ok ())) pool') (htx : pool.shared.txs i = some tx) :
    ∃ w e, tx.writes = [w] ∧ tx.events = [e] ∧ w.Enabled pool.shared.messages ∧
      pool'.shared.messages = w.apply pool.shared.messages := by
  cases hs with
  | cmd hi hexec =>
    obtain ⟨tx', htx', rfl⟩ := hexec
    obtain rfl := Option.some.inj (htx.symm.trans htx')
    have hev := (h.good.guar (chatContract_sound present s₀) hi).1 tx htx
    obtain ⟨w, e, heq, hw, -⟩ := (h.good.shared.write.shape i tx htx).of_events hev
    refine ⟨w, e, by rw [heq], by rw [heq], hw, ?_⟩
    simp only [Store.commitTx, Tx.view]
    rw [heq]
    rfl

theorem Running.createdPersist {s₀ : Store} {pool pool' : ChatPool} {l : Label Ambient ChatCmd ChatReply Outcome}
    (h : Running present s₀ pool) (hs : ChatStep present pool l pool') :
    CreatedPersist pool.shared.messages pool'.shared.messages := by
  have hsame : pool'.shared.messages = pool.shared.messages →
      CreatedPersist pool.shared.messages pool'.shared.messages := by
    intro heq id row hrow
    exact ⟨row, by rw [heq]; exact hrow, rfl⟩
  cases hs with
  | spawn => exact hsame rfl
  | @env e t he =>
    refine hsame ?_
    cases e with
    | elapse n => rw [show t = _ from he]
    | restart p => rw [show t = _ from he]
    | abort j =>
      rw [show t = _ from he]
      rfl
  | @cmd j c next r s hi hexec =>
    by_cases hc : c = .commit
    · subst hc
      cases r with
      | ok _ =>
        obtain ⟨tx, htx, -⟩ := id hexec
        obtain ⟨w, e, -, -, hw, hmessages⟩ := h.commit (.cmd hi hexec) htx
        rw [hmessages]
        exact Mutation.createdPersist hw
      | error e =>
        rcases hexec with rfl | rfl
        · exact hsame rfl
        · exact hsame rfl
    · exact hsame (messages_exec hexec hc)

theorem CreatedPersist.trans {m m' m'' : Messages} (h : CreatedPersist m m') (h' : CreatedPersist m' m'') :
    CreatedPersist m m'' := by
  intro id row hrow
  obtain ⟨row', hrow', heq⟩ := h id row hrow
  obtain ⟨row'', hrow'', heq'⟩ := h' id row' hrow'
  exact ⟨row'', hrow'', heq'.trans heq⟩

theorem Running.createdPersist_run {s₀ : Store} {pool pool' : ChatPool}
    {trace : List (Label Ambient ChatCmd ChatReply Outcome)} (h : Running present s₀ pool)
    (hrun : Run (ChatStep present) pool trace pool') : CreatedPersist pool.shared.messages pool'.shared.messages := by
  induction hrun with
  | nil => exact fun _ row hrow => ⟨row, hrow, rfl⟩
  | cons hs _ ih => exact (h.createdPersist hs).trans (ih (running_step h hs))

/-- A message that was read still has its row, created when the reader was told. -/
def ReadRows (present : Nat → Time) (trace : List (Label Ambient ChatCmd ChatReply Outcome)) (pool : ChatPool) : Prop :=
  ∀ j id msg, .cmd j (.getMessageById id) (.ok msg) ∈ trace →
    msg.id = id ∧ ∃ row, pool.shared.messages id = some row ∧ msg.createdAt = present row.createdAt

theorem readRows_step {s₀ : Store} {past : List (Label Ambient ChatCmd ChatReply Outcome)} {pool pool' : ChatPool}
    {l : Label Ambient ChatCmd ChatReply Outcome} (hrunning : Running present s₀ pool)
    (h : ReadRows present past pool) (hs : ChatStep present pool l pool') : ReadRows present (past ++ [l]) pool' := by
  have hpersist := hrunning.createdPersist hs
  intro j id msg hmem
  rcases List.mem_append.mp hmem with hpast | hlast
  · obtain ⟨hid, row, hrow, hcreated⟩ := h j id msg hpast
    obtain ⟨row', hrow', heq⟩ := hpersist id row hrow
    exact ⟨hid, row', hrow', by rw [heq]; exact hcreated⟩
  · obtain rfl := List.mem_singleton.mp hlast
    cases hs with
    | cmd hi hexec =>
      obtain ⟨rfl, hread⟩ := hexec
      obtain ⟨row, hrow, -, rfl⟩ := hread msg rfl
      exact ⟨rfl, row, hrow, rfl⟩

theorem history_run {pool₀ pool : ChatPool} {trace : List (Label Ambient ChatCmd ChatReply Outcome)}
    (h₀ : InitialPool pool₀) (hrun : Run (ChatStep present) pool₀ trace pool) :
    Running present pool₀.shared pool ∧ TxsIssued trace pool ∧ ReadRows present trace pool := by
  have hstep : ∀ past q l q', Running present pool₀.shared q ∧ TxsIssued past q ∧ ReadRows present past q →
      ChatStep present q l q' →
      Running present pool₀.shared q' ∧ TxsIssued (past ++ [l]) q' ∧ ReadRows present (past ++ [l]) q' :=
    fun past q l q' ⟨hrunning, htxs, hread⟩ hs =>
      ⟨running_step hrunning hs, txsIssued_step htxs hs, readRows_step hrunning hread hs⟩
  refine hrun.history hstep [] ⟨running_initial h₀, ?_, ?_⟩
  · intro j tx htx
    rw [h₀.2.txs j] at htx
    cases htx
  · exact fun _ _ _ hmem => nomatch hmem

end Times

section Answers

variable {replies : List (Σ c, ChatReply c)} {resp : MessageResponse}

/-- What a call that answers with a message has issued: one reading of its clock, one statement,
one event and a commit. -/
structure Issued (replies : List (Σ c, ChatReply c)) (t : Time) (statement : ChatCmd) (payload : Json) : Prop where
  clock : ∀ t', ⟨.now, t'⟩ ∈ replies ↔ t' = t
  write : ∀ x ∈ replies, ∀ start w, WroteBy start x.1 w → x.1 = statement
  event : ∀ x ∈ replies, ∀ e, x.1 = .insertOutbox e → e.payload = payload
  commit : ⟨.commit, .ok ()⟩ ∈ replies

theorem did_createMessage {roomId authorId : Uuid} {req : CreateMessageRequest}
    (h : Did (createMessage roomId authorId req) replies (.ok resp)) :
    ∃ t name payload, resp = toResponse (createdMessage roomId authorId req t) name ∧
      newMessagePayload resp = some payload ∧
      Issued replies t (.insertMessage (createdMessage roomId authorId req t)) payload := by
  obtain ⟨room, _, rest, rfl, hroom, hopen⟩ := did_checked h
  obtain rfl := did_perform hroom
  split at hopen
  · exact (not_did_fail hopen).elim
  obtain ⟨members, _, rest, rfl, hmembers, hmember⟩ := did_checked hopen
  obtain rfl := did_perform hmembers
  split at hmember
  · obtain ⟨user, _, rest, rfl, huser, hknown⟩ := did_checked hmember
    obtain rfl := did_perform huser
    obtain ⟨t, _, rest, rfl, ht, hread⟩ := did_bind hknown
    obtain rfl := did_perform ht
    obtain ⟨payload, hpay, hmade⟩ := did_marshalled hread
    obtain ⟨_, _, _, rfl, hunit, hdone⟩ := did_checked hmade
    obtain ⟨rfl, hresp⟩ := did_ret hdone
    obtain rfl := Except.ok.inj hresp
    obtain ⟨work, rfl, hwork⟩ := did_unitOfWork hunit
    obtain ⟨_, _, _, rfl, hinsert, hevent⟩ := did_checked hwork
    obtain rfl := did_perform hinsert
    obtain ⟨id, rfl⟩ := did_insertEvent hevent
    exact ⟨t, user.name, payload, rfl, hpay, by simp, by simp [WroteBy, createdMessage], by simp [createdEvent], by simp⟩
  · exact (not_did_fail hmember).elim

theorem did_updateMessage {messageId userId : Uuid} {req : UpdateMessageRequest}
    (h : Did (updateMessage messageId userId req) replies (.ok resp)) :
    ∃ msg content t name payload, ⟨.getMessageById messageId, .ok msg⟩ ∈ replies ∧
      resp = toResponse (editedMessage msg content t) name ∧ updatedMessagePayload resp = some payload ∧
      Issued replies t (.updateMessage msg.id content) payload := by
  obtain ⟨msg, _, rest, rfl, hread, hfound⟩ := did_checked h
  obtain rfl := did_perform hread
  obtain ⟨room, _, rest, rfl, hroom, hopen⟩ := did_checked hfound
  obtain rfl := did_perform hroom
  split at hopen
  · exact (not_did_fail hopen).elim
  split at hopen
  · exact (not_did_fail hopen).elim
  obtain ⟨t, _, rest, rfl, ht, hread⟩ := did_bind hopen
  obtain rfl := did_perform ht
  obtain ⟨user, _, rest, rfl, huser, hknown⟩ := did_checked hread
  obtain rfl := did_perform huser
  obtain ⟨payload, hpay, hmade⟩ := did_marshalled hknown
  obtain ⟨_, _, _, rfl, hunit, hdone⟩ := did_checked hmade
  obtain ⟨rfl, hresp⟩ := did_ret hdone
  obtain rfl := Except.ok.inj hresp
  obtain ⟨work, rfl, hwork⟩ := did_unitOfWork hunit
  obtain ⟨_, _, _, rfl, hupdate, hevent⟩ := did_checked hwork
  have hstatement : ∀ replies n,
      Did (Prog.perform (ChatCmd.updateMessage msg.id (req.content.getD msg.content)) : ChatProg _) replies
        (Except.ok n) → ∃ r, replies = [⟨ChatCmd.updateMessage msg.id (req.content.getD msg.content), r⟩] :=
    fun _ n hdid => ⟨.ok n, did_perform hdid⟩
  obtain ⟨r, rfl⟩ := did_affectsRow hstatement hupdate
  obtain ⟨id, rfl⟩ := did_insertEvent hevent
  exact ⟨msg, req.content.getD msg.content, t, user.name, payload, by simp, rfl, hpay, by simp,
    by simp [WroteBy], by simp [updatedEvent], by simp⟩

end Answers

section Agreement

variable {present : Nat → Time} {pool₀ pool' q q' : ChatPool} {i start : Nat} {resp : MessageResponse}
  {trace before : List (Label Ambient ChatCmd ChatReply Outcome)} {w : Mutation} {e : OutboxEvent}

/-- The times of a row and of its projection are the same, to database precision. -/
def SameTimes (present : Nat → Time) : Option MessageRow → Option MessageProjection → Prop
  | none, none => True
  | some row, some r => r.createdAt.stamp = (present row.createdAt).stamp ∧
      r.updatedAt.map Time.stamp = row.updatedAt.map fun n => (present n).stamp
  | _, _ => False

/-- A committed call and its row: the response, what it announces, and what becomes of it. -/
structure TimesAgree (present : Nat → Time) (m m' : Messages) (id : Uuid) (resp : MessageResponse)
    (e : OutboxEvent) : Prop where
  row : ∃ row, m' id = some row ∧ resp.createdAt.stamp = (present row.createdAt).stamp ∧
    resp.updatedAt.map Time.stamp = row.updatedAt.map fun n => (present n).stamp
  payload : ∃ type json, resp.marshalJson = some json ∧ e.payload = wsEventJson type json
  projection : ∀ a p, SameTimes present (m id) (p id) → (handle a (some e.payload) p).1 = .applied →
    SameTimes present (m' id) ((handle a (some e.payload) p).2 id)

/-- At this place of a run thread `i`, which answers with `resp` in the end, commits. -/
structure Commits (present : Nat → Time) (pool₀ pool' : ChatPool) (trace : List (Label Ambient ChatCmd ChatReply Outcome))
    (i : Nat) (resp : MessageResponse) (q q' : ChatPool) (start : Nat) (w : Mutation) (e : OutboxEvent) : Prop where
  run : ∃ before after, trace = before ++ .cmd i .commit (.ok ()) :: after ∧ Run (ChatStep present) pool₀ before q ∧
    ChatStep present q (.cmd i .commit (.ok ())) q' ∧ Run (ChatStep present) q' after pool'
  answer : ∃ call, pool'.threads[i]? = some (.ret (.returned call (.ok (some resp))))
  tx : q.shared.txs i = some ⟨start, [w], [e]⟩

/-- What a thread that answered with a message has issued. -/
theorem did_answer (h₀ : InitialPool pool₀) (hrun : Run (ChatStep present) pool₀ trace pool')
    (hanswer : ∃ call, pool'.threads[i]? = some (.ret (.returned call (.ok (some resp))))) :
    (∃ roomId authorId req, Did (createMessage roomId authorId req) (repliesTo i trace) (.ok resp)) ∨
      ∃ messageId userId req, Did (updateMessage messageId userId req) (repliesTo i trace) (.ok resp) := by
  obtain ⟨call, hi⟩ := hanswer
  obtain ⟨p, hp, hdid⟩ := Follows.of_started hrun (by simp [h₀.1]) hi
  have hlast : ∀ {α : Type} {p : ChatProg (Except ChatError α)} {f : α → MessageResponse} {replies},
      Did (checked p fun r => .ret (.ok (some (f r)))) replies (.ok (some resp)) →
      ∃ a, Did p replies (.ok a) ∧ f a = resp := by
    intro α p f replies h
    obtain ⟨a, first, second, rfl, hfirst, hsecond⟩ := did_checked h
    obtain ⟨rfl, heq⟩ := did_ret hsecond
    rw [List.append_nil]
    exact ⟨a, hfirst, (Option.some.inj (Except.ok.inj heq)).symm⟩
  cases hp with
  | publish publisher =>
    obtain ⟨_, _, _, -, -, hret⟩ := did_bind hdid
    obtain ⟨-, heq⟩ := did_ret hret
    cases heq
  | serve call' =>
    obtain ⟨result, first, second, hsplit, hcall, hret⟩ := did_bind hdid
    obtain ⟨rfl, heq⟩ := did_ret hret
    obtain ⟨rfl, rfl⟩ := Outcome.returned.inj heq
    rw [List.append_nil] at hsplit
    rw [hsplit]
    cases call with
    | create roomId authorId req =>
      obtain ⟨_, hcreate, rfl⟩ := hlast hcall
      exact .inl ⟨roomId, authorId, req, hcreate⟩
    | update messageId userId req =>
      obtain ⟨_, hupdate, rfl⟩ := hlast hcall
      exact .inr ⟨messageId, userId, req, hupdate⟩
    | delete messageId userId | adminDelete messageId =>
      obtain ⟨_, _, _, -, -, hnone⟩ := did_checked hcall
      obtain ⟨-, heq⟩ := did_ret hnone
      cases heq

theorem applied_created {msg : ChatMessage} {name : String} {payload : Json} {a : Attempt} {p : Projections}
    (hpay : newMessagePayload (toResponse msg name) = some payload) (hnone : p msg.id = none)
    (happlied : (handle a (some payload) p).1 = .applied) :
    (handle a (some payload) p).2 msg.id = some (projectionOf msg name) := by
  rw [handle_newMessage hpay] at happlied ⊢
  have hdb : (finish a.database p (upsert (projectionOf msg name) a.now p)).1 ≠ .failed .database := by
    rw [happlied]
    exact nofun
  obtain ⟨hfinish, hfit⟩ := finish_of_answered hdb
  rw [hfinish]
  unfold upsert at hfit ⊢
  split at hfit
  · exact absurd rfl hfit
  · rename_i hname
    rw [if_neg hname]
    have hup : upserted p a.now (projectionOf msg name) = projectionOf msg name := by
      unfold upserted
      rw [show p (projectionOf msg name).id = none from hnone]
      rfl
    rw [hup]
    exact Function.update_self ..

theorem applied_updated {msg : ChatMessage} {name : String} {payload : Json} {t : Time} {a : Attempt}
    {p : Projections} (hpay : updatedMessagePayload (toResponse msg name) = some payload)
    (ht : msg.updatedAt = some t) (happlied : (handle a (some payload) p).1 = .applied) :
    ∃ r, p msg.id = some r ∧ (handle a (some payload) p).2 msg.id =
      some { r with content := msg.content, updatedAt := some t.printed } := by
  rw [handle_updatedMessage hpay ht] at happlied ⊢
  have hdb : (finish a.database p (updateContent msg.id msg.content t.printed p)).1 ≠ .failed .database := by
    rw [happlied]
    exact nofun
  rw [(finish_of_answered hdb).1] at happlied ⊢
  unfold updateContent updateLive at happlied ⊢
  cases hr : p msg.id with
  | none =>
    rw [hr] at happlied
    cases happlied
  | some r =>
    rw [hr] at happlied
    dsimp only at happlied ⊢
    split at happlied
    · cases happlied
    · rename_i hlive
      rw [if_neg hlive]
      exact ⟨r, rfl, Function.update_self ..⟩

/-- What a commit's change and event come from. -/
theorem Commits.issued (h₀ : InitialPool pool₀) (h : Commits present pool₀ pool' trace i resp q q' start w e)
    {t : Time} {statement : ChatCmd} {payload : Json} (hissued : Issued (repliesTo i trace) t statement payload) :
    WroteBy start statement w ∧ e.payload = payload := by
  obtain ⟨before, after, rfl, hbefore, hcommit, hafter⟩ := h.run
  obtain ⟨-, htxs, -⟩ := history_run h₀ hbefore
  obtain ⟨hw, he⟩ := htxs i _ h.tx
  obtain ⟨c, r, hc, hwrote⟩ := hw w (List.mem_singleton_self _)
  obtain ⟨r', he⟩ := he e (List.mem_singleton_self _)
  have hmem : ∀ {c : ChatCmd} {r : ChatReply c}, .cmd i c r ∈ before →
      (⟨c, r⟩ : Σ c, ChatReply c) ∈ repliesTo i (before ++ .cmd i .commit (.ok ()) :: after) :=
    fun hl => mem_repliesTo.mpr (List.mem_append_left _ hl)
  constructor
  · rw [← hissued.write _ (hmem hc) start w hwrote]
    exact hwrote
  · exact hissued.event _ (hmem he) e rfl

theorem timestamps_agree_create (h₀ : InitialPool pool₀)
    (h : Commits present pool₀ pool' trace i resp q q' start w e) {roomId authorId : Uuid} {req : CreateMessageRequest}
    {t : Time} {name : String} {payload : Json} (hresp : resp = toResponse (createdMessage roomId authorId req t) name)
    (hpay : newMessagePayload resp = some payload)
    (hissued : Issued (repliesTo i trace) t (.insertMessage (createdMessage roomId authorId req t)) payload) :
    TimesAgree present q.shared.messages q'.shared.messages w.target resp e ↔
      t.stamp = (present start).stamp := by
  obtain ⟨hw, he⟩ := h.issued h₀ hissued
  obtain rfl := hw
  obtain ⟨before, after, -, hbefore, hcommit, -⟩ := h.run
  obtain ⟨w', e', hwrites, hevents, hen, hmessages⟩ := (history_run h₀ hbefore).1.commit hcommit h.tx
  obtain rfl := List.singleton_inj.mp hwrites
  subst hresp
  have hafter : q'.shared.messages (createdMessage roomId authorId req t).id =
      some ⟨roomId, authorId, req.messageType, req.content, start, none, none⟩ := by
    rw [hmessages]
    exact Mutation.apply_target ..
  constructor
  · rintro ⟨⟨row, hrow, hcreated, -⟩, -, -⟩
    obtain rfl := Option.some.inj (hafter.symm.trans hrow)
    exact hcreated
  · intro hclock
    refine ⟨⟨_, hafter, hclock, rfl⟩, ?_, fun a p hbefore happlied => ?_⟩
    · obtain ⟨json, hjson, heq⟩ := Option.map_eq_some_iff.mp hpay
      exact ⟨"new_message", json, hjson, by rw [he, heq]⟩
    · have hnone : q.shared.messages (createdMessage roomId authorId req t).id = none := hen.1
      rw [he] at happlied ⊢
      have hp : p (createdMessage roomId authorId req t).id = none := by
        simp only [Mutation.target] at hbefore
        rw [hnone] at hbefore
        cases hp : p (createdMessage roomId authorId req t).id with
        | none => rfl
        | some r =>
          rw [hp] at hbefore
          exact hbefore.elim
      simp only [Mutation.target]
      rw [applied_created hpay hp happlied, hafter]
      exact ⟨(Time.stamp_printed t).trans hclock, rfl⟩

theorem timestamps_agree_update (h₀ : InitialPool pool₀)
    (h : Commits present pool₀ pool' trace i resp q q' start w e) {messageId : Uuid} {msg : ChatMessage}
    {content name : String} {t : Time} {payload : Json}
    (hread : ⟨.getMessageById messageId, .ok msg⟩ ∈ repliesTo i trace)
    (hresp : resp = toResponse (editedMessage msg content t) name) (hpay : updatedMessagePayload resp = some payload)
    (hissued : Issued (repliesTo i trace) t (.updateMessage msg.id content) payload) :
    TimesAgree present q.shared.messages q'.shared.messages w.target resp e ↔
      t.stamp = (present start).stamp := by
  obtain ⟨hw, he⟩ := h.issued h₀ hissued
  obtain rfl := hw
  obtain ⟨before, after, htrace, hbefore, hcommit, hafter⟩ := h.run
  have hrunning := (history_run h₀ hbefore).1
  obtain ⟨w', e', hwrites, hevents, hen, hmessages⟩ := hrunning.commit hcommit h.tx
  obtain rfl := List.singleton_inj.mp hwrites
  obtain ⟨row, hrow, hlive⟩ := hen
  subst hresp
  have hstored : q'.shared.messages msg.id = some { row with content := content, updatedAt := some start } := by
    rw [hmessages]
    refine (Mutation.apply_target ..).trans ?_
    simp only [Mutation.target, Mutation.on, hrow, Option.map_some]
  -- the row of the answer is that of the message read before, which keeps its time of creation
  have hcreated : msg.createdAt = present row.createdAt := by
    have hall : Run (ChatStep present) pool₀ trace pool' := by
      rw [htrace]
      exact hbefore.append (.cons hcommit hafter)
    obtain ⟨hid, row', hrow', hread'⟩ := (history_run h₀ hall).2.2 i messageId msg (mem_repliesTo.mp hread)
    obtain ⟨row'', hrow'', heq⟩ := (running_step hrunning hcommit).createdPersist_run hafter msg.id _ hstored
    rw [hid, hrow', Option.some.injEq] at hrow''
    rw [hread', hrow'', heq]
  constructor
  · rintro ⟨⟨row', hrow', -, hupdated⟩, -, -⟩
    obtain rfl := Option.some.inj (hstored.symm.trans hrow')
    exact Option.some.inj hupdated
  · intro hclock
    refine ⟨⟨_, hstored, congrArg Time.stamp hcreated, congrArg some hclock⟩, ?_, fun a p hsame happlied => ?_⟩
    · obtain ⟨json, hjson, heq⟩ := Option.map_eq_some_iff.mp hpay
      exact ⟨"updated_message", json, hjson, by rw [he, heq]⟩
    · rw [he] at happlied ⊢
      obtain ⟨r, hr, hr'⟩ := applied_updated hpay rfl happlied
      simp only [Mutation.target] at hsame ⊢
      rw [show p msg.id = some r from hr, hrow] at hsame
      rw [show (handle a (some payload) p).2 msg.id = _ from hr', hstored]
      exact ⟨hsame.1, congrArg some ((Time.stamp_printed t).trans hclock)⟩

/-- The times on both sides of a committed call agree exactly if the clock of the call and that of
its transaction do. -/
theorem timestamps_agree_iff (h₀ : InitialPool pool₀)
    (h : Commits present pool₀ pool' trace i resp q q' start w e) :
    TimesAgree present q.shared.messages q'.shared.messages w.target resp e ↔
      ∀ t, .cmd i .now t ∈ trace → t.stamp = (present start).stamp := by
  have hall : Run (ChatStep present) pool₀ trace pool' := by
    obtain ⟨before, after, htrace, hbefore, hcommit, hafter⟩ := h.run
    rw [htrace]
    exact hbefore.append (.cons hcommit hafter)
  have hclock : ∀ {t statement payload}, Issued (repliesTo i trace) t statement payload →
      (t.stamp = (present start).stamp ↔ ∀ t, .cmd i .now t ∈ trace → t.stamp = (present start).stamp) := by
    intro t statement payload hissued
    constructor
    · intro heq t' hmem
      rw [(hissued.clock t').mp (mem_repliesTo.mpr hmem)]
      exact heq
    · intro heq
      exact heq t (mem_repliesTo.mp ((hissued.clock t).mpr rfl))
  rcases did_answer h₀ hall h.answer with ⟨roomId, authorId, req, hdid⟩ | ⟨messageId, userId, req, hdid⟩
  · obtain ⟨t, name, payload, hresp, hpay, hissued⟩ := did_createMessage hdid
    rw [timestamps_agree_create h₀ h hresp hpay hissued, hclock hissued]
  · obtain ⟨msg, content, t, name, payload, hread, hresp, hpay, hissued⟩ := did_updateMessage hdid
    rw [timestamps_agree_update h₀ h hread hresp hpay hissued, hclock hissued]

theorem exists_commits (h₀ : InitialPool pool₀) (hrun : Run (ChatStep present) pool₀ trace pool')
    (hanswer : ∃ call, pool'.threads[i]? = some (.ret (.returned call (.ok (some resp))))) :
    ∃ q q' start w e, Commits present pool₀ pool' trace i resp q q' start w e := by
  have hcommit : .cmd i .commit (.ok ()) ∈ trace := by
    rcases did_answer h₀ hrun hanswer with ⟨roomId, authorId, req, hdid⟩ | ⟨messageId, userId, req, hdid⟩
    · obtain ⟨_, _, _, -, -, hissued⟩ := did_createMessage hdid
      exact mem_repliesTo.mp hissued.commit
    · obtain ⟨_, _, _, _, _, -, -, -, hissued⟩ := did_updateMessage hdid
      exact mem_repliesTo.mp hissued.commit
  obtain ⟨before, after, rfl⟩ := List.append_of_mem hcommit
  obtain ⟨q, q', hbefore, hstep, hafter⟩ := hrun.at_label
  have hopen : ∃ tx, q.shared.txs i = some tx := by
    cases hstep with
    | cmd _ hexec =>
      obtain ⟨tx, htx, -⟩ := hexec
      exact ⟨tx, htx⟩
  obtain ⟨⟨start, writes, events⟩, htx⟩ := hopen
  obtain ⟨w, e, rfl, rfl, -, -⟩ := (history_run h₀ hbefore).1.commit hstep htx
  exact ⟨q, q', start, w, e, ⟨before, after, rfl, hbefore, hstep, hafter⟩, hanswer, htx⟩

end Agreement

section Sample

/-- From an empty database one create runs to its end, whatever times the database shows. -/
theorem sampleCreate_commits (present : Nat → Time) :
    ∃ pool' trace q q' start w e,
      Commits present ⟨emptyStore, []⟩ pool' trace 0 (toResponse sampleCreated "Ann") q q' start w e := by
  obtain ⟨payload, hpay⟩ := exists_samplePayload
  have hcreate : Solo present 0 (serve sampleCreate) emptyStore
      (.returned sampleCreate (.ok (some (toResponse sampleCreated "Ann"))))
      (emptyStore.committed 0 (.insert sampleMessage (createdRow sampleRoom sampleAuthor sampleRequest 0))
        (createdEvent sampleEvent sampleRoom payload)) :=
    solo_create starts_empty.txs rfl List.not_mem_nil hpay
  obtain ⟨trace, hrun⟩ : ∃ trace, Run (ChatStep present) ⟨emptyStore, []⟩ trace _ :=
    Alone.spawn_run [] (Entry.serve sampleCreate) hcreate
  obtain ⟨q, q', start, w, e, hcommits⟩ : ∃ q q' start w e,
      Commits present ⟨emptyStore, []⟩ _ trace 0 (toResponse sampleCreated "Ann") q q' start w e :=
    exists_commits ⟨rfl, starts_empty⟩ hrun ⟨sampleCreate, rfl⟩
  exact ⟨_, trace, q, q', start, w, e, hcommits⟩

theorem timestamps_agree_sample : ∃ pool' trace q q' start w e,
    Commits (fun _ => sampleTime) ⟨emptyStore, []⟩ pool' trace 0 (toResponse sampleCreated "Ann") q q' start w e ∧
      (TimesAgree (fun _ => sampleTime) q.shared.messages q'.shared.messages w.target (toResponse sampleCreated "Ann") e ↔
        ∀ t, .cmd 0 .now t ∈ trace → t.stamp = sampleTime.stamp) := by
  obtain ⟨pool', trace, q, q', start, w, e, hcommits⟩ := sampleCreate_commits fun _ => sampleTime
  exact ⟨pool', trace, q, q', start, w, e, hcommits, timestamps_agree_iff ⟨rfl, starts_empty⟩ hcommits⟩

/-- One second after `sampleTime`. -/
def laterTime : Time := { sampleTime with second := 1, valid := by decide }

/-- The transaction begins one second after the call read its clock. -/
theorem timestamps_differ : ∃ pool' trace q q' start w e,
    Commits (fun _ => laterTime) ⟨emptyStore, []⟩ pool' trace 0 (toResponse sampleCreated "Ann") q q' start w e ∧
      ¬ TimesAgree (fun _ => laterTime) q.shared.messages q'.shared.messages w.target
        (toResponse sampleCreated "Ann") e := by
  obtain ⟨pool', trace, q, q', start, w, e, hcommits⟩ := sampleCreate_commits fun _ => laterTime
  refine ⟨pool', trace, q, q', start, w, e, hcommits, ?_⟩
  rintro ⟨⟨row, -, hcreated, -⟩, -, -⟩
  exact absurd hcreated (by decide)

end Sample

end Chinwag.Chat

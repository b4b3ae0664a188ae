import Chinwag.Chat.ProjectionRefines
import Chinwag.Lib.EventLog

/-!
# A projection that lags behind

Of the outbox only some events were delivered, and those about different messages in any order. The row of a
message is then the message as it was once, when the events about it that were delivered were all there were.
-/
namespace Chinwag.Chat

open EventLog Program Transition

/-- The message whose row the payload is about; `none` where `Handle` only logs. -/
def eventTarget (payload : Json) : Option Uuid :=
  (WsEvent.decode payload).bind fun ev =>
    if ev.type = "new_message" then (ev.data.bind MessageCreatedData.decode).map fun d => parseOrNil d.id
    else if ev.type = "updated_message" then (ev.data.bind MessageUpdatedData.decode).map fun d => parseOrNil d.id
    else if ev.type = "deleted_message" then (ev.data.bind MessageDeletedData.decode).map fun d => parseOrNil d.id
    else none

def eventsAbout (id : Uuid) (payloads : List Json) : List Json :=
  payloads.filter fun payload => eventTarget payload = some id

section Rows

variable {id : Uuid}

theorem at_upsert {msg : MessageProjection} (hid : msg.id = id) (now : Rfc3339.Time) : At id (upsert msg now) where
  others p j hj := by
    unfold upsert
    split
    · rfl
    · exact Function.update_of_ne (hid ▸ hj) _ p
  own p p' hp := by
    subst hid
    have hrow : upserted p now msg = upserted p' now msg := by
      unfold upserted
      rw [hp]
    unfold upsert
    rw [hrow]
    split
    · exact ⟨rfl, hp⟩
    · simp

theorem at_updateLive (id : Uuid) (f : MessageProjection → MessageProjection) : At id (updateLive id f) where
  others p j hj := by
    unfold updateLive
    split
    · rfl
    · split
      · rfl
      · exact Function.update_of_ne hj _ p
  own p p' hp := by
    unfold updateLive
    rw [← hp]
    cases hrow : p id with
    | none => exact ⟨rfl, by simp only [hrow, ← hp]⟩
    | some row =>
      dsimp only
      split
      · exact ⟨rfl, by simp only [hrow, ← hp]⟩
      · simp

theorem at_finish {effect : Projections → Except RepoError Unit × Projections} (h : At id effect) (db : Database) :
    At id fun p => finish db p (effect p) where
  others p j hj := by
    cases db with
    | up => exact h.others p j hj
    | down => rfl
    | replyLost => exact h.others p j hj
  own p p' hp := by
    obtain ⟨hreply, hrow⟩ := h.own p p' hp
    cases db with
    | up => exact ⟨congrArg Handled.ofReply hreply, hrow⟩
    | down => exact ⟨rfl, hp⟩
    | replyLost => exact ⟨rfl, hrow⟩

theorem at_handleCreated {data : Option Json} {d : MessageCreatedData}
    (hd : data.bind MessageCreatedData.decode = some d) (a : Attempt) :
    At (parseOrNil d.id) (handleCreated a data) := by
  unfold handleCreated
  simp only [hd]
  cases Rfc3339.parse d.createdAt with
  | none => exact at_keep _ _
  | some createdAt =>
    refine at_finish (at_upsert ?_ _) _
    rfl

theorem at_handleUpdated {data : Option Json} {d : MessageUpdatedData}
    (hd : data.bind MessageUpdatedData.decode = some d) (a : Attempt) :
    At (parseOrNil d.id) (handleUpdated a data) := by
  unfold handleUpdated
  simp only [hd]
  cases Rfc3339.parse d.updatedAt with
  | none => exact at_keep _ _
  | some updatedAt => exact at_finish (at_updateLive _ _) _

theorem at_handleDeleted {data : Option Json} {d : MessageDeletedData}
    (hd : data.bind MessageDeletedData.decode = some d) (a : Attempt) :
    At (parseOrNil d.id) (handleDeleted a data) := by
  unfold handleDeleted
  simp only [hd]
  exact at_finish (at_updateLive _ _) _

def deliverEvent (d : Attempt × Json) (p : Projections) : Handled × Projections := handle d.1 (some d.2) p

/-- Handling an event reads and writes the row of its message only. -/
theorem local_deliverEvent : Local (fun d : Attempt × Json => eventTarget d.2) deliverEvent where
  at_key d id hid := by
    obtain ⟨ev, hev, hid⟩ := Option.bind_eq_some_iff.mp hid
    have hhandle : deliverEvent d = fun p => if ev.type = "new_message" then handleCreated d.1 ev.data p
        else if ev.type = "updated_message" then handleUpdated d.1 ev.data p
        else if ev.type = "deleted_message" then handleDeleted d.1 ev.data p
        else (.unknownType, p) := by
      funext p
      unfold deliverEvent handle
      rw [Option.bind_some, hev]
    rw [hhandle]
    split at hid
    · next hnew =>
      obtain ⟨data, hdata, rfl⟩ := Option.map_eq_some_iff.mp hid
      simp only [if_pos hnew]
      exact at_handleCreated hdata d.1
    · next hnew =>
      split at hid
      · next hupdated =>
        obtain ⟨data, hdata, rfl⟩ := Option.map_eq_some_iff.mp hid
        simp only [if_neg hnew, if_pos hupdated]
        exact at_handleUpdated hdata d.1
      · next hupdated =>
        split at hid
        · next hdeleted =>
          obtain ⟨data, hdata, rfl⟩ := Option.map_eq_some_iff.mp hid
          simp only [if_neg hnew, if_neg hupdated, if_pos hdeleted]
          exact at_handleDeleted hdata d.1
        · cases hid
  idle d p hnone := by
    unfold deliverEvent handle
    rw [Option.bind_some]
    unfold eventTarget at hnone
    cases hev : WsEvent.decode d.2 with
    | none => rfl
    | some ev =>
      rw [hev, Option.bind_some] at hnone
      dsimp only
      split at hnone
      · next hnew =>
        rw [if_pos hnew, handleCreated, Option.map_eq_none_iff.mp hnone]
      · next hnew =>
        rw [if_neg hnew]
        split at hnone
        · next hupdated => rw [if_pos hupdated, handleUpdated, Option.map_eq_none_iff.mp hnone]
        · next hupdated =>
          rw [if_neg hupdated]
          split at hnone
          · next hdeleted => rw [if_pos hdeleted, handleDeleted, Option.map_eq_none_iff.mp hnone]
          · next hdeleted => rw [if_neg hdeleted]

/-- The deliveries with their outcomes, and the table they leave. -/
def delivered (ds : List (Attempt × Json)) : List ((Attempt × Json) × Handled) × Projections :=
  feedAll deliverEvent ds fun _ => none

theorem feed_eq (ds : List (Attempt × Json)) (p : Projections) :
    feed ds p = ((feedAll deliverEvent ds p).1.map Prod.snd, (feedAll deliverEvent ds p).2) := by
  induction ds generalizing p with
  | nil => rfl
  | cons d ds ih =>
    have hrest : feed ds (deliverEvent d p).2 = ((feedAll deliverEvent ds (deliverEvent d p).2).1.map Prod.snd,
        (feedAll deliverEvent ds (deliverEvent d p).2).2) := ih _
    unfold deliverEvent at hrest ⊢
    simp only [feed, hrest, feedAll, List.map_cons]

end Rows

section Targets

variable {msg : ChatMessage} {name : String} {payload : Json}

theorem eventTarget_newMessage (h : newMessagePayload (toResponse msg name) = some payload) :
    eventTarget payload = some msg.id := by
  obtain ⟨json, hjson, rfl⟩ := Option.map_eq_some_iff.mp h
  obtain ⟨createdAt, -, hd⟩ := decode_created hjson
  simp [eventTarget, decode_wsEventJson, hd, toResponse]

theorem eventTarget_updatedMessage {t : Rfc3339.Time} (ht : msg.updatedAt = some t)
    (h : updatedMessagePayload (toResponse msg name) = some payload) : eventTarget payload = some msg.id := by
  obtain ⟨json, hjson, rfl⟩ := Option.map_eq_some_iff.mp h
  obtain ⟨updatedAt, -, hd⟩ := decode_updated hjson ht
  simp [eventTarget, decode_wsEventJson, hd, toResponse]

theorem eventTarget_deletedMessage (messageId roomId : Uuid) :
    eventTarget (deletedMessagePayload messageId roomId) = some messageId := by
  have hd : MessageDeletedData.decode (.obj [("id", .str messageId.toText),
      ("room_id", .str roomId.toText)]) = some ⟨messageId.toText, roomId.toText⟩ := by
    simp [MessageDeletedData.decode, Json.stringField, Json.field, Json.valuesOf_cons, foldName_names,
      Json.decodeOnto, Json.readString]
  simp [eventTarget, deletedMessagePayload, decode_wsEventJson, hd]

/-- An event is about the row whose change it announces. -/
theorem Coupled.eventTarget {m : Messages} {w : Mutation} {e : OutboxEvent} (h : Coupled m w e) :
    Chat.eventTarget e.payload = some w.target := by
  obtain ⟨row, -, ha⟩ := h
  cases w with
  | insert id row' =>
    obtain ⟨msg, name, payload, hd, hpay, he⟩ := ha
    have hpayload : e.payload = payload := congrArg OutboxEvent.payload he
    rw [hpayload, eventTarget_newMessage hpay, hd.id]
    rfl
  | setContent id content now =>
    obtain ⟨msg, name, payload, t, hd, ht, hpay, he⟩ := ha
    have hpayload : e.payload = payload := congrArg OutboxEvent.payload he
    rw [hpayload, eventTarget_updatedMessage ht hpay, hd.id]
    rfl
  | softDelete id now =>
    have hpayload : e.payload = deletedMessagePayload id row.roomId := congrArg OutboxEvent.payload ha
    rw [hpayload, eventTarget_deletedMessage]
    rfl

end Targets

section OneRow

variable {id : Uuid} {m : Messages} {w : Mutation} {e : OutboxEvent} {history : List Commit}

/-- The table without its other rows. -/
def onlyRow (id : Uuid) (m : Messages) : Messages := fun k => if k = id then m k else none

def Commit.changes (id : Uuid) (c : Commit) : Bool := c.writes.any fun w => w.target = id

def payloadsOf (history : List Commit) : List Json :=
  (history.flatMap Commit.written).map fun x => x.1.payload

theorem payloadsOf_concat {c : Commit} (he : c.events = [e]) :
    payloadsOf (history ++ [c]) = payloadsOf history ++ [e.payload] := by
  unfold payloadsOf
  rw [List.flatMap_append, List.map_append, List.flatMap_singleton, Commit.written, he]
  rfl

theorem eventsAbout_concat (id : Uuid) (payloads : List Json) (payload : Json) :
    eventsAbout id (payloads ++ [payload]) =
      if eventTarget payload = some id then eventsAbout id payloads ++ [payload] else eventsAbout id payloads := by
  unfold eventsAbout
  rw [List.filter_append]
  by_cases htarget : eventTarget payload = some id
  · simp [htarget]
  · simp [htarget]

theorem onlyRow_self (id : Uuid) (m : Messages) : onlyRow id m id = m id := if_pos rfl

theorem Mutation.Enabled.onlyRow (h : w.Enabled m) : w.Enabled (Chat.onlyRow w.target m) := by
  have hrow := onlyRow_self w.target m
  cases w with
  | insert id row => exact ⟨hrow.trans h.1, h.2⟩
  | setContent id content now =>
    obtain ⟨r, hr, hlive⟩ := h
    exact ⟨r, hrow.trans hr, hlive⟩
  | softDelete id now =>
    obtain ⟨r, hr, hlive⟩ := h
    exact ⟨r, hrow.trans hr, hlive⟩

theorem Coupled.onlyRow (h : Coupled m w e) : Coupled (Chat.onlyRow w.target m) w e := by
  obtain ⟨row, hrow, ha⟩ := h
  refine ⟨row, ?_, ha⟩
  rw [Mutation.apply_target] at hrow ⊢
  rwa [onlyRow_self]

theorem onlyRow_apply_self (w : Mutation) (m : Messages) :
    onlyRow w.target (w.apply m) = w.apply (onlyRow w.target m) := by
  funext k
  by_cases hk : k = w.target
  · subst hk
    rw [onlyRow_self, Mutation.apply_target, Mutation.apply_target, onlyRow_self]
  · rw [Mutation.apply_ne w _ hk, onlyRow, onlyRow, if_neg hk, if_neg hk]

theorem onlyRow_apply_ne (hne : id ≠ w.target) (m : Messages) : onlyRow id (w.apply m) = onlyRow id m := by
  funext k
  by_cases hk : k = id
  · subst hk
    rw [onlyRow_self, onlyRow_self, Mutation.apply_ne w m hne]
  · rw [onlyRow, onlyRow, if_neg hk, if_neg hk]

/-- The commits about one row are a history of their own. -/
theorem Replays.onlyRow (h : Replays (fun _ => none) history m) (id : Uuid) :
    Replays (fun _ => none) (history.filter (Commit.changes id)) (Chat.onlyRow id m) ∧
      payloadsOf (history.filter (Commit.changes id)) = eventsAbout id (payloadsOf history) := by
  induction h with
  | nil =>
    have hempty : Chat.onlyRow id (fun _ => none) = fun _ => none := by
      funext k
      exact ite_self _
    rw [hempty]
    exact ⟨.nil, rfl⟩
  | @snoc history m w e i start _ hw hc ih =>
    obtain ⟨hreplays, hpayloads⟩ := ih
    have hevents : (⟨i, start, [w], [e]⟩ : Commit).events = [e] := rfl
    rw [payloadsOf_concat hevents, eventsAbout_concat, hc.eventTarget, List.filter_append]
    by_cases hid : w.target = id
    · subst hid
      have hchanges : Commit.changes w.target ⟨i, start, [w], [e]⟩ = true := by simp [Commit.changes]
      rw [List.filter_cons_of_pos hchanges, List.filter_nil, if_pos rfl, payloadsOf_concat hevents, hpayloads,
        onlyRow_apply_self]
      exact ⟨.snoc i start hreplays hw.onlyRow hc.onlyRow, rfl⟩
    · have hchanges : ¬ Commit.changes id ⟨i, start, [w], [e]⟩ = true := by simp [Commit.changes, hid]
      have hother : some w.target ≠ some id := fun h => hid (Option.some.inj h)
      rw [List.filter_cons_of_neg hchanges, List.filter_nil, List.append_nil, if_neg hother,
        onlyRow_apply_ne (Ne.symm hid)]
      exact ⟨hreplays, hpayloads⟩

theorem Replays.last_event {m₀ : Messages} {c : Commit} (h : Replays m₀ (history ++ [c]) m) :
    ∃ e, c.events = [e] := by
  generalize hlist : history ++ [c] = full at h
  cases h with
  | nil => exact absurd hlist (by simp)
  | @snoc _ _ _ e =>
    obtain ⟨-, hc⟩ := List.append_inj' hlist rfl
    obtain rfl := List.singleton_inj.mp hc
    exact ⟨e, rfl⟩

/-- The row after the events about it, whatever was delivered between them. -/
theorem row_delivered (h : Replays (fun _ => none) history m) (id : Uuid) (ds : List (Attempt × Json))
    (hds : eventsAbout id (ds.map Prod.snd) = eventsAbout id (payloadsOf history))
    (hanswered : ∀ x ∈ (delivered ds).1, eventTarget x.1.2 = some id → x.2 ≠ .failed .database) :
    (∀ x ∈ (delivered ds).1, eventTarget x.1.2 = some id → x.2 = .applied) ∧
      shownProjections (delivered ds).2 id = shownMessages m id := by
  obtain ⟨hreplays, hpayloads⟩ := h.onlyRow id
  obtain ⟨hrow, hanswers⟩ := local_deliverEvent.feedAll_about ds (k := id) (t := fun _ => none)
    (u := fun _ => none) rfl
  have habout : ∀ x : (Attempt × Json) × Handled, x ∈ (delivered ds).1 ∧ eventTarget x.1.2 = some id ↔
      x ∈ (feedAll deliverEvent (ds.filter fun d => eventTarget d.2 = some id) fun _ => none).1 := by
    intro x
    rw [← hanswers, List.mem_filter, decide_eq_true_eq]
    rfl
  have hfilter : (ds.filter fun d => eventTarget d.2 = some id).map Prod.snd =
      payloadsOf (history.filter (Commit.changes id)) := by
    rw [hpayloads, ← hds, eventsAbout, List.filter_map]
    rfl
  have hfed := feed_eq (ds.filter fun d => eventTarget d.2 = some id) fun _ => none
  have hok : ∀ o ∈ (feed (ds.filter fun d => eventTarget d.2 = some id) fun _ => none).1,
      o ≠ .failed .database := by
    rw [hfed]
    intro o ho
    obtain ⟨x, hx, rfl⟩ := List.mem_map.mp ho
    obtain ⟨hmem, hid⟩ := (habout x).mpr hx
    exact hanswered x hmem hid
  obtain ⟨happlied, hsim⟩ := simulates_replays hreplays _ hfilter hok
  rw [hfed] at happlied hsim
  refine ⟨fun x hx hid => happlied _ (List.mem_map_of_mem ((habout x).mp ⟨hx, hid⟩)), ?_⟩
  have hshown := hsim.shown id
  unfold shownProjections shownMessages at hshown ⊢
  rw [onlyRow_self] at hshown
  rw [← hshown]
  exact congrArg (·.bind shownProjection) hrow

end OneRow

section Runs

variable {present : Nat → Rfc3339.Time} {pool₀ pool pool' : ChatPool} {l : Label Ambient ChatCmd ChatReply Outcome}
  {trace : List (Label Ambient ChatCmd ChatReply Outcome)}

theorem history_fallible {α : Type} {effect : α → Store → Prop} {s t : Store} {r : Except ChatError α}
    (h : Fallible effect s r t) (heffect : ∀ a t, effect a t → t.history = s.history) : t.history = s.history := by
  cases r with
  | ok a => exact heffect a t h
  | error e =>
    rcases h with rfl | ⟨a, ha⟩
    · rfl
    · exact heffect a t ha

theorem history_updateRow {i rows : Nat} {w : Nat → Mutation} {s t : Store} (h : UpdateRow i w s rows t) :
    t.history = s.history := by
  obtain ⟨tx, -, ⟨-, -, -, rfl⟩ | ⟨-, -, rfl⟩⟩ := h
  · rfl
  · rfl

theorem history_ambient {s t : Store} {e : Ambient} (h : ambient s e t) : t.history = s.history := by
  cases e with
  | elapse n =>
    obtain rfl := h
    rfl
  | abort i =>
    obtain rfl := h
    rfl
  | restart p =>
    obtain rfl := h
    rfl

/-- The history grows by a commit, and by nothing else. -/
theorem history_exec {s t : Store} {i : Nat} {c : ChatCmd} {r : ChatReply c} (h : exec present i c s r t) :
    t.history = s.history ∨ ∃ c, t.history = s.history ++ [c] := by
  have hsame : t = s → t.history = s.history ∨ ∃ c, t.history = s.history ++ [c] :=
    fun heq => .inl (congrArg Store.history heq)
  cases c with
  | now => exact hsame h
  | newV7 => exact hsame h
  | getRoomById id => exact hsame h
  | getMembersByRoomId id => exact hsame h
  | getUser id => exact hsame h
  | getMessageById id => exact hsame h.1
  | begin =>
    cases r with
    | ok =>
      obtain rfl := h
      exact .inl rfl
    | error e => exact hsame h
  | insertMessage msg =>
    refine .inl (history_fallible h fun _ t h => ?_)
    obtain ⟨tx, -, -, -, rfl⟩ := h
    rfl
  | updateMessage id content => exact .inl (history_fallible h fun _ _ h => history_updateRow h)
  | deleteMessage id => exact .inl (history_fallible h fun _ _ h => history_updateRow h)
  | insertOutbox event =>
    refine .inl (history_fallible h fun _ t h => ?_)
    obtain ⟨tx, -, -, rfl⟩ := h
    rfl
  | commit =>
    cases r with
    | ok =>
      obtain ⟨tx, -, rfl⟩ := h
      exact .inr ⟨_, rfl⟩
    | error e =>
      rcases h with rfl | rfl
      · exact .inl rfl
      · exact .inl rfl
  | rollback =>
    cases r with
    | ok =>
      obtain rfl := h
      exact .inl rfl
    | error e =>
      rcases h with rfl | rfl
      · exact .inl rfl
      · exact .inl rfl
  | pollPending n => exact hsame h.1
  | markPublished id =>
    have hmarked : Fallible (fun (_ : Unit) t => t = s.updateOutbox id (OutboxRow.marked s.now)) s r t := h
    refine .inl (history_fallible hmarked fun _ t h => ?_)
    subst h
    rfl
  | incrementRetry id =>
    have hretried : Fallible (fun (_ : Unit) t =>
        t = (s.updateOutbox id OutboxRow.retried).setOwed (s.owed.erase (i, id))) s r t := h
    refine .inl (history_fallible hretried fun _ t h => ?_)
    subst h
    rfl
  | publishRaw evt =>
    cases r with
    | ok =>
      obtain rfl := h
      exact .inl rfl
    | error e =>
      obtain rfl := h
      exact .inl rfl
  | cleanupBackoff p =>
    obtain ⟨u, rfl⟩ := h
    exact .inl rfl
  | inBackoff p id => exact hsame h.1
  | setBackoff p id retryCount =>
    obtain ⟨u, rfl⟩ := h
    exact .inl rfl
  | clearBackoff p id =>
    obtain rfl := h
    exact .inl rfl

theorem history_step (h : ChatStep present pool l pool') :
    pool'.shared.history = pool.shared.history ∨
      ∃ c, pool'.shared.history = pool.shared.history ++ [c] := by
  cases h with
  | spawn => exact .inl rfl
  | env he => exact .inl (history_ambient he)
  | cmd _ hexec => exact history_exec hexec

/-- The outbox holds the events of the history, in this order. -/
theorem payloads_outbox (houtbox : pool₀.shared.outbox = [])
    (h : Running present pool₀.shared pool) :
    pool.shared.outbox.map (fun r => r.payload) = payloadsOf pool.shared.history := by
  have hwritten : pool.shared.written = pool.shared.history.flatMap Commit.written := by
    rw [h.good.shared.write.written]
    simp [Store.written, houtbox]
  unfold payloadsOf
  rw [← hwritten]
  simp [Store.written, OutboxRow.written, Function.comp_def]

/-- A step brings at most one event about a message. -/
theorem grows_eventsAbout (present : Nat → Rfc3339.Time) (s₀ : Store) (id : Uuid) :
    Grows (ChatStep present) (Running present s₀) fun q => eventsAbout id (payloadsOf q.shared.history) where
  keeps _ _ _ h hs := running_step h hs
  adds q l q' h hs := by
    rcases history_step hs with heq | ⟨c, heq⟩
    · exact .inl (by rw [heq])
    · have hreplays := (running_step h hs).good.shared.write.replays
      rw [heq] at hreplays
      obtain ⟨e, he⟩ := hreplays.last_event
      rw [heq, payloadsOf_concat he, eventsAbout_concat]
      split
      · exact .inr ⟨e.payload, rfl⟩
      · exact .inl rfl

/-- After any run that began with empty tables, and deliveries of which those about a message are the first
events about it in commit order, each met by a database that answers: they were all applied, and the row of the
message shows what `chat_messages` showed at some moment of the run, when exactly these events about it had been
committed; and what it shows now where these are all. -/
theorem projection_lags (h₀ : InitialPool pool₀) (hmessages : ∀ id, pool₀.shared.messages id = none)
    (houtbox : pool₀.shared.outbox = []) (hrun : Run (ChatStep present) pool₀ trace pool) (id : Uuid)
    (deliveries : List (Attempt × Json))
    (horder : eventsAbout id (deliveries.map Prod.snd) <+:
      eventsAbout id (pool.shared.outbox.map fun r => r.payload))
    (hanswered : ∀ x ∈ (delivered deliveries).1, eventTarget x.1.2 = some id → x.2 ≠ .failed .database) :
    (∀ x ∈ (delivered deliveries).1, eventTarget x.1.2 = some id → x.2 = .applied) ∧
      (∃ before after q, trace = before ++ after ∧ Run (ChatStep present) pool₀ before q ∧
        eventsAbout id (q.shared.outbox.map fun r => r.payload) = eventsAbout id (deliveries.map Prod.snd) ∧
        shownProjections (delivered deliveries).2 id = shownMessages q.shared.messages id) ∧
      (eventsAbout id (deliveries.map Prod.snd) = eventsAbout id (pool.shared.outbox.map fun r => r.payload) →
        shownProjections (delivered deliveries).2 id = shownMessages pool.shared.messages id) := by
  have hempty : pool₀.shared.messages = fun _ => none := funext hmessages
  have hreplays : ∀ {q : ChatPool}, Running present pool₀.shared q →
      Replays (fun _ => none) q.shared.history q.shared.messages := by
    intro q h
    rw [← hempty]
    exact h.good.shared.write.replays
  have hshows : ∀ {q : ChatPool}, Running present pool₀.shared q →
      eventsAbout id (q.shared.outbox.map fun r => r.payload) = eventsAbout id (deliveries.map Prod.snd) →
      (∀ x ∈ (delivered deliveries).1, eventTarget x.1.2 = some id → x.2 = .applied) ∧
        shownProjections (delivered deliveries).2 id = shownMessages q.shared.messages id := by
    intro q h heq
    rw [payloads_outbox houtbox h] at heq
    exact row_delivered (hreplays h) id deliveries heq.symm hanswered
  have hstart : eventsAbout id (payloadsOf pool₀.shared.history) <+: eventsAbout id (deliveries.map Prod.snd) := by
    rw [h₀.2.history]
    exact List.nil_prefix
  rw [payloads_outbox houtbox (running_run h₀ hrun)] at horder
  obtain ⟨before, after, q, rfl, hbefore, hq⟩ :=
    (grows_eventsAbout present pool₀.shared id).passed hrun (running_initial h₀) hstart horder
  have hrunning := running_run h₀ hbefore
  have hthen : eventsAbout id (q.shared.outbox.map fun r => r.payload) = eventsAbout id (deliveries.map Prod.snd) := by
    rw [payloads_outbox houtbox hrunning]
    exact hq
  obtain ⟨happlied, hshown⟩ := hshows hrunning hthen
  exact ⟨happlied, ⟨before, after, q, rfl, hbefore, hthen, hshown⟩,
    fun hall => (hshows (running_run h₀ hrun) hall.symm).2⟩

/-- A message is created and then edited. -/
theorem exists_editedRun : ∃ payload payload' pool trace,
    newMessagePayload (toResponse sampleCreated "Ann") = some payload ∧
      Run (ChatStep fun _ => sampleTime) ⟨emptyStore, []⟩ trace pool ∧
      pool.shared.outbox.map (fun r => r.payload) = [payload, payload'] := by
  obtain ⟨payload, hpay⟩ := exists_samplePayload
  obtain ⟨payload', hpay'⟩ := exists_sampleEditPayload
  obtain ⟨first, hfirst⟩ := sampleCreate_run hpay
  have hrow : (emptyStore.committed 0 (.insert sampleMessage (createdRow sampleRoom sampleAuthor sampleRequest 0))
      (createdEvent sampleEvent sampleRoom payload)).messages sampleMessage =
      some (createdRow sampleRoom sampleAuthor sampleRequest 0) := by
    simp [Store.committed, Mutation.apply, Mutation.target, Mutation.on]
  have hfree : sampleEditEvent ∉ [sampleEvent] := by decide
  obtain ⟨second, hsecond⟩ := Alone.spawn_run (S := chatSemantics fun _ => sampleTime)
    [.ret (.returned sampleCreate (.ok (some (toResponse sampleCreated "Ann"))))] (Entry.serve _)
    (solo_update (fun _ => rfl) hrow rfl rfl hfree hpay')
  exact ⟨payload, payload', _, _, hpay, hfirst.append hsecond, rfl⟩

/-- The edit is not delivered yet, and a deletion of another message is delivered first. -/
theorem projection_lags_edit : ∃ pool trace deliveries before after q,
    Run (ChatStep fun _ => sampleTime) ⟨emptyStore, []⟩ trace pool ∧ pool.shared.outbox.length = 2 ∧
      trace = before ++ after ∧ Run (ChatStep fun _ => sampleTime) ⟨emptyStore, []⟩ before q ∧
      (eventsAbout sampleMessage (q.shared.outbox.map fun r => r.payload)).length = 1 ∧
      shownProjections (delivered deliveries).2 sampleMessage = shownMessages q.shared.messages sampleMessage := by
  obtain ⟨payload, payload', pool, trace, hpay, hrun, hout⟩ := exists_editedRun
  have hother : sampleRoom ≠ sampleMessage := by decide
  have htarget : eventTarget payload = some sampleMessage := eventTarget_newMessage hpay
  have hdelivered : eventsAbout sampleMessage [deletedMessagePayload sampleRoom sampleRoom, payload] = [payload] := by
    simp [eventsAbout, eventTarget_deletedMessage, hother, htarget]
  have horder : eventsAbout sampleMessage [deletedMessagePayload sampleRoom sampleRoom, payload] <+:
      eventsAbout sampleMessage (pool.shared.outbox.map fun r => r.payload) := by
    rw [hdelivered, hout]
    exact ⟨eventsAbout sampleMessage [payload'], by simp [eventsAbout, htarget, List.filter_cons]⟩
  have hanswered : ∀ x ∈ (delivered [(⟨sampleTime, .up⟩, deletedMessagePayload sampleRoom sampleRoom),
      (⟨sampleTime, .up⟩, payload)]).1, eventTarget x.1.2 = some sampleMessage → x.2 ≠ .failed .database := by
    intro x hx hid
    rcases List.mem_cons.mp hx with rfl | hx
    · rw [eventTarget_deletedMessage, Option.some.injEq] at hid
      exact absurd hid hother
    · obtain rfl := List.mem_singleton.mp hx
      show (handle _ (some payload) _).1 ≠ _
      rw [handle_newMessage hpay]
      intro h
      cases h
  obtain ⟨-, ⟨before, after, q, heq, hbefore, hq, hshown⟩, -⟩ :=
    projection_lags ⟨rfl, starts_empty⟩ (fun _ => rfl) rfl hrun sampleMessage
      [(⟨sampleTime, .up⟩, deletedMessagePayload sampleRoom sampleRoom), (⟨sampleTime, .up⟩, payload)]
      horder hanswered
  refine ⟨pool, trace, _, before, after, q, hrun, ?_, heq, hbefore, ?_, hshown⟩
  · rw [← List.length_map (fun r => r.payload), hout]
    rfl
  · rw [hq]
    exact congrArg List.length hdelivered

end Runs

end Chinwag.Chat

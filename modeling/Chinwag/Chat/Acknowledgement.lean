import Chinwag.Chat.Projection
import Chinwag.Chat.SoloRuns

/-!
# Acknowledging what was handled

The subscription callback of the query service acknowledges a message whatever became of
it. An event that could not be applied is then never delivered again.
-/
namespace Chinwag.Chat

open Rfc3339

/-- What follows the last dot of a subject, all of it where there is none. -/
def lastComponent (subject : List Char) : List Char :=
  (subject.reverse.takeWhile (· ≠ '.')).reverse

structure Delivery where
  attempt : Attempt
  subject : String
  data : Option Json

/-- The callback given to `cons.Consume`: whether it acknowledges, and the table it leaves. -/
def callback (d : Delivery) (p : Projections) : Bool × Projections :=
  if "chat.room.".toList.isPrefixOf d.subject.toList then
    match Uuid.parse (String.ofList (lastComponent d.subject.toList)) with
    | none => (true, p)
    | some _ => (true, (handle d.attempt d.data p).2)
  else (true, p)

/-- The table after deliveries in order. -/
def consume (p : Projections) (ds : List Delivery) : Projections :=
  ds.foldl (fun p d => (callback d p).2) p

/-- An event by what it says of the message. -/
inductive ChatEvent where
  | created (row : MessageProjection)
  | updated (id : Uuid) (content : String) (updatedAt : Time)
  | deleted (id : Uuid)

/-- The event says this: its data has the fields of its type, and they parse. -/
inductive Says : WsEvent → ChatEvent → Prop where
  | created {data : Json} {d : MessageCreatedData} {id room author : Uuid} {createdAt : Time} :
      MessageCreatedData.decode data = some d → Uuid.parse d.id = some id →
      Uuid.parse d.roomId = some room → Uuid.parse d.authorId = some author →
      parse d.createdAt = some createdAt →
      Says ⟨"new_message", some data⟩ (.created ⟨id, room, author, d.authorName, d.messageType,
        d.content, createdAt, none, none⟩)
  | updated {data : Json} {d : MessageUpdatedData} {id : Uuid} {updatedAt : Time} :
      MessageUpdatedData.decode data = some d → Uuid.parse d.id = some id →
      parse d.updatedAt = some updatedAt →
      Says ⟨"updated_message", some data⟩ (.updated id d.content updatedAt)
  | deleted {data : Json} {d : MessageDeletedData} {id : Uuid} :
      MessageDeletedData.decode data = some d → Uuid.parse d.id = some id →
      Says ⟨"deleted_message", some data⟩ (.deleted id)

/-- A well-formed event on the subject of a room. -/
def Delivery.Carries (d : Delivery) (e : ChatEvent) : Prop :=
  ("chat.room.".toList.isPrefixOf d.subject.toList = true ∧
    ∃ room, Uuid.parse (String.ofList (lastComponent d.subject.toList)) = some room) ∧
  ∃ ev, d.data.bind WsEvent.decode = some ev ∧ Says ev e

namespace ChatEvent

/-- The statement the handler runs for an event. -/
def statement (e : ChatEvent) (now : Time) (p : Projections) : Except RepoError Unit × Projections :=
  match e with
  | created row => upsert row now p
  | updated id content updatedAt => updateContent id content updatedAt p
  | deleted id => softDelete id now p

/-- The table shows the event. An edit that comes after the deletion has nothing left to show. -/
def Reflected (e : ChatEvent) (p : Projections) : Prop :=
  match e with
  | created row => ∃ r, p row.id = some r ∧ r.content = row.content
  | updated id content updatedAt => ∃ r, p id = some r ∧
      (r.content = content ∧ r.updatedAt = some updatedAt ∨ r.deletedAt.isSome = true)
  | deleted id => ∃ r, p id = some r ∧ r.deletedAt.isSome = true

/-- The statement of the event has a row to work on, or one that fits the columns. -/
def Fits (e : ChatEvent) (p : Projections) : Prop :=
  match e with
  | created row => row.authorName.length ≤ 256
  | updated id _ _ => (p id).isSome = true
  | deleted id => (p id).isSome = true

end ChatEvent

theorem handle_said {ev : WsEvent} {e : ChatEvent} (h : Says ev e) {payload : Option Json}
    (hev : payload.bind WsEvent.decode = some ev) (a : Attempt) (p : Projections) :
    handle a payload p = finish a.database p (e.statement a.now p) := by
  have hkinds : ("updated_message" : String) ≠ "new_message" ∧
      ("deleted_message" : String) ≠ "new_message" ∧
      ("deleted_message" : String) ≠ "updated_message" := by
    decide
  cases h with
  | created hd hid hroom hauthor ht =>
    simp only [handle, hev, if_true, handleCreated, Option.bind_some, hd, ht, parseOrNil, hid, hroom,
      hauthor, Option.getD_some]
    rfl
  | updated hd hid ht =>
    simp only [handle, hev, if_neg hkinds.1, if_true, handleUpdated, Option.bind_some, hd, ht,
      parseOrNil, hid, Option.getD_some]
    rfl
  | deleted hd hid =>
    simp only [handle, hev, if_neg hkinds.2.1, if_neg hkinds.2.2, if_true, handleDeleted,
      Option.bind_some, hd, parseOrNil, hid, Option.getD_some]
    rfl

/-- The callback acknowledges a well-formed event after running its statement, however that went. -/
theorem callback_of_carries {d : Delivery} {e : ChatEvent} (h : d.Carries e) (p : Projections) :
    callback d p = (true, (finish d.attempt.database p (e.statement d.attempt.now p)).2) := by
  obtain ⟨⟨hpre, room, hroom⟩, ev, hev, hsaid⟩ := h
  rw [callback, if_pos hpre, hroom]
  show (true, (handle d.attempt d.data p).2) = _
  rw [handle_said hsaid hev]

/-- One statement on one row leaves the event reflected exactly if it ran and had a row. -/
theorem reflected_updateLive (id : Uuid) (f : MessageProjection → MessageProjection) (p : Projections)
    (shows : MessageProjection → Prop) (hf : ∀ r, shows (f r))
    (hdeleted : ∀ r : MessageProjection, r.deletedAt.isSome = true → shows r) :
    (∃ r, (updateLive id f p).2 id = some r ∧ shows r) ↔ (p id).isSome = true := by
  unfold updateLive
  cases hrow : p id with
  | none => simp [hrow]
  | some row =>
    by_cases hdel : row.deletedAt.isSome = true
    · simpa [hdel, hrow] using hdeleted row hdel
    · simpa [hdel] using hf row

/-- An event is reflected after its statement ran if there was something to run it on. -/
theorem ChatEvent.reflected_statement (e : ChatEvent) (now : Time) (p : Projections) :
    e.Reflected (e.statement now p).2 ↔ e.Fits p ∨ e.Reflected p := by
  cases e with
  | created row =>
    show (∃ r, (upsert row now p).2 row.id = some r ∧ r.content = row.content) ↔ _
    unfold upsert
    by_cases hlong : 256 < row.authorName.length
    · have hnot : ¬ row.authorName.length ≤ 256 := by omega
      simp [Reflected, Fits, hlong, hnot]
    · have hfits : row.authorName.length ≤ 256 := by omega
      cases hrow : p row.id <;> simp [Fits, hlong, hfits, upserted, hrow]
  | updated id content updatedAt =>
    have hiff := reflected_updateLive id
      (fun row => { row with content := content, updatedAt := some updatedAt }) p
      (fun r => r.content = content ∧ r.updatedAt = some updatedAt ∨ r.deletedAt.isSome = true)
      (fun _ => Or.inl ⟨rfl, rfl⟩) fun _ => Or.inr
    refine hiff.trans ⟨Or.inl, ?_⟩
    intro h
    cases h with
    | inl h => exact h
    | inr h =>
      obtain ⟨r, hr, -⟩ := h
      rw [hr]
      rfl
  | deleted id =>
    have hiff := reflected_updateLive id (fun row => { row with deletedAt := some now }) p
      (fun r => r.deletedAt.isSome = true) (fun _ => rfl) fun _ h => h
    refine hiff.trans ⟨Or.inl, ?_⟩
    intro h
    cases h with
    | inl h => exact h
    | inr h =>
      obtain ⟨r, hr, -⟩ := h
      rw [hr]
      rfl

/-- One delivery of a well-formed event. -/
theorem reflected_callback {d : Delivery} {e : ChatEvent} (h : d.Carries e) (p : Projections) :
    e.Reflected (callback d p).2 ↔ e.Reflected p ∨ d.attempt.database ≠ .down ∧ e.Fits p := by
  rw [callback_of_carries h]
  have hran : ∀ t, e.Reflected (e.statement t p).2 ↔ e.Reflected p ∨ e.Fits p :=
    fun t => (e.reflected_statement t p).trans or_comm
  unfold finish
  cases hdb : d.attempt.database with
  | up => simpa [Database.run] using hran d.attempt.now
  | down => simp [Database.run]
  | replyLost => simpa [Database.run] using hran d.attempt.now

/-- Over deliveries of anything, from any table: what is acknowledged and well formed is reflected. -/
def AcknowledgedMeansApplied (p : Projections) (ds : List Delivery) : Prop :=
  ∀ before d after e, ds = before ++ d :: after → d.Carries e →
    (callback d (consume p before)).1 = true → e.Reflected (callback d (consume p before)).2

theorem acknowledgedMeansApplied_iff (p : Projections) (ds : List Delivery) :
    AcknowledgedMeansApplied p ds ↔
      ∀ before d after e, ds = before ++ d :: after → d.Carries e →
        e.Reflected (consume p before) ∨
          d.attempt.database ≠ .down ∧ e.Fits (consume p before) := by
  constructor
  · intro h before d after e hds hd
    have hacked : (callback d (consume p before)).1 = true := by rw [callback_of_carries hd]
    exact (reflected_callback hd _).mp (h before d after e hds hd hacked)
  · intro h before d after e hds hd _
    exact (reflected_callback hd _).mpr (h before d after e hds hd)

section Published

/-- The subject of a room names it. -/
theorem lastComponent_roomSubject (room : Uuid) :
    lastComponent (roomSubject room).toList = room.text.toList := by
  have hdot : ∀ c ∈ room.text.toList.reverse, decide (c ≠ '.') = true := by
    intro c hc
    rw [decide_eq_true_eq]
    rintro rfl
    exact room.not_mem_text (by decide) (List.mem_reverse.mp hc)
  have hsplit : (roomSubject room).toList.reverse = room.text.toList.reverse ++ "chat.room.".toList.reverse := by
    simp [roomSubject, Uuid.toText]
  have hstop : List.takeWhile (fun c => decide (c ≠ '.')) "chat.room.".toList.reverse = [] := by decide
  rw [lastComponent, hsplit, List.takeWhile_append_of_pos hdot, hstop, List.append_nil,
    List.reverse_reverse]

/-- What the command service publishes on a room's subject is well formed once its event is. -/
theorem carries_roomSubject {a : Attempt} {room : Uuid} {payload : Json} {ev : WsEvent} {e : ChatEvent}
    (hev : WsEvent.decode payload = some ev) (h : Says ev e) :
    (Delivery.mk a (roomSubject room) (some payload)).Carries e := by
  refine ⟨⟨?_, room, ?_⟩, ev, hev, h⟩
  · simp [roomSubject]
  · rw [lastComponent_roomSubject, String.ofList_toList, Uuid.parse_text]

theorem carries_newMessage {msg : ChatMessage} {name : String} {payload : Json}
    (h : newMessagePayload (toResponse msg name) = some payload) (a : Attempt) :
    (Delivery.mk a (roomSubject msg.roomId) (some payload)).Carries (.created (projectionOf msg name)) := by
  simp only [newMessagePayload, Option.map_eq_some_iff] at h
  obtain ⟨json, hjson, rfl⟩ := h
  obtain ⟨createdAt, hc, hd⟩ := decode_created hjson
  exact carries_roomSubject (decode_wsEventJson _ _)
    (.created hd (Uuid.parse_text _) (Uuid.parse_text _) (Uuid.parse_text _) (parse_marshal hc))

theorem carries_updatedMessage {msg : ChatMessage} {name : String} {payload : Json} {t : Time}
    (h : updatedMessagePayload (toResponse msg name) = some payload) (ht : msg.updatedAt = some t)
    (a : Attempt) :
    (Delivery.mk a (roomSubject msg.roomId) (some payload)).Carries
      (.updated msg.id msg.content t.printed) := by
  simp only [updatedMessagePayload, Option.map_eq_some_iff] at h
  obtain ⟨json, hjson, rfl⟩ := h
  obtain ⟨updatedAt, hu, hd⟩ := decode_updated hjson ht
  exact carries_roomSubject (decode_wsEventJson _ _)
    (.updated hd (Uuid.parse_text _) (parse_marshal hu))

theorem carries_deletedMessage (messageId roomId : Uuid) (a : Attempt) :
    (Delivery.mk a (roomSubject roomId) (some (deletedMessagePayload messageId roomId))).Carries
      (.deleted messageId) := by
  have hd : MessageDeletedData.decode (.obj [("id", .str messageId.toText),
      ("room_id", .str roomId.toText)]) = some ⟨messageId.toText, roomId.toText⟩ := by
    simp [MessageDeletedData.decode, Json.stringField, Json.field, Json.valuesOf_cons, foldName_names,
      Json.decodeOnto, Json.readString, Json.asStruct]
  exact carries_roomSubject (decode_wsEventJson _ _) (.deleted hd (Uuid.parse_text _))

end Published

/-- A creation delivered while the database is down is acknowledged and leaves no row. -/
theorem acknowledged_and_lost : ∃ d e, d.Carries e ∧
    callback d (fun _ => none) = (true, fun _ => none) ∧
    ¬ AcknowledgedMeansApplied (fun _ => none) [d] := by
  obtain ⟨payload, hpay⟩ := exists_samplePayload
  have hd := carries_newMessage hpay ⟨sampleTime, .down⟩
  have hlost : callback (.mk ⟨sampleTime, .down⟩ (roomSubject sampleCreated.roomId) (some payload))
      (fun _ => none) = (true, fun _ => none) := callback_of_carries hd _
  refine ⟨_, _, hd, hlost, ?_⟩
  intro h
  have hshown := h [] _ [] _ rfl hd (by rw [consume, List.foldl_nil, hlost])
  rw [consume, List.foldl_nil, hlost] at hshown
  obtain ⟨r, hr, -⟩ := hshown
  cases hr

end Chinwag.Chat

import Chinwag.Chat.Messages

/-!
# The projection table and its consumer

`handle` is `ProjectionConsumer.Handle`. It returns what the Go code only logs, so that
a swallowed error can be told from an applied event.
-/
namespace Chinwag.Chat

open Rfc3339

structure MessageProjection where
  id : Uuid
  roomId : Uuid
  authorId : Uuid
  authorName : String
  messageType : Int
  content : String
  createdAt : Time
  updatedAt : Option Time
  deletedAt : Option Time
  deriving DecidableEq

/-- `message_projections`, by primary key. -/
abbrev Projections := Uuid → Option MessageProjection

inductive RepoError where
  | notFound
  | database
  deriving DecidableEq, Repr

/-- How the database meets one statement: it may fail before it runs, or its reply may be lost. -/
inductive Database where
  | up
  | down
  | replyLost
  deriving DecidableEq, Repr

/-- The clock and the database during one delivery. -/
structure Attempt where
  now : Time
  database : Database

/-- Run one statement whose effect and reply are given for a database that answers. -/
def Database.run (db : Database) (p : Projections) (effect : Except RepoError Unit × Projections) :
    Except RepoError Unit × Projections :=
  match db with
  | .up => effect
  | .down => (.error .database, p)
  | .replyLost => (.error .database, effect.2)

/-- The row an upsert leaves: on a conflict only the content and the update time change. -/
def upserted (p : Projections) (now : Time) (msg : MessageProjection) : MessageProjection :=
  match p msg.id with
  | none => { msg with updatedAt := none, deletedAt := none }
  | some row => { row with content := msg.content, updatedAt := some now }

/-- `ProjectionRepo.Upsert`; `author_name` is a `VARCHAR(256)`. -/
def upsert (msg : MessageProjection) (now : Time) (p : Projections) :
    Except RepoError Unit × Projections :=
  if 256 < msg.authorName.length then (.error .database, p)
  else (.ok (), Function.update p msg.id (some (upserted p now msg)))

/-- An `UPDATE` of one row `WHERE id = $n AND deleted_at IS NULL`, an error where it finds none. -/
def updateLive (id : Uuid) (f : MessageProjection → MessageProjection) (p : Projections) :
    Except RepoError Unit × Projections :=
  match p id with
  | none => (.error .notFound, p)
  | some row =>
    if row.deletedAt.isSome then (.error .notFound, p)
    else (.ok (), Function.update p id (some (f row)))

/-- `ProjectionRepo.UpdateContent`. -/
def updateContent (id : Uuid) (content : String) (updatedAt : Time) (p : Projections) :
    Except RepoError Unit × Projections :=
  updateLive id (fun row => { row with content := content, updatedAt := some updatedAt }) p

/-- `ProjectionRepo.SoftDelete`. -/
def softDelete (id : Uuid) (deletedAt : Time) (p : Projections) :
    Except RepoError Unit × Projections :=
  updateLive id (fun row => { row with deletedAt := some deletedAt }) p

structure WsEvent where
  type : String
  data : Option Json

def WsEvent.decode (payload : Json) : Option WsEvent := do
  let fields ← payload.asStruct
  let type ← Json.stringField "type" fields
  return ⟨type, Json.rawField "data" fields⟩

structure MessageCreatedData where
  id : String
  roomId : String
  authorId : String
  authorName : String
  messageType : Int
  content : String
  createdAt : String

def MessageCreatedData.decode (data : Json) : Option MessageCreatedData := do
  let fields ← data.asStruct
  let id ← Json.stringField "id" fields
  let roomId ← Json.stringField "room_id" fields
  let authorId ← Json.stringField "author_id" fields
  let authorName ← Json.stringField "author_name" fields
  let messageType ← Json.int16Field "message_type" fields
  let content ← Json.stringField "content" fields
  let createdAt ← Json.stringField "created_at" fields
  return ⟨id, roomId, authorId, authorName, messageType, content, createdAt⟩

structure MessageUpdatedData where
  id : String
  roomId : String
  content : String
  updatedAt : String

def MessageUpdatedData.decode (data : Json) : Option MessageUpdatedData := do
  let fields ← data.asStruct
  let id ← Json.stringField "id" fields
  let roomId ← Json.stringField "room_id" fields
  let content ← Json.stringField "content" fields
  let updatedAt ← Json.stringField "updated_at" fields
  return ⟨id, roomId, content, updatedAt⟩

structure MessageDeletedData where
  id : String
  roomId : String

def MessageDeletedData.decode (data : Json) : Option MessageDeletedData := do
  let fields ← data.asStruct
  let id ← Json.stringField "id" fields
  let roomId ← Json.stringField "room_id" fields
  return ⟨id, roomId⟩

/-- `uuid.Nil`, what `uuid.Parse` returns next to an error. -/
def nilUuid : Uuid := ⟨"00000000-0000-0000-0000-000000000000", by decide⟩

/-- `msgId, _ := uuid.Parse(s)`: the error is dropped. -/
def parseOrNil (s : String) : Uuid := (Uuid.parse s).getD nilUuid

/-- What became of a delivered event; every case but the last is only logged. -/
inductive Handled where
  | badEvent
  | unknownType
  | badData
  | badTime
  | failed (e : RepoError)
  | applied
  deriving DecidableEq, Repr

def Handled.ofReply : Except RepoError Unit → Handled
  | .ok _ => .applied
  | .error e => .failed e

def finish (db : Database) (p : Projections) (effect : Except RepoError Unit × Projections) :
    Handled × Projections :=
  (Handled.ofReply (db.run p effect).1, (db.run p effect).2)

/-- Absent data is the empty text, no JSON at all. -/
def handleCreated (a : Attempt) (data : Option Json) (p : Projections) : Handled × Projections :=
  match data.bind MessageCreatedData.decode with
  | none => (.badData, p)
  | some d =>
    match parse d.createdAt with
    | none => (.badTime, p)
    | some createdAt =>
      let projection : MessageProjection :=
        { id := parseOrNil d.id, roomId := parseOrNil d.roomId, authorId := parseOrNil d.authorId
          authorName := d.authorName, messageType := d.messageType, content := d.content
          createdAt := createdAt, updatedAt := none, deletedAt := none }
      finish a.database p (upsert projection a.now p)

def handleUpdated (a : Attempt) (data : Option Json) (p : Projections) : Handled × Projections :=
  match data.bind MessageUpdatedData.decode with
  | none => (.badData, p)
  | some d =>
    match parse d.updatedAt with
    | none => (.badTime, p)
    | some updatedAt => finish a.database p (updateContent (parseOrNil d.id) d.content updatedAt p)

def handleDeleted (a : Attempt) (data : Option Json) (p : Projections) : Handled × Projections :=
  match data.bind MessageDeletedData.decode with
  | none => (.badData, p)
  | some d => finish a.database p (softDelete (parseOrNil d.id) a.now p)

/-- `ProjectionConsumer.Handle`. The room id of the subject is only logged; `none` is
data that is no JSON. -/
def handle (a : Attempt) (payload : Option Json) (p : Projections) : Handled × Projections :=
  match payload.bind WsEvent.decode with
  | none => (.badEvent, p)
  | some ev =>
    if ev.type = "new_message" then handleCreated a ev.data p
    else if ev.type = "updated_message" then handleUpdated a ev.data p
    else if ev.type = "deleted_message" then handleDeleted a ev.data p
    else (.unknownType, p)

/-- The row a created event inserts. -/
def projectionOf (msg : ChatMessage) (authorName : String) : MessageProjection where
  id := msg.id
  roomId := msg.roomId
  authorId := msg.authorId
  authorName := authorName
  messageType := msg.messageType
  content := msg.content
  createdAt := msg.createdAt.printed
  updatedAt := none
  deletedAt := none

@[simp] theorem parseOrNil_toText (u : Uuid) : parseOrNil u.toText = u := by
  simp [parseOrNil, Uuid.toText]

section Payloads

open Json

/-- The names the payloads use are their own case folding. -/
theorem foldName_names :
    (foldName "type" = "type".toList ∧ foldName "data" = "data".toList ∧
      foldName "id" = "id".toList ∧ foldName "room_id" = "room_id".toList ∧
      foldName "author_id" = "author_id".toList) ∧
    (foldName "author_name" = "author_name".toList ∧
      foldName "message_type" = "message_type".toList ∧
      foldName "content" = "content".toList ∧ foldName "created_at" = "created_at".toList ∧
      foldName "updated_at" = "updated_at".toList) := by
  decide

theorem decode_wsEventJson (type : String) (data : Json) :
    WsEvent.decode (wsEventJson type data) = some ⟨type, some data⟩ := by
  have htype : valuesOf "type" [("data", data), ("type", .str type)] = [.str type] := by
    simp [valuesOf_cons, foldName_names]
  have hdata : valuesOf "data" [("data", data), ("type", .str type)] = [data] := by
    simp [valuesOf_cons, foldName_names]
  simp [WsEvent.decode, wsEventJson, asStruct, stringField_of_values htype, rawField_of_values hdata]

/-- The fields of a marshalled response, with the update time where there is one. -/
theorem marshalJson_eq {resp : MessageResponse} {json : Json} (h : resp.marshalJson = some json) :
    ∃ createdAt updatedAt, marshal resp.createdAt = some createdAt ∧
      marshalUpdatedAt resp.updatedAt = some updatedAt ∧
      json = .obj (("id", .str resp.id) :: ("room_id", .str resp.roomId) ::
        ("author_id", .str resp.authorId) :: ("author_name", .str resp.authorName) ::
        ("message_type", .int resp.messageType) :: ("content", .str resp.content) ::
        ("created_at", .str createdAt) :: updatedAt) := by
  simp only [MessageResponse.marshalJson, Option.bind_eq_bind, Option.bind_eq_some_iff] at h
  obtain ⟨createdAt, hc, updatedAt, hu, hjson⟩ := h
  exact ⟨createdAt, updatedAt, hc, hu, by simpa using hjson.symm⟩

/-- The update time is the only field after the seven that are always there. -/
theorem valuesOf_updatedAt {o : Option Time} {fields : List (String × Json)}
    (h : marshalUpdatedAt o = some fields) {name : String}
    (hname : foldName "updated_at" ≠ foldName name) : valuesOf name fields = [] := by
  cases o with
  | none =>
    simp only [marshalUpdatedAt, Option.some.injEq] at h
    subst h
    rfl
  | some t =>
    simp only [marshalUpdatedAt, Option.map_eq_some_iff] at h
    obtain ⟨text, -, rfl⟩ := h
    rw [valuesOf_cons, if_neg hname, valuesOf_nil]

theorem decode_created {resp : MessageResponse} {json : Json} (h : resp.marshalJson = some json) :
    ∃ createdAt, marshal resp.createdAt = some createdAt ∧
      MessageCreatedData.decode json = some ⟨resp.id, resp.roomId, resp.authorId, resp.authorName,
        resp.messageType, resp.content, createdAt⟩ := by
  obtain ⟨createdAt, updatedAt, hc, hu, rfl⟩ := marshalJson_eq h
  refine ⟨createdAt, hc, ?_⟩
  have htype := resp.messageType.property
  have hrest : ∀ name, foldName "updated_at" ≠ foldName name → valuesOf name updatedAt = [] :=
    fun _ => valuesOf_updatedAt hu
  simp [MessageCreatedData.decode, stringField, int16Field, field, valuesOf_cons, hrest,
    foldName_names, decodeOnto, readString, readInt16, htype]

theorem decode_updated {resp : MessageResponse} {json : Json} {t : Time}
    (h : resp.marshalJson = some json) (ht : resp.updatedAt = some t) :
    ∃ updatedAt, marshal t = some updatedAt ∧
      MessageUpdatedData.decode json = some ⟨resp.id, resp.roomId, resp.content, updatedAt⟩ := by
  obtain ⟨createdAt, updatedAt, -, hu, rfl⟩ := marshalJson_eq h
  rw [ht] at hu
  simp only [marshalUpdatedAt, Option.map_eq_some_iff] at hu
  obtain ⟨text, hm, rfl⟩ := hu
  refine ⟨text, hm, ?_⟩
  simp [MessageUpdatedData.decode, stringField, field, valuesOf_cons, foldName_names, decodeOnto,
    readString]

/-- Delivering what a create wrote is one upsert of the message it created. -/
theorem handle_newMessage {msg : ChatMessage} {name : String} {payload : Json}
    (h : newMessagePayload (toResponse msg name) = some payload) (a : Attempt) (p : Projections) :
    handle a (some payload) p = finish a.database p (upsert (projectionOf msg name) a.now p) := by
  simp only [newMessagePayload, Option.map_eq_some_iff] at h
  obtain ⟨json, hjson, rfl⟩ := h
  obtain ⟨createdAt, hc, hd⟩ := decode_created hjson
  have hparse : parse createdAt = some msg.createdAt.printed := parse_marshal hc
  simp only [handle, Option.bind_some, decode_wsEventJson, if_true, handleCreated, hd, hparse]
  simp only [toResponse, parseOrNil_toText, projectionOf]

theorem handle_updatedMessage {msg : ChatMessage} {name : String} {payload : Json} {t : Time}
    (h : updatedMessagePayload (toResponse msg name) = some payload) (ht : msg.updatedAt = some t)
    (a : Attempt) (p : Projections) :
    handle a (some payload) p =
      finish a.database p (updateContent msg.id msg.content t.printed p) := by
  simp only [updatedMessagePayload, Option.map_eq_some_iff] at h
  obtain ⟨json, hjson, rfl⟩ := h
  obtain ⟨updatedAt, hu, hd⟩ := decode_updated hjson ht
  have hkind : ("updated_message" : String) ≠ "new_message" := by decide
  simp only [handle, Option.bind_some, decode_wsEventJson, if_neg hkind, if_true, handleUpdated, hd,
    parse_marshal hu]
  simp only [toResponse, parseOrNil_toText]

theorem handle_deletedMessage (messageId roomId : Uuid) (a : Attempt) (p : Projections) :
    handle a (some (deletedMessagePayload messageId roomId)) p =
      finish a.database p (softDelete messageId a.now p) := by
  have hkind : ("deleted_message" : String) ≠ "new_message" ∧
      ("deleted_message" : String) ≠ "updated_message" := by
    decide
  have hd : MessageDeletedData.decode (.obj [("id", .str messageId.toText),
      ("room_id", .str roomId.toText)]) = some ⟨messageId.toText, roomId.toText⟩ := by
    simp [MessageDeletedData.decode, stringField, field, valuesOf_cons, foldName_names, decodeOnto,
      readString]
  simp only [handle, Option.bind_some, deletedMessagePayload, decode_wsEventJson, if_neg hkind.1,
    if_neg hkind.2, if_true, handleDeleted, hd, parseOrNil_toText]

end Payloads

end Chinwag.Chat

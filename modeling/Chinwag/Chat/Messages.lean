import Chinwag.Lib.Uuid
import Chinwag.Lib.Json
import Chinwag.Lib.Rfc3339

/-!
# Messages and the events the command service writes for them

The payload of an outbox event is the JSON the service marshals; the column is JSONB,
so the tree is what reaches the consumers.
-/
namespace Chinwag.Chat

open Rfc3339

/-- `domain.MessageType`, an `int16`. -/
abbrev MessageType := { n : Int // Json.inInt16 n = true }

structure ChatMessage where
  id : Uuid
  roomId : Uuid
  authorId : Uuid
  messageType : MessageType
  content : String
  createdAt : Time
  updatedAt : Option Time
  deletedAt : Option Time
  deriving DecidableEq

structure CreateMessageRequest where
  id : Uuid
  messageType : MessageType
  content : String

structure UpdateMessageRequest where
  content : Option String

structure MessageResponse where
  id : String
  roomId : String
  authorId : String
  authorName : String
  messageType : MessageType
  content : String
  createdAt : Time
  updatedAt : Option Time
  deriving DecidableEq

def toResponse (msg : ChatMessage) (authorName : String) : MessageResponse where
  id := msg.id.toText
  roomId := msg.roomId.toText
  authorId := msg.authorId.toText
  authorName := authorName
  messageType := msg.messageType
  content := msg.content
  createdAt := msg.createdAt
  updatedAt := msg.updatedAt

/-- `updated_at` carries `omitempty`. -/
def marshalUpdatedAt : Option Time → Option (List (String × Json))
  | none => some []
  | some t => (marshal t).map fun text => [("updated_at", .str text)]

theorem marshalUpdatedAt_some {t : Time} {text : String} (h : marshal t = some text) :
    marshalUpdatedAt (some t) = some [("updated_at", .str text)] := by
  rw [marshalUpdatedAt, h]
  rfl

def MessageResponse.marshalJson (resp : MessageResponse) : Option Json := do
  let createdAt ← marshal resp.createdAt
  let updatedAt ← marshalUpdatedAt resp.updatedAt
  return .obj (("id", .str resp.id) :: ("room_id", .str resp.roomId) ::
    ("author_id", .str resp.authorId) :: ("author_name", .str resp.authorName) ::
    ("message_type", .int resp.messageType) :: ("content", .str resp.content) ::
    ("created_at", .str createdAt) :: updatedAt)

/-- A response is marshalled where its times are. -/
theorem exists_marshalJson {resp : MessageResponse} (hc : ∃ text, marshal resp.createdAt = some text)
    (hu : ∃ fields, marshalUpdatedAt resp.updatedAt = some fields) :
    ∃ json, resp.marshalJson = some json := by
  obtain ⟨text, hc⟩ := hc
  obtain ⟨fields, hu⟩ := hu
  exact ⟨_, by simp only [MessageResponse.marshalJson, hc, hu, Option.bind_eq_bind, Option.bind_some]; rfl⟩

/-- `map[string]any` with the two keys of every event; maps are marshalled in key order. -/
def wsEventJson (type : String) (data : Json) : Json :=
  .obj [("data", data), ("type", .str type)]

def newMessagePayload (resp : MessageResponse) : Option Json :=
  resp.marshalJson.map (wsEventJson "new_message")

def updatedMessagePayload (resp : MessageResponse) : Option Json :=
  resp.marshalJson.map (wsEventJson "updated_message")

/-- The payload `DeleteMessage` and `AdminDeleteMessage` write alike. -/
def deletedMessagePayload (messageId roomId : Uuid) : Json :=
  wsEventJson "deleted_message" (.obj [("id", .str messageId.toText), ("room_id", .str roomId.toText)])

def roomSubject (roomId : Uuid) : String := "chat.room." ++ roomId.toText

/-- What `OutboxRepo.Insert` writes; the other columns of a new row are defaults. -/
structure OutboxEvent where
  id : Uuid
  eventType : String
  subject : String
  payload : Json
  roomId : Uuid

def createdEvent (id roomId : Uuid) (payload : Json) : OutboxEvent :=
  ⟨id, "message_created", roomSubject roomId, payload, roomId⟩

def updatedEvent (id roomId : Uuid) (payload : Json) : OutboxEvent :=
  ⟨id, "message_updated", roomSubject roomId, payload, roomId⟩

def deletedEvent (id roomId : Uuid) (payload : Json) : OutboxEvent :=
  ⟨id, "message_deleted", roomSubject roomId, payload, roomId⟩

end Chinwag.Chat

import Chinwag.Lib.Program
import Chinwag.Lib.Redis
import Chinwag.Chat.Projection

/-!
# The query service and its cache

`GetMessage` and `ListMessages` are programs over the calls they make: the cache, the repository and
the room service, each of which may fail. Messages are cached as hashes under `chat:` and their id.
-/
namespace Chinwag.Query

open Chat Program Rfc3339

structure MessageResponse where
  id : String
  roomId : String
  authorId : String
  authorName : String
  messageType : Int
  content : String
  createdAt : Time
  updatedAt : Option Time
  deriving DecidableEq

def toResponse (msg : MessageProjection) : MessageResponse where
  id := msg.id.toText
  roomId := msg.roomId.toText
  authorId := msg.authorId.toText
  authorName := msg.authorName
  messageType := msg.messageType
  content := msg.content
  createdAt := msg.createdAt
  updatedAt := msg.updatedAt

/-- The response with its times as they are printed. -/
def MessageResponse.printed (resp : MessageResponse) : MessageResponse :=
  { resp with createdAt := resp.createdAt.printed, updatedAt := resp.updatedAt.map Time.printed }

/-- The fields of a Redis hash. -/
abbrev Hash := String → Option String

def responseToHash (msg : MessageResponse) : Hash
  | "id" => some msg.id
  | "room_id" => some msg.roomId
  | "author_id" => some msg.authorId
  | "author_name" => some msg.authorName
  | "message_type" => some (toString msg.messageType)
  | "content" => some msg.content
  | "created_at" => some (format msg.createdAt)
  | "updated_at" => msg.updatedAt.map format
  | _ => none

/-- `strconv.ParseInt(s, 10, 16)`, on the texts that `FormatInt` writes. -/
def parseInt16 (s : String) : Option Int := (Redis.tonumber s).filter fun n => Json.inInt16 n

def parseUpdatedAt (updatedStr : String) : Option (Option Time) :=
  if updatedStr = "" then some none else (parse updatedStr).map some

/-- A field that is not there reads as the empty text. -/
def hashToResponse (fields : Hash) : Option MessageResponse :=
  let field name := (fields name).getD ""
  if field "id" = "" then none
  else do
    let messageType ← parseInt16 (field "message_type")
    let createdAt ← parse (field "created_at")
    let updatedAt ← parseUpdatedAt (field "updated_at")
    return {
      id := field "id"
      roomId := field "room_id"
      authorId := field "author_id"
      authorName := field "author_name"
      messageType := messageType
      content := field "content"
      createdAt := createdAt
      updatedAt := updatedAt }

structure CursorMeta where
  nextCursor : String
  hasMore : Bool

structure ListMessagesRequest where
  roomId : String
  cursor : String
  after : String
  limit : Int

inductive QueryError where
  | repo (e : RepoError)
  | badCursor
  | invalidRoomId
  | members
  | forbidden
  deriving DecidableEq, Repr

/-- A call of the cache that fails was carried out or not. -/
inductive CacheError where
  | notDone
  | replyLost
  deriving DecidableEq, Repr

/-- The calls of the service; a hash that is not there has no fields. -/
inductive QueryCmd where
  | hgetAll (id : Uuid)
  | hset (id : Uuid) (fields : Hash)
  | getById (id : Uuid)
  | listByRoomId (roomId : Uuid) (cursor : String) (limit : Int)
  | listAfterByRoomId (roomId : Uuid) (after : String) (limit : Int)
  | getMembersByRoomId (roomId : String)

/-- Of a member only the user's id is read. -/
abbrev QueryReply : QueryCmd → Type
  | .hgetAll _ => Except CacheError (Option Hash)
  | .hset _ _ => Except CacheError Unit
  | .getById _ => Except RepoError MessageProjection
  | .listByRoomId _ _ _ => Except QueryError (List MessageProjection × Option CursorMeta)
  | .listAfterByRoomId _ _ _ => Except QueryError (List MessageProjection)
  | .getMembersByRoomId _ => Except Unit (List String)

abbrev QueryProg (α : Type) := Prog QueryCmd QueryReply α

open Prog (perform)

def hgetAll (id : Uuid) : QueryProg (Except CacheError (Option Hash)) := perform (QueryCmd.hgetAll id)

def hset (id : Uuid) (fields : Hash) : QueryProg (Except CacheError Unit) := perform (QueryCmd.hset id fields)

def getById (id : Uuid) : QueryProg (Except RepoError MessageProjection) := perform (QueryCmd.getById id)

def listByRoomId (roomId : Uuid) (cursor : String) (limit : Int) :
    QueryProg (Except QueryError (List MessageProjection × Option CursorMeta)) :=
  perform (QueryCmd.listByRoomId roomId cursor limit)

def listAfterByRoomId (roomId : Uuid) (after : String) (limit : Int) :
    QueryProg (Except QueryError (List MessageProjection)) :=
  perform (QueryCmd.listAfterByRoomId roomId after limit)

def getMembersByRoomId (roomId : String) : QueryProg (Except Unit (List String)) :=
  perform (QueryCmd.getMembersByRoomId roomId)

/-- The message for a user who is a member of its room. -/
def checkMember {α : Type} (userId : Uuid) (reply : Except Unit (List String)) (a : α) : Except QueryError α :=
  match reply with
  | .error _ => .error .members
  | .ok members => if userId.toText ∈ members then .ok a else .error .forbidden

/-- What is made of the cache's reply. -/
def cachedResponse : Except CacheError (Option Hash) → Option MessageResponse
  | .ok (some fields) => hashToResponse fields
  | _ => none

def getMessage (messageId userId : Uuid) : QueryProg (Except QueryError MessageResponse) := do
  match cachedResponse (← hgetAll messageId) with
  | some msg =>
    let members ← getMembersByRoomId msg.roomId
    return checkMember userId members msg
  | none =>
    match ← getById messageId with
    | .error e => return .error (.repo e)
    | .ok msg =>
      let members ← getMembersByRoomId msg.roomId.toText
      match checkMember userId members (toResponse msg) with
      | .error e => return .error e
      | .ok resp =>
        let _ ← hset messageId (responseToHash resp)
        return .ok resp

/-- The rows are cached one after the other. -/
def cacheAll : List MessageProjection → QueryProg (List MessageResponse)
  | [] => return []
  | msg :: msgs => do
    let _ ← hset msg.id (responseToHash (toResponse msg))
    let rest ← cacheAll msgs
    return toResponse msg :: rest

def listMessages (userId : Uuid) (req : ListMessagesRequest) :
    QueryProg (Except QueryError (List MessageResponse × Option CursorMeta)) := do
  match Uuid.parse req.roomId with
  | none => return .error .invalidRoomId
  | some roomId =>
    let members ← getMembersByRoomId roomId.toText
    match checkMember userId members () with
    | .error e => return .error e
    | .ok _ =>
      if req.after ≠ "" then
        match ← listAfterByRoomId roomId req.after req.limit with
        | .error e => return .error e
        | .ok msgs =>
          let result ← cacheAll msgs
          return .ok (result, none)
      else
        match ← listByRoomId roomId req.cursor req.limit with
        | .error e => return .error e
        | .ok (msgs, cursor) =>
          let result ← cacheAll msgs
          return .ok (result, cursor)

/-- A request, and how it ends. -/
inductive Call where
  | getMessage (messageId userId : Uuid)
  | listMessages (userId : Uuid) (req : ListMessagesRequest)

inductive Outcome where
  | message (messageId userId : Uuid) (result : Except QueryError MessageResponse)
  | listed (userId : Uuid) (req : ListMessagesRequest)
      (result : Except QueryError (List MessageResponse × Option CursorMeta))

def serve : Call → QueryProg Outcome
  | .getMessage messageId userId => do
    let result ← getMessage messageId userId
    return .message messageId userId result
  | .listMessages userId req => do
    let result ← listMessages userId req
    return .listed userId req result

/-! ### What is read back from the cache -/

theorem parseUpdatedAt_format {t t' : Option Time} (h : parseUpdatedAt ((t.map format).getD "") = some t') :
    t' = t.map Time.printed := by
  cases t with
  | none => exact (Option.some.inj h).symm
  | some t =>
    rw [Option.map_some, Option.getD_some, parseUpdatedAt, if_neg (format_ne_empty t), Option.map_eq_some_iff] at h
    obtain ⟨read, hread, rfl⟩ := h
    rw [parse_format hread, Option.map_some]

theorem parseInt16_toString {n m : Int} (h : parseInt16 (toString n) = some m) : m = n := by
  obtain ⟨hn, -⟩ := Option.filter_eq_some_iff.mp h
  rw [Redis.tonumber_toString] at hn
  exact (Option.some.inj hn).symm

/-- What is decoded from the hash of a response is the response as it is printed. -/
theorem hashToResponse_responseToHash {resp resp' : MessageResponse}
    (h : hashToResponse (responseToHash resp) = some resp') : resp' = resp.printed := by
  unfold hashToResponse at h
  dsimp only at h
  split at h
  · cases h
  · simp only [Option.bind_eq_bind, Option.bind_eq_some_iff, Option.pure_def, Option.some.injEq] at h
    obtain ⟨messageType, htype, createdAt, hcreated, updatedAt, hupdated, rfl⟩ := h
    have htype : messageType = resp.messageType := parseInt16_toString htype
    have hcreated : createdAt = resp.createdAt.printed := parse_format hcreated
    have hupdated : updatedAt = resp.updatedAt.map Time.printed := parseUpdatedAt_format hupdated
    subst htype hcreated hupdated
    rfl

end Chinwag.Query

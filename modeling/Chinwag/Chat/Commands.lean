import Chinwag.Lib.Program
import Chinwag.Chat.Messages

/-!
# The chat command service and the outbox publisher

Both are programs over the calls they make: the two providers, the clock, the database
with its transactions, the publisher's retry timers and `PublishRaw`. Every call of
another system may fail.
-/
namespace Chinwag.Chat

open Rfc3339 Program

inductive ChatError where
  | app (status : Nat) (message : String)
  | marshalEvent
  | call (text : String)
  | rollbackFailed (cause rollback : ChatError)
  deriving DecidableEq, Repr

def errNotFound : ChatError := .app 404 "Not found"

def errNotAuthor : ChatError := .app 403 "You are not the author of this message"

def roomPopped : ChatError := .app 403 "This room has been popped and is now read-only"

def notMember : ChatError := .app 403 "You are not a member of this room"

structure RoomInfo where
  poppedAt : Option Time

structure RoomMemberInfo where
  userId : String

structure UserInfo where
  name : String

/-- A row of `outbox_events`; its times are readings of the database clock. -/
structure OutboxRow extends OutboxEvent where
  createdAt : Nat
  publishedAt : Option Nat
  retryCount : Nat

inductive ChatCmd where
  | now
  | newV7
  | getRoomById (roomId : String)
  | getMembersByRoomId (roomId : String)
  | getUser (userId : String)
  | getMessageById (id : Uuid)
  | begin
  | insertMessage (msg : ChatMessage)
  | updateMessage (id : Uuid) (content : String)
  | deleteMessage (id : Uuid)
  | insertOutbox (event : OutboxEvent)
  | commit
  | rollback
  | pollPending (batchSize : Nat)
  | markPublished (id : Uuid)
  | incrementRetry (id : Uuid)
  | publishRaw (evt : OutboxRow)
  | cleanupBackoff (publisher : Nat)
  | inBackoff (publisher : Nat) (id : Uuid)
  | setBackoff (publisher : Nat) (id : Uuid) (retryCount : Nat)
  | clearBackoff (publisher : Nat) (id : Uuid)

/-- Updates reply the number of rows they affected. -/
abbrev ChatReply : ChatCmd → Type
  | .now => Time
  | .newV7 => Uuid
  | .getRoomById _ => Except ChatError RoomInfo
  | .getMembersByRoomId _ => Except ChatError (List RoomMemberInfo)
  | .getUser _ => Except ChatError UserInfo
  | .getMessageById _ => Except ChatError ChatMessage
  | .begin => Except ChatError Unit
  | .insertMessage _ => Except ChatError Unit
  | .updateMessage _ _ => Except ChatError Nat
  | .deleteMessage _ => Except ChatError Nat
  | .insertOutbox _ => Except ChatError Unit
  | .commit => Except ChatError Unit
  | .rollback => Except ChatError Unit
  | .pollPending _ => Except ChatError (List OutboxRow)
  | .markPublished _ => Except ChatError Unit
  | .incrementRetry _ => Except ChatError Unit
  | .publishRaw _ => Except ChatError Unit
  | .cleanupBackoff _ => Unit
  | .inBackoff _ _ => Bool
  | .setBackoff _ _ _ => Unit
  | .clearBackoff _ _ => Unit

abbrev ChatProg (α : Type) := Prog ChatCmd ChatReply α

open Prog (perform)

section Calls

def timeNow : ChatProg Time := perform ChatCmd.now

def newV7 : ChatProg Uuid := perform ChatCmd.newV7

def getRoomById (roomId : String) : ChatProg (Except ChatError RoomInfo) :=
  perform (ChatCmd.getRoomById roomId)

def getMembersByRoomId (roomId : String) : ChatProg (Except ChatError (List RoomMemberInfo)) :=
  perform (ChatCmd.getMembersByRoomId roomId)

def getUser (userId : String) : ChatProg (Except ChatError UserInfo) := perform (ChatCmd.getUser userId)

def getMessageById (id : Uuid) : ChatProg (Except ChatError ChatMessage) :=
  perform (ChatCmd.getMessageById id)

def beginTx : ChatProg (Except ChatError Unit) := perform ChatCmd.begin

def insertMessage (msg : ChatMessage) : ChatProg (Except ChatError Unit) :=
  perform (ChatCmd.insertMessage msg)

def insertOutbox (event : OutboxEvent) : ChatProg (Except ChatError Unit) :=
  perform (ChatCmd.insertOutbox event)

def commit : ChatProg (Except ChatError Unit) := perform ChatCmd.commit

def rollback : ChatProg (Except ChatError Unit) := perform ChatCmd.rollback

def pollPending (batchSize : Nat) : ChatProg (Except ChatError (List OutboxRow)) :=
  perform (ChatCmd.pollPending batchSize)

def markPublished (id : Uuid) : ChatProg (Except ChatError Unit) := perform (ChatCmd.markPublished id)

def incrementRetry (id : Uuid) : ChatProg (Except ChatError Unit) :=
  perform (ChatCmd.incrementRetry id)

def publishRaw (evt : OutboxRow) : ChatProg (Except ChatError Unit) := perform (ChatCmd.publishRaw evt)

def cleanupBackoff (publisher : Nat) : ChatProg Unit := perform (ChatCmd.cleanupBackoff publisher)

def inBackoff (publisher : Nat) (id : Uuid) : ChatProg Bool := perform (ChatCmd.inBackoff publisher id)

def setBackoff (publisher : Nat) (id : Uuid) (retryCount : Nat) : ChatProg Unit :=
  perform (ChatCmd.setBackoff publisher id retryCount)

def clearBackoff (publisher : Nat) (id : Uuid) : ChatProg Unit :=
  perform (ChatCmd.clearBackoff publisher id)

end Calls

section Service

variable {α β : Type}

def fail (e : ChatError) : ChatProg (Except ChatError α) := .ret (.error e)

/-- `if err != nil { return err }` after a call. -/
def checked (p : ChatProg (Except ChatError α)) (f : α → ChatProg (Except ChatError β)) :
    ChatProg (Except ChatError β) := do
  match ← p with
  | .error e => fail e
  | .ok a => f a

/-- `json.Marshal` of an event, with the error the service wraps. -/
def marshalled (payload : Option Json) (f : Json → ChatProg (Except ChatError β)) :
    ChatProg (Except ChatError β) :=
  match payload with
  | none => fail .marshalEvent
  | some json => f json

/-- `SQLUnitOfWork.Do`. -/
def unitOfWork (fn : ChatProg (Except ChatError Unit)) : ChatProg (Except ChatError Unit) :=
  checked beginTx fun _ => do
    match ← fn with
    | .error e =>
      match ← rollback with
      | .error r => fail (.rollbackFailed e r)
      | .ok _ => fail e
    | .ok _ => commit

/-- The rows-affected check of `ChatRepo.UpdateMessage` and `ChatRepo.DeleteMessage`. -/
def affectsRow (statement : ChatProg (Except ChatError Nat)) : ChatProg (Except ChatError Unit) :=
  checked statement fun rows => if rows = 0 then fail errNotFound else .ret (.ok ())

def repoUpdateMessage (msg : ChatMessage) : ChatProg (Except ChatError Unit) :=
  affectsRow (perform (ChatCmd.updateMessage msg.id msg.content))

def repoDeleteMessage (id : Uuid) : ChatProg (Except ChatError Unit) :=
  affectsRow (perform (ChatCmd.deleteMessage id))

/-- `tx.OutboxRepo().Insert` of an event whose id is drawn just before. -/
def insertEvent (event : Uuid → OutboxEvent) : ChatProg (Except ChatError Unit) := do
  let id ← newV7
  insertOutbox (event id)

def createMessage (roomId authorId : Uuid) (req : CreateMessageRequest) :
    ChatProg (Except ChatError MessageResponse) :=
  checked (getRoomById roomId.toText) fun room =>
  if room.poppedAt.isSome then fail roomPopped
  else
    checked (getMembersByRoomId roomId.toText) fun members =>
    if members.any (fun m => m.userId == authorId.toText) then
      checked (getUser authorId.toText) fun user => do
      let now ← timeNow
      let msg : ChatMessage :=
        { id := req.id, roomId := roomId, authorId := authorId, messageType := req.messageType
          content := req.content, createdAt := now, updatedAt := none, deletedAt := none }
      let resp := toResponse msg user.name
      marshalled (newMessagePayload resp) fun evPayload =>
      checked (unitOfWork (checked (insertMessage msg) fun _ =>
        insertEvent fun id => createdEvent id roomId evPayload)) fun _ =>
      .ret (.ok resp)
    else fail notMember

def updateMessage (messageId userId : Uuid) (req : UpdateMessageRequest) :
    ChatProg (Except ChatError MessageResponse) :=
  checked (getMessageById messageId) fun msg =>
  checked (getRoomById msg.roomId.toText) fun room =>
  if room.poppedAt.isSome then fail roomPopped
  else if msg.authorId ≠ userId then fail errNotAuthor
  else do
    let msg := { msg with content := req.content.getD msg.content }
    let now ← timeNow
    let updated := { msg with updatedAt := some now }
    checked (getUser updated.authorId.toText) fun user =>
    let resp := toResponse updated user.name
    marshalled (updatedMessagePayload resp) fun evPayload =>
    checked (unitOfWork (checked (repoUpdateMessage msg) fun _ =>
      insertEvent fun id => updatedEvent id msg.roomId evPayload)) fun _ =>
    .ret (.ok resp)

def deleteMessage (messageId userId : Uuid) : ChatProg (Except ChatError Unit) :=
  checked (getMessageById messageId) fun msg =>
  checked (getRoomById msg.roomId.toText) fun room =>
  if room.poppedAt.isSome then fail roomPopped
  else if msg.authorId ≠ userId then fail errNotAuthor
  else
    checked (unitOfWork (checked (repoDeleteMessage messageId) fun _ =>
      insertEvent fun id => deletedEvent id msg.roomId (deletedMessagePayload messageId msg.roomId)))
      fun _ => .ret (.ok ())

/-- No room lookup and no author check: an admin also deletes in popped rooms. -/
def adminDeleteMessage (messageId : Uuid) : ChatProg (Except ChatError Unit) :=
  checked (getMessageById messageId) fun msg =>
  checked (unitOfWork (checked (repoDeleteMessage messageId) fun _ =>
    insertEvent fun id => deletedEvent id msg.roomId (deletedMessagePayload messageId msg.roomId)))
    fun _ => .ret (.ok ())

end Service

section Publisher

/-- Milliseconds. -/
def interval : Nat := 100

def maxBackoff : Nat := 30000

def batchSize : Nat := 50

/-- The doubling loop of `backoffDuration`, from the delay reached so far. -/
def backoffFrom : Nat → Nat → Nat
  | d, 0 => if maxBackoff < d then maxBackoff else d
  | d, n + 1 => if maxBackoff / 2 ≤ d then maxBackoff else backoffFrom (d * 2) n

def backoffDuration (retryCount : Nat) : Nat := backoffFrom interval retryCount

/-- The body of the loop of `processBatch`; errors of the two updates are only logged. -/
def publishEvent (publisher : Nat) (evt : OutboxRow) : ChatProg Unit := do
  if ← inBackoff publisher evt.id then return ()
  match ← publishRaw evt with
  | .error _ =>
    let _ ← incrementRetry evt.id
    setBackoff publisher evt.id (evt.retryCount + 1)
  | .ok _ =>
    clearBackoff publisher evt.id
    let _ ← markPublished evt.id
    return ()

def publishEach (publisher : Nat) : List OutboxRow → ChatProg Unit
  | [] => .ret ()
  | evt :: events => do
    publishEvent publisher evt
    publishEach publisher events

def processBatch (publisher : Nat) : ChatProg Unit := do
  match ← pollPending batchSize with
  | .error _ => return ()
  | .ok events => publishEach publisher events

/-- One tick of the loop of `Start`. -/
def tick (publisher : Nat) : ChatProg Unit := do
  cleanupBackoff publisher
  processBatch publisher

theorem backoffFrom_le (d n : Nat) : backoffFrom d n ≤ maxBackoff := by
  induction n generalizing d with
  | zero =>
    unfold backoffFrom
    split
    · exact le_refl _
    · omega
  | succ n ih =>
    unfold backoffFrom
    split
    · exact le_refl _
    · exact ih (d * 2)

/-- However many failures there were, the delay stays within the cap. -/
theorem backoffDuration_le (retryCount : Nat) : backoffDuration retryCount ≤ maxBackoff :=
  backoffFrom_le interval retryCount

end Publisher

/-- A request to the command service. -/
inductive Call where
  | create (roomId authorId : Uuid) (req : CreateMessageRequest)
  | update (messageId userId : Uuid) (req : UpdateMessageRequest)
  | delete (messageId userId : Uuid)
  | adminDelete (messageId : Uuid)

/-- How a thread ends: a call with its result, or a publisher's tick. -/
inductive Outcome where
  | returned (call : Call) (result : Except ChatError (Option MessageResponse))
  | ticked

def Call.run : Call → ChatProg (Except ChatError (Option MessageResponse))
  | .create roomId authorId req => checked (createMessage roomId authorId req) fun r => .ret (.ok (some r))
  | .update messageId userId req => checked (updateMessage messageId userId req) fun r => .ret (.ok (some r))
  | .delete messageId userId => checked (deleteMessage messageId userId) fun _ => .ret (.ok none)
  | .adminDelete messageId => checked (adminDeleteMessage messageId) fun _ => .ret (.ok none)

def serve (call : Call) : ChatProg Outcome := do
  let result ← call.run
  return .returned call result

def publish (publisher : Nat) : ChatProg Outcome := do
  tick publisher
  return .ticked

/-- The threads of the command service: its calls and the ticks of its publishers. -/
inductive Entry : ChatProg Outcome → Prop where
  | serve (call : Call) : Entry (serve call)
  | publish (publisher : Nat) : Entry (publish publisher)

end Chinwag.Chat

import Mathlib.Algebra.Ring.Nat
import Chinwag.Lib.Program
import Chinwag.Auth.Responses
import Chinwag.Rooms.Statements

/-!
# The services of rooms, memberships and invite links

Each operation is a program that reads, writes and asks the cache in separate commands, so other
requests may run between them. A unit of work of one statement is that statement; the one of
`CreateRoom` has two, which the others see when it commits.
-/
namespace Chinwag.Rooms

open Program Auth

def errConflict : AppError := ⟨409, "User already exists"⟩
def errNotFound : AppError := ⟨404, "User not found"⟩
def errRoomPopped : AppError := ⟨410, "Room has been popped"⟩
def errInviteNotFound : AppError := ⟨404, "Invite link not found"⟩
def errAlreadyMember : AppError := ⟨409, "User is already a member of this room"⟩
def errUserDeleted : AppError := ⟨404, "User not found or has been deleted"⟩
def errPopAtInPast : AppError := ⟨400, "pop_at must be in the future"⟩
def errAdminRequired : AppError := ⟨403, "Admin permission is required"⟩

/-- An error as it reaches a handler: one of package `errs`, one of the database, or another. -/
inductive ServiceError where
  | app (e : AppError)
  | db (e : DbError)
  | other
  deriving DecidableEq

abbrev Result (α : Type) := Except ServiceError α

structure CreateRoomRequest where
  name : String
  description : Option String
  maxMembers : Int
  popAt : Option Nat

structure AdminCreateRoomRequest extends CreateRoomRequest where
  ownerId : Option Uuid

structure UpdateRoomRequest where
  name : Option String
  description : Option String
  maxMembers : Option Int

structure UpdateRoomMemberRequest where
  role : Option Role

structure RoomUser where
  userId : Uuid
  roomId : Uuid
  role : Option Role

structure CreateInviteLinkRequest where
  ttlHours : Option Int
  singleUse : Option Bool

structure InviteLinkData where
  roomId : String
  createdBy : String
  singleUse : Bool
  deriving DecidableEq

structure InviteLinkResponse where
  token : String
  roomId : String
  expiresAt : Int

structure UserInfo where
  id : String
  name : String
  email : String
  role : String

inductive Query where
  | getRoomById (id : Uuid)
  | getMemberByRoomIdAndMemberId (roomId userId : Uuid)
  | getMembersByRoomId (roomId : Uuid)

abbrev Query.Row : Query → Type
  | .getRoomById _ => Room
  | .getMemberByRoomIdAndMemberId _ _ => RoomMember
  | .getMembersByRoomId _ => List RoomMember

def RoomTables.answer (t : RoomTables) : (q : Query) → Except DbError q.Row
  | .getRoomById id => t.getRoomById id
  | .getMemberByRoomIdAndMemberId roomId userId => t.getMemberByRoomIdAndMemberId roomId userId
  | .getMembersByRoomId roomId => .ok (t.getMembersByRoomId roomId)

/-- `begin` to `rollback` make up the transaction of a creation. -/
inductive RoomCmd where
  | newV7
  | new
  | now
  | read (q : Query)
  | write (w : Write)
  | begin
  | insertRoom (room : Room)
  | insertOwner (m : NewMember)
  | commit
  | rollback
  | cacheGet (key : String)
  | cacheSet (key : String) (data : InviteLinkData) (ttl : Int)
  | cacheDelete (key : String)
  | getUser (id : String)

abbrev RoomReply : RoomCmd → Type
  | .newV7 => Uuid
  | .new => Uuid
  | .now => Nat
  | .read q => Except DbError q.Row
  | .write _ => Except DbError Nat
  | .begin => Except DbError Unit
  | .insertRoom _ => Except DbError Unit
  | .insertOwner _ => Except DbError Nat
  | .commit => Except DbError Unit
  | .rollback => Unit
  | .cacheGet _ => Option InviteLinkData
  | .cacheSet _ _ _ => Bool
  | .cacheDelete _ => Bool
  | .getUser _ => Option UserInfo

abbrev RoomProg (α : Type) := Prog RoomCmd RoomReply α

open Prog (perform)

def read (q : Query) : RoomProg (Result q.Row) := do
  match ← perform (RoomCmd.read q) with
  | .error e => return .error (.db e)
  | .ok row => return .ok row

/-- A statement of a repository that must affect a row. -/
def affect (missing : AppError) (w : Write) : RoomProg (Result Unit) := do
  match ← perform (RoomCmd.write w) with
  | .error e => return .error (.db e)
  | .ok 0 => return .error (.app missing)
  | .ok _ => return .ok ()

/-- The check that every operation on a room starts with. -/
def unlessPopped {α : Type} (roomId : Uuid) (next : Room → RoomProg (Result α)) : RoomProg (Result α) := do
  match ← read (.getRoomById roomId) with
  | .error e => return .error e
  | .ok room => if room.poppedAt.isSome then return .error (.app errRoomPopped) else next room

section RoomService

/-- The two statements of a creation. -/
def insertWithOwner (room : Room) : RoomProg (Result Unit) := do
  match ← perform (RoomCmd.insertRoom room) with
  | .error e => return .error (.db e)
  | .ok () =>
    match ← perform (RoomCmd.insertOwner ⟨room.ownerId, room.id, Role.ADMIN⟩) with
    | .error e => return .error (.db e)
    | .ok 0 => return .error (.app errConflict)
    | .ok _ => return .ok ()

/-- `UnitOfWork.Do`. -/
def unitOfWork (fn : RoomProg (Result Unit)) : RoomProg (Result Unit) := do
  match ← perform RoomCmd.begin with
  | .error e => return .error (.db e)
  | .ok () =>
    match ← fn with
    | .error e => do
      perform RoomCmd.rollback
      return .error e
    | .ok () =>
      match ← perform RoomCmd.commit with
      | .error e => return .error (.db e)
      | .ok () => return .ok ()

def createRoom (ownerId : Uuid) (request : CreateRoomRequest) : RoomProg (Result Room) := do
  let id ← perform RoomCmd.newV7
  let now ← perform RoomCmd.now
  if request.popAt.any fun at_ => at_ < (now : Nat) then return .error (.app errPopAtInPast)
  else
    let room : Room := ⟨id, request.name, request.description, request.maxMembers, ownerId, request.popAt,
      none, now, now, none⟩
    match ← unitOfWork (insertWithOwner room) with
    | .error e => return .error e
    | .ok () => return .ok room

def getRoomById (roomId : Uuid) : RoomProg (Result Room) := read (.getRoomById roomId)

/-- `patch.Patch` on a room. The `description` of a request is a string and that of a room a
pointer to one, so a request that gives one fails. -/
def patchRoom (room : Room) (req : UpdateRoomRequest) : Result Room :=
  let room := { room with name := req.name.getD room.name }
  match req.description with
  | some _ => .error .other
  | none => .ok { room with maxMembers := req.maxMembers.getD room.maxMembers }

def updateRoom (roomId : Uuid) (req : UpdateRoomRequest) : RoomProg (Result Room) :=
  unlessPopped roomId fun room => do
    match patchRoom room req with
    | .error e => return .error e
    | .ok room =>
      match ← affect errNotFound (.updateRoom room) with
      | .error e => return .error e
      | .ok () => return .ok room

def deleteRoom (roomId : Uuid) : RoomProg (Result Unit) :=
  unlessPopped roomId fun _ => affect errNotFound (.deleteRoomById roomId)

def popRoom (roomId : Uuid) : RoomProg (Result Unit) :=
  unlessPopped roomId fun _ => affect errNotFound (.popRoom roomId)

/-- The owner is the acting administrator unless the request names one. -/
def adminCreateRoom (request : AdminCreateRoomRequest) (actorID : Uuid) : RoomProg (Result Room) :=
  createRoom (request.ownerId.getD actorID) request.toCreateRoomRequest

def adminUpdateRoom (roomId : Uuid) (req : UpdateRoomRequest) : RoomProg (Result Room) := do
  match ← read (.getRoomById roomId) with
  | .error e => return .error e
  | .ok room =>
    match patchRoom room req with
    | .error e => return .error e
    | .ok room =>
      match ← affect errNotFound (.adminUpdateRoom room) with
      | .error e => return .error e
      | .ok () => return .ok room

def adminDeleteRoom (roomId : Uuid) : RoomProg (Result Unit) := affect errNotFound (.adminDeleteRoomById roomId)

/-- `SQLPopper.PopRooms`, as the scheduler calls it: a failure is logged. -/
def popRooms : RoomProg (Result Nat) := do
  match ← perform (RoomCmd.write .popRooms) with
  | .error e => return .error (.db e)
  | .ok n => return .ok n

end RoomService

section RoomMemberService

/-- `patch.Patch` on a membership. -/
def patchMember (member : RoomMember) (req : UpdateRoomMemberRequest) : RoomMember :=
  { member with role := req.role.getD member.role }

/-- The rest of both updates of a membership, given the statement. -/
def updateMemberWith (userId roomId : Uuid) (req : UpdateRoomMemberRequest) (w : RoomMember → Write) :
    RoomProg (Result RoomMember) := do
  match ← read (.getMemberByRoomIdAndMemberId roomId userId) with
  | .error e => return .error e
  | .ok member =>
    match ← affect errNotFound (w (patchMember member req)) with
    | .error e => return .error e
    | .ok () => return .ok (patchMember member req)

def updateRoomMember (userId roomId : Uuid) (req : UpdateRoomMemberRequest) : RoomProg (Result RoomMember) :=
  unlessPopped roomId fun _ => updateMemberWith userId roomId req .updateMember

def setUserRole (userId roomId : Uuid) (role : Role) : RoomProg (Result Unit) :=
  unlessPopped roomId fun _ => affect errNotFound (.setUserRole userId roomId role)

def RoomUser.newMember (member : RoomUser) : NewMember :=
  ⟨member.userId, member.roomId, member.role.getD Role.MEMBER⟩

def inviteUser (member : RoomUser) : RoomProg (Result Unit) :=
  unlessPopped member.roomId fun _ => affect errConflict (.addMember member.newMember)

def kickUser (member : RoomUser) : RoomProg (Result Unit) :=
  unlessPopped member.roomId fun _ => affect errNotFound (.removeMember member.userId member.roomId)

def getUserByRoomId (roomId : Uuid) : RoomProg (Result (List RoomMember)) := read (.getMembersByRoomId roomId)

def getUserByRoomIdAndUserId (userId roomId : Uuid) : RoomProg (Result RoomMember) :=
  read (.getMemberByRoomIdAndMemberId roomId userId)

def hasManagerPermission (userId roomId : Uuid) : RoomProg (Result Bool) := do
  match ← getUserByRoomIdAndUserId userId roomId with
  | .error e => return .error e
  | .ok member => return .ok (member.role == Role.ADMIN)

def adminInviteUser (member : RoomUser) : RoomProg (Result Unit) := affect errConflict (.adminAddMember member.newMember)

def adminKickUser (member : RoomUser) : RoomProg (Result Unit) :=
  affect errNotFound (.adminRemoveMember member.userId member.roomId)

def adminSetUserRole (userId roomId : Uuid) (role : Role) : RoomProg (Result Unit) :=
  affect errNotFound (.adminSetUserRole userId roomId role)

def adminUpdateRoomMember (userId roomId : Uuid) (req : UpdateRoomMemberRequest) : RoomProg (Result RoomMember) :=
  updateMemberWith userId roomId req .adminUpdateMember

end RoomMemberService

section InviteLinkService

def inviteKeyPrefix : String := "invite:"

/-- An hour in nanoseconds. -/
def hour : Int := 3600000000000

def defaultInviteTTL : Int := 24 * hour

/-- Durations are 64-bit integers. -/
def inviteTTL (ttlHours : Option Int) : Int :=
  match ttlHours with
  | some h => if 0 < h then Int.bmod (h * hour) (2 ^ 64) else defaultInviteTTL
  | none => defaultInviteTTL

def createInviteLink (roomId createdBy : Uuid) (req : CreateInviteLinkRequest) :
    RoomProg (Result InviteLinkResponse) :=
  unlessPopped roomId fun _ => do
    match ← hasManagerPermission createdBy roomId with
    | .error e => return .error e
    | .ok false => return .error (.app errAdminRequired)
    | .ok true =>
      let token ← perform RoomCmd.new
      let ttl := inviteTTL req.ttlHours
      let data : InviteLinkData := ⟨roomId.toText, createdBy.toText, req.singleUse.getD false⟩
      if ← perform (RoomCmd.cacheSet (inviteKeyPrefix ++ (token : Uuid).toText) data ttl) then
        let now ← perform RoomCmd.now
        return .ok ⟨(token : Uuid).toText, roomId.toText, (now : Nat) + ttl⟩
      else return .error .other

/-- What is left of a join once the link is known to lead to a room that is not popped. -/
def joinRoom (key : String) (data : InviteLinkData) (roomId userId : Uuid) : RoomProg (Result Uuid) := do
  match ← perform (RoomCmd.getUser userId.toText) with
  | none => return .error (.app errUserDeleted)
  | some _ =>
    match ← getUserByRoomIdAndUserId userId roomId with
    | .ok _ => return .error (.app errAlreadyMember)
    | .error _ =>
      match ← inviteUser ⟨userId, roomId, none⟩ with
      | .error e => return .error e
      | .ok () =>
        if data.singleUse then
          let _ ← perform (RoomCmd.cacheDelete key)
          return .ok roomId
        else return .ok roomId

def joinByInviteLink (token : String) (userId : Uuid) : RoomProg (Result Uuid) := do
  let key := inviteKeyPrefix ++ token
  match ← perform (RoomCmd.cacheGet key) with
  | none => return .error (.app errInviteNotFound)
  | some data =>
    match Uuid.parse data.roomId with
    | none => return .error (.app errInviteNotFound)
    | some roomId => unlessPopped roomId fun _ => joinRoom key data roomId userId

end InviteLinkService

end Chinwag.Rooms

import Chinwag.Rooms.Service

/-!
# The handlers and their routes

The public, the private and the admin group. A private handler runs only with the verified
claims of an access token, an admin handler only with the role `ADMIN` in them. Which of the
private handlers look further, each decides for itself.
-/
namespace Chinwag.Rooms

open Program Auth

/-- The ids are those of the path, as texts. -/
inductive Request where
  | getRoom (id : String)
  | listMembers (roomId : String)
  | getMember (roomId userId : String)
  | createRoom (auth : Except AppError AccessClaims) (body : Except String CreateRoomRequest)
  | updateRoom (auth : Except AppError AccessClaims) (id : String) (body : Except String UpdateRoomRequest)
  | deleteRoom (auth : Except AppError AccessClaims) (id : String)
  | popRoom (auth : Except AppError AccessClaims) (id : String)
  | addMember (auth : Except AppError AccessClaims) (roomId : String) (body : Except String (Uuid × Option Role))
  | updateMember (auth : Except AppError AccessClaims) (roomId userId : String)
      (body : Except String UpdateRoomMemberRequest)
  | removeMember (auth : Except AppError AccessClaims) (roomId userId : String)
  | createInviteLink (auth : Except AppError AccessClaims) (roomId : String)
      (body : Except String CreateInviteLinkRequest)
  | joinByInviteLink (auth : Except AppError AccessClaims) (token : String)
  | adminCreateRoom (auth : Except AppError AccessClaims) (body : Except String AdminCreateRoomRequest)
  | adminGetRoom (auth : Except AppError AccessClaims) (id : String)
  | adminUpdateRoom (auth : Except AppError AccessClaims) (id : String) (body : Except String UpdateRoomRequest)
  | adminDeleteRoom (auth : Except AppError AccessClaims) (id : String)
  | adminListMembers (auth : Except AppError AccessClaims) (id : String)
  | adminAddMember (auth : Except AppError AccessClaims) (id : String)
      (body : Except String (Uuid × Option Role))
  | adminUpdateMember (auth : Except AppError AccessClaims) (id userId : String)
      (body : Except String UpdateRoomMemberRequest)
  | adminRemoveMember (auth : Except AppError AccessClaims) (id userId : String)

inductive Response where
  | error (status : Nat) (message : String)
  | done (status : Nat)
  | room (status : Nat) (room : Room)
  | member (member : RoomMember)
  | members (members : List RoomMember)
  | invite (link : InviteLinkResponse)
  | joined (roomId : Uuid)

/-- `errs.ParseError`. -/
def parseError : ServiceError → Response
  | .app e => .error e.status e.message
  | .db .noRows => .error errNotFound.status errNotFound.message
  | .db .uniqueViolation => .error errConflict.status errConflict.message
  | _ => .error 500 "Internal Server Error"

def respond {α : Type} (p : RoomProg (Result α)) (ok : α → Response) : RoomProg Response := do
  match ← p with
  | .error e => return parseError e
  | .ok a => return ok a

/-- An id of the path, or of the token. -/
def withId (text : String) (status : Nat) (message : String) (next : Uuid → RoomProg Response) : RoomProg Response :=
  match Uuid.parse text with
  | none => return .error status message
  | some id => next id

def withBody {α : Type} (body : Except String α) (next : α → RoomProg Response) : RoomProg Response :=
  match body with
  | .error e => return .error 400 e
  | .ok a => next a

/-- `utils.IsManager`. -/
def isManager (claims : AccessClaims) (roomId : Uuid) : RoomProg (Result Bool) :=
  match Uuid.parse claims.subject with
  | none => return .error .other
  | some uid => hasManagerPermission uid roomId

/-- What follows `IsManager` and `HasManagerPermission`. -/
def ifManager (check : RoomProg (Result Bool)) (next : RoomProg Response) : RoomProg Response := do
  match ← check with
  | .error e => return parseError e
  | .ok false => return .error errAdminRequired.status errAdminRequired.message
  | .ok true => next

def handleGetRoom (id : String) : RoomProg Response :=
  withId id 400 "invalid room id" fun roomId => respond (getRoomById roomId) (.room 200)

def handleListMembers (roomId : String) : RoomProg Response :=
  withId roomId 400 "invalid room id" fun roomId => respond (getUserByRoomId roomId) .members

def handleGetMember (roomId userId : String) : RoomProg Response :=
  withId roomId 400 "invalid room id" fun roomId =>
    withId userId 400 "invalid user id" fun userId => respond (getUserByRoomIdAndUserId userId roomId) .member

def handleCreateRoom (claims : AccessClaims) (body : Except String CreateRoomRequest) : RoomProg Response :=
  withBody body fun req =>
    withId claims.subject 400 "invalid user id" fun ownerId => respond (createRoom ownerId req) (.room 201)

/-- The claims of the caller are not asked. -/
def handleUpdateRoom (id : String) (body : Except String UpdateRoomRequest) : RoomProg Response :=
  withId id 400 "invalid room id" fun roomId =>
    withBody body fun req => respond (updateRoom roomId req) (.room 200)

/-- Nor here. -/
def handleDeleteRoom (id : String) : RoomProg Response :=
  withId id 400 "invalid room id" fun roomId => respond (deleteRoom roomId) fun _ => .done 200

def handlePopRoom (claims : AccessClaims) (id : String) : RoomProg Response :=
  withId id 400 "invalid room id" fun roomId =>
    withId claims.subject 400 "invalid user id" fun userId =>
      ifManager (hasManagerPermission userId roomId) (respond (popRoom roomId) fun _ => .done 200)

def handleAddMember (claims : AccessClaims) (roomId : String) (body : Except String (Uuid × Option Role)) :
    RoomProg Response :=
  withId roomId 400 "invalid room id" fun roomId =>
    withBody body fun req =>
      ifManager (isManager claims roomId) (respond (inviteUser ⟨req.1, roomId, req.2⟩) fun _ => .done 201)

def handleRemoveMember (claims : AccessClaims) (roomId userId : String) : RoomProg Response :=
  withId roomId 400 "invalid room id" fun roomId =>
    withId userId 400 "invalid user id" fun userId =>
      ifManager (isManager claims roomId) (respond (kickUser ⟨userId, roomId, none⟩) fun _ => .done 200)

def handleUpdateMember (claims : AccessClaims) (roomId userId : String)
    (body : Except String UpdateRoomMemberRequest) : RoomProg Response :=
  withId roomId 400 "invalid room id" fun roomId =>
    withId userId 400 "invalid user id" fun userId =>
      ifManager (isManager claims roomId)
        (withBody body fun req => respond (updateRoomMember userId roomId req) .member)

def handleCreateInviteLink (claims : AccessClaims) (roomId : String)
    (body : Except String CreateInviteLinkRequest) : RoomProg Response :=
  withId roomId 400 "invalid room id" fun roomId =>
    withId claims.subject 400 "invalid user id" fun uid =>
      withBody body fun req => respond (createInviteLink roomId uid req) .invite

def handleJoinByInviteLink (claims : AccessClaims) (token : String) : RoomProg Response :=
  if token = "" then return .error 400 "invalid token"
  else withId claims.subject 400 "invalid user id" fun uid => respond (joinByInviteLink token uid) .joined

def handleAdminCreateRoom (claims : AccessClaims) (body : Except String AdminCreateRoomRequest) :
    RoomProg Response :=
  withBody body fun req =>
    withId claims.subject 401 "invalid actor" fun actor => respond (adminCreateRoom req actor) (.room 201)

def handleAdminUpdateRoom (id : String) (body : Except String UpdateRoomRequest) : RoomProg Response :=
  withId id 400 "invalid room id" fun roomId =>
    withBody body fun req => respond (adminUpdateRoom roomId req) (.room 200)

def handleAdminDeleteRoom (id : String) : RoomProg Response :=
  withId id 400 "invalid room id" fun roomId => respond (adminDeleteRoom roomId) fun _ => .done 200

def handleAdminAddMember (id : String) (body : Except String (Uuid × Option Role)) : RoomProg Response :=
  withId id 400 "invalid room id" fun roomId =>
    withBody body fun req => respond (adminInviteUser ⟨req.1, roomId, req.2⟩) fun _ => .done 201

def handleAdminRemoveMember (id userId : String) : RoomProg Response :=
  withId id 400 "invalid room id" fun roomId =>
    withId userId 400 "invalid user id" fun userId =>
      respond (adminKickUser ⟨userId, roomId, none⟩) fun _ => .done 200

def handleAdminUpdateMember (id userId : String) (body : Except String UpdateRoomMemberRequest) :
    RoomProg Response :=
  withId id 400 "invalid room id" fun roomId =>
    withId userId 400 "invalid user id" fun userId =>
      withBody body fun req => respond (adminUpdateRoomMember userId roomId req) .member

/-- The private group: behind `NewMiddleware`. -/
def privately (auth : Except AppError AccessClaims) (next : AccessClaims → RoomProg Response) :
    RoomProg Response :=
  match auth with
  | .error e => return .error e.status e.message
  | .ok claims => next claims

/-- The admin group: behind `RequireRole(RoleAdmin)` as well. -/
def adminOnly (auth : Except AppError AccessClaims) (next : AccessClaims → RoomProg Response) :
    RoomProg Response :=
  privately auth fun claims => if claims.role = .ADMIN then next claims else return .error 403 "forbidden"

def serve : Request → RoomProg Response
  | .getRoom id => handleGetRoom id
  | .listMembers roomId => handleListMembers roomId
  | .getMember roomId userId => handleGetMember roomId userId
  | .createRoom auth body => privately auth fun claims => handleCreateRoom claims body
  | .updateRoom auth id body => privately auth fun _ => handleUpdateRoom id body
  | .deleteRoom auth id => privately auth fun _ => handleDeleteRoom id
  | .popRoom auth id => privately auth fun claims => handlePopRoom claims id
  | .addMember auth roomId body => privately auth fun claims => handleAddMember claims roomId body
  | .updateMember auth roomId userId body => privately auth fun claims => handleUpdateMember claims roomId userId body
  | .removeMember auth roomId userId => privately auth fun claims => handleRemoveMember claims roomId userId
  | .createInviteLink auth roomId body => privately auth fun claims => handleCreateInviteLink claims roomId body
  | .joinByInviteLink auth token => privately auth fun claims => handleJoinByInviteLink claims token
  | .adminCreateRoom auth body => adminOnly auth fun claims => handleAdminCreateRoom claims body
  | .adminGetRoom auth id => adminOnly auth fun _ => handleGetRoom id
  | .adminUpdateRoom auth id body => adminOnly auth fun _ => handleAdminUpdateRoom id body
  | .adminDeleteRoom auth id => adminOnly auth fun _ => handleAdminDeleteRoom id
  | .adminListMembers auth id => adminOnly auth fun _ => handleListMembers id
  | .adminAddMember auth id body => adminOnly auth fun _ => handleAdminAddMember id body
  | .adminUpdateMember auth id userId body => adminOnly auth fun _ => handleAdminUpdateMember id userId body
  | .adminRemoveMember auth id userId => adminOnly auth fun _ => handleAdminRemoveMember id userId

end Chinwag.Rooms

import Chinwag.Lib.KeyedTable
import Chinwag.Lib.Uuid

/-!
# The tables of the room service

Rooms by their id, memberships by room and user. A user who leaves keeps the row, with the time
of leaving. There is one definition for each statement of the repositories; the statements of
users ask that the room is open, those of administrators do not.
-/
namespace Chinwag.Rooms

structure Room where
  id : Uuid
  name : String
  description : Option String
  maxMembers : Int
  ownerId : Uuid
  popAt : Option Nat
  poppedAt : Option Nat
  createdAt : Nat
  updatedAt : Nat
  deletedAt : Option Nat
  deriving DecidableEq

/-- A small integer: the service takes any, and gives a meaning to these two. -/
abbrev Role := Int

namespace Role

def MEMBER : Role := 0
def ADMIN : Role := 1

end Role

structure RoomMember where
  roomId : Uuid
  userId : Uuid
  role : Role
  joinedAt : Nat
  leftAt : Option Nat
  deriving DecidableEq

def RoomMember.key (m : RoomMember) : Uuid × Uuid := (m.roomId, m.userId)

inductive DbError where
  | noRows
  | uniqueViolation
  | valueOutOfRange
  | unavailable
  | lost
  deriving DecidableEq

namespace Room

def isLive (r : Room) : Bool := r.deletedAt.isNone

def isOpen (r : Room) : Bool := r.poppedAt.isNone && r.deletedAt.isNone

/-- The limits of the columns. -/
def Fits (name : String) (description : Option String) (maxMembers : Int) : Prop :=
  name.length ≤ 128 ∧ (∀ d, description = some d → d.length ≤ 255) ∧
    -2147483648 ≤ maxMembers ∧ maxMembers ≤ 2147483647

instance (name : String) (description : Option String) (maxMembers : Int) :
    Decidable (Fits name description maxMembers) := by
  unfold Fits
  cases description with
  | none => exact decidable_of_iff (name.length ≤ 128 ∧ -2147483648 ≤ maxMembers ∧ maxMembers ≤ 2147483647) (by simp)
  | some d =>
    exact decidable_of_iff
      (name.length ≤ 128 ∧ d.length ≤ 255 ∧ -2147483648 ≤ maxMembers ∧ maxMembers ≤ 2147483647) (by simp)

end Room

def Role.Fits (role : Role) : Prop := -32768 ≤ role ∧ role ≤ 32767

instance (role : Role) : Decidable role.Fits := inferInstanceAs (Decidable (_ ∧ _))

namespace RoomMember

def isActive (m : RoomMember) : Bool := m.leftAt.isNone

def isOf (m : RoomMember) (roomId userId : Uuid) : Bool := m.roomId == roomId && m.userId == userId

end RoomMember

structure RoomTables where
  rooms : KeyedTable Room.id
  members : KeyedTable RoomMember.key
  room_member_room_id_fkey : ∀ m ∈ members.rows, (rooms.find m.roomId).isSome = true

/-- What `AddMember` inserts; the other columns have defaults. -/
structure NewMember where
  userId : Uuid
  roomId : Uuid
  role : Role
  deriving DecidableEq

def NewMember.row (m : NewMember) (now : Nat) : RoomMember := ⟨m.roomId, m.userId, m.role, now, none⟩

/-- The row `CreateRoom` inserts: the columns it does not name have defaults. -/
def Room.inserted (room : Room) (now : Nat) : Room :=
  { room with poppedAt := none, createdAt := now, updatedAt := now, deletedAt := none }

/-- What the transaction of a creation has inserted so far; other transactions do not see it. -/
structure Draft where
  room : Room
  owner : Option RoomMember
  ofRoom : ∀ m, owner = some m → m.roomId = room.id

namespace RoomTables

def empty : RoomTables := ⟨.empty, .empty, fun _ h => nomatch h⟩

variable (t : RoomTables)

def updateRooms (p : Room → Bool) (f : Room → Room) (hf : ∀ r, (f r).id = r.id) : RoomTables × Nat :=
  ({ t with
    rooms := t.rooms.update p f hf
    room_member_room_id_fkey := by
      intro m hm
      rw [KeyedTable.find_update, Option.isSome_map]
      exact t.room_member_room_id_fkey m hm }, t.rooms.count p)

def updateMembers (p : RoomMember → Bool) (f : RoomMember → RoomMember) (hf : ∀ m, (f m).key = m.key) :
    RoomTables × Nat :=
  ({ t with
    members := t.members.update p f hf
    room_member_room_id_fkey := by
      intro m hm
      obtain ⟨n, hn, rfl⟩ := List.mem_map.mp hm
      split
      · have hroom : (f n).roomId = n.roomId := congrArg Prod.fst (hf n)
        rw [hroom]
        exact t.room_member_room_id_fkey n hn
      · exact t.room_member_room_id_fkey n hn }, t.members.count p)

/-- `EXISTS (SELECT 1 FROM rooms WHERE id = … )` and a condition on the room. -/
def hasRoom (p : Room → Bool) (roomId : Uuid) : Bool := (t.rooms.find roomId).any p

def insertMember (p : Room → Bool) (m : NewMember) (now : Nat) : Except DbError (RoomTables × Nat) :=
  if m.role.Fits then
    if hroom : t.hasRoom p m.roomId = true then
      if hfree : t.members.find (m.row now).key = none then
        .ok ({ t with
          members := t.members.insert (m.row now) hfree
          room_member_room_id_fkey := by
            intro n hn
            rcases List.mem_append.mp hn with hold | hnew
            · exact t.room_member_room_id_fkey n hold
            · obtain rfl := List.mem_singleton.mp hnew
              obtain ⟨r, hr, -⟩ := (Option.any_eq_true _ _).mp hroom
              exact Option.isSome_iff_exists.mpr ⟨r, hr⟩ }, 1)
      else .error .uniqueViolation
    else .ok (t, 0)
  else .error .valueOutOfRange

section RoomRepo

def getRoomById (id : Uuid) : Except DbError Room :=
  match t.rooms.find id with
  | some r => if r.isLive then .ok r else .error .noRows
  | none => .error .noRows

def updateRoomWhere (p : Room → Bool) (room : Room) (now : Nat) : Except DbError (RoomTables × Nat) :=
  if Room.Fits room.name room.description room.maxMembers then
    .ok (t.updateRooms (fun r => r.id = room.id && p r)
      (fun r => { r with
        name := room.name
        description := room.description
        maxMembers := room.maxMembers
        updatedAt := now }) fun _ => rfl)
  else .error .valueOutOfRange

def updateRoom (room : Room) (now : Nat) : Except DbError (RoomTables × Nat) :=
  t.updateRoomWhere Room.isOpen room now

/-- A deleted room is deleted again; a popped one is not. -/
def deleteRoomById (id : Uuid) (now : Nat) : RoomTables × Nat :=
  t.updateRooms (fun r => r.id = id && r.poppedAt.isNone) (fun r => { r with deletedAt := some now }) fun _ => rfl

def popRoom (id : Uuid) (now : Nat) : RoomTables × Nat :=
  t.updateRooms (fun r => r.id = id && r.isOpen) (fun r => { r with poppedAt := some now, updatedAt := now })
    fun _ => rfl

/-- The statement of the scheduler. -/
def popRooms (now : Nat) : RoomTables × Nat :=
  t.updateRooms (fun r => r.isOpen && r.popAt.any fun at_ => at_ ≤ now)
    (fun r => { r with poppedAt := some now, updatedAt := now }) fun _ => rfl

def adminUpdateRoom (room : Room) (now : Nat) : Except DbError (RoomTables × Nat) :=
  t.updateRoomWhere Room.isLive room now

def adminDeleteRoomById (id : Uuid) (now : Nat) : RoomTables × Nat :=
  t.updateRooms (fun r => r.id = id) (fun r => { r with deletedAt := some now }) fun _ => rfl

end RoomRepo

section RoomMemberRepo

/-- The active row; `left_at` is not among the columns read. -/
def getMemberByRoomIdAndMemberId (roomId userId : Uuid) : Except DbError RoomMember :=
  match t.members.find (roomId, userId) with
  | some m => if m.isActive then .ok m else .error .noRows
  | none => .error .noRows

def getMembersByRoomId (roomId : Uuid) : List RoomMember :=
  t.members.rows.filter fun m => m.roomId = roomId && m.isActive

def addMember (m : NewMember) (now : Nat) : Except DbError (RoomTables × Nat) :=
  t.insertMember Room.isOpen m now

def adminAddMember (m : NewMember) (now : Nat) : Except DbError (RoomTables × Nat) :=
  t.insertMember Room.isLive m now

/-- `AND EXISTS (…)` at the end of an update: without an open room it affects no row. -/
def inOpenRoom (roomId : Uuid) (update : RoomTables × Nat) : RoomTables × Nat :=
  if t.hasRoom Room.isOpen roomId then update else (t, 0)

def setRoleWhere (p : RoomMember → Bool) (role : Role) : RoomTables × Nat :=
  t.updateMembers p (fun m => { m with role := role }) fun _ => rfl

def updateMember (member : RoomMember) : Except DbError (RoomTables × Nat) :=
  if member.role.Fits then
    .ok (t.inOpenRoom member.roomId
      (t.setRoleWhere (fun m => m.isOf member.roomId member.userId && m.isActive) member.role))
  else .error .valueOutOfRange

/-- A row whose user has left is selected too. -/
def removeMember (userId roomId : Uuid) (now : Nat) : RoomTables × Nat :=
  t.inOpenRoom roomId
    (t.updateMembers (fun m => m.isOf roomId userId) (fun m => { m with leftAt := some now }) fun _ => rfl)

def setUserRole (userId roomId : Uuid) (role : Role) : Except DbError (RoomTables × Nat) :=
  if role.Fits then .ok (t.inOpenRoom roomId (t.setRoleWhere (fun m => m.isOf roomId userId) role))
  else .error .valueOutOfRange

def adminUpdateMember (member : RoomMember) : Except DbError (RoomTables × Nat) :=
  if member.role.Fits then
    .ok (t.setRoleWhere (fun m => m.isOf member.roomId member.userId && m.isActive) member.role)
  else .error .valueOutOfRange

def adminRemoveMember (userId roomId : Uuid) (now : Nat) : RoomTables × Nat :=
  t.updateMembers (fun m => m.isOf roomId userId) (fun m => { m with leftAt := some now }) fun _ => rfl

def adminSetUserRole (userId roomId : Uuid) (role : Role) : Except DbError (RoomTables × Nat) :=
  if role.Fits then .ok (t.setRoleWhere (fun m => m.isOf roomId userId) role) else .error .valueOutOfRange

end RoomMemberRepo

/-- No membership is of a room that does not exist. -/
theorem find_member_of_no_room {t : RoomTables} {m : RoomMember} (h : t.rooms.find m.roomId = none) :
    t.members.find m.key = none := by
  rw [KeyedTable.find_eq_none]
  intro n hn hkey
  have hroom := t.room_member_room_id_fkey n hn
  have heq : n.roomId = m.roomId := congrArg Prod.fst hkey
  rw [heq, h] at hroom
  cases hroom

/-- What a committed creation adds: its room, and the owner if that row was inserted. -/
def create (d : Draft) (hfree : t.rooms.find d.room.id = none) : RoomTables where
  rooms := t.rooms.insert d.room hfree
  members := match d.owner, d.ofRoom with
    | none, _ => t.members
    | some m, hroom => t.members.insert m (find_member_of_no_room ((hroom m rfl).symm ▸ hfree))
  room_member_room_id_fkey := by
    have hold : ∀ m ∈ t.members.rows, ((t.rooms.insert d.room hfree).find m.roomId).isSome = true := by
      intro m hm
      rw [KeyedTable.find_insert]
      split
      · rfl
      · exact t.room_member_room_id_fkey m hm
    intro n hn
    split at hn
    · exact hold n hn
    · next m howner _ =>
      rcases List.mem_append.mp hn with hn | hn
      · exact hold n hn
      · obtain rfl := List.mem_singleton.mp hn
        rw [d.ofRoom n howner, KeyedTable.find_insert, if_pos rfl]
        rfl

theorem members_create_none {t : RoomTables} {d : Draft} (hfree : t.rooms.find d.room.id = none)
    (h : d.owner = none) : (t.create d hfree).members = t.members := by
  obtain ⟨room, owner, hroom⟩ := d
  obtain rfl : owner = none := h
  rfl

theorem members_create_some {t : RoomTables} {d : Draft} (hfree : t.rooms.find d.room.id = none)
    {m : RoomMember} (h : d.owner = some m) :
    ∃ hm, (t.create d hfree).members = t.members.insert m hm := by
  obtain ⟨room, owner, hroom⟩ := d
  obtain rfl : owner = some m := h
  exact ⟨find_member_of_no_room ((hroom m rfl).symm ▸ hfree), rfl⟩

end RoomTables

end Chinwag.Rooms

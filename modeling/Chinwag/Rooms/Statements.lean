import Chinwag.Rooms.Tables

/-!
# The statements that write

What each statement does to a row it selects, and that it does nothing else. The later
arguments about the tables go by `Write.Effect`.
-/
namespace Chinwag.Rooms

inductive Write where
  | updateRoom (room : Room)
  | deleteRoomById (id : Uuid)
  | popRoom (id : Uuid)
  | popRooms
  | addMember (m : NewMember)
  | updateMember (member : RoomMember)
  | removeMember (userId roomId : Uuid)
  | setUserRole (userId roomId : Uuid) (role : Role)
  | adminUpdateRoom (room : Room)
  | adminDeleteRoomById (id : Uuid)
  | adminAddMember (m : NewMember)
  | adminUpdateMember (member : RoomMember)
  | adminRemoveMember (userId roomId : Uuid)
  | adminSetUserRole (userId roomId : Uuid) (role : Role)

namespace Write

def apply (now : Nat) (t : RoomTables) : Write → Except DbError (RoomTables × Nat)
  | .updateRoom room => t.updateRoom room now
  | .deleteRoomById id => .ok (t.deleteRoomById id now)
  | .popRoom id => .ok (t.popRoom id now)
  | .popRooms => .ok (t.popRooms now)
  | .addMember m => t.addMember m now
  | .updateMember member => t.updateMember member
  | .removeMember userId roomId => .ok (t.removeMember userId roomId now)
  | .setUserRole userId roomId role => t.setUserRole userId roomId role
  | .adminUpdateRoom room => t.adminUpdateRoom room now
  | .adminDeleteRoomById id => .ok (t.adminDeleteRoomById id now)
  | .adminAddMember m => t.adminAddMember m now
  | .adminUpdateMember member => t.adminUpdateMember member
  | .adminRemoveMember userId roomId => .ok (t.adminRemoveMember userId roomId now)
  | .adminSetUserRole userId roomId role => t.adminSetUserRole userId roomId role

/-- The statements of the operations that are not an administrator's. -/
def Ordinary : Write → Prop
  | .adminUpdateRoom _ => False
  | .adminDeleteRoomById _ => False
  | .adminAddMember _ => False
  | .adminUpdateMember _ => False
  | .adminRemoveMember _ _ => False
  | .adminSetUserRole _ _ _ => False
  | _ => True

section Rows

variable (now : Nat) (t : RoomTables)

def selectsRoom : Write → Room → Bool
  | .updateRoom room, r => r.id = room.id && r.isOpen
  | .deleteRoomById id, r => r.id = id && r.poppedAt.isNone
  | .popRoom id, r => r.id = id && r.isOpen
  | .popRooms, r => r.isOpen && r.popAt.any fun at_ => at_ ≤ now
  | .adminUpdateRoom room, r => r.id = room.id && r.isLive
  | .adminDeleteRoomById id, r => r.id = id
  | _, _ => false

def reviseRoom : Write → Room → Room
  | .updateRoom room, r | .adminUpdateRoom room, r => { r with
      name := room.name
      description := room.description
      maxMembers := room.maxMembers
      updatedAt := now }
  | .deleteRoomById _, r | .adminDeleteRoomById _, r => { r with deletedAt := some now }
  | .popRoom _, r | .popRooms, r => { r with poppedAt := some now, updatedAt := now }
  | _, r => r

def selectsMember : Write → RoomMember → Bool
  | .updateMember member, m =>
    t.hasRoom Room.isOpen member.roomId && (m.isOf member.roomId member.userId && m.isActive)
  | .removeMember userId roomId, m => t.hasRoom Room.isOpen roomId && m.isOf roomId userId
  | .setUserRole userId roomId _, m => t.hasRoom Room.isOpen roomId && m.isOf roomId userId
  | .adminUpdateMember member, m => m.isOf member.roomId member.userId && m.isActive
  | .adminRemoveMember userId roomId, m => m.isOf roomId userId
  | .adminSetUserRole userId roomId _, m => m.isOf roomId userId
  | _, _ => false

def reviseMember : Write → RoomMember → RoomMember
  | .updateMember member, m | .adminUpdateMember member, m => { m with role := member.role }
  | .removeMember _ _, m | .adminRemoveMember _ _, m => { m with leftAt := some now }
  | .setUserRole _ _ role, m | .adminSetUserRole _ _ role, m => { m with role := role }
  | _, m => m

/-- The row a statement inserts. -/
def inserts : Write → Option NewMember
  | .addMember m => if t.hasRoom Room.isOpen m.roomId then some m else none
  | .adminAddMember m => if t.hasRoom Room.isLive m.roomId then some m else none
  | _ => none

end Rows

theorem inserts_ordinary {t : RoomTables} {w : Write} {m : NewMember} (hord : w.Ordinary)
    (h : w.inserts t = some m) : w = .addMember m ∧ t.hasRoom Room.isOpen m.roomId = true := by
  cases w with
  | addMember m' =>
    have hins : (if t.hasRoom Room.isOpen m'.roomId then some m' else none) = some m := h
    by_cases hopen : t.hasRoom Room.isOpen m'.roomId = true
    · rw [if_pos hopen] at hins
      obtain rfl := Option.some.inj hins
      exact ⟨rfl, hopen⟩
    · rw [if_neg hopen] at hins
      cases hins
  | adminAddMember => exact hord.elim
  | _ => cases h

/-- The rows of both tables after a statement. -/
structure Effect (w : Write) (now : Nat) (t t' : RoomTables) : Prop where
  room : ∀ k, t'.rooms.find k =
    (t.rooms.find k).map fun r => if w.selectsRoom now r then w.reviseRoom now r else r
  updated : w.inserts t = none → ∀ k u, t'.members.find (k, u) =
    (t.members.find (k, u)).map fun m => if w.selectsMember t m then w.reviseMember now m else m
  inserted : ∀ m, w.inserts t = some m → t.members.find (m.roomId, m.userId) = none ∧
    ∀ k u, t'.members.find (k, u) =
      if k = m.roomId ∧ u = m.userId then some (m.row now) else t.members.find (k, u)

variable {now n : Nat} {t t' : RoomTables} {w : Write}

theorem map_unselected {α : Type} (o : Option α) (f : α → α) :
    (o.map fun a => if false = true then f a else a) = o := by
  cases o <;> rfl

theorem Effect.room_kept (h : w.Effect now t t') (hsel : ∀ r, w.selectsRoom now r = false) (k : Uuid) :
    t'.rooms.find k = t.rooms.find k := by
  rw [h.room]
  simp only [hsel]
  exact map_unselected _ _

theorem Effect.of_rooms {p : Room → Bool} {f : Room → Room} {hf : ∀ r, (f r).id = r.id}
    (h : t.updateRooms p f hf = (t', n)) (hp : ∀ r, p r = w.selectsRoom now r)
    (hrev : ∀ r, f r = w.reviseRoom now r) (hmem : ∀ m, w.selectsMember t m = false)
    (hins : w.inserts t = none) : Effect w now t t' := by
  obtain rfl : _ = t' := congrArg Prod.fst h
  constructor
  · intro k
    have hfind := t.rooms.find_update p hf k
    simp only [hp, hrev] at hfind
    exact hfind
  · intro _ k u
    simp only [hmem]
    exact (map_unselected _ _).symm
  · intro m hm
    rw [hins] at hm
    cases hm

theorem Effect.of_members {p : RoomMember → Bool} {f : RoomMember → RoomMember} {hf : ∀ m, (f m).key = m.key}
    (h : t.updateMembers p f hf = (t', n)) (hp : ∀ m, p m = w.selectsMember t m)
    (hrev : ∀ m, f m = w.reviseMember now m) (hroom : ∀ r, w.selectsRoom now r = false)
    (hins : w.inserts t = none) : Effect w now t t' := by
  obtain rfl : _ = t' := congrArg Prod.fst h
  constructor
  · intro k
    simp only [hroom]
    exact (map_unselected _ _).symm
  · intro _ k u
    have hfind := t.members.find_update p hf (k, u)
    simp only [hp, hrev] at hfind
    exact hfind
  · intro m hm
    rw [hins] at hm
    cases hm

/-- A statement that selects and inserts nothing. -/
theorem Effect.of_nothing (hroom : ∀ r, w.selectsRoom now r = false) (hmem : ∀ m, w.selectsMember t m = false)
    (hins : w.inserts t = none) : Effect w now t t := by
  constructor
  · intro k
    simp only [hroom]
    exact (map_unselected _ _).symm
  · intro _ k u
    simp only [hmem]
    exact (map_unselected _ _).symm
  · intro m hm
    rw [hins] at hm
    cases hm

theorem Effect.of_insert {p : Room → Bool} {m : NewMember} (h : t.insertMember p m now = .ok (t', n))
    (hins : w.inserts t = if t.hasRoom p m.roomId then some m else none)
    (hroom : ∀ r, w.selectsRoom now r = false) (hmem : ∀ m, w.selectsMember t m = false) : Effect w now t t' := by
  unfold RoomTables.insertMember at h
  split at h
  · split at h
    · next hhas =>
      rw [if_pos hhas] at hins
      split at h
      · next hfree =>
        obtain rfl : _ = t' := congrArg Prod.fst (Except.ok.inj h)
        constructor
        · intro k
          simp only [hroom]
          exact (map_unselected _ _).symm
        · intro hnone
          rw [hins] at hnone
          cases hnone
        · intro m' hm'
          obtain rfl : m = m' := Option.some.inj (hins.symm.trans hm')
          refine ⟨hfree, fun k u => ?_⟩
          have hfind := KeyedTable.find_insert (h := hfree) (k, u)
          simp only [RoomMember.key, NewMember.row, Prod.mk.injEq] at hfind
          exact hfind
      · cases h
    · next hhas =>
      rw [if_neg hhas] at hins
      obtain rfl : t = t' := congrArg Prod.fst (Except.ok.inj h)
      exact .of_nothing hroom hmem hins
  · cases h

/-- An update that asks for an open room. -/
theorem Effect.of_inOpenRoom {p : RoomMember → Bool} {f : RoomMember → RoomMember} {roomId : Uuid}
    {hf : ∀ m, (f m).key = m.key} (h : t.inOpenRoom roomId (t.updateMembers p f hf) = (t', n))
    (hp : ∀ m, (t.hasRoom Room.isOpen roomId && p m) = w.selectsMember t m)
    (hrev : ∀ m, f m = w.reviseMember now m) (hroom : ∀ r, w.selectsRoom now r = false)
    (hins : w.inserts t = none) : Effect w now t t' := by
  unfold RoomTables.inOpenRoom at h
  split at h
  · next hopen =>
    refine .of_members h ?_ hrev hroom hins
    intro m
    rw [← hp m, hopen]
    rfl
  · next hopen =>
    obtain rfl : t = t' := congrArg Prod.fst h
    refine .of_nothing hroom ?_ hins
    intro m
    rw [← hp m, (Bool.not_eq_true _).mp hopen]
    rfl

/-- A statement that succeeds writes to the rows it selects and to no other. -/
theorem effect_of_apply (h : w.apply now t = .ok (t', n)) : Effect w now t t' := by
  cases w with
  | updateRoom room =>
    simp only [apply, RoomTables.updateRoom, RoomTables.updateRoomWhere] at h
    split at h
    · exact .of_rooms (Except.ok.inj h) (fun _ => rfl) (fun _ => rfl) (fun _ => rfl) rfl
    · cases h
  | deleteRoomById id => exact .of_rooms (Except.ok.inj h) (fun _ => rfl) (fun _ => rfl) (fun _ => rfl) rfl
  | popRoom id => exact .of_rooms (Except.ok.inj h) (fun _ => rfl) (fun _ => rfl) (fun _ => rfl) rfl
  | popRooms => exact .of_rooms (Except.ok.inj h) (fun _ => rfl) (fun _ => rfl) (fun _ => rfl) rfl
  | addMember m => exact .of_insert h rfl (fun _ => rfl) fun _ => rfl
  | updateMember member =>
    simp only [apply, RoomTables.updateMember] at h
    split at h
    · exact .of_inOpenRoom (Except.ok.inj h) (fun _ => rfl) (fun _ => rfl) (fun _ => rfl) rfl
    · cases h
  | removeMember userId roomId =>
    exact .of_inOpenRoom (Except.ok.inj h) (fun _ => rfl) (fun _ => rfl) (fun _ => rfl) rfl
  | setUserRole userId roomId role =>
    simp only [apply, RoomTables.setUserRole] at h
    split at h
    · exact .of_inOpenRoom (Except.ok.inj h) (fun _ => rfl) (fun _ => rfl) (fun _ => rfl) rfl
    · cases h
  | adminUpdateRoom room =>
    simp only [apply, RoomTables.adminUpdateRoom, RoomTables.updateRoomWhere] at h
    split at h
    · exact .of_rooms (Except.ok.inj h) (fun _ => rfl) (fun _ => rfl) (fun _ => rfl) rfl
    · cases h
  | adminDeleteRoomById id => exact .of_rooms (Except.ok.inj h) (fun _ => rfl) (fun _ => rfl) (fun _ => rfl) rfl
  | adminAddMember m => exact .of_insert h rfl (fun _ => rfl) fun _ => rfl
  | adminUpdateMember member =>
    simp only [apply, RoomTables.adminUpdateMember] at h
    split at h
    · exact .of_members (Except.ok.inj h) (fun _ => rfl) (fun _ => rfl) (fun _ => rfl) rfl
    · cases h
  | adminRemoveMember userId roomId =>
    exact .of_members (Except.ok.inj h) (fun _ => rfl) (fun _ => rfl) (fun _ => rfl) rfl
  | adminSetUserRole userId roomId role =>
    simp only [apply, RoomTables.adminSetUserRole] at h
    split at h
    · exact .of_members (Except.ok.inj h) (fun _ => rfl) (fun _ => rfl) (fun _ => rfl) rfl
    · cases h

end Write

/-- The room and the rows of its members are the same in both tables. -/
structure SameRoom (t t' : RoomTables) (k : Uuid) : Prop where
  room : t'.rooms.find k = t.rooms.find k
  members : ∀ u, t'.members.find (k, u) = t.members.find (k, u)

theorem SameRoom.refl (t : RoomTables) (k : Uuid) : SameRoom t t k := ⟨rfl, fun _ => rfl⟩

theorem SameRoom.trans {t t' t'' : RoomTables} {k : Uuid} (h : SameRoom t t' k) (h' : SameRoom t' t'' k) :
    SameRoom t t'' k :=
  ⟨h'.room.trans h.room, fun u => (h'.members u).trans (h.members u)⟩

/-- What is neither selected nor inserted stays. -/
theorem Write.Effect.sameRoom {w : Write} {now : Nat} {t t' : RoomTables} {k : Uuid} (h : w.Effect now t t')
    (hroom : ∀ r, t.rooms.find k = some r → w.selectsRoom now r = false)
    (hmember : ∀ m, m.roomId = k → w.selectsMember t m = false)
    (hins : ∀ m, w.inserts t = some m → m.roomId ≠ k) : SameRoom t t' k := by
  constructor
  · rw [h.room]
    cases hfind : t.rooms.find k with
    | none => rfl
    | some r =>
      rw [Option.map_some, hroom r hfind]
      rfl
  · intro u
    cases hw : w.inserts t with
    | none =>
      rw [h.updated hw]
      cases hfind : t.members.find (k, u) with
      | none => rfl
      | some m =>
        have hkey : m.roomId = k := congrArg Prod.fst (KeyedTable.key_of_find hfind)
        rw [Option.map_some, hmember m hkey]
        rfl
    | some m =>
      rw [(h.inserted m hw).2, if_neg]
      rintro ⟨hk, -⟩
      exact hins m hw hk.symm

/-- A creation touches no room that there was. -/
theorem sameRoom_create {t : RoomTables} {d : Draft} {hfree : t.rooms.find d.room.id = none} {k : Uuid}
    (hk : k ≠ d.room.id) : SameRoom t (t.create d hfree) k := by
  constructor
  · have hfind := KeyedTable.find_insert (h := hfree) k
    rwa [if_neg hk] at hfind
  · intro u
    cases howner : d.owner with
    | none => rw [RoomTables.members_create_none hfree howner]
    | some m =>
      obtain ⟨hm, heq⟩ := RoomTables.members_create_some hfree howner
      rw [heq, KeyedTable.find_insert, if_neg]
      intro hkey
      exact hk ((congrArg Prod.fst hkey).trans (d.ofRoom m howner))

end Chinwag.Rooms

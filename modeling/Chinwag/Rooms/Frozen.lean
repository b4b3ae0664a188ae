import Chinwag.Rooms.System

/-!
# A popped room is frozen

The services read `popped_at` before they write, in another statement. What holds a popped room
fixed is that each statement asks for itself.
-/
namespace Chinwag.Rooms

open Program Transition

variable {t t' : RoomTables} {w : Write} {now n : Nat} {k : Uuid}

def Popped (t : RoomTables) (k : Uuid) : Prop := ∃ r, t.rooms.find k = some r ∧ r.poppedAt ≠ none

theorem Room.isOpen_popped {r : Room} (h : r.poppedAt ≠ none) : r.isOpen = false := by
  unfold Room.isOpen
  rw [(Option.isNone_eq_false_iff).mpr (Option.isSome_iff_ne_none.mpr h)]
  rfl

theorem Popped.not_open (h : Popped t k) : t.hasRoom Room.isOpen k = false := by
  obtain ⟨r, hr, hpop⟩ := h
  unfold RoomTables.hasRoom
  rw [hr, Option.any_some]
  exact Room.isOpen_popped hpop

/-- No statement of an ordinary operation selects a popped room. -/
theorem selectsRoom_popped {r : Room} (hord : w.Ordinary) (h : r.poppedAt ≠ none) :
    w.selectsRoom now r = false := by
  have hopen := Room.isOpen_popped h
  cases w with
  | deleteRoomById id =>
    show (decide (r.id = id) && r.poppedAt.isNone) = false
    rw [(Option.isNone_eq_false_iff).mpr (Option.isSome_iff_ne_none.mpr h)]
    exact Bool.and_false _
  | updateRoom room => simp [Write.selectsRoom, hopen]
  | popRoom id => simp [Write.selectsRoom, hopen]
  | popRooms => simp [Write.selectsRoom, hopen]
  | adminUpdateRoom => exact hord.elim
  | adminDeleteRoomById => exact hord.elim
  | _ => rfl

/-- Nor a membership of it. -/
theorem selectsMember_popped {m : RoomMember} (hord : w.Ordinary) (h : Popped t m.roomId) :
    w.selectsMember t m = false := by
  have hguard : ∀ roomId userId, (t.hasRoom Room.isOpen roomId && m.isOf roomId userId) = false := by
    intro roomId userId
    by_cases heq : m.roomId = roomId
    · rw [← heq, h.not_open]
      rfl
    · simp [RoomMember.isOf, heq]
  cases w with
  | updateMember member =>
    show (t.hasRoom Room.isOpen member.roomId &&
      (m.isOf member.roomId member.userId && m.isActive)) = false
    rw [← Bool.and_assoc, hguard]
    rfl
  | removeMember userId roomId => exact hguard roomId userId
  | setUserRole userId roomId role => exact hguard roomId userId
  | adminUpdateMember => exact hord.elim
  | adminRemoveMember => exact hord.elim
  | adminSetUserRole => exact hord.elim
  | _ => rfl

theorem inserts_popped (hord : w.Ordinary) (h : Popped t k) {m : NewMember} (hins : w.inserts t = some m) :
    m.roomId ≠ k := by
  rintro rfl
  obtain ⟨-, hopen⟩ := Write.inserts_ordinary hord hins
  rw [h.not_open] at hopen
  cases hopen

theorem sameRoom_of_popped (hord : w.Ordinary) (happly : w.apply now t = .ok (t', n)) (h : Popped t k) :
    SameRoom t t' k := by
  refine (Write.effect_of_apply happly).sameRoom ?_ ?_ ?_
  · intro r hr
    obtain ⟨r', hr', hpop⟩ := h
    obtain rfl : r' = r := Option.some.inj (hr'.symm.trans hr)
    exact selectsRoom_popped hord hpop
  · rintro m rfl
    exact selectsMember_popped hord h
  · intro m hm
    exact inserts_popped hord h hm

theorem sameRoom_of_step {p p' : RoomPool} {l : RoomLabel} (hp : AllOrdinary p) (hstep : RoomStep p l p')
    (h : Popped p.shared.tables k) : SameRoom p.shared.tables p'.shared.tables k := by
  have hchanges := changes_step hp hstep
  revert hchanges
  generalize changeOf p l = change
  rintro (hsame | ⟨hord, happly⟩ | ⟨hfree, hcreate⟩)
  · rw [hsame]
    exact .refl _ _
  · exact sameRoom_of_popped hord happly h
  · rw [hcreate]
    refine sameRoom_create ?_
    rintro rfl
    obtain ⟨r, hr, -⟩ := h
    rw [hfree] at hr
    cases hr

theorem Popped.of_same (h : Popped t k) (hsame : SameRoom t t' k) : Popped t' k := by
  obtain ⟨r, hr, hpop⟩ := h
  exact ⟨r, hsame.room.trans hr, hpop⟩

/-- Whatever is still under way when a room is popped, its row and those of its members stay as
they are. -/
theorem popped_frozen {p p' : RoomPool} {trace : List RoomLabel} {room : Room}
    (hp : Reachable RoomStep RoomInit p) (hroom : p.shared.tables.rooms.find k = some room)
    (hpop : room.poppedAt ≠ none) (hrun : Run RoomStep p trace p') :
    p'.shared.tables.rooms.find k = some room ∧
      ∀ u, p'.shared.tables.members.find (k, u) = p.shared.tables.members.find (k, u) := by
  have hkeep : ∀ q l q', AllOrdinary q ∧ SameRoom p.shared.tables q.shared.tables k → RoomStep q l q' →
      AllOrdinary q' ∧ SameRoom p.shared.tables q'.shared.tables k := by
    rintro q l q' ⟨hq, hsame⟩ hstep
    have hpopped : Popped q.shared.tables k := Popped.of_same ⟨room, hroom, hpop⟩ hsame
    exact ⟨allOrdinary_step hq hstep, hsame.trans (sameRoom_of_step hq hstep hpopped)⟩
  obtain ⟨-, hsame⟩ := hrun.invariant hkeep ⟨allOrdinary_of_reachable hp, .refl _ _⟩
  exact ⟨hsame.room.trans hroom, hsame.members⟩

section Sample

theorem den_canonical : Uuid.isCanonical "01890a5d-ac96-774b-bcce-b302099a8057".toList = true := by decide +kernel

def den : Uuid := ⟨"01890a5d-ac96-774b-bcce-b302099a8057", den_canonical⟩

theorem ann_canonical : Uuid.isCanonical "01890a5d-ac96-774b-bcce-b302099a8058".toList = true := by decide +kernel

def ann : Uuid := ⟨"01890a5d-ac96-774b-bcce-b302099a8058", ann_canonical⟩

def bob : Uuid := ⟨"01890a5d-ac96-774b-bcce-b302099a8059", by decide +kernel⟩

def sampleRoom (maxMembers : Int) (popAt poppedAt : Option Nat) : Room :=
  ⟨den, "Den", none, maxMembers, ann, popAt, poppedAt, 0, 0, none⟩

theorem sampleRoom_id : (sampleRoom 16 none none).id = den := rfl

/-- One room, of which ann is the administrator. -/
def sampleTables (room : Room) (h : room.id = den) : RoomTables where
  rooms := ⟨[room], List.nodup_singleton _⟩
  members := ⟨[⟨den, ann, Role.ADMIN, 0, none⟩], List.nodup_singleton _⟩
  room_member_room_id_fkey := by
    intro m hm
    obtain rfl := List.mem_singleton.mp hm
    refine Option.isSome_iff_exists.mpr ⟨room, ?_⟩
    exact KeyedTable.find_eq_some.mpr ⟨List.mem_singleton_self _, h⟩

def restingState (t : RoomTables) : RoomState := ⟨t, fun _ => none, fun _ => none, 1, [], fun _ => none, []⟩

theorem restingState_init (t : RoomTables) : RoomInit ⟨restingState t, []⟩ :=
  ⟨rfl, fun _ => rfl, fun _ => rfl, fun _ => rfl, rfl⟩

end Sample

/-- The scheduler's tick finds a popped room and leaves it. -/
theorem popped_frozen_tick : ∃ p' trace, trace ≠ [] ∧
    Run RoomStep ⟨restingState (sampleTables (sampleRoom 16 (some 0) (some 0)) rfl), []⟩ trace p' ∧
    p'.shared.tables.rooms.find den = some (sampleRoom 16 (some 0) (some 0)) := by
  have hinit := restingState_init (sampleTables (sampleRoom 16 (some 0) (some 0)) rfl)
  have hspawn : RoomStep ⟨restingState (sampleTables (sampleRoom 16 (some 0) (some 0)) rfl), []⟩
      (.spawn Call.popRooms.prog) ⟨_, [Call.popRooms.prog]⟩ := .spawn ⟨.popRooms, rfl⟩
  have hexec : Exec 0 (.write .popRooms) (restingState (sampleTables (sampleRoom 16 (some 0) (some 0)) rfl))
    _ _ := .write rfl
  have hrun := Run.cons hspawn (.single (Step.cmd (i := 0) rfl hexec))
  have hroom : (sampleTables (sampleRoom 16 (some 0) (some 0)) rfl).rooms.find den =
      some (sampleRoom 16 (some 0) (some 0)) := rfl
  exact ⟨_, _, List.cons_ne_nil _ _, hrun, (popped_frozen ⟨_, [], hinit, .nil _⟩ hroom nofun hrun).1⟩

end Chinwag.Rooms

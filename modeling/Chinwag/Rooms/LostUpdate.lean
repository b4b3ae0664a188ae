import Chinwag.Lib.ReadModifyWrite
import Chinwag.Rooms.PartialUpdate

/-!
# Two updates of one room at once

An update reads the row and later writes all the columns a request may change. The update that
writes last writes back what it has read of the columns it does not change.
-/
namespace Chinwag.Rooms

open Program Transition ReadModifyWrite

inductive RoomColumn where
  | name
  | description
  | maxMembers

abbrev RoomColumn.Val : RoomColumn → Type
  | .name => String
  | .description => Option String
  | .maxMembers => Int

def Room.columns (room : Room) : Row RoomColumn.Val
  | .name => room.name
  | .description => room.description
  | .maxMembers => room.maxMembers

namespace UpdateRoomRequest

def patch (req : UpdateRoomRequest) : Patch RoomColumn.Val
  | .name => req.name
  | .description => req.description.map some
  | .maxMembers => req.maxMembers

/-- The room has the values that the request gives. -/
structure In (req : UpdateRoomRequest) (room : Room) : Prop where
  name : ∀ n, req.name = some n → room.name = n
  description : ∀ d, req.description = some d → room.description = some d
  maxMembers : ∀ m, req.maxMembers = some m → room.maxMembers = m

/-- No field is given by both requests. -/
structure Disjoint (req req' : UpdateRoomRequest) : Prop where
  name : req.name = none ∨ req'.name = none
  description : req.description = none ∨ req'.description = none
  maxMembers : req.maxMembers = none ∨ req'.maxMembers = none

theorem in_columns {req : UpdateRoomRequest} {room : Room} : req.patch.In room.columns ↔ req.In room := by
  constructor
  · intro h
    exact ⟨h .name, fun d hd => h .description (some d) (by rw [patch, hd]; rfl), h .maxMembers⟩
  · intro h c v hv
    cases c with
    | name => exact h.name v hv
    | maxMembers => exact h.maxMembers v hv
    | description =>
      obtain ⟨d, hd, rfl⟩ := Option.map_eq_some_iff.mp hv
      exact h.description d hd

theorem Disjoint.patch {req req' : UpdateRoomRequest} (h : req.Disjoint req') : req.patch.Disjoint req'.patch := by
  intro c
  cases c with
  | name => exact h.name
  | maxMembers => exact h.maxMembers
  | description => exact h.description.imp Option.map_eq_none_iff.mpr Option.map_eq_none_iff.mpr

end UpdateRoomRequest

/-- The commands of an update that touch the row. -/
def roomAccess : RoomCmd → Option Kind
  | .read _ => some .read
  | .write _ => some .write
  | _ => none

def roomRow (id : Uuid) (s : RoomState) : Option (Row RoomColumn.Val) := (s.tables.rooms.find id).map Room.columns

def Failed {α : Type} (r : Result α) : Prop := ∃ e, r = .error e

/-- How far an update has come. -/
inductive Updating (id : Uuid) (req : UpdateRoomRequest) : RoomProg (Result Room) → Phase RoomColumn.Val → Prop where
  | start {p : RoomProg (Result Room)} (hp : p = updateRoom id req) : Updating id req p .start
  | read {p : RoomProg (Result Room)} {room : Room} (hid : room.id = id) (hdesc : req.description = none)
      (hp : p = patchAndWrite req .updateRoom room) : Updating id req p (.read room.columns)
  | done {p : RoomProg (Result Room)} {room : Room} (hp : p = .ret (.ok room)) : Updating id req p (.done req.patch)

section Updates

variable {id : Uuid} {req : UpdateRoomRequest} {i : Nat} {c : RoomCmd} {next : RoomReply c → RoomProg (Result Room)}
  {r : RoomReply c} {s t : RoomState} {room : Room}

theorem columns_asks (hdesc : req.description = none) (now : Nat) :
    (req.asks room now).columns = req.patch.on room.columns := by
  funext c
  cases c with
  | name => rfl
  | maxMembers => rfl
  | description =>
    show req.description.or room.description = (req.description.map some).getD room.description
    rw [hdesc]
    rfl

theorem moves_of_start (hp : .call c next = updateRoom id req) (hexec : Exec i c s r t) :
    (∃ a, next r = .ret a ∧ Failed a) ∨ Moves (roomRow id) (Updating id req) (next r) s t (roomAccess c) .start := by
  cases hp
  cases hexec with
  | readFailed => exact .inl ⟨_, rfl, _, rfl⟩
  | read =>
    cases hanswer : s.tables.getRoomById id with
    | error e =>
      rw [show s.tables.answer (.getRoomById id) = .error e from hanswer]
      exact .inl ⟨_, rfl, _, rfl⟩
    | ok room =>
      obtain ⟨hfind, -⟩ := getRoom_ok hanswer
      have hid : room.id = id := KeyedTable.key_of_find hfind
      rw [show s.tables.answer (.getRoomById id) = .ok room from hanswer]
      show (∃ a, (if room.poppedAt.isSome then .ret (.error (.app errRoomPopped)) else patchAndWrite req .updateRoom room) =
          .ret a ∧ Failed a) ∨ Moves (roomRow id) (Updating id req)
        (if room.poppedAt.isSome then .ret (.error (.app errRoomPopped)) else patchAndWrite req .updateRoom room) s s
        (some .read) .start
      split
      · exact .inl ⟨_, rfl, _, rfl⟩
      · cases hdesc : req.description with
        | some d =>
          left
          refine ⟨.error .other, ?_, _, rfl⟩
          unfold patchAndWrite
          rw [patchRoom_some hdesc]
          rfl
        | none =>
          have hrow : roomRow id s = some room.columns := congrArg (Option.map Room.columns) hfind
          exact .inr (.read hrow (.read hid hdesc rfl) rfl)

/-- The statement of an update that has affected a row has written its columns. -/
theorem columns_updateRoom {u : RoomTables} {row old : Room} {n now : Nat}
    (h : (Write.updateRoom row).apply now s.tables = .ok (u, n + 1)) (hold : s.tables.rooms.find row.id = some old) :
    (u.rooms.find row.id).map Room.columns = some row.columns := by
  have hid : old.id = row.id := KeyedTable.key_of_find hold
  have hopen : old.isOpen = true := by
    by_contra hclosed
    have hcount : s.tables.rooms.count (fun r => r.id = row.id && r.isOpen) = 0 := by
      rw [KeyedTable.count_key (k := row.id) _ fun r h => of_decide_eq_true (Bool.and_eq_true_iff.mp h).1, hold]
      simp [hclosed]
    have hwhere : s.tables.updateRoomWhere Room.isOpen row now = .ok (u, n + 1) := h
    unfold RoomTables.updateRoomWhere at hwhere
    split at hwhere
    · have hn := congrArg Prod.snd (Except.ok.inj hwhere)
      rw [show (RoomTables.updateRooms _ _ _ _).2 = _ from hcount] at hn
      cases hn
    · cases hwhere
  have hsel : (Write.updateRoom row).selectsRoom now old = true := by simp [Write.selectsRoom, hid, hopen]
  rw [(Write.effect_of_apply h).room, hold, Option.map_some, if_pos hsel]
  rfl

theorem moves_of_read (hp : .call c next = patchAndWrite req .updateRoom room) (hid : room.id = id)
    (hdesc : req.description = none) (hexec : Exec i c s r t) (hrow : (roomRow id s).isSome = true) :
    (∃ a, next r = .ret a ∧ Failed a) ∨
      Moves (roomRow id) (Updating id req) (next r) s t (roomAccess c) (.read room.columns) := by
  unfold patchAndWrite at hp
  rw [patchRoom_none hdesc] at hp
  cases hp
  cases hexec with
  | writeFailed => exact .inl ⟨_, rfl, _, rfl⟩
  | writeRefused => exact .inl ⟨_, rfl, _, rfl⟩
  | writeLost => exact .inl ⟨_, rfl, _, rfl⟩
  | @write _ _ _ n h =>
    cases n with
    | zero => exact .inl ⟨_, rfl, _, rfl⟩
    | succ n =>
      obtain ⟨old, hold⟩ : ∃ old, s.tables.rooms.find id = some old :=
        Option.isSome_iff_exists.mp (by rwa [roomRow, Option.isSome_map] at hrow)
      have hcolumns := columns_updateRoom h (hid.symm ▸ hold)
      refine .inr (.write req.patch (.done rfl) ?_)
      rw [← columns_asks hdesc room.updatedAt, ← hcolumns, ← hid]
      rfl

theorem roomClients (id : Uuid) (reqs : Nat → UpdateRoomRequest) :
    Clients roomSemantics (roomRow id) roomAccess Failed fun i => Updating id (reqs i) := by
  constructor
  · rintro s elapsed t rfl
    rfl
  · intro i c next ph s r t hat hexec hrow
    cases hat with
    | start hp => exact moves_of_start hp hexec
    | read hid hdesc hp => exact moves_of_read hp hid hdesc hexec hrow
    | done hp => cases hp

theorem room_updates_kept {trace : List (Label Nat RoomCmd RoomReply (Result Room))} {req₀ req₁ : UpdateRoomRequest}
    {r₀ r₁ : Room} (hroom : s.tables.rooms.find id = some room)
    (hrun : Run (SoleStep roomSemantics) ⟨s, [updateRoom id req₀, updateRoom id req₁]⟩ trace
      ⟨t, [.ret (.ok r₀), .ret (.ok r₁)]⟩) (hdis : req₀.Disjoint req₁) :
    (∃ row, t.tables.rooms.find id = some row ∧ req₀.In row ∧ req₁.In row) ↔
      Serial (accesses roomAccess trace) ∨ (FirstWriter 0 (accesses roomAccess trace) ∧ req₀.In room) ∨
        (FirstWriter 1 (accesses roomAccess trace) ∧ req₁.In room) := by
  have hrow : roomRow id s = some room.columns := congrArg (Option.map Room.columns) hroom
  have hfail : ∀ r : Room, ¬ Failed (.ok r : Result Room) := fun _ ⟨_, h⟩ => (nomatch h)
  have hdone : ∀ (i : Nat) (a : Result Room) ph, Updating id (if i = 0 then req₀ else req₁) (.ret a) ph →
      ph = .done ((if i = 0 then req₀ else req₁).patch) := by
    intro i a ph hat
    cases hat with
    | start hp => cases hp
    | read hid hdesc hp =>
      unfold patchAndWrite at hp
      rw [patchRoom_none hdesc] at hp
      cases hp
    | done hp => rfl
  obtain ⟨w, hw, hiff⟩ := (roomClients id fun i => if i = 0 then req₀ else req₁).kept_iff
    (fun i _ => (if i = 0 then req₀ else req₁).patch) (.start rfl) (.start rfl) hrow hrun (hfail r₀)
    (hfail r₁) hdone hdis.patch
  obtain ⟨row, hfind, rfl⟩ := Option.map_eq_some_iff.mp hw
  rw [hfind]
  simpa [UpdateRoomRequest.in_columns] using hiff

theorem advance_read (hroom : s.tables.getRoomById id = .ok room) (hpop : room.poppedAt = none) :
    Advance (Exec i) (updateRoom id req) s (patchAndWrite req .updateRoom room) s := by
  refine .call (.read s (.getRoomById id)) ?_
  rw [show s.tables.answer (.getRoomById id) = .ok room from hroom]
  show Advance (Exec i) (if room.poppedAt.isSome then _ else patchAndWrite req .updateRoom room) s _ s
  rw [hpop]
  exact .stop _ _

theorem advance_write {u : RoomTables} (hdesc : req.description = none)
    (happly : (Write.updateRoom (req.asks room room.updatedAt)).apply s.now s.tables = .ok (u, 1)) :
    Advance (Exec i) (patchAndWrite req .updateRoom room) s (.ret (.ok (req.asks room room.updatedAt)))
      (s.store i (.updateRoom (req.asks room room.updatedAt)) u) := by
  unfold patchAndWrite
  rw [patchRoom_none hdesc]
  exact .call (.write happly) (.stop _ _)

end Updates

section Sample

def lair : UpdateRoomRequest := ⟨some "Lair", none, none⟩

def smaller : UpdateRoomRequest := ⟨none, none, some 4⟩

theorem lair_disjoint : lair.Disjoint smaller := ⟨.inr rfl, .inl rfl, .inl rfl⟩

/-- Both updates read, then the one that renames the room writes, then the other. -/
theorem overlapping_rename : ∃ (trace : List (Label Nat RoomCmd RoomReply (Result Room))) (t : RoomState) (r₀ r₁ : Room),
    Run (SoleStep roomSemantics) ⟨restingState (sampleTables (sampleRoom 16 none none) rfl),
      [updateRoom den lair, updateRoom den smaller]⟩ trace ⟨t, [.ret (.ok r₀), .ret (.ok r₁)]⟩ ∧
    ∃ row, t.tables.rooms.find den = some row ∧ row.name = "Den" := by
  have hroom : (restingState (sampleTables (sampleRoom 16 none none) rfl)).tables.getRoomById den =
      .ok (sampleRoom 16 none none) := rfl
  have hfind : (restingState (sampleTables (sampleRoom 16 none none) rfl)).tables.rooms.find den =
      some (sampleRoom 16 none none) := rfl
  have hopen : (sampleRoom 16 none none).isOpen = true := rfl
  have hfits : Room.Fits (lair.asks (sampleRoom 16 none none) 0).name none 16 := by decide
  have hfits' : Room.Fits (smaller.asks (sampleRoom 16 none none) 0).name none 4 := by decide
  generalize hs : restingState (sampleTables (sampleRoom 16 none none) rfl) = s at hroom hfind
  obtain ⟨t₁, hwrite, hrow, -⟩ := apply_update (.inl rfl) hfits hfind hopen s.now
  obtain ⟨t₂, hwrite', hrow', -⟩ := apply_update (.inl rfl) hfits' hrow hopen s.now
  obtain ⟨trace, hrun⟩ := run_overlapping (S := roomSemantics) (advance_read hroom rfl) (advance_read hroom rfl)
    (advance_write rfl hwrite) (advance_write rfl hwrite')
  exact ⟨trace, _, _, _, hrun, _, hrow', rfl⟩

theorem not_in_lair {row : Room} (h : row.name = "Den") : ¬ lair.In row := by
  intro hin
  have hname := (hin.name "Lair" rfl).symm.trans h
  exact absurd hname (by decide)

/-- The new name is gone. -/
theorem rename_overwritten : ∃ (trace : List (Label Nat RoomCmd RoomReply (Result Room))) (t : RoomState) (r₀ r₁ : Room),
    Run (SoleStep roomSemantics) ⟨restingState (sampleTables (sampleRoom 16 none none) rfl),
      [updateRoom den lair, updateRoom den smaller]⟩ trace ⟨t, [.ret (.ok r₀), .ret (.ok r₁)]⟩ ∧
    lair.Disjoint smaller ∧ ¬ ∃ row, t.tables.rooms.find den = some row ∧ lair.In row ∧ smaller.In row := by
  obtain ⟨trace, t, r₀, r₁, hrun, row, hfind, hname⟩ := overlapping_rename
  refine ⟨trace, t, r₀, r₁, hrun, lair_disjoint, ?_⟩
  rintro ⟨row', hfind', hlair, -⟩
  obtain rfl := Option.some.inj (hfind.symm.trans hfind')
  exact not_in_lair hname hlair

end Sample

end Chinwag.Rooms

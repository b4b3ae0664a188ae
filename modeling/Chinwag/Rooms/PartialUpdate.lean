import Chinwag.Rooms.Patch
import Chinwag.Rooms.Sequential
import Chinwag.Rooms.Frozen

/-!
# What a partial update does

An update of a room that runs alone does what its request asks exactly if the request gives no
description: a description does not get past the patch.
-/
namespace Chinwag.Rooms

open Program Auth

/-- What the types of the columns promise of the stored rooms. -/
def WithinColumns (t : RoomTables) : Prop :=
  ∀ k r, t.rooms.find k = some r → Room.Fits r.name r.description r.maxMembers

section Columns

variable {t t' : RoomTables} {w : Write} {now n : Nat}

theorem updateRoomWhere_fits {p : Room → Bool} {room : Room} (h : t.updateRoomWhere p room now = .ok (t', n)) :
    Room.Fits room.name room.description room.maxMembers := by
  unfold RoomTables.updateRoomWhere at h
  split at h
  · assumption
  · cases h

theorem withinColumns_apply (hcols : WithinColumns t) (h : w.apply now t = .ok (t', n)) : WithinColumns t' := by
  have heff := Write.effect_of_apply h
  intro k r hr
  rw [heff.room] at hr
  obtain ⟨r₀, hr₀, rfl⟩ := Option.map_eq_some_iff.mp hr
  have hold := hcols k r₀ hr₀
  split
  · cases w with
    | updateRoom room =>
      have hwhere : t.updateRoomWhere Room.isOpen room now = .ok (t', n) := h
      have hfits := updateRoomWhere_fits hwhere
      exact hfits
    | adminUpdateRoom room =>
      have hwhere : t.updateRoomWhere Room.isLive room now = .ok (t', n) := h
      have hfits := updateRoomWhere_fits hwhere
      exact hfits
    | _ => exact hold
  · exact hold

theorem withinColumns_create {d : Draft} {hfree : t.rooms.find d.room.id = none} (hcols : WithinColumns t)
    (hd : Room.Fits d.room.name d.room.description d.room.maxMembers) : WithinColumns (t.create d hfree) := by
  intro k r hr
  have hfind := KeyedTable.find_insert (h := hfree) k
  rw [show (t.create d hfree).rooms.find k = _ from hfind] at hr
  split at hr
  · obtain rfl := Option.some.inj hr
    exact hd
  · exact hcols k r hr

end Columns

section Request

/-- The values that the request gives are within the limits of the columns. -/
def UpdateRoomRequest.Fits (req : UpdateRoomRequest) : Prop :=
  Room.Fits (req.name.getD "") req.description (req.maxMembers.getD 0)

/-- The row that the request asks for. -/
def UpdateRoomRequest.asks (req : UpdateRoomRequest) (room : Room) (now : Nat) : Room := { room with
  name := req.name.getD room.name
  description := req.description.or room.description
  maxMembers := req.maxMembers.getD room.maxMembers
  updatedAt := now }

/-- Nothing but the row has changed, and that one as asked. -/
structure Updated (req : UpdateRoomRequest) (k : Uuid) (t t' : RoomTables) : Prop where
  room : ∃ now, t'.rooms.find k = (t.rooms.find k).map fun room => req.asks room now
  others : ∀ j, j ≠ k → t'.rooms.find j = t.rooms.find j
  members : ∀ j u, t'.members.find (j, u) = t.members.find (j, u)

/-- Running alone and without a failure, the operation succeeds and updates the room as asked. -/
structure DoesAsAsked (op : RoomProg (Result Room)) (req : UpdateRoomRequest) (k : Uuid) (s : RoomState) : Prop where
  ends : ∃ r u, Alone (Answers 0) Later op s r u
  updates : ∀ r u, Alone (Answers 0) Later op s r u →
    (∃ room, s.tables.rooms.find k = some room ∧ r = .ok (req.asks room room.updatedAt)) ∧
      Updated req k s.tables u.tables

variable {req : UpdateRoomRequest} {room : Room} {k : Uuid} {s : RoomState} {t : RoomTables}

theorem UpdateRoomRequest.Fits.asks (hreq : req.Fits) (hroom : Room.Fits room.name room.description room.maxMembers)
    (now : Nat) : Room.Fits (req.asks room now).name (req.asks room now).description (req.asks room now).maxMembers := by
  obtain ⟨hname, hdescription, hmin, hmax⟩ := hreq
  obtain ⟨hname₀, hdescription₀, hmin₀, hmax₀⟩ := hroom
  obtain ⟨name, description, maxMembers⟩ := req
  refine ⟨?_, ?_, ?_, ?_⟩
  · cases name with
    | none => exact hname₀
    | some n => exact hname
  · cases description with
    | none => exact hdescription₀
    | some d => exact hdescription
  · cases maxMembers with
    | none => exact hmin₀
    | some m => exact hmin
  · cases maxMembers with
    | none => exact hmax₀
    | some m => exact hmax

theorem patchRoom_none (h : req.description = none) (room : Room) :
    patchRoom room req = .ok (req.asks room room.updatedAt) := by
  obtain ⟨name, description, maxMembers⟩ := req
  obtain rfl : description = none := h
  rfl

theorem patchRoom_some {d : String} (h : req.description = some d) (room : Room) :
    patchRoom room req = .error .other := by
  unfold patchRoom
  rw [h]

theorem updateRoomWhere_row {p : Room → Bool} {row : Room} (hfits : Room.Fits row.name row.description row.maxMembers)
    (hfind : t.rooms.find row.id = some room) (hp : p room = true) (now : Nat) :
    ∃ t', t.updateRoomWhere p row now = .ok (t', 1) := by
  have hcount : t.rooms.count (fun r => r.id = row.id && p r) = 1 := by
    rw [KeyedTable.count_key (k := row.id) _ fun r h => of_decide_eq_true (Bool.and_eq_true_iff.mp h).1, hfind]
    simp [KeyedTable.key_of_find hfind, hp]
  unfold RoomTables.updateRoomWhere
  rw [if_pos hfits, ← hcount]
  exact ⟨_, rfl⟩

/-- The statement of either update, on a room that is open. -/
theorem apply_update {w : Write} {row : Room} (hw : w = .updateRoom row ∨ w = .adminUpdateRoom row)
    (hfits : Room.Fits row.name row.description row.maxMembers) (hfind : t.rooms.find row.id = some room)
    (hopen : room.isOpen = true) (now : Nat) :
    ∃ t', w.apply now t = .ok (t', 1) ∧
      t'.rooms.find row.id = some { room with
        name := row.name, description := row.description, maxMembers := row.maxMembers, updatedAt := now } ∧
      (∀ j, j ≠ row.id → t'.rooms.find j = t.rooms.find j) ∧
      ∀ j u, t'.members.find (j, u) = t.members.find (j, u) := by
  have hlive : room.isLive = true := (Bool.and_eq_true_iff.mp hopen).2
  have happly : ∃ t', w.apply now t = .ok (t', 1) := by
    rcases hw with rfl | rfl
    · exact updateRoomWhere_row hfits hfind hopen now
    · exact updateRoomWhere_row hfits hfind hlive now
  obtain ⟨t', happly⟩ := happly
  have heff := Write.effect_of_apply happly
  have hid : room.id = row.id := KeyedTable.key_of_find hfind
  refine ⟨t', happly, ?_, fun j hj => ?_, fun j u => ?_⟩
  · have hsel : w.selectsRoom now room = true := by
      rcases hw with rfl | rfl <;> simp [Write.selectsRoom, hid, hopen, hlive]
    rw [heff.room, hfind, Option.map_some, if_pos hsel]
    rcases hw with rfl | rfl <;> rfl
  · rw [heff.room]
    cases hj' : t.rooms.find j with
    | none => rfl
    | some r =>
      have hne : r.id ≠ row.id := KeyedTable.key_of_find hj' ▸ hj
      have hsel : w.selectsRoom now r = false := by
        rcases hw with rfl | rfl <;> simp [Write.selectsRoom, hne]
      rw [Option.map_some, hsel]
      rfl
  · have hnone : w.inserts t = none := by rcases hw with rfl | rfl <;> rfl
    have hsel : ∀ m, w.selectsMember t m = false := by rcases hw with rfl | rfl <;> exact fun _ => rfl
    rw [heff.updated hnone]
    simp only [hsel]
    exact Write.map_unselected _ _

/-- The rest of either update, once the row is known. -/
theorem solo_write {i : Nat} {w : Write} {row : Room} (hw : w = .updateRoom row ∨ w = .adminUpdateRoom row)
    (hrow : row = req.asks room room.updatedAt) (hfits : Room.Fits row.name row.description row.maxMembers)
    (hfind : s.tables.rooms.find row.id = some room) (hopen : room.isOpen = true) :
    Solo (Answers i) Later (fun r u => r = .ok () ∧ Updated req row.id s.tables u.tables) (affect errNotFound w) s := by
  intro s₁ hd r s₂ ha
  rw [← hd.tables] at hfind
  obtain ⟨t', happly, hself, hother, hmembers⟩ := apply_update hw hfits hfind hopen s₁.now
  cases ha with
  | writeRefused h => cases happly.symm.trans h
  | write h =>
    obtain ⟨rfl, rfl⟩ := Prod.mk.inj (Except.ok.inj (happly.symm.trans h))
    refine ⟨rfl, ⟨s₁.now, ?_⟩, fun j hj => ?_, fun j u => ?_⟩
    · rw [← hd.tables, hfind, Option.map_some]
      refine hself.trans ?_
      rw [hrow]
      rfl
    · rw [← hd.tables]
      exact hother j hj
    · rw [← hd.tables]
      exact hmembers j u

/-- What both updates do once the room is read, with the statement of each. -/
def patchAndWrite (req : UpdateRoomRequest) (w : Room → Write) (room : Room) : RoomProg (Result Room) := do
  match patchRoom room req with
  | .error e => return .error e
  | .ok room =>
    match ← affect errNotFound (w room) with
    | .error e => return .error e
    | .ok () => return .ok room

/-- The statement of an update of rooms. -/
def UpdatesRooms (w : Room → Write) : Prop := w = .updateRoom ∨ w = .adminUpdateRoom

theorem UpdatesRooms.statement {w : Room → Write} (h : UpdatesRooms w) (row : Room) :
    w row = .updateRoom row ∨ w row = .adminUpdateRoom row :=
  h.imp (fun h => congrFun h row) fun h => congrFun h row

/-- An update whose check lets the room through. -/
structure Reads (op : RoomProg (Result Room)) (req : UpdateRoomRequest) (w : Room → Write) (k : Uuid) (room : Room)
    (s : RoomState) : Prop where
  ends : ∀ r u, Alone (Answers 0) Later (patchAndWrite req w room) s r u → Alone (Answers 0) Later op s r u
  rest : ∀ Q : Result Room → RoomState → Prop,
    (∀ t, Later s t → Solo (Answers 0) Later Q (patchAndWrite req w room) t) → Solo (Answers 0) Later Q op s

theorem reads_updateRoom (hroom : s.tables.getRoomById k = .ok room) (hpop : room.poppedAt = none) :
    Reads (updateRoom k req) req .updateRoom k room s := by
  constructor
  · intro r u h
    exact alone_unlessPopped Later.refl hroom hpop h
  · intro Q h
    exact solo_answers_unlessPopped (fun _ => Later.tables) hroom hpop h

theorem reads_adminUpdateRoom (hroom : s.tables.getRoomById k = .ok room) :
    Reads (adminUpdateRoom k req) req .adminUpdateRoom k room s := by
  constructor
  · intro r u h
    refine (alone_read Later.refl (.getRoomById k)).bind ?_
    rw [show s.tables.answer (.getRoomById k) = .ok room from hroom]
    exact h
  · intro Q h
    refine Solo.bind (solo_answers_read (fun _ => Later.tables) _) fun r t ⟨hlater, hr⟩ => ?_
    rw [show s.tables.answer (.getRoomById k) = .ok room from hroom] at hr
    subst hr
    exact h t hlater

theorem solo_patchAndWrite {w : Room → Write} {t : RoomState} (hw : UpdatesRooms w) (hlater : Later s t)
    (hpatch : patchRoom room req = .ok (req.asks room room.updatedAt))
    (hfits : Room.Fits (req.asks room room.updatedAt).name (req.asks room room.updatedAt).description
      (req.asks room room.updatedAt).maxMembers)
    (hfind : s.tables.rooms.find k = some room) (hopen : room.isOpen = true) :
    Solo (Answers 0) Later (fun r u =>
      (∃ room, s.tables.rooms.find k = some room ∧ r = .ok (req.asks room room.updatedAt)) ∧
        Updated req k s.tables u.tables) (patchAndWrite req w room) t := by
  have hid : room.id = k := KeyedTable.key_of_find hfind
  have hk : (req.asks room room.updatedAt).id = k := hid
  have hrow : t.tables.rooms.find (req.asks room room.updatedAt).id = some room := by
    rw [hk, hlater.tables]
    exact hfind
  unfold patchAndWrite
  rw [hpatch]
  refine Solo.bind (solo_write (hw.statement _) rfl hfits hrow hopen) fun r v ⟨hr, hupdated⟩ => ?_
  subst hr
  rw [hk, hlater.tables] at hupdated
  exact ⟨⟨room, hfind, rfl⟩, hupdated⟩

theorem doesAsAsked_iff {op : RoomProg (Result Room)} {w : Room → Write} (hop : Reads op req w k room s)
    (hw : UpdatesRooms w) (hcols : WithinColumns s.tables) (hroom : s.tables.getRoomById k = .ok room)
    (hpop : room.poppedAt = none) (hreq : req.Fits) : DoesAsAsked op req k s ↔ req.description = none := by
  obtain ⟨hfind, hlive⟩ := getRoom_ok hroom
  have hopen : room.isOpen = true := by simp [Room.isOpen, hpop, hlive]
  have hid : room.id = k := KeyedTable.key_of_find hfind
  constructor
  · intro h
    by_contra hsome
    obtain ⟨d, hd⟩ := Option.ne_none_iff_exists'.mp hsome
    have hfails : Alone (Answers 0) Later (patchAndWrite req w room) s (.error .other) s := by
      unfold patchAndWrite
      rw [patchRoom_some hd]
      exact .ret _ _
    obtain ⟨⟨_, -, hok⟩, -⟩ := h.updates _ _ (hop.ends _ _ hfails)
    cases hok
  · intro hnone
    have hpatch := patchRoom_none hnone room
    have hfits := hreq.asks (hcols k room hfind) room.updatedAt
    have hrow : s.tables.rooms.find (req.asks room room.updatedAt).id = some room := hid.symm ▸ hfind
    constructor
    · obtain ⟨t, happly, -⟩ := apply_update (hw.statement _) hfits hrow hopen s.now
      obtain ⟨r, haffect, hr⟩ := alone_affect (i := 0) Later.refl errNotFound happly
      obtain rfl := hr Nat.one_pos
      have hend : Alone (Answers 0) Later (patchAndWrite req w room) s (.ok (req.asks room room.updatedAt))
          (s.store 0 (w (req.asks room room.updatedAt)) t) := by
        unfold patchAndWrite
        rw [hpatch]
        exact haffect.bind (.ret _ _)
      exact ⟨_, _, hop.ends _ _ hend⟩
    · intro r u hrun
      have hsolo : Solo (Answers 0) Later (fun r u =>
          (∃ room, s.tables.rooms.find k = some room ∧ r = .ok (req.asks room room.updatedAt)) ∧
            Updated req k s.tables u.tables) op s := by
        refine hop.rest _ fun t hlater => ?_
        exact solo_patchAndWrite hw hlater hpatch hfits hfind hopen
      exact hsolo.alone hrun

/-- Either update does what its request says exactly if the request gives no description. -/
theorem room_updated_iff (hcols : WithinColumns s.tables) (hroom : s.tables.getRoomById k = .ok room)
    (hpop : room.poppedAt = none) (hreq : req.Fits) :
    (DoesAsAsked (updateRoom k req) req k s ↔ req.description = none) ∧
      (DoesAsAsked (adminUpdateRoom k req) req k s ↔ req.description = none) :=
  ⟨doesAsAsked_iff (reads_updateRoom hroom hpop) (.inl rfl) hcols hroom hpop hreq,
    doesAsAsked_iff (reads_adminUpdateRoom hroom) (.inr rfl) hcols hroom hpop hreq⟩

end Request

section Sample

theorem withinColumns_sample {room : Room} {h : room.id = den}
    (hfits : Room.Fits room.name room.description room.maxMembers) : WithinColumns (sampleTables room h) := by
  intro k r hr
  obtain ⟨hmem, -⟩ := KeyedTable.find_eq_some.mp hr
  obtain rfl := List.mem_singleton.mp hmem
  exact hfits

/-- A new name goes through. -/
theorem room_updated_name : DoesAsAsked (updateRoom den ⟨some "Lair", none, none⟩) ⟨some "Lair", none, none⟩ den
      (restingState (sampleTables (sampleRoom 16 none none) rfl)) ∧
    DoesAsAsked (adminUpdateRoom den ⟨some "Lair", none, none⟩) ⟨some "Lair", none, none⟩ den
      (restingState (sampleTables (sampleRoom 16 none none) rfl)) := by
  have hcols : WithinColumns (sampleTables (sampleRoom 16 none none) rfl) := withinColumns_sample (by decide)
  have hroom : (restingState (sampleTables (sampleRoom 16 none none) rfl)).tables.getRoomById den =
      .ok (sampleRoom 16 none none) := rfl
  have hfits : UpdateRoomRequest.Fits ⟨some "Lair", none, none⟩ := by unfold UpdateRoomRequest.Fits; decide
  have h := room_updated_iff hcols hroom rfl hfits
  exact ⟨h.1.mpr rfl, h.2.mpr rfl⟩

/-- A description is refused, by either update. -/
theorem description_refused : ∃ (s : RoomState) (room : Room) (req : UpdateRoomRequest),
    WithinColumns s.tables ∧ s.tables.getRoomById den = .ok room ∧ room.poppedAt = none ∧ req.Fits ∧
    ¬ DoesAsAsked (updateRoom den req) req den s ∧ ¬ DoesAsAsked (adminUpdateRoom den req) req den s := by
  have hcols : WithinColumns (sampleTables (sampleRoom 16 none none) rfl) := withinColumns_sample (by decide)
  have hroom : (restingState (sampleTables (sampleRoom 16 none none) rfl)).tables.getRoomById den =
      .ok (sampleRoom 16 none none) := rfl
  have hfits : UpdateRoomRequest.Fits ⟨none, some "A den.", none⟩ := by unfold UpdateRoomRequest.Fits; decide
  have hupdate := doesAsAsked_iff (reads_updateRoom hroom rfl) (.inl rfl) hcols hroom rfl hfits
  have hadmin := doesAsAsked_iff (reads_adminUpdateRoom hroom) (.inr rfl) hcols hroom rfl hfits
  exact ⟨_, _, _, hcols, hroom, rfl, hfits, fun h => (nomatch hupdate.mp h), fun h => (nomatch hadmin.mp h)⟩

end Sample

end Chinwag.Rooms

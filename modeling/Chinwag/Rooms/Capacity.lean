import Chinwag.Rooms.Frozen
import Chinwag.Rooms.Sequential

/-!
# Members and the capacity of a room

No statement compares the members of a room with its `max_members`. Leaving, kicking, popping and
deleting never exceed it; the insertion of a member, an update of the room and a creation do so
exactly if the caller asks for it.
-/
namespace Chinwag.Rooms

open Program Transition

variable {t t' : RoomTables} {w : Write} {now n : Nat} {k : Uuid}

def RoomTables.activeMembers (t : RoomTables) (roomId : Uuid) : Nat := (t.getMembersByRoomId roomId).length

theorem activeMembers_eq (t : RoomTables) (k : Uuid) :
    t.activeMembers k = t.members.count fun m => m.roomId = k && m.isActive :=
  List.countP_eq_length_filter.symm

def WithinCapacity (t : RoomTables) : Prop :=
  ∀ k r, t.rooms.find k = some r → (t.activeMembers k : Int) ≤ r.maxMembers

theorem reviseMember_key (m : RoomMember) : (w.reviseMember now m).key = m.key := by
  cases w <;> rfl

/-- Nobody who has left becomes active again. -/
theorem reviseMember_active {m : RoomMember} (h : (w.reviseMember now m).isActive = true) : m.isActive = true := by
  cases w with
  | removeMember | adminRemoveMember => cases h
  | _ => exact h

theorem activeMembers_updated (heff : w.Effect now t t') (hins : w.inserts t = none) :
    t'.activeMembers k ≤ t.activeMembers k := by
  have hkey : ∀ m : RoomMember, (if w.selectsMember t m then w.reviseMember now m else m).key = m.key := by
    intro m
    split
    · exact reviseMember_key m
    · rfl
  rw [activeMembers_eq, activeMembers_eq,
    KeyedTable.count_of_find_map hkey fun (k, u) => heff.updated hins k u]
  refine List.countP_mono_left ?_
  intro m _ hm
  obtain ⟨hroom, hactive⟩ := Bool.and_eq_true_iff.mp hm
  have hsame : (if w.selectsMember t m then w.reviseMember now m else m).roomId = m.roomId :=
    congrArg Prod.fst (hkey m)
  refine Bool.and_eq_true_iff.mpr ⟨decide_eq_true (hsame.symm.trans (of_decide_eq_true hroom)), ?_⟩
  split at hactive
  · exact reviseMember_active hactive
  · exact hactive

theorem activeMembers_unselected (heff : w.Effect now t t') (hins : w.inserts t = none)
    (hsel : ∀ m, w.selectsMember t m = false) : t'.activeMembers k = t.activeMembers k := by
  have hfind : ∀ key, t'.members.find key = (t.members.find key).map id := by
    intro (k, u)
    rw [heff.updated hins, Option.map_id_fun, id_eq]
    simp only [hsel]
    exact Write.map_unselected _ _
  rw [activeMembers_eq, activeMembers_eq]
  exact KeyedTable.count_of_find_map (fun _ => rfl) hfind _

theorem activeMembers_inserted {m : NewMember} (heff : w.Effect now t t') (hins : w.inserts t = some m) :
    t'.activeMembers k = t.activeMembers k + if m.roomId = k then 1 else 0 := by
  obtain ⟨hfree, hfind⟩ := heff.inserted m hins
  have hinsert : ∀ key, t'.members.find key =
      if key = (m.row now).key then some (m.row now) else t.members.find key := by
    intro (k, u)
    simp only [hfind, RoomMember.key, NewMember.row, Prod.mk.injEq]
  have hcounted : (decide ((m.row now).roomId = k) && (m.row now).isActive) = decide (m.roomId = k) :=
    Bool.and_true _
  rw [activeMembers_eq, activeMembers_eq, KeyedTable.count_of_find_insert hfree hinsert, hcounted]
  simp only [decide_eq_true_eq]

/-- What the statement would have to ask for, since it does not. -/
def Write.KeepsCapacity (t : RoomTables) : Write → Prop
  | .addMember m => ∀ r, t.rooms.find m.roomId = some r → r.isOpen = true →
    (t.activeMembers m.roomId : Int) < r.maxMembers
  | .updateRoom room => ∀ r, t.rooms.find room.id = some r → r.isOpen = true →
    (t.activeMembers room.id : Int) ≤ room.maxMembers
  | _ => True

/-- A statement that neither inserts a member nor changes a capacity. -/
theorem withinCapacity_kept (hgood : WithinCapacity t) (heff : w.Effect now t t') (hins : w.inserts t = none)
    (hmax : ∀ r, (w.reviseRoom now r).maxMembers = r.maxMembers) : WithinCapacity t' := by
  intro k r hr
  rw [heff.room] at hr
  obtain ⟨r₀, hr₀, rfl⟩ := Option.map_eq_some_iff.mp hr
  have hle := Int.ofNat_le.mpr (activeMembers_updated (k := k) heff hins)
  have hsame : (if w.selectsRoom now r₀ then w.reviseRoom now r₀ else r₀).maxMembers = r₀.maxMembers := by
    split
    · exact hmax r₀
    · rfl
  rw [hsame]
  exact hle.trans (hgood k r₀ hr₀)

theorem withinCapacity_addMember {m : NewMember} (hgood : WithinCapacity t)
    (heff : (Write.addMember m).Effect now t t') :
    WithinCapacity t' ↔ (Write.addMember m).KeepsCapacity t := by
  have hroom := heff.room_kept fun _ => rfl
  by_cases hopen : t.hasRoom Room.isOpen m.roomId = true
  · have hins : (Write.addMember m).inserts t = some m := if_pos hopen
    constructor
    · intro h r hr _
      have hr' : t'.rooms.find m.roomId = some r := (hroom _).trans hr
      have hle := h _ r hr'
      rw [activeMembers_inserted heff hins, if_pos rfl] at hle
      omega
    · intro h k r hr
      rw [hroom] at hr
      rw [activeMembers_inserted heff hins]
      by_cases hk : m.roomId = k
      · subst hk
        have hisOpen : r.isOpen = true := by
          unfold RoomTables.hasRoom at hopen
          rwa [hr, Option.any_some] at hopen
        have hlt := h r hr hisOpen
        rw [if_pos rfl]
        omega
      · rw [if_neg hk]
        exact hgood k r hr
  · have hins : (Write.addMember m).inserts t = none := if_neg hopen
    constructor
    · intro _ r hr hisOpen
      refine absurd ?_ hopen
      unfold RoomTables.hasRoom
      rwa [hr, Option.any_some]
    · intro _
      exact withinCapacity_kept hgood heff hins fun _ => rfl

theorem withinCapacity_updateRoom {room : Room} (hgood : WithinCapacity t)
    (heff : (Write.updateRoom room).Effect now t t') :
    WithinCapacity t' ↔ (Write.updateRoom room).KeepsCapacity t := by
  have hactive : ∀ k, t'.activeMembers k = t.activeMembers k := fun k =>
    activeMembers_unselected heff rfl fun _ => rfl
  constructor
  · intro h r hr hisOpen
    have hselect : (Write.updateRoom room).selectsRoom now r = true := by
      simp [Write.selectsRoom, hisOpen, KeyedTable.key_of_find hr]
    have hr' : t'.rooms.find room.id = some ((Write.updateRoom room).reviseRoom now r) := by
      rw [heff.room, hr, Option.map_some, if_pos hselect]
    rw [← hactive]
    exact h room.id ((Write.updateRoom room).reviseRoom now r) hr'
  · intro h k r hr
    rw [heff.room] at hr
    obtain ⟨r₀, hr₀, rfl⟩ := Option.map_eq_some_iff.mp hr
    rw [hactive]
    split
    · next hselect =>
      obtain ⟨hid, hisOpen⟩ := Bool.and_eq_true_iff.mp hselect
      have hk : k = room.id := (KeyedTable.key_of_find hr₀).symm.trans (of_decide_eq_true hid)
      rw [hk] at hr₀ ⊢
      exact h r₀ hr₀ hisOpen
    · exact hgood k r₀ hr₀

theorem withinCapacity_write (hord : w.Ordinary) (happly : w.apply now t = .ok (t', n)) (hgood : WithinCapacity t) :
    WithinCapacity t' ↔ w.KeepsCapacity t := by
  have heff := Write.effect_of_apply happly
  cases w with
  | addMember m => exact withinCapacity_addMember hgood heff
  | updateRoom room => exact withinCapacity_updateRoom hgood heff
  | adminUpdateRoom => exact hord.elim
  | adminDeleteRoomById => exact hord.elim
  | adminAddMember => exact hord.elim
  | adminUpdateMember => exact hord.elim
  | adminRemoveMember => exact hord.elim
  | adminSetUserRole => exact hord.elim
  | _ => exact iff_of_true (withinCapacity_kept hgood heff rfl fun _ => rfl) trivial

/-- The members a new room starts with. -/
def Draft.activeMembers (d : Draft) : Nat := if d.owner.any RoomMember.isActive then 1 else 0

theorem activeMembers_create {d : Draft} (hfree : t.rooms.find d.room.id = none) :
    (t.create d hfree).activeMembers k = if k = d.room.id then d.activeMembers else t.activeMembers k := by
  have hnone : t.activeMembers d.room.id = 0 := by
    rw [activeMembers_eq]
    refine List.countP_eq_zero.mpr fun m hm hin => ?_
    have hroom := t.room_member_room_id_fkey m hm
    rw [of_decide_eq_true (Bool.and_eq_true_iff.mp hin).1, hfree] at hroom
    cases hroom
  have hcount : (t.create d hfree).activeMembers k =
      t.activeMembers k + if k = d.room.id then d.activeMembers else 0 := by
    rw [activeMembers_eq, activeMembers_eq]
    unfold Draft.activeMembers
    cases howner : d.owner with
    | none =>
      rw [RoomTables.members_create_none hfree howner]
      simp
    | some m =>
      obtain ⟨hm, heq⟩ := RoomTables.members_create_some hfree howner
      rw [heq, KeyedTable.count_insert, d.ofRoom m howner]
      by_cases hk : d.room.id = k
      · simp [hk]
      · simp [hk, Ne.symm hk]
  rw [hcount]
  split
  · next hk => rw [hk, hnone, Nat.zero_add]
  · rfl

theorem withinCapacity_create {d : Draft} (hfree : t.rooms.find d.room.id = none) (hgood : WithinCapacity t) :
    WithinCapacity (t.create d hfree) ↔ (d.activeMembers : Int) ≤ d.room.maxMembers := by
  have hroom : ∀ k, (t.create d hfree).rooms.find k = if k = d.room.id then some d.room else t.rooms.find k :=
    fun k => KeyedTable.find_insert (h := hfree) k
  constructor
  · intro h
    have hle := h d.room.id d.room ((hroom _).trans (if_pos rfl))
    rwa [activeMembers_create, if_pos rfl] at hle
  · intro h k r hr
    rw [hroom] at hr
    rw [activeMembers_create]
    split at hr
    · next hk =>
      obtain rfl := Option.some.inj hr
      rwa [if_pos hk]
    · next hk =>
      rw [if_neg hk]
      exact hgood k r hr

def Change.KeepsCapacity (t : RoomTables) : Change → Prop
  | .statement w => w.KeepsCapacity t
  | .creation d => (d.activeMembers : Int) ≤ d.room.maxMembers

/-- What the step changes leaves each room with room for its members. -/
def KeepsCapacity (p : RoomPool) (l : RoomLabel) : Prop :=
  ∀ change, changeOf p l = some change → change.KeepsCapacity p.shared.tables

theorem withinCapacity_step {p p' : RoomPool} {l : RoomLabel} (hp : AllOrdinary p)
    (hgood : WithinCapacity p.shared.tables) (hstep : RoomStep p l p') :
    WithinCapacity p'.shared.tables ↔ KeepsCapacity p l := by
  have hchanges := changes_step hp hstep
  unfold KeepsCapacity
  revert hchanges
  generalize changeOf p l = change
  rintro (hsame | ⟨hord, happly⟩ | ⟨hfree, hcreate⟩)
  · rw [hsame]
    exact iff_of_true hgood fun _ h => nomatch h
  · rw [withinCapacity_write hord happly hgood]
    exact ⟨fun h _ hc => Option.some.inj hc ▸ h, fun h => h _ rfl⟩
  · rw [hcreate, withinCapacity_create hfree hgood]
    exact ⟨fun h _ hc => Option.some.inj hc ▸ h, fun h => h _ rfl⟩

/-- The rooms stay within their capacities exactly if every insertion, update and creation that
gets through sees to it. -/
theorem within_capacity_iff {p p' : RoomPool} {trace : List RoomLabel} (hp : Reachable RoomStep RoomInit p)
    (hgood : WithinCapacity p.shared.tables) :
    (∀ before after q, trace = before ++ after → Run RoomStep p before q → Run RoomStep q after p' →
      WithinCapacity q.shared.tables) ↔
    ∀ before l after q q', trace = before ++ l :: after → Run RoomStep p before q → RoomStep q l q' →
      Run RoomStep q' after p' → KeepsCapacity q l := by
  have hinv : ∀ q l q', AllOrdinary q → RoomStep q l q' → AllOrdinary q' := fun _ _ _ => allOrdinary_step
  have hstep : ∀ q l q', AllOrdinary q → WithinCapacity q.shared.tables → RoomStep q l q' →
      (WithinCapacity q'.shared.tables ↔ KeepsCapacity q l) := fun _ _ _ hq hin h => withinCapacity_step hq hin h
  exact Run.always_good_iff hinv hstep (allOrdinary_of_reachable hp) hgood

section Sample

def roomForOne : CreateRoomRequest := ⟨"Den", none, 1, none⟩

theorem alone_roomForOne : ∃ t, Alone (Exec 0) Eq (Call.createRoom ann roomForOne).prog (restingState .empty) () t ∧
    t.tables.getRoomById den = .ok { sampleRoom 1 none none with createdAt := 1, updatedAt := 1 } ∧
    t.tables.getMembersByRoomId den = [⟨den, ann, Role.ADMIN, 1, none⟩] ∧
    t.tables.members.find (den, bob) = none := by
  have hid : Exec 0 .newV7 (restingState .empty) den _ := .newV7 List.not_mem_nil rfl
  refine ⟨_, .call rfl hid (.call rfl (.now _) (.call rfl (.begin _) (.call rfl (.insertRoom (by decide) rfl)
    (.call rfl (.insertOwner (RoomState.drafts_setDraft_self _ _ _) rfl rfl)
      (.call rfl (.commit (RoomState.drafts_setDraft_self _ _ _) rfl) (.ret _ _)))))), rfl, rfl, rfl⟩

/-- The scheduler pops a room for one. -/
theorem within_capacity_popped : ∃ p r, Run RoomStep
    ⟨restingState (sampleTables (sampleRoom 1 (some 0) none) rfl), []⟩
    [.spawn Call.popRooms.prog, .cmd 0 (.write .popRooms) r] p ∧ WithinCapacity p.shared.tables := by
  have hinit := restingState_init (sampleTables (sampleRoom 1 (some 0) none) rfl)
  have hspawn : RoomStep ⟨restingState (sampleTables (sampleRoom 1 (some 0) none) rfl), []⟩
      (.spawn Call.popRooms.prog) ⟨_, [Call.popRooms.prog]⟩ := .spawn ⟨.popRooms, rfl⟩
  have hexec : Exec 0 (.write .popRooms) (restingState (sampleTables (sampleRoom 1 (some 0) none) rfl))
    _ _ := .write rfl
  have hrun := Run.cons hspawn (.single (Step.cmd (i := 0) rfl hexec))
  have hgood : WithinCapacity (sampleTables (sampleRoom 1 (some 0) none) rfl) := by
    intro k r hr
    obtain ⟨hmem, rfl⟩ := KeyedTable.find_eq_some.mp hr
    obtain rfl := List.mem_singleton.mp hmem
    decide +kernel
  refine ⟨_, _, hrun, (within_capacity_iff ⟨_, [], hinit, .nil _⟩ hgood).mpr ?_ _ [] _ (List.append_nil _).symm hrun
    (.nil _)⟩
  intro before l after q q' htrace _ _ _
  have hl : l ∈ before ++ l :: after := List.mem_append_right _ List.mem_cons_self
  rw [← htrace] at hl
  rcases List.mem_cons.mp hl with rfl | hl
  · exact fun _ h => nomatch h
  · obtain rfl := List.mem_singleton.mp hl
    rintro _ ⟨⟩
    trivial

/-- A room for one is created, and somebody is invited into it. -/
theorem capacity_exceeded : ∃ trace p, Run RoomStep ⟨restingState .empty, []⟩ trace p ∧
    ¬ WithinCapacity p.shared.tables := by
  obtain ⟨s, hcreate, hroom, hmembers, hfree⟩ := alone_roomForOne
  obtain ⟨first, hfirst⟩ : ∃ trace, Run RoomStep ⟨restingState .empty, []⟩ trace ⟨s, [.ret ()]⟩ :=
    hcreate.spawn_run [] ⟨_, rfl⟩
  have hopen : s.tables.hasRoom Room.isOpen den = true := hasRoom_open hroom rfl
  obtain ⟨t, happly⟩ := (addMember_ok (m := ⟨bob, den, Role.MEMBER⟩) s.now hopen).mpr ⟨by decide, hfree⟩
  have hinvite : Alone (Exec 1) Eq (Call.inviteUser ⟨bob, den, none⟩).prog s () (s.store 1 _ t) :=
    (Answers.alone (alone_inviteUser (fun _ => rfl) hroom rfl happly)).bind (.ret _ _)
  have hcall : Calls (Call.inviteUser ⟨bob, den, none⟩).prog := ⟨_, rfl⟩
  obtain ⟨second, hsecond⟩ := hinvite.spawn_run (S := roomSemantics) [.ret ()] hcall
  refine ⟨first ++ second, _, hfirst.append hsecond, fun h => ?_⟩
  have heff := Write.effect_of_apply happly
  have hcount : t.activeMembers den = 2 := by
    rw [activeMembers_inserted heff (if_pos hopen), if_pos rfl]
    unfold RoomTables.activeMembers
    rw [hmembers]
    rfl
  have hle := h den _ ((heff.room_kept (fun _ => rfl) den).trans (getRoom_ok hroom).1)
  rw [show (s.store 1 _ t).tables.activeMembers den = 2 from hcount] at hle
  revert hle
  decide

end Sample

end Chinwag.Rooms

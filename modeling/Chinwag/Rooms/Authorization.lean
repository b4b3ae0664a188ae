import Chinwag.Rooms.Frozen
import Chinwag.Rooms.Sequential

/-!
# Who changes a room

The administrators of the room, its creator when it is created, and whoever joins by a link. The
handlers of `PUT` and `DELETE /rooms/:id` do not ask for the first, so the rule stands where
those two are sent by administrators of the room or change nothing.
-/
namespace Chinwag.Rooms

open Program Auth Transition

variable {s t : RoomState} {q : Request} {k : Uuid}

/-- Whose token a request carries. -/
def Request.sender : Request → Option AccessClaims
  | .getRoom _ | .listMembers _ | .getMember _ _ => none
  | .createRoom auth _ | .updateRoom auth _ _ | .deleteRoom auth _ | .popRoom auth _ | .addMember auth _ _
  | .updateMember auth _ _ _ | .removeMember auth _ _ | .createInviteLink auth _ _ | .joinByInviteLink auth _
  | .adminCreateRoom auth _ | .adminGetRoom auth _ | .adminUpdateRoom auth _ _ | .adminDeleteRoom auth _
  | .adminListMembers auth _ | .adminAddMember auth _ _ | .adminUpdateMember auth _ _ _
  | .adminRemoveMember auth _ _ => auth.toOption

def ManagedBy (t : RoomTables) (claims : AccessClaims) (k : Uuid) : Prop :=
  ∃ user, Uuid.parse claims.subject = some user ∧ Manages t user k

/-- The columns of a room that the rule is about. -/
def Room.contents (r : Room) : String × Option String × Int × Option Nat × Option Nat :=
  (r.name, r.description, r.maxMembers, r.deletedAt, r.poppedAt)

structure SameContents (t t' : RoomTables) (k : Uuid) : Prop where
  room : (t'.rooms.find k).map Room.contents = (t.rooms.find k).map Room.contents
  members : ∀ u, t'.members.find (k, u) = t.members.find (k, u)

theorem SameRoom.contents {t t' : RoomTables} (h : SameRoom t t' k) : SameContents t t' k :=
  ⟨by rw [h.room], h.members⟩

theorem SameContents.refl (t : RoomTables) (k : Uuid) : SameContents t t k := ⟨rfl, fun _ => rfl⟩

/-- Room `k` was left alone, or changed by someone entitled to. -/
inductive Authorised (s : RoomState) (t : RoomTables) (k : Uuid) : Request → Prop
  | untouched {q : Request} (h : SameContents s.tables t k) : Authorised s t k q
  | manager {q : Request} {claims : AccessClaims} (hsender : q.sender = some claims)
      (h : ManagedBy s.tables claims k) : Authorised s t k q
  | creation {claims : AccessClaims} {body : Except String CreateRoomRequest} {user : Uuid}
      (huser : Uuid.parse claims.subject = some user) (hnew : s.tables.rooms.find k = none)
      (howner : ∃ room, t.rooms.find k = some room ∧ room.ownerId = user)
      (hmembers : ∀ u, u ≠ user → t.members.find (k, u) = none) : Authorised s t k (.createRoom (.ok claims) body)
  | join {claims : AccessClaims} {token : String} {user : Uuid} {data : InviteLinkData}
      (huser : Uuid.parse claims.subject = some user)
      (hlink : s.lookup (inviteKeyPrefix ++ token) = some data) (hroom : Uuid.parse data.roomId = some k)
      (hsame : t.rooms.find k = s.tables.rooms.find k)
      (hothers : ∀ u, u ≠ user → t.members.find (k, u) = s.tables.members.find (k, u)) :
      Authorised s t k (.joinByInviteLink (.ok claims) token)

/-- Such an update of a room fails or writes what is there already. -/
def Idle (t : RoomTables) (k : Uuid) (req : UpdateRoomRequest) : Prop :=
  ∀ r, t.getRoomById k = .ok r → r.poppedAt = none → ∀ r', patchRoom r req = .ok r' →
    Room.Fits r'.name r'.description r'.maxMembers → r'.contents = r.contents

/-- An update or a deletion of a room comes from an administrator of it, or meets no room to change. -/
def Permitted (t : RoomTables) : Request → Prop
  | .updateRoom (.ok claims) id (.ok req) =>
    ∀ k, Uuid.parse id = some k → ManagedBy t claims k ∨ Idle t k req
  | .deleteRoom (.ok claims) id =>
    ∀ k, Uuid.parse id = some k → ManagedBy t claims k ∨ ∀ r, t.getRoomById k = .ok r → r.poppedAt ≠ none
  | _ => True

section Statements

variable {w : Write} {now n : Nat} {t t' : RoomTables} {roomId : Uuid}

/-- The room a statement names. -/
def Write.target : Write → Option Uuid
  | .updateRoom room | .adminUpdateRoom room => some room.id
  | .deleteRoomById id | .popRoom id | .adminDeleteRoomById id => some id
  | .popRooms => none
  | .addMember m | .adminAddMember m => some m.roomId
  | .updateMember member | .adminUpdateMember member => some member.roomId
  | .removeMember _ roomId | .setUserRole _ roomId _ | .adminRemoveMember _ roomId
  | .adminSetUserRole _ roomId _ => some roomId

/-- It leaves the others alone. -/
theorem sameRoom_of_target (hord : w.Ordinary) (h : w.apply now t = .ok (t', n)) (htarget : w.target = some roomId)
    (hk : k ≠ roomId) : SameRoom t t' k := by
  have hroom : ∀ r, t.rooms.find k = some r → r.id ≠ roomId := by
    rintro r hr rfl
    exact hk (KeyedTable.key_of_find hr).symm
  refine (Write.effect_of_apply h).sameRoom ?_ ?_ ?_
  · intro r hr
    have hne := hroom r hr
    cases w with
    | updateRoom room =>
      obtain rfl := Option.some.inj htarget
      simp [Write.selectsRoom, hne]
    | deleteRoomById id =>
      obtain rfl := Option.some.inj htarget
      simp [Write.selectsRoom, hne]
    | popRoom id =>
      obtain rfl := Option.some.inj htarget
      simp [Write.selectsRoom, hne]
    | popRooms => cases htarget
    | adminUpdateRoom => exact hord.elim
    | adminDeleteRoomById => exact hord.elim
    | _ => rfl
  · rintro m rfl
    cases w with
    | updateMember member =>
      obtain rfl := Option.some.inj htarget
      simp [Write.selectsMember, RoomMember.isOf, hk]
    | removeMember userId roomId =>
      obtain rfl := Option.some.inj htarget
      simp [Write.selectsMember, RoomMember.isOf, hk]
    | setUserRole userId roomId role =>
      obtain rfl := Option.some.inj htarget
      simp [Write.selectsMember, RoomMember.isOf, hk]
    | adminUpdateMember => exact hord.elim
    | adminRemoveMember => exact hord.elim
    | adminSetUserRole => exact hord.elim
    | _ => rfl
  · rintro m hins rfl
    obtain ⟨rfl, -⟩ := Write.inserts_ordinary hord hins
    exact hk (Option.some.inj htarget)

theorem fits_update {room : Room} (h : (Write.updateRoom room).apply now t = .ok (t', n)) :
    Room.Fits room.name room.description room.maxMembers := by
  simp only [Write.apply, RoomTables.updateRoom, RoomTables.updateRoomWhere] at h
  split at h
  · next hfits => exact hfits
  · cases h

/-- Writing a room with the contents it has. -/
theorem sameContents_update {room r : Room} (h : (Write.updateRoom room).apply now t = .ok (t', n))
    (hr : t.rooms.find k = some r) (hsame : room.contents = r.contents) :
    SameContents t t' k := by
  have heff := Write.effect_of_apply h
  constructor
  · rw [heff.room, hr, Option.map_some, Option.map_some, Option.map_some]
    split
    · have hcolumns := hsame
      unfold Room.contents at hcolumns ⊢
      simp only [Prod.mk.injEq] at hcolumns
      simp [Write.reviseRoom, hcolumns.1, hcolumns.2.1, hcolumns.2.2.1]
    · rfl
  · intro u
    rw [heff.updated rfl]
    exact Write.map_unselected _ _

end Statements

section Operations

variable {claims : AccessClaims} {roomId : Uuid} {w : Write} {missing : AppError}

/-- A statement on a room, when an administrator of it sent the request. -/
theorem ends_managed {s₀ : RoomState} (hsender : q.sender = some claims) (hstart : s.tables = s₀.tables)
    (hord : w.Ordinary) (htarget : w.target = some roomId) (hmanaged : ManagedBy s₀.tables claims roomId) :
    Ends (fun t => Authorised s₀ t k q) (affect missing w) s := by
  refine ends_affect ?_ ?_
  · rw [hstart]
    exact .untouched (.refl _ _)
  · intro now t n happly
    rw [hstart] at happly
    by_cases hk : k = roomId
    · subst hk
      exact .manager hsender hmanaged
    · exact .untouched (sameRoom_of_target hord happly htarget hk).contents

theorem patchRoom_id {room room' : Room} {req : UpdateRoomRequest} (h : patchRoom room req = .ok room') :
    room'.id = room.id := by
  unfold patchRoom at h
  dsimp only at h
  split at h
  · cases h
  · obtain rfl := Except.ok.inj h
    rfl

theorem patchRoom_marks {room room' : Room} {req : UpdateRoomRequest} (h : patchRoom room req = .ok room') :
    room'.deletedAt = room.deletedAt ∧ room'.poppedAt = room.poppedAt := by
  unfold patchRoom at h
  dsimp only at h
  split at h
  · cases h
  · obtain rfl := Except.ok.inj h
    exact ⟨rfl, rfl⟩

theorem ends_updateRoom {req : UpdateRoomRequest} (hsender : q.sender = some claims)
    (hpermit : ManagedBy s.tables claims roomId ∨ Idle s.tables roomId req) :
    Ends (fun t => Authorised s t k q) (updateRoom roomId req) s := by
  refine ends_unlessPopped (.untouched (.refl _ _)) fun room t hlater hroom hpop => ?_
  have hkept : Authorised s t.tables k q := by
    rw [hlater.tables]
    exact .untouched (.refl _ _)
  cases hpatch : patchRoom room req with
  | error e => exact hkept
  | ok room' =>
    have hid : room'.id = roomId :=
      (patchRoom_id hpatch).trans (KeyedTable.key_of_find (getRoom_ok hroom).1)
    refine ends_bind (P := fun t => Authorised s t k q) ?_ fun r u hu => ?_
    · cases hpermit with
      | inl hmanaged => exact ends_managed hsender hlater.tables trivial (congrArg some hid) hmanaged
      | inr hidle =>
        refine ends_affect hkept fun now t' n happly => ?_
        rw [hlater.tables] at happly
        by_cases hk : k = roomId
        · subst hk
          have hcontents := hidle room hroom hpop room' hpatch (fits_update happly)
          exact .untouched (sameContents_update happly (getRoom_ok hroom).1 hcontents)
        · exact .untouched (sameRoom_of_target (w := .updateRoom room') trivial happly (congrArg some hid) hk).contents
    · cases r <;> exact hu

theorem ends_deleteRoom (hsender : q.sender = some claims)
    (hpermit : ManagedBy s.tables claims roomId ∨ ∀ r, s.tables.getRoomById roomId = .ok r → r.poppedAt ≠ none) :
    Ends (fun t => Authorised s t k q) (deleteRoom roomId) s := by
  refine ends_unlessPopped (.untouched (.refl _ _)) fun room t hlater hroom hpop => ?_
  cases hpermit with
  | inl hmanaged => exact ends_managed hsender hlater.tables trivial rfl hmanaged
  | inr hpopped => exact absurd hpop (hpopped room hroom)

/-- The operations that are one statement on a room that is not popped. -/
theorem ends_checked {s₀ : RoomState} (hsender : q.sender = some claims) (hstart : s.tables = s₀.tables)
    (hord : w.Ordinary) (htarget : w.target = some roomId) (hmanaged : ManagedBy s₀.tables claims roomId) :
    Ends (fun t => Authorised s₀ t k q) (unlessPopped roomId fun _ => affect missing w) s := by
  refine ends_unlessPopped ?_ fun _ t hlater _ _ => ?_
  · rw [hstart]
    exact .untouched (.refl _ _)
  · exact ends_managed hsender (hlater.tables.trans hstart) hord htarget hmanaged

theorem ends_updateRoomMember {s₀ : RoomState} {userId : Uuid} {req : UpdateRoomMemberRequest}
    (hsender : q.sender = some claims) (hstart : s.tables = s₀.tables)
    (hmanaged : ManagedBy s₀.tables claims roomId) :
    Ends (fun t => Authorised s₀ t k q) (updateRoomMember userId roomId req) s := by
  have hsame : ∀ {t : RoomState}, t.tables = s₀.tables → Authorised s₀ t.tables k q := by
    intro t ht
    rw [ht]
    exact .untouched (.refl _ _)
  refine ends_unlessPopped (hsame hstart) fun _ t hlater _ _ => ?_
  have ht := hlater.tables.trans hstart
  refine Solo.bind (solo_read _) fun r u ⟨hlater', hread⟩ => ?_
  have hu := hlater'.tables.trans ht
  cases r with
  | error e => exact hsame hu
  | ok member =>
    have hroom : member.roomId = roomId :=
      congrArg Prod.fst (KeyedTable.key_of_find (getMember_ok (hread member rfl)).1)
    refine ends_bind (P := fun t => Authorised s₀ t k q)
      (ends_managed hsender hu trivial (congrArg some hroom) hmanaged) fun r v hv => ?_
    cases r <;> exact hv

theorem solo_isManager : Solo (Exec 0) Later (fun r t => Later s t ∧ (r = .ok true → ManagedBy s.tables claims roomId))
    (isManager claims roomId) s := by
  unfold isManager
  cases hparse : Uuid.parse claims.subject with
  | none => exact ⟨.refl s, nofun⟩
  | some user =>
    refine (solo_hasManagerPermission user roomId).mono ?_
    exact fun r t ⟨hlater, hok⟩ => ⟨hlater, fun h => ⟨user, hparse, hok h⟩⟩

/-- A creation leaves every room there was alone, and the new one is the creator's. -/
theorem ends_createRoom {user : Uuid} {req : CreateRoomRequest} {body : Except String CreateRoomRequest}
    (huser : Uuid.parse claims.subject = some user) :
    Ends (fun t => Authorised s t k (.createRoom (.ok claims) body)) (createRoom user req) s := by
  have hsame : ∀ {t : RoomState}, t.tables = s.tables →
      Authorised s t.tables k (.createRoom (.ok claims) body) := by
    intro t ht
    rw [ht]
    exact .untouched (.refl _ _)
  have hcreate : ∀ (d : Draft) (hfree : s.tables.rooms.find d.room.id = none), OwnedBy user d →
      Authorised s (s.tables.create d hfree) k (.createRoom (.ok claims) body) := by
    intro d hfree ⟨howner, hrow⟩
    by_cases hk : k = d.room.id
    · subst hk
      refine .creation huser hfree ⟨d.room, ?_, howner⟩ ?_
      · have hfind := KeyedTable.find_insert (h := hfree) d.room.id
        rwa [if_pos rfl] at hfind
      · intro u hu
        have hold : s.tables.members.find (d.room.id, u) = none :=
          RoomTables.find_member_of_no_room (m := ⟨d.room.id, u, 0, 0, none⟩) hfree
        cases hd : d.owner with
        | none => rw [RoomTables.members_create_none hfree hd, hold]
        | some m =>
          obtain ⟨hm, heq⟩ := RoomTables.members_create_some hfree hd
          rw [heq, KeyedTable.find_insert, if_neg, hold]
          intro hkey
          exact hu ((congrArg Prod.snd hkey).trans (hrow m hd))
    · exact .untouched (sameRoom_create hk).contents
  intro s₁ h₁ id s₂ he
  cases he with
  | newV7 =>
  intro s₃ h₃ now s₄ he
  cases he
  have htables : s₃.tables = s.tables := h₃.tables.trans h₁.tables
  dsimp only [Prog.bind]
  split
  · exact hsame htables
  · refine ends_bind (P := fun t => Authorised s t k (.createRoom (.ok claims) body)) ?_ fun r t ht => ?_
    · refine ends_creation (hsame htables) ?_
      rw [htables]
      exact hcreate
    · cases r <;> exact ht

section Join

variable {user : Uuid} {token : String} {data : InviteLinkData} {s₀ : RoomState}

theorem Authorised.of_tables {t : RoomTables} (h : t = s₀.tables) : Authorised s₀ t k q := by
  rw [h]
  exact .untouched (.refl _ _)

/-- The row that a join inserts. -/
theorem authorised_join {now n : Nat} {t' : RoomTables} (huser : Uuid.parse claims.subject = some user)
    (hlink : s.lookup (inviteKeyPrefix ++ token) = some data) (hroom : Uuid.parse data.roomId = some roomId)
    (happly : (Write.addMember (RoomUser.newMember ⟨user, roomId, none⟩)).apply now s.tables = .ok (t', n)) :
    Authorised s t' k (.joinByInviteLink (.ok claims) token) := by
  have hord : (Write.addMember (RoomUser.newMember ⟨user, roomId, none⟩)).Ordinary := trivial
  by_cases hk : k = roomId
  · subst hk
    have heff := Write.effect_of_apply happly
    refine .join huser hlink hroom (heff.room_kept (fun _ => rfl) k) ?_
    · intro u hu
      cases hins : (Write.addMember (RoomUser.newMember ⟨user, k, none⟩)).inserts s.tables with
      | none =>
        rw [heff.updated hins]
        exact Write.map_unselected _ _
      | some m =>
        obtain ⟨hw, -⟩ := Write.inserts_ordinary hord hins
        obtain rfl := Write.addMember.inj hw
        rw [(heff.inserted _ hins).2, if_neg]
        exact fun h => hu h.2
  · exact .untouched (sameRoom_of_target hord happly rfl hk).contents

theorem ends_joinRoom {key : String} (hstart : s.tables = s₀.tables) (huser : Uuid.parse claims.subject = some user)
    (hlink : s₀.lookup (inviteKeyPrefix ++ token) = some data) (hroom : Uuid.parse data.roomId = some roomId) :
    Ends (fun t => Authorised s₀ t k (.joinByInviteLink (.ok claims) token)) (joinRoom key data roomId user) s := by
  intro s₁ h₁ answer s₂ he
  cases he
  have hs₁ := h₁.tables.trans hstart
  cases answer with
  | none => exact .of_tables hs₁
  | some _ =>
  dsimp only [Prog.bind]
  refine Solo.bind (solo_read _) fun r u ⟨hlater, _⟩ => ?_
  have hu := hlater.tables.trans hs₁
  cases r with
  | ok _ => exact .of_tables hu
  | error _ =>
  refine ends_bind (P := fun t => Authorised s₀ t k (.joinByInviteLink (.ok claims) token)) ?_ fun r v hv => ?_
  · refine ends_unlessPopped (.of_tables hu) fun _ v hv _ _ => ends_affect (.of_tables (hv.tables.trans hu)) ?_
    intro now t' n happly
    rw [hv.tables, hu] at happly
    exact authorised_join huser hlink hroom happly
  · cases r with
    | error e => exact hv
    | ok _ =>
      dsimp only
      split
      · intro v₁ h₃ r v₂ he
        have hdone : Authorised s₀ v₁.tables k (.joinByInviteLink (.ok claims) token) := by
          rw [h₃.tables]
          exact hv
        cases he <;> exact hdone
      · exact hv

/-- Who joins by a link changes their own membership of the room the link is for. -/
theorem ends_joinByInviteLink (huser : Uuid.parse claims.subject = some user) :
    Ends (fun t => Authorised s t k (.joinByInviteLink (.ok claims) token)) (joinByInviteLink token user) s := by
  intro s₁ h₁ r s₂ he
  cases he with
  | cacheMiss => exact .of_tables h₁.tables
  | cacheGetFailed => exact .of_tables h₁.tables
  | @cacheHit _ _ data hfound =>
    dsimp only [Prog.bind]
    split
    · exact .of_tables h₁.tables
    · next roomId hroom =>
      have hunchanged : Authorised s s₁.tables k (.joinByInviteLink (.ok claims) token) := .of_tables h₁.tables
      refine ends_unlessPopped (P := fun t => Authorised s t k (.joinByInviteLink (.ok claims) token))
        hunchanged fun _ t hlater _ _ => ?_
      exact ends_joinRoom (hlater.tables.trans h₁.tables) huser (h₁.lookup hfound) hroom

end Join

/-- Nothing is written when a link is made. -/
theorem ends_createInviteLink {createdBy : Uuid} {req : CreateInviteLinkRequest} :
    Ends (fun t => Authorised s t k q) (createInviteLink roomId createdBy req) s := by
  refine ends_unlessPopped (.of_tables rfl) fun _ t h _ _ => ?_
  refine (solo_hasManagerPermission createdBy roomId).bind fun r u ⟨h', _⟩ => ?_
  have hu : u.tables = s.tables := h'.tables.trans h.tables
  rcases r with e | _ | _
  · exact .of_tables hu
  · exact .of_tables hu
  · intro u₁ h₁ token u₂ he
    cases he with
    | new =>
    intro u₃ h₃ r u₄ he
    have hsame : u₄.tables = s.tables := by
      have h₃' : u₃.tables = s.tables := h₃.tables.trans (h₁.tables.trans hu)
      cases he <;> exact h₃'
    cases r with
    | false => exact .of_tables hsame
    | true =>
      intro u₅ h₅ now u₆ he
      cases he
      exact .of_tables (h₅.tables.trans hsame)

/-- A request whose sender has no global role `ADMIN` keeps the rule, if it is a permitted one. -/
theorem ends_serve (hrole : ∀ c, q.sender = some c → c.role ≠ .ADMIN) (hpermit : Permitted s.tables q) :
    Ends (fun t => Authorised s t k q) (serve q) s := by
  have hrest : Authorised s s.tables k q := .untouched (.refl _ _)
  have hforbidden : ∀ (auth : Except AppError AccessClaims) (next : AccessClaims → RoomProg Response),
      q.sender = auth.toOption → Ends (fun t => Authorised s t k q) (adminOnly auth next) s := by
    intro auth next hsender
    cases auth with
    | error e => exact hrest
    | ok claims =>
      show Ends _ (if claims.role = .ADMIN then next claims else _) s
      rw [if_neg (hrole claims hsender)]
      exact hrest
  have hread : ∀ (query : Query) (ok : query.Row → Response),
      Ends (fun t => Authorised s t k q) (respond (read query) ok) s := by
    intro query ok
    refine ends_respond ((solo_read query).mono ?_)
    intro r t ⟨hlater, _⟩
    exact .of_tables hlater.tables
  have hprivate : ∀ (auth : Except AppError AccessClaims) (next : AccessClaims → RoomProg Response),
      (∀ claims, auth = .ok claims → Ends (fun t => Authorised s t k q) (next claims) s) →
      Ends (fun t => Authorised s t k q) (privately auth next) s := by
    intro auth next h
    cases auth with
    | error e => exact hrest
    | ok claims => exact h claims rfl
  cases q with
  | getRoom id =>
    exact ends_withId hrest fun roomId _ => hread (.getRoomById roomId) _
  | listMembers roomId =>
    exact ends_withId hrest fun roomId _ => hread (.getMembersByRoomId roomId) _
  | getMember roomId userId =>
    exact ends_withId hrest fun roomId _ => ends_withId hrest fun userId _ =>
      hread (.getMemberByRoomIdAndMemberId roomId userId) _
  | createRoom auth body =>
    refine hprivate _ _ ?_
    rintro claims rfl
    unfold handleCreateRoom
    exact ends_withBody hrest fun req _ => ends_withId hrest fun user huser => ends_respond (ends_createRoom huser)
  | updateRoom auth id body =>
    refine hprivate _ _ ?_
    rintro claims rfl
    unfold handleUpdateRoom
    refine ends_withId hrest fun roomId hid => ends_withBody hrest fun req hbody => ?_
    subst hbody
    exact ends_respond (ends_updateRoom rfl (hpermit roomId hid))
  | deleteRoom auth id =>
    refine hprivate _ _ ?_
    rintro claims rfl
    unfold handleDeleteRoom
    exact ends_withId hrest fun roomId hid => ends_respond (ends_deleteRoom rfl (hpermit roomId hid))
  | popRoom auth id =>
    refine hprivate _ _ ?_
    rintro claims rfl
    unfold handlePopRoom
    refine ends_withId hrest fun roomId _ => ends_withId hrest fun user huser => ?_
    refine ends_ifManager (solo_hasManagerPermission user roomId) hrest fun t hlater hmanages => ?_
    exact ends_respond (ends_checked rfl hlater.tables trivial rfl ⟨user, huser, hmanages⟩)
  | addMember auth roomId body =>
    refine hprivate _ _ ?_
    rintro claims rfl
    unfold handleAddMember
    refine ends_withId hrest fun roomId _ => ends_withBody hrest fun req _ => ?_
    refine ends_ifManager solo_isManager hrest fun t hlater hmanaged => ?_
    exact ends_respond (ends_checked rfl hlater.tables trivial rfl hmanaged)
  | updateMember auth roomId userId body =>
    refine hprivate _ _ ?_
    rintro claims rfl
    unfold handleUpdateMember
    refine ends_withId hrest fun roomId _ => ends_withId hrest fun userId _ => ?_
    refine ends_ifManager solo_isManager hrest fun t hlater hmanaged => ?_
    refine ends_withBody (.of_tables hlater.tables) fun req _ => ?_
    exact ends_respond (ends_updateRoomMember rfl hlater.tables hmanaged)
  | removeMember auth roomId userId =>
    refine hprivate _ _ ?_
    rintro claims rfl
    unfold handleRemoveMember
    refine ends_withId hrest fun roomId _ => ends_withId hrest fun userId _ => ?_
    refine ends_ifManager solo_isManager hrest fun t hlater hmanaged => ?_
    exact ends_respond (ends_checked rfl hlater.tables trivial rfl hmanaged)
  | createInviteLink auth roomId body =>
    refine hprivate _ _ ?_
    rintro claims rfl
    unfold handleCreateInviteLink
    refine ends_withId hrest fun roomId _ => ends_withId hrest fun uid _ => ends_withBody hrest fun req _ => ?_
    exact ends_respond ends_createInviteLink
  | joinByInviteLink auth token =>
    refine hprivate _ _ ?_
    rintro claims rfl
    unfold handleJoinByInviteLink
    split
    · exact hrest
    · exact ends_withId hrest fun uid huser => ends_respond (ends_joinByInviteLink huser)
  | adminCreateRoom auth body => exact hforbidden _ _ rfl
  | adminGetRoom auth id => exact hforbidden _ _ rfl
  | adminUpdateRoom auth id body => exact hforbidden _ _ rfl
  | adminDeleteRoom auth id => exact hforbidden _ _ rfl
  | adminListMembers auth id => exact hforbidden _ _ rfl
  | adminAddMember auth id body => exact hforbidden _ _ rfl
  | adminUpdateMember auth id userId body => exact hforbidden _ _ rfl
  | adminRemoveMember auth id userId => exact hforbidden _ _ rfl

end Operations

/-- What happens to the service while one request is served at a time. -/
inductive Event where
  | request (q : Request)
  | popTick
  | elapse (ms : Nat)

/-- Requests, as the users send them in each state, ticks of the scheduler, and time. -/
inductive Served (sends : RoomState → Request → Prop) : RoomState → Event → RoomState → Prop where
  | request {s t : RoomState} {q : Request} {r : Response} (hsend : sends s q)
      (h : Alone (Exec 0) Later (serve q) s r t) : Served sends s (.request q) t
  | popTick {s t : RoomState} {r : Result Nat} (h : Alone (Exec 0) Later popRooms s r t) :
      Served sends s .popTick t
  | elapse {s : RoomState} (ms : Nat) : Served sends s (.elapse ms) { s with now := s.now + ms }

section Exact

variable {claims : AccessClaims} {id : String} {w : Write} {t : RoomTables} {n : Nat} {room room' : Room}
  {req : UpdateRoomRequest}

theorem alone_respond {α : Type} {p : RoomProg (Result α)} {r : Result α} {u : RoomState} (ok : α → Response)
    (h : Alone (Exec 0) Later p s r u) : ∃ response, Alone (Exec 0) Later (respond p ok) s response u := by
  cases r with
  | error e => exact ⟨_, h.bind (.ret _ _)⟩
  | ok a => exact ⟨_, h.bind (.ret _ _)⟩

theorem alone_updateRoom (claims : AccessClaims) (hid : Uuid.parse id = some k) (hroom : s.tables.getRoomById k = .ok room)
    (hpop : room.poppedAt = none) (hpatch : patchRoom room req = .ok room')
    (happly : (Write.updateRoom room').apply s.now s.tables = .ok (t, n)) :
    ∃ r, Alone (Exec 0) Later (serve (.updateRoom (.ok claims) id (.ok req))) s r (s.store 0 (.updateRoom room') t) := by
  obtain ⟨r, haffect, -⟩ := alone_affect (i := 0) Later.refl errNotFound happly
  obtain ⟨r, hupdate⟩ : ∃ r, Alone (Exec 0) Later (updateRoom k req) s r (s.store 0 (.updateRoom room') t) := by
    cases r with
    | error e =>
      refine ⟨.error e, Answers.alone (alone_unlessPopped Later.refl hroom hpop ?_)⟩
      rw [hpatch]
      exact haffect.bind (.ret _ _)
    | ok _ =>
      refine ⟨.ok room', Answers.alone (alone_unlessPopped Later.refl hroom hpop ?_)⟩
      rw [hpatch]
      exact haffect.bind (.ret _ _)
  obtain ⟨response, hserve⟩ := alone_respond (.room 200) hupdate
  refine ⟨response, ?_⟩
  show Alone _ _ (withId id 400 _ fun roomId => respond (updateRoom roomId req) (.room 200)) _ _ _
  unfold withId
  rw [hid]
  exact hserve

theorem alone_deleteRoom (claims : AccessClaims) (hid : Uuid.parse id = some k) (hroom : s.tables.getRoomById k = .ok room)
    (hpop : room.poppedAt = none) (happly : (Write.deleteRoomById k).apply s.now s.tables = .ok (t, n)) :
    ∃ r, Alone (Exec 0) Later (serve (.deleteRoom (.ok claims) id)) s r (s.store 0 (.deleteRoomById k) t) := by
  obtain ⟨r, haffect, -⟩ := alone_affect (i := 0) Later.refl errNotFound happly
  have hdelete : Alone (Exec 0) Later (deleteRoom k) s r (s.store 0 (.deleteRoomById k) t) :=
    Answers.alone (alone_unlessPopped Later.refl hroom hpop haffect)
  obtain ⟨response, hserve⟩ := alone_respond (fun _ => .done 200) hdelete
  refine ⟨response, ?_⟩
  show Alone _ _ (withId id 400 _ fun roomId => respond (deleteRoom roomId) fun _ => .done 200) _ _ _
  unfold withId
  rw [hid]
  exact hserve

/-- Of an update or a deletion the rule lets pass only what a manager does. -/
theorem Authorised.of_sender (h : Authorised s t k q) (hsender : q.sender = some claims)
    (hcreate : ∀ c body, q ≠ .createRoom c body) (hjoin : ∀ c token, q ≠ .joinByInviteLink c token) :
    SameContents s.tables t k ∨ ManagedBy s.tables claims k := by
  cases h with
  | untouched h => exact Or.inl h
  | manager hclaims h =>
    obtain rfl := Option.some.inj (hsender.symm.trans hclaims)
    exact Or.inr h
  | creation => exact absurd rfl (hcreate _ _)
  | join => exact absurd rfl (hjoin _ _)

theorem contents_update (happly : (Write.updateRoom room').apply s.now s.tables = .ok (t, n))
    (hroom : s.tables.getRoomById k = .ok room) (hpop : room.poppedAt = none) (hid : room'.id = k) :
    (t.rooms.find k).map Room.contents =
      some (room'.name, room'.description, room'.maxMembers, room.deletedAt, room.poppedAt) := by
  obtain ⟨hfind, hlive⟩ := getRoom_ok hroom
  have hselect : (Write.updateRoom room').selectsRoom s.now room = true := by
    have hkey : room.id = k := KeyedTable.key_of_find hfind
    simp [Write.selectsRoom, Room.isOpen, hkey, hid, hpop, hlive]
  rw [(Write.effect_of_apply happly).room, hfind, Option.map_some, if_pos hselect]
  rfl

/-- If no update by this sender can break the rule, it is permitted. -/
theorem idle_of_authorised (hid : Uuid.parse id = some k)
    (h : ∀ r u, Alone (Exec 0) Later (serve (.updateRoom (.ok claims) id (.ok req))) s r u →
      Authorised s u.tables k (.updateRoom (.ok claims) id (.ok req))) :
    ManagedBy s.tables claims k ∨ Idle s.tables k req := by
  by_cases hmanaged : ManagedBy s.tables claims k
  · exact Or.inl hmanaged
  refine Or.inr fun room hroom hpop room' hpatch hfits => ?_
  obtain ⟨t, n, happly⟩ : ∃ t n, (Write.updateRoom room').apply s.now s.tables = .ok (t, n) :=
    ⟨_, _, if_pos hfits⟩
  obtain ⟨r, hserve⟩ := alone_updateRoom claims hid hroom hpop hpatch happly
  have hroomId : room'.id = k :=
    (patchRoom_id hpatch).trans (KeyedTable.key_of_find (getRoom_ok hroom).1)
  rcases (h _ _ hserve).of_sender rfl nofun nofun with hsame | hm
  · have hcontents := hsame.room
    rw [(getRoom_ok hroom).1] at hcontents
    have heq := Option.some.inj ((contents_update happly hroom hpop hroomId).symm.trans hcontents)
    obtain ⟨hdeleted, hpopped⟩ := patchRoom_marks hpatch
    rw [← hdeleted, ← hpopped] at heq
    exact heq
  · exact absurd hm hmanaged

/-- Nor can a deletion, unless it is permitted. -/
theorem popped_of_authorised (hid : Uuid.parse id = some k)
    (h : ∀ r u, Alone (Exec 0) Later (serve (.deleteRoom (.ok claims) id)) s r u →
      Authorised s u.tables k (.deleteRoom (.ok claims) id)) :
    ManagedBy s.tables claims k ∨ ∀ r, s.tables.getRoomById k = .ok r → r.poppedAt ≠ none := by
  by_cases hmanaged : ManagedBy s.tables claims k
  · exact Or.inl hmanaged
  refine Or.inr fun room hroom hpop => ?_
  obtain ⟨t, n, happly⟩ : ∃ t n, (Write.deleteRoomById k).apply s.now s.tables = .ok (t, n) := ⟨_, _, rfl⟩
  obtain ⟨r, hserve⟩ := alone_deleteRoom claims hid hroom hpop happly
  obtain ⟨hfind, hlive⟩ := getRoom_ok hroom
  rcases (h _ _ hserve).of_sender rfl nofun nofun with hsame | hm
  · have hcontents := hsame.room
    have hselect : (Write.deleteRoomById k).selectsRoom s.now room = true := by
      have hkey : room.id = k := KeyedTable.key_of_find hfind
      simp [Write.selectsRoom, hkey, hpop]
    have htables : (s.store 0 (.deleteRoomById k) t).tables = t := rfl
    rw [htables, (Write.effect_of_apply happly).room, hfind, Option.map_some, if_pos hselect] at hcontents
    have heq : some s.now = room.deletedAt := congrArg (fun c => c.2.2.2.1) (Option.some.inj hcontents)
    rw [hlive] at heq
    cases heq
  · exact absurd hm hmanaged

end Exact

section Requests

variable {sends : RoomState → Request → Prop} {s₀ : RoomState}

/-- A room or its memberships change by requests only in the ways there are for it, exactly if
every update and deletion of a room is a permitted one. -/
theorem rooms_authorised_iff (husers : ∀ s q, sends s q → ∀ c, q.sender = some c → c.role ≠ .ADMIN) :
    (∀ trace s, Run (Served sends) s₀ trace s → ∀ q t, Served sends s (.request q) t →
      ∀ k, Authorised s t.tables k q) ↔
    ∀ trace s, Run (Served sends) s₀ trace s → ∀ q, sends s q → Permitted s.tables q := by
  constructor
  · intro h trace s hrun q hsend
    have hauthorised : ∀ k r u, Alone (Exec 0) Later (serve q) s r u → Authorised s u.tables k q :=
      fun k r u hserve => h trace s hrun q u (.request hsend hserve) k
    unfold Permitted
    split
    · next claims id req => exact fun k hid => idle_of_authorised hid (hauthorised k)
    · next claims id => exact fun k hid => popped_of_authorised hid (hauthorised k)
    · trivial
  · intro h trace s hrun q t hserved k
    cases hserved with
    | request hsend hserve =>
      exact (ends_serve (husers s q hsend) (h trace s hrun q hsend)).alone hserve

end Requests

section Sample

def annClaims : AccessClaims := ⟨ann.text, .USER, ""⟩

def bobClaims : AccessClaims := ⟨bob.text, .USER, ""⟩

def denTables : RoomTables := sampleTables (sampleRoom 16 none none) sampleRoom_id

def rename (claims : AccessClaims) (name : String) : Request :=
  .updateRoom (.ok claims) den.text (.ok ⟨some name, none, none⟩)

theorem managedBy_ann : ManagedBy denTables annClaims den :=
  ⟨ann, Uuid.parse_text ann, ⟨den, ann, Role.ADMIN, 0, none⟩, rfl, rfl, rfl⟩

def AnnRenames (s : RoomState) (q : Request) : Prop :=
  ManagedBy s.tables annClaims den ∧ ∃ name, q = rename annClaims name

/-- The administrator of a room renames it. -/
theorem rooms_authorised_ann : ∃ t, Served AnnRenames (restingState denTables) (.request (rename annClaims "Ann's")) t ∧
    ¬ SameContents denTables t.tables den ∧
    Authorised (restingState denTables) t.tables den (rename annClaims "Ann's") := by
  have hpatch : patchRoom (sampleRoom 16 none none) ⟨some "Ann's", none, none⟩ =
      .ok { sampleRoom 16 none none with name := "Ann's" } := rfl
  obtain ⟨r, hserve⟩ := alone_updateRoom (s := restingState denTables) annClaims (Uuid.parse_text den)
    rfl rfl hpatch rfl
  have hserved : Served AnnRenames (restingState denTables) (.request (rename annClaims "Ann's")) _ :=
    .request ⟨managedBy_ann, _, rfl⟩ hserve
  refine ⟨_, hserved, ?_, (rooms_authorised_iff ?_).mpr ?_ [] _ (.nil _) _ _ hserved den⟩
  · intro hsame
    have hroom := hsame.room
    revert hroom
    decide +kernel
  · rintro s q ⟨-, name, rfl⟩ c hc
    obtain rfl := Option.some.inj hc
    exact nofun
  · rintro trace s - q ⟨hmanaged, name, rfl⟩ k hk
    obtain rfl := Option.some.inj ((Uuid.parse_text den).symm.trans hk)
    exact Or.inl hmanaged

/-- A stranger renames it. -/
theorem room_renamed_by_stranger : ∃ t, Served (fun _ q => q = rename bobClaims "Bob's") (restingState denTables)
    (.request (rename bobClaims "Bob's")) t ∧ bobClaims.role ≠ .ADMIN ∧
    ¬ Authorised (restingState denTables) t.tables den (rename bobClaims "Bob's") := by
  have hpatch : patchRoom (sampleRoom 16 none none) ⟨some "Bob's", none, none⟩ =
      .ok { sampleRoom 16 none none with name := "Bob's" } := rfl
  obtain ⟨r, hserve⟩ := alone_updateRoom (s := restingState denTables) bobClaims (Uuid.parse_text den)
    rfl rfl hpatch rfl
  refine ⟨_, .request rfl hserve, nofun, fun h => ?_⟩
  rcases h.of_sender rfl nofun nofun with hsame | ⟨user, huser, m, hm, -⟩
  · have hroom := hsame.room
    revert hroom
    decide +kernel
  · obtain rfl := Option.some.inj ((Uuid.parse_text bob).symm.trans huser)
    cases hm

end Sample

end Chinwag.Rooms

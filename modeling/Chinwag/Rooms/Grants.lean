import Chinwag.Rooms.Authorization
import Chinwag.Lib.History

/-!
# Who is in a room, and with which role

Memberships come from creations, from administrators of the room and from links that such
administrators made. Each administrator had the role from somewhere too: followed back through the run,
every membership ends at a creation, at an administrator of the service or in the tables at the start.
-/
namespace Chinwag.Rooms

open Program Auth Transition

/-- What is served: requests, and the ticks of the scheduler, whose response goes nowhere. -/
inductive Entry : RoomProg Response → Prop where
  | request (q : Request) : Entry (serve q)
  | tick : Entry (respond popRooms fun _ => .done 200)

abbrev ServePool := Pool RoomState RoomCmd RoomReply Response

abbrev ServeLabel := Label Nat RoomCmd RoomReply Response

abbrev ServeStep : ServePool → ServeLabel → ServePool → Prop := Step roomSemantics Entry

/-- Any tables; no creation under way, no link in the cache, and nothing being served. -/
structure ServeInit (pool : ServePool) : Prop where
  threads : pool.threads = []
  drafts : ∀ i, pool.shared.drafts i = none
  cache : ∀ key, pool.shared.cache key = none

section Handlers

variable {q : Request} {seen later : Seen RoomReply} {claims : AccessClaims} {roomId userId : Uuid} {role : Role}
  {α β : Type} {Q : Seen RoomReply → α → Prop}

/-- The sender of the request was found to be an administrator of the room. -/
def Managing (seen : Seen RoomReply) (claims : AccessClaims) (roomId : Uuid) : Prop :=
  ∃ manager row, Uuid.parse claims.subject = some manager ∧
    Saw seen (.read (.getMemberByRoomIdAndMemberId roomId manager)) (.ok row) ∧ row.role = Role.ADMIN

/-- What makes a request give this user this role in this room. -/
inductive Grant (q : Request) (seen : Seen RoomReply) : Uuid → Uuid → Role → Prop where
  | created {claims : AccessClaims} {body : Except String CreateRoomRequest} {roomId userId : Uuid}
      (hq : q = .createRoom (.ok claims) body) (huser : Uuid.parse claims.subject = some userId)
      (hid : Saw seen .newV7 roomId) : Grant q seen roomId userId Role.ADMIN
  | invited {claims : AccessClaims} {room : String} {body : Uuid × Option Role} {roomId : Uuid}
      (hq : q = .addMember (.ok claims) room (.ok body)) (hroom : Uuid.parse room = some roomId)
      (hmanager : Managing seen claims roomId) : Grant q seen roomId body.1 (body.2.getD Role.MEMBER)
  | joined {claims : AccessClaims} {token : String} {data : InviteLinkData} {info : UserInfo} {roomId userId : Uuid}
      (hq : q = .joinByInviteLink (.ok claims) token) (huser : Uuid.parse claims.subject = some userId)
      (hlink : Saw seen (.cacheGet (inviteKeyPrefix ++ token)) (some data))
      (hroom : Uuid.parse data.roomId = some roomId)
      (hknown : Saw seen (.getUser userId.toText) (some info)) : Grant q seen roomId userId Role.MEMBER
  | changed {claims : AccessClaims} {room user : String} {req : UpdateRoomMemberRequest} {roomId userId : Uuid}
      {role : Role} (hq : q = .updateMember (.ok claims) room user (.ok req)) (hroom : Uuid.parse room = some roomId)
      (huser : Uuid.parse user = some userId) (hmanager : Managing seen claims roomId) (hrole : req.role = some role) :
      Grant q seen roomId userId role
  | createdByAdmin {claims : AccessClaims} {req : AdminCreateRoomRequest} {roomId actor : Uuid}
      (hq : q = .adminCreateRoom (.ok claims) (.ok req)) (hadmin : claims.role = .ADMIN)
      (hactor : Uuid.parse claims.subject = some actor) (hid : Saw seen .newV7 roomId) :
      Grant q seen roomId (req.ownerId.getD actor) Role.ADMIN
  | addedByAdmin {claims : AccessClaims} {room : String} {body : Uuid × Option Role} {roomId : Uuid}
      (hq : q = .adminAddMember (.ok claims) room (.ok body)) (hadmin : claims.role = .ADMIN)
      (hroom : Uuid.parse room = some roomId) : Grant q seen roomId body.1 (body.2.getD Role.MEMBER)
  | changedByAdmin {claims : AccessClaims} {room user : String} {req : UpdateRoomMemberRequest} {roomId userId : Uuid}
      {role : Role} (hq : q = .adminUpdateMember (.ok claims) room user (.ok req)) (hadmin : claims.role = .ADMIN)
      (hroom : Uuid.parse room = some roomId) (huser : Uuid.parse user = some userId) (hrole : req.role = some role) :
      Grant q seen roomId userId role

/-- A link under this key, made for an administrator of its room. -/
inductive Shared (q : Request) (seen : Seen RoomReply) (key : String) (data : InviteLinkData) : Prop where
  | mk {claims : AccessClaims} {room : String} {req : CreateInviteLinkRequest} {roomId creator token : Uuid}
      (hq : q = .createInviteLink (.ok claims) room (.ok req)) (hroom : Uuid.parse room = some roomId)
      (hcreator : Uuid.parse claims.subject = some creator) (hmanager : Managing seen claims roomId)
      (hkey : key = inviteKeyPrefix ++ token.toText)
      (hdata : data = ⟨roomId.toText, creator.toText, req.singleUse.getD false⟩)

/-- An update of a membership writes the role that it read, or one that is granted. -/
def Rewrites (q : Request) (seen : Seen RoomReply) (member : RoomMember) : Prop :=
  ∃ roomId userId row, Saw seen (.read (.getMemberByRoomIdAndMemberId roomId userId)) (.ok row) ∧
    member.roomId = row.roomId ∧ member.userId = row.userId ∧
    (member.role = row.role ∨ Grant q seen roomId userId member.role)

def LawfulWrite (q : Request) (seen : Seen RoomReply) : Write → Prop
  | .addMember m | .adminAddMember m => Grant q seen m.roomId m.userId m.role
  | .updateMember member | .adminUpdateMember member => Rewrites q seen member
  | .setUserRole _ _ _ | .adminSetUserRole _ _ _ => False
  | _ => True

/-- What a command needs that gives a role or makes a link. -/
def Lawful (q : Request) (seen : Seen RoomReply) : RoomCmd → Prop
  | .write w => LawfulWrite q seen w
  | .insertOwner m => Grant q seen m.roomId m.userId m.role
  | .cacheSet key data _ => Shared q seen key data
  | _ => True

abbrev Keeping (q : Request) (Q : Seen RoomReply → α → Prop) (p : RoomProg α) (seen : Seen RoomReply) : Prop :=
  Upholds (Lawful q) Q p seen

/-- Nothing to be said of the result. -/
abbrev Any : Seen RoomReply → α → Prop := fun _ _ => True

theorem Managing.grow (h : Managing seen claims roomId) (hsub : seen ⊆ later) : Managing later claims roomId := by
  obtain ⟨manager, row, hclaims, hread, hrole⟩ := h
  exact ⟨manager, row, hclaims, hsub hread, hrole⟩

theorem keeping_respond {p : RoomProg (Result α)} (h : Keeping q Any p seen) (ok : α → Response) :
    Keeping q Any (respond p ok) seen :=
  h.bind fun _ r _ => by cases r <;> trivial

theorem keeping_withId {text : String} {status : Nat} {message : String} {next : Uuid → RoomProg Response}
    (h : ∀ id, Uuid.parse text = some id → Keeping q Any (next id) seen) :
    Keeping q Any (withId text status message next) seen := by
  unfold withId
  split
  · trivial
  · next id hid => exact h id hid

theorem keeping_withBody {body : Except String β} {next : β → RoomProg Response}
    (h : ∀ a, body = .ok a → Keeping q Any (next a) seen) : Keeping q Any (withBody body next) seen := by
  cases body with
  | error e => trivial
  | ok a => exact h a rfl

theorem keeping_read (query : Query) :
    Keeping q (fun now r => seen ⊆ now ∧ ∀ row, r = .ok row → Saw now (.read query) (.ok row)) (read query) seen := by
  refine .call trivial fun r => ?_
  have hsub : seen ⊆ ⟨.read query, r⟩ :: seen := fun _ he => .tail _ he
  cases r with
  | error e => exact ⟨hsub, nofun⟩
  | ok row =>
    refine ⟨hsub, ?_⟩
    rintro _ ⟨⟩
    exact .latest

theorem keeping_affect {missing : AppError} {w : Write} (h : LawfulWrite q seen w) :
    Keeping q Any (affect missing w) seen := by
  refine .call h fun r => ?_
  rcases r with e | _ | n <;> trivial

theorem keeping_unlessPopped {next : Room → RoomProg (Result α)}
    (h : ∀ room later, seen ⊆ later → Keeping q Any (next room) later) :
    Keeping q Any (unlessPopped roomId next) seen := by
  refine (keeping_read _).bind fun later r hr => ?_
  cases r with
  | error e => trivial
  | ok room =>
    show Upholds _ _ (if _ then _ else _) later
    split
    · trivial
    · exact h room later hr.1

/-- The operations that are one statement on a room that is not popped. -/
theorem keeping_checked {missing : AppError} {w : Write} (h : ∀ later, seen ⊆ later → LawfulWrite q later w) :
    Keeping q Any (unlessPopped roomId fun _ => affect missing w) seen :=
  keeping_unlessPopped fun _ later hsub => keeping_affect (h later hsub)

theorem keeping_hasManagerPermission (roomId : Uuid) {manager : Uuid}
    (hclaims : Uuid.parse claims.subject = some manager) :
    Keeping q (fun now r => seen ⊆ now ∧ (r = .ok true → Managing now claims roomId))
      (hasManagerPermission manager roomId) seen := by
  refine (keeping_read _).bind fun later r hr => ?_
  cases r with
  | error e => exact ⟨hr.1, nofun⟩
  | ok row =>
    refine ⟨hr.1, fun htrue => ⟨manager, row, hclaims, hr.2 row rfl, ?_⟩⟩
    exact eq_of_beq (Except.ok.inj htrue)

theorem keeping_isManager :
    Keeping q (fun now r => seen ⊆ now ∧ (r = .ok true → Managing now claims roomId))
      (isManager claims roomId) seen := by
  unfold isManager
  split
  · exact ⟨fun _ he => he, nofun⟩
  · next manager hclaims => exact keeping_hasManagerPermission roomId hclaims

theorem keeping_ifManager {check : RoomProg (Result Bool)} {next : RoomProg Response}
    (hcheck : Keeping q (fun now r => seen ⊆ now ∧ (r = .ok true → Managing now claims roomId)) check seen)
    (h : ∀ later, Managing later claims roomId → Keeping q Any next later) :
    Keeping q Any (ifManager check next) seen := by
  refine hcheck.bind fun later r hr => ?_
  rcases r with e | _ | _
  · trivial
  · trivial
  · exact h later (hr.2 rfl)

theorem keeping_unitOfWork {fn : RoomProg (Result Unit)}
    (h : ∀ later, seen ⊆ later → Keeping q Any fn later) : Keeping q Any (unitOfWork fn) seen := by
  refine .call trivial fun r => ?_
  cases r with
  | error e => trivial
  | ok _ =>
    refine (h _ fun _ he => .tail _ he).bind fun later r _ => ?_
    cases r with
    | error e => exact .call trivial fun _ => trivial
    | ok _ => exact .call trivial fun r => by cases r <;> trivial

/-- The creator is the only one whose membership a creation inserts. -/
theorem keeping_createRoom (ownerId : Uuid) (request : CreateRoomRequest)
    (h : ∀ {later roomId}, Saw later .newV7 roomId → Grant q later roomId ownerId Role.ADMIN) :
    Keeping q Any (createRoom ownerId request) seen := by
  refine .call trivial fun id => .call trivial fun now => ?_
  dsimp only [Prog.bind]
  split
  · trivial
  · refine (keeping_unitOfWork fun later hsub => ?_).bind fun _ r _ => by cases r <;> trivial
    refine .call trivial fun r => ?_
    cases r with
    | error e => trivial
    | ok _ =>
      have hid : Saw later .newV7 id := hsub Saw.latest.before
      refine .call (h hid.before) fun r => ?_
      rcases r with e | _ | n <;> trivial

theorem keeping_updateMemberWith {req : UpdateRoomMemberRequest} {w : RoomMember → Write}
    (hw : ∀ {later member}, seen ⊆ later → Rewrites q later member → LawfulWrite q later (w member))
    (h : ∀ {later role}, seen ⊆ later → req.role = some role → Grant q later roomId userId role) :
    Keeping q Any (updateMemberWith userId roomId req w) seen := by
  refine (keeping_read _).bind fun later r hr => ?_
  cases r with
  | error e => trivial
  | ok row =>
    have hread := hr.2 row rfl
    have hrewrites : Rewrites q later (patchMember row req) := by
      refine ⟨roomId, userId, row, hread, rfl, rfl, ?_⟩
      cases hrole : req.role with
      | none => exact .inl (by rw [patchMember, hrole]; rfl)
      | some role =>
        have hwritten : (patchMember row req).role = role := by rw [patchMember, hrole]; rfl
        rw [hwritten]
        exact .inr (h hr.1 hrole)
    exact (keeping_affect (hw hr.1 hrewrites)).bind fun _ r _ => by cases r <;> trivial

theorem keeping_privately {auth : Except AppError AccessClaims} {next : AccessClaims → RoomProg Response}
    (h : ∀ claims, auth = .ok claims → Keeping q Any (next claims) seen) : Keeping q Any (privately auth next) seen := by
  cases auth with
  | error e => trivial
  | ok claims => exact h claims rfl

theorem keeping_adminOnly {auth : Except AppError AccessClaims} {next : AccessClaims → RoomProg Response}
    (h : ∀ claims, auth = .ok claims → claims.role = .ADMIN → Keeping q Any (next claims) seen) :
    Keeping q Any (adminOnly auth next) seen := by
  refine keeping_privately fun claims hauth => ?_
  show Upholds _ _ (if claims.role = .ADMIN then _ else _) seen
  split
  · next hadmin => exact h claims hauth hadmin
  · trivial

theorem keeping_reading (query : Query) (ok : query.Row → Response) : Keeping q Any (respond (read query) ok) seen :=
  keeping_respond ((keeping_read query).mono fun _ _ _ => trivial) ok

theorem keeping_updateRoom (req : UpdateRoomRequest) : Keeping q Any (updateRoom roomId req) seen := by
  refine keeping_unlessPopped fun room later _ => ?_
  cases patchRoom room req with
  | error e => trivial
  | ok room => exact (keeping_affect (w := .updateRoom room) trivial).bind fun _ r _ => by cases r <;> trivial

theorem keeping_adminUpdateRoom (req : UpdateRoomRequest) : Keeping q Any (adminUpdateRoom roomId req) seen := by
  refine (keeping_read _).bind fun later r _ => ?_
  cases r with
  | error e => trivial
  | ok room =>
    dsimp only
    cases patchRoom room req with
    | error e => trivial
    | ok room => exact (keeping_affect (w := .adminUpdateRoom room) trivial).bind fun _ r _ => by cases r <;> trivial

theorem keeping_deleteRoom : Keeping q Any (deleteRoom roomId) seen :=
  keeping_checked (w := .deleteRoomById roomId) fun _ _ => trivial

theorem keeping_popRoom : Keeping q Any (popRoom roomId) seen :=
  keeping_checked (w := .popRoom roomId) fun _ _ => trivial

theorem keeping_kickUser (member : RoomUser) : Keeping q Any (kickUser member) seen :=
  keeping_checked (w := .removeMember member.userId member.roomId) fun _ _ => trivial

theorem keeping_adminDeleteRoom : Keeping q Any (adminDeleteRoom roomId) seen :=
  keeping_affect (w := .adminDeleteRoomById roomId) trivial

theorem keeping_adminKickUser (member : RoomUser) : Keeping q Any (adminKickUser member) seen :=
  keeping_affect (w := .adminRemoveMember member.userId member.roomId) trivial

theorem keeping_inviteUser (member : RoomUser) (h : ∀ {later}, seen ⊆ later →
    Grant q later member.roomId member.userId (member.role.getD Role.MEMBER)) :
    Keeping q Any (inviteUser member) seen :=
  keeping_checked (w := .addMember member.newMember) fun _ hsub => h hsub

theorem keeping_adminInviteUser (member : RoomUser)
    (h : Grant q seen member.roomId member.userId (member.role.getD Role.MEMBER)) :
    Keeping q Any (adminInviteUser member) seen :=
  keeping_affect (w := .adminAddMember member.newMember) h

theorem keeping_updateRoomMember {req : UpdateRoomMemberRequest}
    (h : ∀ {later role}, seen ⊆ later → req.role = some role → Grant q later roomId userId role) :
    Keeping q Any (updateRoomMember userId roomId req) seen :=
  keeping_unlessPopped fun _ _ hnow =>
    keeping_updateMemberWith (w := .updateMember) (fun _ hw => hw) fun hsub => h fun _ he => hsub (hnow he)

theorem keeping_adminUpdateRoomMember {req : UpdateRoomMemberRequest}
    (h : ∀ {later role}, seen ⊆ later → req.role = some role → Grant q later roomId userId role) :
    Keeping q Any (adminUpdateRoomMember userId roomId req) seen :=
  keeping_updateMemberWith (w := .adminUpdateMember) (fun _ hw => hw) h

theorem keeping_createInviteLink {room : String} {req : CreateInviteLinkRequest} {creator : Uuid}
    (hroom : Uuid.parse room = some roomId) (hcreator : Uuid.parse claims.subject = some creator) :
    Keeping (.createInviteLink (.ok claims) room (.ok req)) Any (createInviteLink roomId creator req) seen := by
  refine keeping_unlessPopped fun _ later _ => ?_
  refine (keeping_hasManagerPermission roomId hcreator).bind fun later r hr => ?_
  rcases r with e | _ | _
  · trivial
  · trivial
  · refine .call trivial fun token => ?_
    have hmanager := (hr.2 rfl).grow (fun _ he => .tail _ he : later ⊆ ⟨.new, token⟩ :: later)
    refine .call (.mk rfl hroom hcreator hmanager rfl rfl) fun stored => ?_
    cases stored with
    | false => trivial
    | true => exact .call trivial fun _ => trivial

theorem keeping_joinByInviteLink {token : String} (huser : Uuid.parse claims.subject = some userId) :
    Keeping (.joinByInviteLink (.ok claims) token) Any (joinByInviteLink token userId) seen := by
  refine .call trivial fun found => ?_
  cases found with
  | none => trivial
  | some data =>
    dsimp only [Prog.bind]
    split
    · trivial
    · next roomId hroom =>
      refine keeping_unlessPopped fun _ later hlater => ?_
      have hlink : Saw later (.cacheGet (inviteKeyPrefix ++ token)) (some data) := hlater Saw.latest
      refine .call trivial fun known => ?_
      cases known with
      | none => trivial
      | some info =>
        refine (keeping_read _).bind fun later' r hr => ?_
        cases r with
        | ok _ => trivial
        | error _ =>
          have hgrant : ∀ {now}, later' ⊆ now →
              Grant (.joinByInviteLink (.ok claims) token) now roomId userId Role.MEMBER := fun hnow =>
            .joined rfl huser (hnow (hr.1 hlink.before)) hroom (hnow (hr.1 Saw.latest))
          refine (keeping_inviteUser ⟨userId, roomId, none⟩ hgrant).bind fun _ r _ => ?_
          cases r with
          | error e => trivial
          | ok _ =>
            dsimp only
            split
            · exact .call trivial fun _ => trivial
            · trivial

/-- Every handler, by the group its route is in. -/
theorem keeping_serve (q : Request) : Keeping q Any (serve q) [] := by
  cases q with
  | getRoom id => exact keeping_withId fun _ _ => keeping_reading _ _
  | listMembers roomId => exact keeping_withId fun _ _ => keeping_reading _ _
  | getMember roomId userId => exact keeping_withId fun _ _ => keeping_withId fun _ _ => keeping_reading _ _
  | createRoom auth body =>
    refine keeping_privately fun claims hauth => keeping_withBody fun req hbody => keeping_withId fun owner howner => ?_
    exact keeping_respond (keeping_createRoom owner req fun hid => .created (by rw [hauth]) howner hid) _
  | updateRoom auth id body =>
    exact keeping_privately fun _ _ => keeping_withId fun _ _ => keeping_withBody fun req _ =>
      keeping_respond (keeping_updateRoom req) _
  | deleteRoom auth id =>
    exact keeping_privately fun _ _ => keeping_withId fun _ _ => keeping_respond keeping_deleteRoom _
  | popRoom auth id =>
    refine keeping_privately fun claims _ => keeping_withId fun roomId _ => keeping_withId fun userId huser => ?_
    exact keeping_ifManager (keeping_hasManagerPermission roomId huser) fun _ _ =>
      keeping_respond keeping_popRoom _
  | addMember auth room body =>
    refine keeping_privately fun claims hauth => keeping_withId fun roomId hroom => keeping_withBody fun req hbody => ?_
    refine keeping_ifManager keeping_isManager fun later hmanager => keeping_respond ?_ _
    exact keeping_inviteUser _ fun hsub => .invited (by rw [hauth, hbody]) hroom (hmanager.grow hsub)
  | updateMember auth room user body =>
    refine keeping_privately fun claims hauth => keeping_withId fun roomId hroom => keeping_withId fun userId huser => ?_
    refine keeping_ifManager keeping_isManager fun later hmanager => keeping_withBody fun req hbody => ?_
    refine keeping_respond (keeping_updateRoomMember fun hsub hrole => ?_) _
    exact .changed (by rw [hauth, hbody]) hroom huser (hmanager.grow hsub) hrole
  | removeMember auth room user =>
    refine keeping_privately fun claims _ => keeping_withId fun roomId _ => keeping_withId fun userId _ => ?_
    exact keeping_ifManager keeping_isManager fun _ _ => keeping_respond (keeping_kickUser _) _
  | createInviteLink auth room body =>
    refine keeping_privately fun claims hauth => keeping_withId fun roomId hroom => ?_
    refine keeping_withId fun creator hcreator => keeping_withBody fun req hbody => ?_
    subst hauth hbody
    exact keeping_respond (keeping_createInviteLink hroom hcreator) _
  | joinByInviteLink auth token =>
    refine keeping_privately fun claims hauth => ?_
    subst hauth
    show Upholds _ _ (if _ then _ else _) _
    split
    · trivial
    · exact keeping_withId fun _ huser => keeping_respond (keeping_joinByInviteLink huser) _
  | adminCreateRoom auth body =>
    refine keeping_adminOnly fun claims hauth hadmin => keeping_withBody fun req hbody => ?_
    refine keeping_withId fun actor hactor => keeping_respond (keeping_createRoom _ _ fun hid => ?_) _
    exact .createdByAdmin (by rw [hauth, hbody]) hadmin hactor hid
  | adminGetRoom auth id => exact keeping_adminOnly fun _ _ _ => keeping_withId fun _ _ => keeping_reading _ _
  | adminUpdateRoom auth id body =>
    exact keeping_adminOnly fun _ _ _ => keeping_withId fun _ _ => keeping_withBody fun req _ =>
      keeping_respond (keeping_adminUpdateRoom req) _
  | adminDeleteRoom auth id =>
    exact keeping_adminOnly fun _ _ _ => keeping_withId fun _ _ => keeping_respond keeping_adminDeleteRoom _
  | adminListMembers auth id => exact keeping_adminOnly fun _ _ _ => keeping_withId fun _ _ => keeping_reading _ _
  | adminAddMember auth room body =>
    refine keeping_adminOnly fun claims hauth hadmin => keeping_withId fun roomId hroom => ?_
    refine keeping_withBody fun req hbody => keeping_respond (keeping_adminInviteUser _ ?_) _
    exact .addedByAdmin (by rw [hauth, hbody]) hadmin hroom
  | adminUpdateMember auth room user body =>
    refine keeping_adminOnly fun claims hauth hadmin => keeping_withId fun roomId hroom => ?_
    refine keeping_withId fun userId huser => keeping_withBody fun req hbody => ?_
    refine keeping_respond (keeping_adminUpdateRoomMember fun _ hrole => ?_) _
    exact .changedByAdmin (by rw [hauth, hbody]) hadmin hroom huser hrole
  | adminRemoveMember auth room user =>
    exact keeping_adminOnly fun _ _ _ => keeping_withId fun _ _ => keeping_withId fun _ _ =>
      keeping_respond (keeping_adminKickUser _) _

end Handlers

section Runs

/-- Thread `i` serves this request. -/
def Serves (past : List ServeLabel) (i : Nat) (q : Request) : Prop := (spawned past)[i]? = some (serve q)

/-- After `before`, thread `i` was answered that this user is in the room, with this role. -/
def Checked (before : List ServeLabel) (i : Nat) (roomId userId : Uuid) (role : Role) (past : List ServeLabel) : Prop :=
  ∃ row after, row.role = role ∧ row.leftAt = none ∧
    past = before ++ .cmd i (.read (.getMemberByRoomIdAndMemberId roomId userId)) (.ok row) :: after

mutual

/-- How a user came by a role in a room, with how the administrators on the way came by theirs. -/
inductive Entitled (pool₀ : ServePool) : List ServeLabel → Uuid → Uuid → Role → Prop where
  | initial {past : List ServeLabel} {roomId userId : Uuid} {m : RoomMember}
      (hm : pool₀.shared.tables.members.find (roomId, userId) = some m) : Entitled pool₀ past roomId userId m.role
  | created {past : List ServeLabel} {i : Nat} {claims : AccessClaims} {body : Except String CreateRoomRequest}
      {roomId userId : Uuid} (hq : Serves past i (.createRoom (.ok claims) body))
      (huser : Uuid.parse claims.subject = some userId) (hid : .cmd i .newV7 roomId ∈ past) :
      Entitled pool₀ past roomId userId Role.ADMIN
  | invited {past before : List ServeLabel} {i : Nat} {claims : AccessClaims} {room : String}
      {body : Uuid × Option Role} {roomId manager : Uuid} (hq : Serves past i (.addMember (.ok claims) room (.ok body)))
      (hroom : Uuid.parse room = some roomId) (hclaims : Uuid.parse claims.subject = some manager)
      (hcheck : Checked before i roomId manager Role.ADMIN past)
      (hmanager : Entitled pool₀ before roomId manager Role.ADMIN) :
      Entitled pool₀ past roomId body.1 (body.2.getD Role.MEMBER)
  | joined {past : List ServeLabel} {i : Nat} {claims : AccessClaims} {token : String} {data : InviteLinkData}
      {info : UserInfo} {roomId userId : Uuid} (hq : Serves past i (.joinByInviteLink (.ok claims) token))
      (huser : Uuid.parse claims.subject = some userId) (hknown : .cmd i (.getUser userId.toText) (some info) ∈ past)
      (hlink : Linked pool₀ past (inviteKeyPrefix ++ token) data) (hroom : Uuid.parse data.roomId = some roomId) :
      Entitled pool₀ past roomId userId Role.MEMBER
  | changed {past before : List ServeLabel} {i : Nat} {claims : AccessClaims} {room user : String}
      {req : UpdateRoomMemberRequest} {roomId userId manager : Uuid} {role : Role}
      (hq : Serves past i (.updateMember (.ok claims) room user (.ok req))) (hroom : Uuid.parse room = some roomId)
      (huser : Uuid.parse user = some userId) (hrole : req.role = some role)
      (hclaims : Uuid.parse claims.subject = some manager) (hcheck : Checked before i roomId manager Role.ADMIN past)
      (hmanager : Entitled pool₀ before roomId manager Role.ADMIN) : Entitled pool₀ past roomId userId role
  | createdByAdmin {past : List ServeLabel} {i : Nat} {claims : AccessClaims} {req : AdminCreateRoomRequest}
      {roomId actor : Uuid} (hq : Serves past i (.adminCreateRoom (.ok claims) (.ok req)))
      (hadmin : claims.role = .ADMIN) (hactor : Uuid.parse claims.subject = some actor)
      (hid : .cmd i .newV7 roomId ∈ past) : Entitled pool₀ past roomId (req.ownerId.getD actor) Role.ADMIN
  | addedByAdmin {past : List ServeLabel} {i : Nat} {claims : AccessClaims} {room : String}
      {body : Uuid × Option Role} {roomId : Uuid} (hq : Serves past i (.adminAddMember (.ok claims) room (.ok body)))
      (hadmin : claims.role = .ADMIN) (hroom : Uuid.parse room = some roomId) :
      Entitled pool₀ past roomId body.1 (body.2.getD Role.MEMBER)
  | changedByAdmin {past : List ServeLabel} {i : Nat} {claims : AccessClaims} {room user : String}
      {req : UpdateRoomMemberRequest} {roomId userId : Uuid} {role : Role}
      (hq : Serves past i (.adminUpdateMember (.ok claims) room user (.ok req))) (hadmin : claims.role = .ADMIN)
      (hroom : Uuid.parse room = some roomId) (huser : Uuid.parse user = some userId) (hrole : req.role = some role) :
      Entitled pool₀ past roomId userId role

/-- A link was made by an administrator of its room. -/
inductive Linked (pool₀ : ServePool) : List ServeLabel → String → InviteLinkData → Prop where
  | made {past before : List ServeLabel} {i : Nat} {claims : AccessClaims} {room : String}
      {req : CreateInviteLinkRequest} {roomId creator token : Uuid}
      (hq : Serves past i (.createInviteLink (.ok claims) room (.ok req))) (hroom : Uuid.parse room = some roomId)
      (hclaims : Uuid.parse claims.subject = some creator) (hcheck : Checked before i roomId creator Role.ADMIN past)
      (hmanager : Entitled pool₀ before roomId creator Role.ADMIN) :
      Linked pool₀ past (inviteKeyPrefix ++ token.toText) ⟨roomId.toText, creator.toText, req.singleUse.getD false⟩

end

variable {pool₀ pool pool' : ServePool} {past before : List ServeLabel} {l : ServeLabel} {i : Nat} {q : Request}
  {k u roomId userId : Uuid} {role : Role} {key : String} {data : InviteLinkData} {w : Write}

theorem Serves.append (h : Serves past i q) (later : List ServeLabel) : Serves (past ++ later) i q := by
  unfold Serves
  rw [spawned_append]
  exact (List.getElem?_append_left (List.getElem?_eq_some_iff.mp h).1).trans h

theorem Checked.append (h : Checked before i roomId userId role past) (later : List ServeLabel) :
    Checked before i roomId userId role (past ++ later) := by
  obtain ⟨row, after, hrole, hactive, rfl⟩ := h
  exact ⟨row, after ++ later, hrole, hactive, by simp⟩

theorem Linked.append (h : Linked pool₀ past key data) (later : List ServeLabel) :
    Linked pool₀ (past ++ later) key data := by
  cases h with
  | made hq hroom hclaims hcheck hmanager => exact .made (hq.append _) hroom hclaims (hcheck.append _) hmanager

/-- What a user is entitled to is not lost as the run goes on. -/
theorem Entitled.append (h : Entitled pool₀ past roomId userId role) (later : List ServeLabel) :
    Entitled pool₀ (past ++ later) roomId userId role := by
  have hmem : ∀ {l}, l ∈ past → l ∈ past ++ later := fun h => List.mem_append_left _ h
  cases h with
  | initial hm => exact .initial hm
  | created hq huser hid => exact .created (hq.append _) huser (hmem hid)
  | invited hq hroom hclaims hcheck hmanager => exact .invited (hq.append _) hroom hclaims (hcheck.append _) hmanager
  | joined hq huser hknown hlink hroom => exact .joined (hq.append _) huser (hmem hknown) (hlink.append _) hroom
  | changed hq hroom huser hrole hclaims hcheck hmanager =>
    exact .changed (hq.append _) hroom huser hrole hclaims (hcheck.append _) hmanager
  | createdByAdmin hq hadmin hactor hid => exact .createdByAdmin (hq.append _) hadmin hactor (hmem hid)
  | addedByAdmin hq hadmin hroom => exact .addedByAdmin (hq.append _) hadmin hroom
  | changedByAdmin hq hadmin hroom huser hrole => exact .changedByAdmin (hq.append _) hadmin hroom huser hrole

/-- Every role is accounted for: in the table, in the creations under way, in the links and in what was read. -/
structure RolesTraced (pool₀ : ServePool) (past : List ServeLabel) (pool : ServePool) : Prop where
  run : Run ServeStep pool₀ past pool
  rows : ∀ k u m, pool.shared.tables.members.find (k, u) = some m → Entitled pool₀ past k u m.role
  drafts : ∀ j d m, pool.shared.drafts j = some d → d.owner = some m → Entitled pool₀ past m.roomId m.userId m.role
  cache : ∀ key e, pool.shared.cache key = some e → Linked pool₀ past key e.data
  reads : ∀ j k u row, .cmd j (.read (.getMemberByRoomIdAndMemberId k u)) (.ok row) ∈ past →
    (row.roomId = k ∧ row.userId = u) ∧ ∃ before, Checked before j k u row.role past ∧ Entitled pool₀ before k u row.role
  found : ∀ j key data, .cmd j (.cacheGet key) (some data) ∈ past → Linked pool₀ past key data

theorem managing_traced (h : RolesTraced pool₀ past pool) {claims : AccessClaims}
    (hmanaging : Managing (seenBy i past) claims roomId) : ∃ manager before, Uuid.parse claims.subject = some manager ∧
      Checked before i roomId manager Role.ADMIN past ∧ Entitled pool₀ before roomId manager Role.ADMIN := by
  obtain ⟨manager, row, hclaims, hread, hrole⟩ := hmanaging
  obtain ⟨-, before, hcheck, hentitled⟩ := h.reads i roomId manager row (saw_seenBy.mp hread)
  rw [hrole] at hcheck hentitled
  exact ⟨manager, before, hclaims, hcheck, hentitled⟩

theorem entitled_of_grant (h : RolesTraced pool₀ past pool) (hq : Serves past i q)
    (hgrant : Grant q (seenBy i past) roomId userId role) : Entitled pool₀ past roomId userId role := by
  cases hgrant with
  | created heq huser hid =>
    subst heq
    exact .created hq huser (saw_seenBy.mp hid)
  | invited heq hroom hmanaging =>
    subst heq
    obtain ⟨manager, before, hclaims, hcheck, hmanager⟩ := managing_traced h hmanaging
    exact .invited hq hroom hclaims hcheck hmanager
  | joined heq huser hlink hroom hknown =>
    subst heq
    exact .joined hq huser (saw_seenBy.mp hknown) (h.found i _ _ (saw_seenBy.mp hlink)) hroom
  | changed heq hroom huser hmanaging hrole =>
    subst heq
    obtain ⟨manager, before, hclaims, hcheck, hmanager⟩ := managing_traced h hmanaging
    exact .changed hq hroom huser hrole hclaims hcheck hmanager
  | createdByAdmin heq hadmin hactor hid =>
    subst heq
    exact .createdByAdmin hq hadmin hactor (saw_seenBy.mp hid)
  | addedByAdmin heq hadmin hroom =>
    subst heq
    exact .addedByAdmin hq hadmin hroom
  | changedByAdmin heq hadmin hroom huser hrole =>
    subst heq
    exact .changedByAdmin hq hadmin hroom huser hrole

theorem linked_of_shared (h : RolesTraced pool₀ past pool) (hq : Serves past i q)
    (hshared : Shared q (seenBy i past) key data) : Linked pool₀ past key data := by
  cases hshared with
  | mk heq hroom hcreator hmanaging hkey hdata =>
    subst heq hkey hdata
    obtain ⟨manager, before, hclaims, hcheck, hmanager⟩ := managing_traced h hmanaging
    obtain rfl := Option.some.inj (hcreator.symm.trans hclaims)
    exact .made hq hroom hcreator hcheck hmanager

/-- The statement gives this user this role. -/
def Write.Sets (k u : Uuid) (role : Role) : Write → Prop
  | .addMember m | .adminAddMember m => k = m.roomId ∧ u = m.userId ∧ role = m.role
  | .updateMember member | .adminUpdateMember member => k = member.roomId ∧ u = member.userId ∧ role = member.role
  | .setUserRole userId roomId role' | .adminSetUserRole userId roomId role' => k = roomId ∧ u = userId ∧ role = role'
  | _ => False

theorem entitled_of_write (h : RolesTraced pool₀ past pool) (hq : Serves past i q)
    (hlawful : LawfulWrite q (seenBy i past) w) (hset : w.Sets k u role) : Entitled pool₀ past k u role := by
  have hrewrites : ∀ member : RoomMember, Rewrites q (seenBy i past) member →
      Entitled pool₀ past member.roomId member.userId member.role := by
    rintro member ⟨roomId, userId, row, hread, hroom, huser, hrole⟩
    obtain ⟨⟨hk, hu⟩, before, ⟨_, after, -, -, hpast⟩, hentitled⟩ := h.reads i roomId userId row (saw_seenBy.mp hread)
    rw [hroom, hk, huser, hu]
    cases hrole with
    | inl hsame =>
      rw [hsame, hpast]
      exact hentitled.append _
    | inr hgrant => exact entitled_of_grant h hq hgrant
  cases w with
  | addMember m =>
    obtain ⟨rfl, rfl, rfl⟩ := hset
    exact entitled_of_grant h hq hlawful
  | adminAddMember m =>
    obtain ⟨rfl, rfl, rfl⟩ := hset
    exact entitled_of_grant h hq hlawful
  | updateMember member =>
    obtain ⟨rfl, rfl, rfl⟩ := hset
    exact hrewrites member hlawful
  | adminUpdateMember member =>
    obtain ⟨rfl, rfl, rfl⟩ := hset
    exact hrewrites member hlawful
  | setUserRole | adminSetUserRole => exact hlawful.elim
  | updateRoom | deleteRoomById | popRoom | popRooms | removeMember | adminUpdateRoom | adminDeleteRoomById
  | adminRemoveMember => exact hset.elim

theorem role_of_effect {now : Nat} {t t' : RoomTables} {m : RoomMember} (h : w.Effect now t t')
    (hm : t'.members.find (k, u) = some m) :
    (∃ old, t.members.find (k, u) = some old ∧ m.role = old.role) ∨ w.Sets k u m.role := by
  cases hins : w.inserts t with
  | some new =>
    obtain ⟨-, hfind⟩ := h.inserted new hins
    rw [hfind] at hm
    split at hm
    · next hkey =>
      obtain rfl := Option.some.inj hm
      refine .inr ?_
      cases w with
      | addMember m =>
        obtain rfl : m = new := by
          simp only [Write.inserts] at hins
          split at hins
          · exact Option.some.inj hins
          · cases hins
        exact ⟨hkey.1, hkey.2, rfl⟩
      | adminAddMember m =>
        obtain rfl : m = new := by
          simp only [Write.inserts] at hins
          split at hins
          · exact Option.some.inj hins
          · cases hins
        exact ⟨hkey.1, hkey.2, rfl⟩
      | _ => cases hins
    · exact .inl ⟨m, hm, rfl⟩
  | none =>
    rw [h.updated hins] at hm
    obtain ⟨old, hold, rfl⟩ := Option.map_eq_some_iff.mp hm
    have hkey : old.key = (k, u) := KeyedTable.key_of_find hold
    split
    · next hsel =>
      have hof : ∀ {roomId userId}, old.isOf roomId userId = true → k = roomId ∧ u = userId := by
        intro roomId userId hof
        simp only [RoomMember.isOf, Bool.and_eq_true, beq_iff_eq] at hof
        exact ⟨(congrArg Prod.fst hkey).symm.trans hof.1, (congrArg Prod.snd hkey).symm.trans hof.2⟩
      cases w with
      | updateMember member =>
        simp only [Write.selectsMember, Bool.and_eq_true] at hsel
        exact .inr ⟨(hof hsel.2.1).1, (hof hsel.2.1).2, rfl⟩
      | adminUpdateMember member =>
        simp only [Write.selectsMember, Bool.and_eq_true] at hsel
        exact .inr ⟨(hof hsel.1).1, (hof hsel.1).2, rfl⟩
      | setUserRole =>
        simp only [Write.selectsMember, Bool.and_eq_true] at hsel
        exact .inr ⟨(hof hsel.2).1, (hof hsel.2).2, rfl⟩
      | adminSetUserRole => exact .inr ⟨(hof hsel).1, (hof hsel).2, rfl⟩
      | removeMember => exact .inl ⟨old, hold, rfl⟩
      | adminRemoveMember => exact .inl ⟨old, hold, rfl⟩
      | _ => cases hsel
    · exact .inl ⟨old, hold, rfl⟩

/-- A creation inserts its owner, and leaves the other memberships. -/
theorem role_of_create {t : RoomTables} {d : Draft} (hfree : t.rooms.find d.room.id = none) {m : RoomMember}
    (hm : (t.create d hfree).members.find (k, u) = some m) :
    t.members.find (k, u) = some m ∨ d.owner = some m ∧ m.roomId = k ∧ m.userId = u := by
  cases howner : d.owner with
  | none =>
    rw [RoomTables.members_create_none hfree howner] at hm
    exact .inl hm
  | some owner =>
    obtain ⟨hfresh, heq⟩ := RoomTables.members_create_some hfree howner
    rw [heq, KeyedTable.find_insert] at hm
    split at hm
    · next hkey =>
      obtain rfl := Option.some.inj hm
      exact .inr ⟨rfl, (congrArg Prod.fst hkey).symm, (congrArg Prod.snd hkey).symm⟩
    · exact .inl hm

/-- The next command of a thread is lawful for its request; the scheduler only pops rooms. -/
theorem lawful_of_call (h₀ : ServeInit pool₀) (hrun : Run ServeStep pool₀ past pool) {c : RoomCmd}
    {next : RoomReply c → RoomProg Response} (hi : pool.threads[i]? = some (.call c next)) :
    (∃ q, Serves past i q ∧ Lawful q (seenBy i past) c) ∨ c = .write .popRooms := by
  have hnumber : pool₀.threads.length + i = i := by rw [h₀.threads, List.length_nil, Nat.zero_add]
  rw [← hnumber] at hi
  obtain ⟨p, hspawned, hentry, hfollows⟩ := Follows.of_spawned hrun hi
  rw [hnumber] at hfollows
  cases hentry with
  | request q =>
    refine .inl ⟨q, hspawned, ?_⟩
    have hkeeping := (keeping_serve q).follows hfollows
    rw [List.append_nil] at hkeeping
    exact hkeeping.1
  | tick =>
    generalize repliesTo i past = replies at hfollows
    cases hfollows with
    | nil => exact .inr rfl
    | @cons _ _ r _ _ hrest => cases r <;> cases hrest

section Executed

variable {c : RoomCmd} {r : RoomReply c} {s : RoomState}

theorem rows_of_exec (h : RolesTraced pool₀ past pool) (hexec : Exec i c pool.shared r s)
    (hlawful : (∃ q, Serves past i q ∧ Lawful q (seenBy i past) c) ∨ c = .write .popRooms) {m : RoomMember}
    (hm : s.tables.members.find (k, u) = some m) : Entitled pool₀ past k u m.role := by
  have hwritten : ∀ {w t n}, c = .write w → w.apply pool.shared.now pool.shared.tables = .ok (t, n) →
      t.members.find (k, u) = some m → Entitled pool₀ past k u m.role := by
    intro w t n hc happly hm
    subst hc
    rcases role_of_effect (Write.effect_of_apply happly) hm with ⟨old, hold, hrole⟩ | hsets
    · rw [hrole]
      exact h.rows k u old hold
    · rcases hlawful with ⟨q, hq, hlawful⟩ | hpop
      · exact entitled_of_write h hq hlawful hsets
      · cases hpop
        exact hsets.elim
  have hcreated : ∀ {d} (hfree : pool.shared.tables.rooms.find d.room.id = none), pool.shared.drafts i = some d →
      (pool.shared.tables.create d hfree).members.find (k, u) = some m → Entitled pool₀ past k u m.role := by
    intro d hfree hd hm
    rcases role_of_create hfree hm with hold | ⟨howner, rfl, rfl⟩
    · exact h.rows k u m hold
    · exact h.drafts i d m hd howner
  cases hexec with
  | write happly => exact hwritten rfl happly hm
  | writeLost happly => exact hwritten rfl happly hm
  | commit hd hfree => exact hcreated hfree hd hm
  | commitLost hd hfree => exact hcreated hfree hd hm
  | _ => exact h.rows k u m hm

theorem drafts_of_exec (h : RolesTraced pool₀ past pool) (hexec : Exec i c pool.shared r s)
    (hlawful : (∃ q, Serves past i q ∧ Lawful q (seenBy i past) c) ∨ c = .write .popRooms) {j : Nat} {d : Draft}
    {m : RoomMember} (hd : s.drafts j = some d) (hm : d.owner = some m) :
    Entitled pool₀ past m.roomId m.userId m.role := by
  have hset : ∀ {new : Option Draft}, (Function.update pool.shared.drafts i new) j = some d →
      (∀ d', new = some d' → d'.owner = some m → Entitled pool₀ past m.roomId m.userId m.role) →
      Entitled pool₀ past m.roomId m.userId m.role := by
    intro new hd hnew
    by_cases hj : j = i
    · subst hj
      rw [Function.update_self] at hd
      exact hnew d hd hm
    · rw [Function.update_of_ne hj] at hd
      exact h.drafts j d m hd hm
  cases hexec with
  | insertRoom =>
    refine hset hd fun d' hd' howner => ?_
    obtain rfl := Option.some.inj hd'
    cases howner
  | insertOwner =>
    refine hset hd fun d' hd' howner => ?_
    obtain rfl := Option.some.inj hd'
    obtain rfl := Option.some.inj howner
    rcases hlawful with ⟨q, hq, hlawful⟩ | hpop
    · exact entitled_of_grant h hq hlawful
    · cases hpop
  | begin => exact hset hd nofun
  | commit => exact hset hd nofun
  | commitLost => exact hset hd nofun
  | commitFailed => exact hset hd nofun
  | rollback => exact hset hd nofun
  | _ => exact h.drafts j d m hd hm

theorem cache_of_exec (h : RolesTraced pool₀ past pool) (hexec : Exec i c pool.shared r s)
    (hlawful : (∃ q, Serves past i q ∧ Lawful q (seenBy i past) c) ∨ c = .write .popRooms) {e : CacheEntry}
    (he : s.cache key = some e) : Linked pool₀ past key e.data := by
  cases hexec with
  | cacheSet _ key' =>
    replace he : Function.update pool.shared.cache key' _ key = some e := he
    by_cases hkey : key = key'
    · subst hkey
      rw [Function.update_self] at he
      obtain rfl := Option.some.inj he
      rcases hlawful with ⟨q, hq, hlawful⟩ | hpop
      · exact linked_of_shared h hq hlawful
      · cases hpop
    · rw [Function.update_of_ne hkey] at he
      exact h.cache key e he
  | cacheDelete _ key' =>
    replace he : Function.update pool.shared.cache key' none key = some e := he
    by_cases hkey : key = key'
    · subst hkey
      rw [Function.update_self] at he
      cases he
    · rw [Function.update_of_ne hkey] at he
      exact h.cache key e he
  | _ => exact h.cache key e he

end Executed

theorem rolesTraced_step (h₀ : ServeInit pool₀) (h : RolesTraced pool₀ past pool) (hstep : ServeStep pool l pool') :
    RolesTraced pool₀ (past ++ [l]) pool' := by
  have hrun : Run ServeStep pool₀ (past ++ [l]) pool' := h.run.append (.single hstep)
  have hreads : ∀ j k u row, .cmd j (.read (.getMemberByRoomIdAndMemberId k u)) (.ok row) ∈ past →
      (row.roomId = k ∧ row.userId = u) ∧
        ∃ before, Checked before j k u row.role (past ++ [l]) ∧ Entitled pool₀ before k u row.role := by
    intro j k u row hmem
    obtain ⟨hkey, before, hcheck, hentitled⟩ := h.reads j k u row hmem
    exact ⟨hkey, before, hcheck.append _, hentitled⟩
  cases hstep with
  | spawn hp =>
    exact {
      run := hrun
      rows := fun k u m hm => (h.rows k u m hm).append _
      drafts := fun j d m hd hm => (h.drafts j d m hd hm).append _
      cache := fun key e he => (h.cache key e he).append _
      reads := fun j k u row hmem => hreads j k u row (by simpa using hmem)
      found := fun j key data hmem => (h.found j key data (by simpa using hmem)).append _ }
  | @env e s he =>
    obtain rfl : s = { pool.shared with now := pool.shared.now + e } := he
    exact {
      run := hrun
      rows := fun k u m hm => (h.rows k u m hm).append _
      drafts := fun j d m hd hm => (h.drafts j d m hd hm).append _
      cache := fun key e he => (h.cache key e he).append _
      reads := fun j k u row hmem => hreads j k u row (by simpa using hmem)
      found := fun j key data hmem => (h.found j key data (by simpa using hmem)).append _ }
  | @cmd i c next r s hi hexec =>
    have hlawful := lawful_of_call h₀ h.run hi
    exact {
      run := hrun
      rows := fun k u m hm => (rows_of_exec h hexec hlawful hm).append _
      drafts := fun j d m hd hm => (drafts_of_exec h hexec hlawful hd hm).append _
      cache := fun key e he => (cache_of_exec h hexec hlawful he).append _
      reads := by
        intro j k u row hmem
        rcases List.mem_append.mp hmem with hold | hnew
        · exact hreads j k u row hold
        · cases List.mem_singleton.mp hnew
          generalize hanswer : Except.ok row = answer at hexec
          cases hexec with
          | read =>
            obtain ⟨hfind, hactive⟩ := getMember_ok hanswer.symm
            have hkey : row.key = (k, u) := KeyedTable.key_of_find hfind
            have hcheck : Checked past i k u row.role (past ++ [.cmd i (.read (.getMemberByRoomIdAndMemberId k u)) _]) :=
              ⟨row, [], rfl, hactive, by rw [hanswer]⟩
            exact ⟨⟨congrArg Prod.fst hkey, congrArg Prod.snd hkey⟩, past, hcheck, h.rows k u row hfind⟩
          | readFailed => cases hanswer
      found := by
        intro j key data hmem
        rcases List.mem_append.mp hmem with hold | hnew
        · exact (h.found j key data hold).append _
        · cases List.mem_singleton.mp hnew
          cases hexec with
          | cacheHit hlookup =>
            obtain ⟨e, he, rfl⟩ := Option.map_eq_some_iff.mp hlookup
            exact (h.cache key e (Option.filter_eq_some_iff.mp he).1).append _ }

theorem rolesTraced_init (h₀ : ServeInit pool₀) : RolesTraced pool₀ [] pool₀ where
  run := .nil _
  rows _ _ _ hm := .initial hm
  drafts j d _ hd := by
    rw [h₀.drafts j] at hd
    cases hd
  cache key e he := by
    rw [h₀.cache key] at he
    cases he
  reads _ _ _ _ h := nomatch h
  found _ _ _ h := nomatch h

theorem rolesTraced_run (h₀ : ServeInit pool₀) {trace : List ServeLabel} (hrun : Run ServeStep pool₀ trace pool) :
    RolesTraced pool₀ trace pool :=
  hrun.history (fun _ _ _ _ h hstep => rolesTraced_step h₀ h hstep) [] (rolesTraced_init h₀)

end Runs

section Sample

def bobInvited : Request := .addMember (.ok annClaims) den.text (.ok (bob, none))

end Sample

end Chinwag.Rooms

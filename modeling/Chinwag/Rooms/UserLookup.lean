import Chinwag.Lib.Json
import Chinwag.Lib.Rfc3339
import Chinwag.Users.Statements
import Chinwag.Rooms.Rejoin

/-!
# Looking a user up at the auth service

The auth service answers with an envelope that has a `message` when it fails. The client in the
room service looks for an `err` instead and takes whatever else there is for a user, so every
failure is a user without an id. `JoinByInviteLink` asks no more than that there is a user.
-/
namespace Chinwag.Rooms

open Program Auth Rfc3339

section Envelope

/-- `response.Response`; `encoding/json` leaves out what is empty. -/
structure Envelope where
  success : Bool
  code : String
  message : String
  requestId : String
  data : Option Json
  info : Option Json

def optionalText (name text : String) : List (String × Json) := if text = "" then [] else [(name, .str text)]

def optionalValue (name : String) (value : Option Json) : List (String × Json) :=
  (value.map fun v => (name, v)).toList

def Envelope.body (e : Envelope) : Json :=
  .obj ([("success", .bool e.success)] ++ optionalText "code" e.code ++ optionalText "message" e.message ++
    optionalText "request_id" e.requestId ++ optionalValue "data" e.data ++ optionalValue "meta" e.info)

/-- `response.OK`. -/
def responseOK (data : Json) : Envelope := ⟨true, "", "", "", some data, none⟩

/-- `response.Error`. -/
def responseError (msg : String) : Envelope := ⟨false, "", msg, "", none, none⟩

def userJson (u : UserResponse) : Json := .obj [("id", .str u.id), ("name", .str u.name), ("email", .str u.email)]

/-- What the auth service answers to `GET /user/:id`. -/
inductive LookupResponse (id : String) where
  | user (u : UserResponse) (h : u.id = id)
  | error (message : String)

def LookupResponse.body {id : String} : LookupResponse id → Json
  | .user u _ => (responseOK (userJson u)).body
  | .error message => (responseError message).body

/-- The service returned that user as existing and active. -/
def LookupResponse.Known {id : String} (r : LookupResponse id) : Prop := ∃ u h, r = .user u h

/-- The handler of the auth service over its table, which does not find a disabled user. -/
def handleGetUserByID (t : Users.UserTable) (id : String) : LookupResponse id :=
  match h : t.getUser id with
  | .ok u => .user u.toProjection (Users.UserTable.getUser_ok h).2.1
  | .error e => .error (Auth.parseError (.db e)).2

theorem known_iff_active (t : Users.UserTable) (id : String) :
    (handleGetUserByID t id).Known ↔ ∃ u, t.getUser id = .ok u := by
  unfold handleGetUserByID LookupResponse.Known
  split
  · next u h => exact iff_of_true ⟨u.toProjection, (Users.UserTable.getUser_ok h).2.1, rfl⟩ ⟨u, h⟩
  · next e h => exact iff_of_false (fun ⟨_, _, hr⟩ => nomatch hr) fun ⟨_, hu⟩ => nomatch h.symm.trans hu

end Envelope

section Client

/-- `userResponse`; a time that is not given is the zero time. -/
structure WrappedUser where
  id : String
  name : String
  email : String
  role : String
  createdAt : Option Time
  updatedAt : Option Time

structure WrappedResponse where
  data : WrappedUser
  err : String

def readTime : Json → Option (Option Time)
  | .str s => (Rfc3339.parse s).map some
  | _ => none

def decodeUser (held : WrappedUser) (v : Json) : Option WrappedUser := do
  let fields ← v.asStruct
  let id ← Json.field Json.readString held.id "id" fields
  let name ← Json.field Json.readString held.name "name" fields
  let email ← Json.field Json.readString held.email "email" fields
  let role ← Json.field Json.readString held.role "role" fields
  let createdAt ← Json.field readTime held.createdAt "created_at" fields
  let updatedAt ← Json.field readTime held.updatedAt "updated_at" fields
  return ⟨id, name, email, role, createdAt, updatedAt⟩

def decodeWrapped (body : Json) : Option WrappedResponse := do
  let fields ← body.asStruct
  let data ← (Json.valuesOf "data" fields).foldlM decodeUser ⟨"", "", "", "", none, none⟩
  let err ← Json.stringField "err" fields
  return ⟨data, err⟩

/-- `authUserAdapter.GetUser`, given the body of the response; its status is not looked at. -/
def getUser (body : Json) : Option UserInfo := do
  let wrapped ← decodeWrapped body
  if wrapped.err ≠ "" then none
  else return ⟨wrapped.data.id, wrapped.data.name, wrapped.data.email, wrapped.data.role⟩

/-- The names that one side writes and the other reads. -/
theorem foldName_envelope :
    (Json.foldName "success" = "success".toList ∧ Json.foldName "message" = "message".toList ∧
      Json.foldName "data" = "data".toList ∧ Json.foldName "err" = "err".toList) ∧
    (Json.foldName "id" = "id".toList ∧ Json.foldName "name" = "name".toList ∧
      Json.foldName "email" = "email".toList ∧ Json.foldName "role" = "role".toList) ∧
    Json.foldName "created_at" = "created_at".toList ∧ Json.foldName "updated_at" = "updated_at".toList := by
  decide

theorem decodeUser_userJson (held : WrappedUser) (u : UserResponse) :
    decodeUser held (userJson u) = some { held with id := u.id, name := u.name, email := u.email } := by
  simp [decodeUser, userJson, Json.field, Json.valuesOf_cons, foldName_envelope, Json.decodeOnto, Json.readString]

theorem getUser_user {id : String} (u : UserResponse) (h : u.id = id) :
    getUser (LookupResponse.user u h).body = some ⟨u.id, u.name, u.email, ""⟩ := by
  simp [getUser, decodeWrapped, LookupResponse.body, responseOK, Envelope.body, optionalText, optionalValue,
    Json.valuesOf_cons, Json.stringField, Json.field, foldName_envelope, decodeUser_userJson]

/-- Whatever the message, a failure is taken for a user. -/
theorem getUser_error {id : String} (message : String) :
    getUser (LookupResponse.error message : LookupResponse id).body = some ⟨"", "", "", ""⟩ := by
  by_cases hempty : message = "" <;>
    simp [getUser, decodeWrapped, LookupResponse.body, responseError, Envelope.body, optionalText, optionalValue,
      Json.valuesOf_cons, Json.stringField, Json.field, foldName_envelope, hempty]

end Client

section Join

variable {s t : RoomState} {token : String} {user : Uuid}

/-- The exchange fails, or the client makes of the response what it does. -/
def AnswersLookup {id : String} (resp : LookupResponse id) : (c : RoomCmd) → RoomReply c → Prop
  | .getUser _, reply => reply = none ∨ reply = getUser resp.body
  | _, _ => True

/-- How commands are answered when the auth service answers so. -/
def Asked {id : String} (resp : LookupResponse id) (c : RoomCmd) (s : RoomState) (r : RoomReply c) (t : RoomState) : Prop :=
  Exec 0 c s r t ∧ AnswersLookup resp c r

def ActiveMember (t : RoomTables) (k u : Uuid) : Prop := ∃ m, t.members.find (k, u) = some m ∧ m.leftAt = none

def MadeMember (t t' : RoomTables) (u : Uuid) : Prop := ∃ k, ¬ ActiveMember t k u ∧ ActiveMember t' k u

/-- Nothing but the auth service stands between the user and the room of the link. -/
def Joinable (s : RoomState) (token : String) (u : Uuid) : Prop :=
  ∃ data k room, s.lookup (inviteKeyPrefix ++ token) = some data ∧ Uuid.parse data.roomId = some k ∧
    s.tables.getRoomById k = .ok room ∧ room.poppedAt = none ∧ s.tables.members.find (k, u) = none

/-- The join makes the user a member only if the auth service knows them. -/
def JoinsKnown (s : RoomState) (token : String) (user : Uuid) (resp : LookupResponse user.toText) : Prop :=
  ∀ r t, Alone (Asked resp) Later (joinByInviteLink token user) s r t → MadeMember s.tables t.tables user → resp.Known

theorem not_madeMember {t : RoomTables} (h : t = s.tables) : ¬ MadeMember s.tables t user := by
  rintro ⟨k, hbefore, hafter⟩
  rw [h] at hafter
  exact hbefore hafter

/-- An insertion makes a member only where there is no row. -/
theorem madeMember_insert {k : Uuid} {now n : Nat} {t' : RoomTables}
    (happly : (Write.addMember (RoomUser.newMember ⟨user, k, none⟩)).apply now s.tables = .ok (t', n))
    (hmade : MadeMember s.tables t' user) : s.tables.members.find (k, user) = none := by
  have heff := Write.effect_of_apply happly
  obtain ⟨j, hbefore, m, hm, hactive⟩ := hmade
  cases hins : (Write.addMember (RoomUser.newMember ⟨user, k, none⟩)).inserts s.tables with
  | none =>
    rw [heff.updated hins] at hm
    exact absurd ⟨m, (Write.map_unselected _ _).symm.trans hm, hactive⟩ hbefore
  | some m' =>
    have hord : (Write.addMember (RoomUser.newMember ⟨user, k, none⟩)).Ordinary := trivial
    obtain ⟨hw, -⟩ := Write.inserts_ordinary hord hins
    obtain rfl := Write.addMember.inj hw
    exact (heff.inserted _ hins).1

theorem ends_joinRoom_joinable {key : String} {data : InviteLinkData} {k : Uuid} {room : Room} {s₀ : RoomState}
    (hstart : s.tables = s₀.tables) (hlink : s₀.lookup (inviteKeyPrefix ++ token) = some data)
    (hk : Uuid.parse data.roomId = some k) (hroom : s₀.tables.getRoomById k = .ok room) (hpop : room.poppedAt = none) :
    Ends (fun t => MadeMember s₀.tables t user → Joinable s₀ token user) (joinRoom key data k user) s := by
  intro s₁ h₁ answer s₂ he
  cases he
  have hs₁ := h₁.tables.trans hstart
  cases answer with
  | none => exact fun h => absurd h (not_madeMember hs₁)
  | some _ =>
  dsimp only [Prog.bind]
  refine Solo.bind (solo_read _) fun r u ⟨hlater, _⟩ => ?_
  have hu := hlater.tables.trans hs₁
  cases r with
  | ok _ => exact fun h => absurd h (not_madeMember hu)
  | error _ =>
  refine ends_bind (P := fun t => MadeMember s₀.tables t user → Joinable s₀ token user) ?_ fun r v hv => ?_
  · refine ends_unlessPopped (fun h => absurd h (not_madeMember hu)) fun _ v hv _ _ =>
      ends_affect (fun h => absurd h (not_madeMember (hv.tables.trans hu))) ?_
    intro now t' n happly hmade
    rw [hv.tables, hu] at happly
    exact ⟨data, k, room, hlink, hk, hroom, hpop, madeMember_insert happly hmade⟩
  · cases r with
    | error e => exact hv
    | ok _ =>
      dsimp only
      split
      · intro v₁ h₃ r v₂ he
        have hdone : MadeMember s₀.tables v₁.tables user → Joinable s₀ token user := by
          rw [h₃.tables]
          exact hv
        cases he <;> exact hdone
      · exact hv

theorem ends_joinable : Ends (fun t => MadeMember s.tables t user → Joinable s token user) (joinByInviteLink token user) s := by
  intro s₁ h₁ r s₂ he
  have hsame : MadeMember s.tables s₁.tables user → Joinable s token user := fun h => absurd h (not_madeMember h₁.tables)
  cases he with
  | cacheMiss => exact hsame
  | cacheGetFailed => exact hsame
  | @cacheHit _ _ data hfound =>
    dsimp only [Prog.bind]
    split
    · exact hsame
    · next k hk =>
      refine ends_unlessPopped (P := fun t => MadeMember s.tables t user → Joinable s token user) hsame
        fun room t hlater hroom hpop => ?_
      have hs : (s₁.find 0 (inviteKeyPrefix ++ token) data).tables = s.tables := h₁.tables
      rw [hs] at hroom
      exact ends_joinRoom_joinable (hlater.tables.trans h₁.tables) (h₁.lookup hfound) hk hroom hpop

/-- Every command but the lookup. -/
def NoLookup (c : RoomCmd) : Prop := ∀ id, c ≠ .getUser id

theorem only_afterLookup {key : String} {data : InviteLinkData} {k : Uuid} : Only NoLookup (do
    match ← getUserByRoomIdAndUserId user k with
    | .ok _ => return .error (.app errAlreadyMember)
    | .error _ =>
      match ← inviteUser ⟨user, k, none⟩ with
      | .error e => return .error e
      | .ok () =>
        if data.singleUse then
          let _ ← Prog.perform (RoomCmd.cacheDelete key)
          return .ok k
        else return .ok k : RoomProg (Result Uuid)) := by
  have hread : ∀ q, Only NoLookup (read q) := fun q => ⟨nofun, fun r => by cases r <;> trivial⟩
  have hinvite : Only NoLookup (inviteUser ⟨user, k, none⟩) := by
    refine (hread _).bind fun r => ?_
    cases r with
    | error e => trivial
    | ok room =>
      dsimp only
      split
      · trivial
      · refine ⟨nofun, fun r => ?_⟩
        rcases r with e | _ | n <;> trivial
  refine (hread _).bind fun r => ?_
  cases r with
  | ok _ => trivial
  | error _ =>
    refine hinvite.bind fun r => ?_
    cases r with
    | error e => trivial
    | ok _ =>
      dsimp only
      split
      · exact ⟨nofun, fun _ => trivial⟩
      · trivial

theorem asked_of_answers {id : String} (resp : LookupResponse id) (c : RoomCmd) (s : RoomState) (r : RoomReply c)
    (t : RoomState) (hc : NoLookup c) (h : Answers 0 c s r t) : Asked resp c s r t := by
  refine ⟨h.exec, ?_⟩
  cases c with
  | getUser id => exact absurd rfl (hc id)
  | _ => trivial

/-- Somebody that the client takes for a user gets in. -/
theorem joins_of_getUser {resp : LookupResponse user.toText} {info : UserInfo} (hjoin : Joinable s token user)
    (hinfo : getUser resp.body = some info) :
    ∃ r t, Alone (Asked resp) Later (joinByInviteLink token user) s r t ∧ MadeMember s.tables t.tables user := by
  obtain ⟨data, k, room, hlink, hk, hroom, hpop, hfree⟩ := hjoin
  have hlater : ∀ s t : RoomState, s = t → Later s t := fun s _ h => h ▸ .refl s
  have hfound : (s.find 0 (inviteKeyPrefix ++ token) data).tables.getRoomById k = .ok room := hroom
  have hrefl : ∀ s : RoomState, s = s := fun _ => rfl
  obtain ⟨t, v, happly, hjoinRoom, htables, -, -⟩ :=
    alone_joinRoom (i := 0) hrefl (inviteKeyPrefix ++ token) data hfound hpop hfree
  cases hjoinRoom with
  | call hd ha hrest =>
    subst hd
    cases ha
    have htail := hrest.mono_of_only hlater (asked_of_answers resp) only_afterLookup
    have hlookup : Asked resp (.getUser user.toText) (s.find 0 (inviteKeyPrefix ++ token) data) (some info) _ :=
      ⟨.getUser _ _ _, .inr hinfo.symm⟩
    have hroomRead : Asked resp (.read (.getRoomById k)) (s.find 0 (inviteKeyPrefix ++ token) data) _ _ :=
      ⟨.read _ _, trivial⟩
    have hcache : Asked resp (.cacheGet (inviteKeyPrefix ++ token)) s (some data) _ := ⟨.cacheHit hlink, trivial⟩
    refine ⟨.ok k, v, .call (.refl s) hcache ?_, ?_⟩
    · dsimp only [Prog.bind]
      rw [hk]
      refine .call (.refl _) hroomRead ?_
      rw [show (s.find 0 (inviteKeyPrefix ++ token) data).tables.answer (.getRoomById k) = .ok room from hroom]
      show Alone (Asked resp) Later (if room.poppedAt.isSome then _ else joinRoom (inviteKeyPrefix ++ token) data k user)
        _ _ _
      rw [hpop]
      exact .call (.refl _) hlookup htail
    · have heff := Write.effect_of_apply happly
      have hopen : s.tables.hasRoom Room.isOpen k = true := hasRoom_open hroom hpop
      have hrow := ((heff.inserted _ (if_pos hopen)).2 k user).trans (if_pos ⟨rfl, rfl⟩)
      rw [← htables] at hrow
      refine ⟨k, ?_, _, hrow, rfl⟩
      rintro ⟨m, hm, -⟩
      cases hfree.symm.trans hm

/-- Whom a join admits is known to the auth service exactly if it answers with the user, or the
join comes to nothing anyway. -/
theorem joins_known_iff (s : RoomState) (token : String) (user : Uuid) (resp : LookupResponse user.toText) :
    JoinsKnown s token user resp ↔ resp.Known ∨ ¬ Joinable s token user := by
  constructor
  · intro h
    by_contra hnot
    obtain ⟨hunknown, hjoin⟩ := not_or.mp hnot
    cases resp with
    | user u hid => exact hunknown ⟨u, hid, rfl⟩
    | error message =>
      obtain ⟨r, t, halone, hmade⟩ := joins_of_getUser (not_not.mp hjoin) (getUser_error message)
      exact hunknown (h r t halone hmade)
  · rintro (hknown | hnot) r t halone hmade
    · exact hknown
    · have hexec : Alone (Exec 0) Later (joinByInviteLink token user) s r t := halone.mono fun _ _ _ _ h => h.1
      exact absurd (ends_joinable.alone hexec hmade) hnot

end Join

section Sample

def denInvite : InviteLinkData := ⟨den.toText, ann.toText, false⟩

/-- A room and a link to it. -/
def invitedState : RoomState :=
  (restingState (sampleTables (sampleRoom 16 none none) sampleRoom_id)).setCache (inviteKeyPrefix ++ "t") (some ⟨denInvite, none⟩)

/-- The auth service does not find bob, and bob gets in. -/
theorem unknown_user_joins : ¬ JoinsKnown invitedState "t" bob (.error "User not found") := by
  have hlink : invitedState.lookup (inviteKeyPrefix ++ "t") = some denInvite := by
    simp [RoomState.lookup, invitedState, RoomState.setCache, CacheEntry.isLive]
  have hjoin : Joinable invitedState "t" bob :=
    ⟨denInvite, den, sampleRoom 16 none none, hlink, Uuid.parse_text den, rfl, rfl, rfl⟩
  intro h
  obtain ⟨r, t, halone, hmade⟩ := joins_of_getUser hjoin (getUser_error "User not found")
  obtain ⟨_, _, hknown⟩ := h r t halone hmade
  cases hknown

end Sample

end Chinwag.Rooms

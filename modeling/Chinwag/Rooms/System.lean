import Mathlib.Logic.Function.Basic
import Chinwag.Rooms.Service

/-!
# The room service over its tables and its cache

Each statement and each cache command is one step on the current state; the operations run in any
interleaving and any of their commands may fail. The rows a creation has inserted are in a draft
of its own until it commits. Beside this the state remembers which link each thread has found and
whom which link has admitted; no command reads that.
-/
namespace Chinwag.Rooms

open Program Auth Transition

structure CacheEntry where
  data : InviteLinkData
  expireAt : Option Nat

def CacheEntry.isLive (e : CacheEntry) (now : Nat) : Bool := e.expireAt.all fun at_ => now ≤ at_

/-- The client of the cache sends an expiry only for a positive duration. -/
def cacheExpiry (now : Nat) (ttl : Int) : Option Nat := if 0 < ttl then some (now + ttl.toNat) else none

/-- A link that a thread has found, under its key. -/
structure Found where
  key : String
  data : InviteLinkData

/-- Who was inserted into `room_member` by the thread that had found the key. -/
structure Admission where
  thread : Nat
  key : String
  userId : Uuid

structure RoomState where
  tables : RoomTables
  drafts : Nat → Option Draft
  cache : String → Option CacheEntry
  now : Nat
  drawn : List Uuid
  found : Nat → Option Found
  admissions : List Admission

namespace RoomState

variable (s : RoomState) (i : Nat)

def draw (id : Uuid) : RoomState := { s with drawn := id :: s.drawn }

def setTables (t : RoomTables) : RoomState := { s with tables := t }

def setDraft (d : Option Draft) : RoomState := { s with drafts := Function.update s.drafts i d }

def setCache (key : String) (e : Option CacheEntry) : RoomState :=
  { s with cache := Function.update s.cache key e }

def lookup (key : String) : Option InviteLinkData :=
  ((s.cache key).filter fun e => e.isLive s.now).map CacheEntry.data

def find (key : String) (data : InviteLinkData) : RoomState :=
  { s with found := Function.update s.found i (some ⟨key, data⟩) }

/-- What an insertion by thread `i` adds to the admissions. -/
def admitted : Write → List Admission
  | .addMember m =>
    match s.found i with
    | some f => if s.tables.hasRoom Room.isOpen m.roomId then [⟨i, f.key, m.userId⟩] else []
    | none => []
  | _ => []

def store (w : Write) (t : RoomTables) : RoomState :=
  { s with tables := t, admissions := s.admitted i w ++ s.admissions }

@[simp] theorem drafts_setDraft_self (d : Option Draft) : (s.setDraft i d).drafts i = d :=
  Function.update_self ..

end RoomState

def Room.draft (room : Room) (now : Nat) : Draft := ⟨room.inserted now, none, nofun⟩

def Draft.withOwner (d : Draft) (m : NewMember) (now : Nat) (h : m.roomId = d.room.id) : Draft :=
  ⟨d.room, some (m.row now), by rintro _ ⟨⟩; exact h⟩

/-- How the shared state answers a command of thread `i`. A drawn UUID is one never used before. -/
inductive Exec (i : Nat) : (c : RoomCmd) → RoomState → RoomReply c → RoomState → Prop where
  | newV7 {s : RoomState} {id : Uuid} (fresh : id ∉ s.drawn) (free : s.tables.rooms.find id = none) :
      Exec i .newV7 s id (s.draw id)
  | new {s : RoomState} {id : Uuid} (fresh : id ∉ s.drawn) (free : s.cache (inviteKeyPrefix ++ id.toText) = none) :
      Exec i .new s id (s.draw id)
  | now (s : RoomState) : Exec i .now s s.now s
  | read (s : RoomState) (q : Query) : Exec i (.read q) s (s.tables.answer q) s
  | readFailed (s : RoomState) (q : Query) : Exec i (.read q) s (.error .unavailable) s
  | write {s : RoomState} {w : Write} {t : RoomTables} {n : Nat} (h : w.apply s.now s.tables = .ok (t, n)) :
      Exec i (.write w) s (.ok n) (s.store i w t)
  | writeRefused {s : RoomState} {w : Write} {e : DbError} (h : w.apply s.now s.tables = .error e) :
      Exec i (.write w) s (.error e) s
  | writeFailed (s : RoomState) (w : Write) : Exec i (.write w) s (.error .unavailable) s
  | writeLost {s : RoomState} {w : Write} {t : RoomTables} {n : Nat} (h : w.apply s.now s.tables = .ok (t, n)) :
      Exec i (.write w) s (.error .lost) (s.store i w t)
  | begin (s : RoomState) : Exec i .begin s (.ok ()) (s.setDraft i none)
  | beginFailed (s : RoomState) : Exec i .begin s (.error .unavailable) s
  | insertRoom {s : RoomState} {room : Room} (hfits : Room.Fits room.name room.description room.maxMembers)
      (hfree : s.tables.rooms.find room.id = none) :
      Exec i (.insertRoom room) s (.ok ()) (s.setDraft i (some (room.draft s.now)))
  | insertRoomFailed (s : RoomState) (room : Room) (e : DbError) : Exec i (.insertRoom room) s (.error e) s
  | insertOwner {s : RoomState} {m : NewMember} {d : Draft} (hd : s.drafts i = some d) (hnew : d.owner = none)
      (hroom : m.roomId = d.room.id) :
      Exec i (.insertOwner m) s (.ok 1) (s.setDraft i (some (d.withOwner m s.now hroom)))
  | insertOwnerFailed (s : RoomState) (m : NewMember) (e : DbError) : Exec i (.insertOwner m) s (.error e) s
  | commit {s : RoomState} {d : Draft} (hd : s.drafts i = some d) (hfree : s.tables.rooms.find d.room.id = none) :
      Exec i .commit s (.ok ()) ((s.setTables (s.tables.create d hfree)).setDraft i none)
  | commitFailed (s : RoomState) : Exec i .commit s (.error .unavailable) (s.setDraft i none)
  | commitLost {s : RoomState} {d : Draft} (hd : s.drafts i = some d)
      (hfree : s.tables.rooms.find d.room.id = none) :
      Exec i .commit s (.error .lost) ((s.setTables (s.tables.create d hfree)).setDraft i none)
  | rollback (s : RoomState) : Exec i .rollback s () (s.setDraft i none)
  | cacheMiss {s : RoomState} {key : String} (h : s.lookup key = none) : Exec i (.cacheGet key) s none s
  | cacheHit {s : RoomState} {key : String} {data : InviteLinkData} (h : s.lookup key = some data) :
      Exec i (.cacheGet key) s (some data) (s.find i key data)
  | cacheGetFailed (s : RoomState) (key : String) : Exec i (.cacheGet key) s none s
  | cacheSet (s : RoomState) (key : String) (data : InviteLinkData) (ttl : Int) (answered : Bool) :
      Exec i (.cacheSet key data ttl) s answered (s.setCache key (some ⟨data, cacheExpiry s.now ttl⟩))
  | cacheSetFailed (s : RoomState) (key : String) (data : InviteLinkData) (ttl : Int) :
      Exec i (.cacheSet key data ttl) s false s
  | cacheDelete (s : RoomState) (key : String) (answered : Bool) :
      Exec i (.cacheDelete key) s answered (s.setCache key none)
  | cacheDeleteFailed (s : RoomState) (key : String) : Exec i (.cacheDelete key) s false s
  | getUser (s : RoomState) (id : String) (answer : Option UserInfo) : Exec i (.getUser id) s answer s

def roomSemantics : Semantics RoomState Nat RoomCmd RoomReply where
  exec := Exec
  env s elapsed t := t = { s with now := s.now + elapsed }

/-- The operations that are not an administrator's, and the scheduler's. -/
inductive Call where
  | createRoom (ownerId : Uuid) (request : CreateRoomRequest)
  | updateRoom (roomId : Uuid) (req : UpdateRoomRequest)
  | deleteRoom (roomId : Uuid)
  | popRoom (roomId : Uuid)
  | popRooms
  | updateRoomMember (userId roomId : Uuid) (req : UpdateRoomMemberRequest)
  | setUserRole (userId roomId : Uuid) (role : Role)
  | inviteUser (member : RoomUser)
  | kickUser (member : RoomUser)
  | createInviteLink (roomId createdBy : Uuid) (req : CreateInviteLinkRequest)
  | joinByInviteLink (token : String) (userId : Uuid)

/-- A program run for what it does. -/
def discard {α : Type} (p : RoomProg α) : RoomProg Unit := do
  let _ ← p
  return ()

def Call.prog : Call → RoomProg Unit
  | .createRoom ownerId request => discard (Rooms.createRoom ownerId request)
  | .updateRoom roomId req => discard (Rooms.updateRoom roomId req)
  | .deleteRoom roomId => discard (Rooms.deleteRoom roomId)
  | .popRoom roomId => discard (Rooms.popRoom roomId)
  | .popRooms => discard Rooms.popRooms
  | .updateRoomMember userId roomId req => discard (Rooms.updateRoomMember userId roomId req)
  | .setUserRole userId roomId role => discard (Rooms.setUserRole userId roomId role)
  | .inviteUser member => discard (Rooms.inviteUser member)
  | .kickUser member => discard (Rooms.kickUser member)
  | .createInviteLink roomId createdBy req => discard (Rooms.createInviteLink roomId createdBy req)
  | .joinByInviteLink token userId => discard (Rooms.joinByInviteLink token userId)

abbrev RoomPool := Pool RoomState RoomCmd RoomReply Unit

abbrev RoomLabel := Label Nat RoomCmd RoomReply Unit

def Calls (p : RoomProg Unit) : Prop := ∃ c : Call, p = c.prog

abbrev RoomStep : RoomPool → RoomLabel → RoomPool → Prop := Step roomSemantics Calls

/-- Any tables; nothing in the cache and no call under way. -/
structure RoomInit (pool : RoomPool) : Prop where
  threads : pool.threads = []
  drafts : ∀ i, pool.shared.drafts i = none
  cache : ∀ key, pool.shared.cache key = none
  found : ∀ i, pool.shared.found i = none
  admissions : pool.shared.admissions = []

section Commands

/-- Of the commands of the operations, those that all kinds of them issue. -/
structure Plain (P : RoomCmd → Prop) : Prop where
  write : ∀ w : Write, w.Ordinary → P (.write w)
  read : ∀ q, P (.read q)
  newV7 : P .newV7
  now : P .now
  begin : P .begin
  insertRoom : ∀ room, P (.insertRoom room)
  insertOwner : ∀ m, P (.insertOwner m)
  commit : P .commit
  rollback : P .rollback
  getUser : ∀ id, P (.getUser id)

variable {P : RoomCmd → Prop} (hP : Plain P) {α β : Type} {p : RoomProg α}

include hP

theorem only_read (q : Query) : Only P (read q) := by
  refine ⟨hP.read q, fun r => ?_⟩
  cases r <;> trivial

theorem only_affect (missing : AppError) {w : Write} (h : w.Ordinary) : Only P (affect missing w) := by
  refine ⟨hP.write w h, fun r => ?_⟩
  rcases r with e | _ | n <;> trivial

theorem only_unlessPopped {roomId : Uuid} {next : Room → RoomProg (Result α)}
    (h : ∀ room, Only P (next room)) : Only P (unlessPopped roomId next) := by
  refine (only_read hP _).bind fun r => ?_
  cases r with
  | error e => trivial
  | ok room =>
    dsimp only
    split
    · trivial
    · exact h room

theorem only_checked (roomId : Uuid) (missing : AppError) {w : Write} (h : w.Ordinary) :
    Only P (unlessPopped roomId fun _ => affect missing w) :=
  only_unlessPopped hP fun _ => only_affect hP missing h

theorem only_insertWithOwner (room : Room) : Only P (insertWithOwner room) := by
  refine ⟨hP.insertRoom room, fun r => ?_⟩
  cases r with
  | error e => trivial
  | ok _ =>
    refine ⟨hP.insertOwner _, fun r => ?_⟩
    rcases r with e | _ | n <;> trivial

theorem only_unitOfWork {fn : RoomProg (Result Unit)} (h : Only P fn) : Only P (unitOfWork fn) := by
  refine ⟨hP.begin, fun r => ?_⟩
  cases r with
  | error e => trivial
  | ok _ =>
    refine h.bind fun r => ?_
    cases r with
    | error e => exact ⟨hP.rollback, fun _ => trivial⟩
    | ok _ => exact ⟨hP.commit, fun r => by cases r <;> trivial⟩

theorem only_createRoom (ownerId : Uuid) (request : CreateRoomRequest) :
    Only P (createRoom ownerId request) := by
  refine ⟨hP.newV7, fun id => ⟨hP.now, fun now => ?_⟩⟩
  dsimp only [Prog.bind]
  split
  · trivial
  · exact (only_unitOfWork hP (only_insertWithOwner hP _)).bind fun r => by cases r <;> trivial

theorem only_updateRoom (roomId : Uuid) (req : UpdateRoomRequest) : Only P (updateRoom roomId req) := by
  refine only_unlessPopped hP fun room => ?_
  cases patchRoom room req with
  | error e => trivial
  | ok room =>
    refine (only_affect hP errNotFound (w := .updateRoom room) trivial).bind fun r => ?_
    cases r <;> trivial

theorem only_popRooms : Only P popRooms := by
  refine ⟨hP.write .popRooms trivial, fun r => ?_⟩
  cases r <;> trivial

theorem only_updateRoomMember (userId roomId : Uuid) (req : UpdateRoomMemberRequest) :
    Only P (updateRoomMember userId roomId req) := by
  refine only_unlessPopped hP fun _ => (only_read hP _).bind fun r => ?_
  cases r with
  | error e => trivial
  | ok member =>
    refine (only_affect hP errNotFound (w := .updateMember (patchMember member req)) trivial).bind fun r => ?_
    cases r <;> trivial

theorem only_inviteUser (member : RoomUser) : Only P (inviteUser member) :=
  only_checked hP member.roomId errConflict (w := .addMember member.newMember) trivial

theorem only_hasManagerPermission (userId roomId : Uuid) : Only P (hasManagerPermission userId roomId) :=
  (only_read hP _).bind fun r => by cases r <;> trivial

theorem only_createInviteLink (hnew : P .new) (hset : ∀ key data ttl, P (.cacheSet key data ttl))
    (roomId createdBy : Uuid) (req : CreateInviteLinkRequest) :
    Only P (createInviteLink roomId createdBy req) := by
  refine only_unlessPopped hP fun _ => (only_hasManagerPermission hP createdBy roomId).bind fun r => ?_
  rcases r with e | _ | _
  · trivial
  · trivial
  · refine ⟨hnew, fun token => ⟨hset _ _ _, fun r => ?_⟩⟩
    cases r
    · trivial
    · exact ⟨hP.now, fun _ => trivial⟩

theorem only_joinRoom (key : String) (hdelete : P (.cacheDelete key)) (data : InviteLinkData) (roomId userId : Uuid) :
    Only P (joinRoom key data roomId userId) := by
  refine ⟨hP.getUser _, fun user => ?_⟩
  cases user with
  | none => trivial
  | some _ =>
    refine (only_read hP _).bind fun r => ?_
    cases r with
    | ok _ => trivial
    | error _ =>
      refine (only_inviteUser hP _).bind fun r => ?_
      cases r with
      | error e => trivial
      | ok _ =>
        dsimp only
        split
        · exact ⟨hdelete, fun _ => trivial⟩
        · trivial

theorem only_joinByInviteLink (token : String) (hget : P (.cacheGet (inviteKeyPrefix ++ token)))
    (hdelete : P (.cacheDelete (inviteKeyPrefix ++ token))) (userId : Uuid) :
    Only P (joinByInviteLink token userId) := by
  refine ⟨hget, fun r => ?_⟩
  cases r with
  | none => trivial
  | some data =>
    dsimp only [Prog.bind]
    split
    · trivial
    · exact only_unlessPopped hP fun _ => only_joinRoom hP _ hdelete _ _ _

end Commands

section Ordinary

variable {P : RoomCmd → Prop} {α : Type} {p : RoomProg α}

theorem only_discard (h : Only P p) : Only P (discard p) := h.bind fun _ => trivial

/-- What an operation issues, those on invite links apart. -/
theorem only_plain_call (hP : Plain P) (c : Call) (hcreate : ∀ roomId createdBy req, c ≠ .createInviteLink roomId createdBy req)
    (hjoin : ∀ token userId, c ≠ .joinByInviteLink token userId) : Only P c.prog := by
  cases c with
  | createRoom ownerId request => exact only_discard (only_createRoom hP ownerId request)
  | updateRoom roomId req => exact only_discard (only_updateRoom hP roomId req)
  | deleteRoom roomId => exact only_discard (only_checked hP roomId errNotFound trivial)
  | popRoom roomId => exact only_discard (only_checked hP roomId errNotFound trivial)
  | popRooms => exact only_discard (only_popRooms hP)
  | updateRoomMember userId roomId req => exact only_discard (only_updateRoomMember hP userId roomId req)
  | setUserRole userId roomId role => exact only_discard (only_checked hP roomId errNotFound trivial)
  | inviteUser member => exact only_discard (only_inviteUser hP member)
  | kickUser member => exact only_discard (only_checked hP member.roomId errNotFound trivial)
  | createInviteLink roomId createdBy req => exact absurd rfl (hcreate roomId createdBy req)
  | joinByInviteLink token userId => exact absurd rfl (hjoin token userId)

/-- A command that writes nothing but what an ordinary operation may. -/
def OrdinaryCmd (c : RoomCmd) : Prop := ∀ w, c = .write w → w.Ordinary

theorem plain_ordinaryCmd : Plain OrdinaryCmd where
  write := by
    rintro w hord _ ⟨⟩
    exact hord
  read _ _ h := nomatch h
  newV7 _ h := nomatch h
  now _ h := nomatch h
  begin _ h := nomatch h
  insertRoom _ _ h := nomatch h
  insertOwner _ _ h := nomatch h
  commit _ h := nomatch h
  rollback _ h := nomatch h
  getUser _ _ h := nomatch h

theorem only_call (c : Call) : Only OrdinaryCmd c.prog := by
  cases c with
  | createInviteLink roomId createdBy req =>
    have hset : ∀ key data ttl, OrdinaryCmd (.cacheSet key data ttl) := fun _ _ _ _ h => nomatch h
    exact only_discard (only_createInviteLink plain_ordinaryCmd (fun _ h => nomatch h) hset roomId createdBy req)
  | joinByInviteLink token userId =>
    exact only_discard
      (only_joinByInviteLink plain_ordinaryCmd token (fun _ h => nomatch h) (fun _ h => nomatch h) userId)
  | _ => exact only_plain_call plain_ordinaryCmd _ nofun nofun

end Ordinary

/-- One statement, or the commit of a creation. -/
inductive Change where
  | statement (w : Write)
  | creation (d : Draft)

/-- What a step changes the tables by. A command that was answered `unavailable` has not got through. -/
def changeOf (p : RoomPool) : RoomLabel → Option Change
  | .cmd _ (.write w) r =>
    match w.apply p.shared.now p.shared.tables with
    | .ok _ => if r = .error .unavailable then none else some (.statement w)
    | .error _ => none
  | .cmd i .commit r => if r = .error .unavailable then none else (p.shared.drafts i).map .creation
  | _ => none

/-- The tables before and after a change. -/
inductive Changes (now : Nat) (t t' : RoomTables) : Option Change → Prop where
  | none (h : t' = t) : Changes now t t' none
  | statement {w : Write} {n : Nat} (hord : w.Ordinary) (happly : w.apply now t = .ok (t', n)) :
      Changes now t t' (some (.statement w))
  | creation {d : Draft} (hfree : t.rooms.find d.room.id = Option.none) (h : t' = t.create d hfree) :
      Changes now t t' (some (.creation d))

/-- Every thread is one of an ordinary operation. -/
def AllOrdinary (p : RoomPool) : Prop := ∀ q ∈ p.threads, Only OrdinaryCmd q

theorem allOrdinary_step {p p' : RoomPool} {l : RoomLabel} (hp : AllOrdinary p) (h : RoomStep p l p') :
    AllOrdinary p' := by
  have hentry : ∀ q, Calls q → Only OrdinaryCmd q := by
    rintro q ⟨c, rfl⟩
    exact only_call c
  exact (h.only hentry hp).1

theorem changes_step {p p' : RoomPool} {l : RoomLabel} (hp : AllOrdinary p) (h : RoomStep p l p') :
    Changes p.shared.now p.shared.tables p'.shared.tables (changeOf p l) := by
  cases h with
  | spawn => exact .none rfl
  | @env e s he =>
    obtain rfl : s = { p.shared with now := p.shared.now + e } := he
    exact .none rfl
  | @cmd i c next r s hi hexec =>
    have hord : OrdinaryCmd c := (hp _ (List.mem_of_getElem? hi)).1
    cases hexec with
    | write happly =>
      simp only [changeOf, happly]
      exact .statement (hord _ rfl) happly
    | writeLost happly =>
      simp only [changeOf, happly]
      exact .statement (hord _ rfl) happly
    | writeRefused hrefuse =>
      simp only [changeOf, hrefuse]
      exact .none rfl
    | writeFailed =>
      simp only [changeOf]
      split <;> exact .none rfl
    | commit hd hfree =>
      simp only [changeOf, hd]
      exact .creation hfree rfl
    | commitLost hd hfree =>
      simp only [changeOf, hd]
      exact .creation hfree rfl
    | _ => exact .none rfl

theorem allOrdinary_init {p : RoomPool} (h : RoomInit p) : AllOrdinary p := by
  intro q hq
  rw [h.threads] at hq
  cases hq

theorem allOrdinary_of_reachable {p : RoomPool} (h : Reachable RoomStep RoomInit p) : AllOrdinary p := by
  have hstep : ∀ q l q', AllOrdinary q → RoomStep q l q' → AllOrdinary q' := fun _ _ _ => allOrdinary_step
  exact h.invariant (fun _ => allOrdinary_init) hstep

end Chinwag.Rooms

import Chinwag.Rooms.System
import Chinwag.Rooms.Handlers

/-!
# Requests one after the other

What an operation comes to when no other runs beside it: between its commands only time passes,
so what a check has read still holds at the write.
-/
namespace Chinwag.Rooms

open Program Auth

/-- Time has passed. -/
structure Later (s t : RoomState) : Prop where
  tables : t.tables = s.tables
  drafts : t.drafts = s.drafts
  cache : t.cache = s.cache
  drawn : t.drawn = s.drawn
  found : t.found = s.found
  admissions : t.admissions = s.admissions
  now : s.now ≤ t.now

variable {s t u : RoomState} {α β : Type} {w : Write}

theorem Later.refl (s : RoomState) : Later s s := ⟨rfl, rfl, rfl, rfl, rfl, rfl, Nat.le_refl _⟩

/-- A link that is found was there before. -/
theorem Later.lookup (h : Later s t) {key : String} {data : InviteLinkData} (hfound : t.lookup key = some data) :
    s.lookup key = some data := by
  unfold RoomState.lookup at hfound ⊢
  rw [h.cache] at hfound
  obtain ⟨e, he, rfl⟩ := Option.map_eq_some_iff.mp hfound
  obtain ⟨he, hlive⟩ := Option.filter_eq_some_iff.mp he
  refine Option.map_eq_some_iff.mpr ⟨e, Option.filter_eq_some_iff.mpr ⟨he, ?_⟩, rfl⟩
  unfold CacheEntry.isLive at hlive ⊢
  cases hexp : e.expireAt with
  | none => rfl
  | some at_ =>
    rw [hexp] at hlive
    exact decide_eq_true (Nat.le_trans h.now (of_decide_eq_true hlive))

/-- The tables an operation may leave behind. -/
abbrev Ends (P : RoomTables → Prop) (p : RoomProg α) (s : RoomState) : Prop :=
  Solo (Exec 0) Later (fun _ t => P t.tables) p s

variable {P : RoomTables → Prop}

theorem ends_bind {p : RoomProg α} {f : α → RoomProg β} (h : Ends P p s)
    (hf : ∀ a t, P t.tables → Ends P (f a) t) : Ends P (p >>= f) s :=
  Solo.bind h hf

/-- A row that was read is in the tables. -/
theorem solo_read (q : Query) : Solo (Exec 0) Later
    (fun r t => Later s t ∧ ∀ row, r = .ok row → s.tables.answer q = .ok row) (read q) s := by
  intro s₁ hd r s₂ he
  cases he with
  | read =>
    have hsame := hd.tables
    cases hanswer : s₁.tables.answer q with
    | error e => exact ⟨hd, nofun⟩
    | ok row =>
      refine ⟨hd, ?_⟩
      rintro _ ⟨⟩
      rw [← hsame]
      exact hanswer
  | readFailed => exact ⟨hd, nofun⟩

theorem ends_affect {missing : AppError} (hsame : P s.tables)
    (hwrite : ∀ now t n, w.apply now s.tables = .ok (t, n) → P t) : Ends P (affect missing w) s := by
  intro s₁ hd r s₂ he
  have hkept : P s₁.tables := by
    rw [hd.tables]
    exact hsame
  cases he with
  | @write _ _ _ n h =>
    rw [hd.tables] at h
    cases n <;> exact hwrite _ _ _ h
  | writeRefused => exact hkept
  | writeFailed => exact hkept
  | writeLost h =>
    rw [hd.tables] at h
    exact hwrite _ _ _ h

theorem ends_respond {p : RoomProg (Result α)} {ok : α → Response} (h : Ends P p s) :
    Ends P (respond p ok) s := by
  refine ends_bind h fun r t ht => ?_
  cases r <;> exact ht

theorem ends_unlessPopped {roomId : Uuid} {next : Room → RoomProg (Result α)} (hsame : P s.tables)
    (h : ∀ room t, Later s t → s.tables.getRoomById roomId = .ok room → room.poppedAt = none →
      Ends P (next room) t) : Ends P (unlessPopped roomId next) s := by
  refine Solo.bind (solo_read _) fun r t ⟨hlater, hread⟩ => ?_
  have hkept : P t.tables := by
    rw [hlater.tables]
    exact hsame
  cases r with
  | error e => exact hkept
  | ok room =>
    dsimp only
    split
    · exact hkept
    · next hpop => exact h room t hlater (hread room rfl) (Option.not_isSome_iff_eq_none.mp hpop)

/-- An active member of the room with the room role `ADMIN`. -/
def Manages (t : RoomTables) (userId roomId : Uuid) : Prop :=
  ∃ m, t.members.find (roomId, userId) = some m ∧ m.leftAt = none ∧ m.role = Role.ADMIN

theorem getMember_ok {t : RoomTables} {roomId userId : Uuid} {m : RoomMember}
    (h : t.getMemberByRoomIdAndMemberId roomId userId = .ok m) :
    t.members.find (roomId, userId) = some m ∧ m.leftAt = none := by
  unfold RoomTables.getMemberByRoomIdAndMemberId at h
  split at h
  · next m' hfind =>
    split at h
    · next hactive =>
      obtain rfl := Except.ok.inj h
      exact ⟨hfind, Option.isNone_iff_eq_none.mp hactive⟩
    · cases h
  · cases h

theorem getRoom_ok {t : RoomTables} {roomId : Uuid} {r : Room} (h : t.getRoomById roomId = .ok r) :
    t.rooms.find roomId = some r ∧ r.deletedAt = none := by
  unfold RoomTables.getRoomById at h
  split at h
  · next r' hfind =>
    split at h
    · next hlive =>
      obtain rfl := Except.ok.inj h
      exact ⟨hfind, Option.isNone_iff_eq_none.mp hlive⟩
    · cases h
  · cases h

theorem getRoom_congr {t t' : RoomTables} {roomId : Uuid} (h : t'.rooms.find roomId = t.rooms.find roomId) :
    t'.getRoomById roomId = t.getRoomById roomId := by
  unfold RoomTables.getRoomById
  rw [h]

theorem solo_hasManagerPermission (userId roomId : Uuid) : Solo (Exec 0) Later
    (fun r t => Later s t ∧ (r = .ok true → Manages s.tables userId roomId)) (hasManagerPermission userId roomId) s := by
  refine Solo.bind (solo_read _) fun r t ⟨hlater, hread⟩ => ?_
  cases r with
  | error e => exact ⟨hlater, nofun⟩
  | ok m =>
    refine ⟨hlater, fun h => ?_⟩
    obtain ⟨hfind, hactive⟩ := getMember_ok (hread m rfl)
    exact ⟨m, hfind, hactive, beq_iff_eq.mp (Except.ok.inj h)⟩

theorem ends_ifManager {check : RoomProg (Result Bool)} {next : RoomProg Response} {ok : Prop}
    (hcheck : Solo (Exec 0) Later (fun r t => Later s t ∧ (r = .ok true → ok)) check s) (hsame : P s.tables)
    (h : ∀ t, Later s t → ok → Ends P next t) : Ends P (ifManager check next) s := by
  refine Solo.bind hcheck fun r t ⟨hlater, hok⟩ => ?_
  have hkept : P t.tables := by
    rw [hlater.tables]
    exact hsame
  rcases r with e | _ | _
  · exact hkept
  · exact hkept
  · exact h t hlater (hok rfl)

theorem ends_withId {text message : String} {status : Nat} {next : Uuid → RoomProg Response} (hsame : P s.tables)
    (h : ∀ id, Uuid.parse text = some id → Ends P (next id) s) : Ends P (withId text status message next) s := by
  unfold withId
  split
  · exact hsame
  · next id hid => exact h id hid

theorem ends_withBody {body : Except String α} {next : α → RoomProg Response} (hsame : P s.tables)
    (h : ∀ a, body = .ok a → Ends P (next a) s) : Ends P (withBody body next) s := by
  cases body with
  | error e => exact hsame
  | ok a => exact h a rfl

/-- The rows a creation for this owner has inserted so far. -/
def OwnedBy (ownerId : Uuid) (d : Draft) : Prop :=
  d.room.ownerId = ownerId ∧ ∀ m, d.owner = some m → m.userId = ownerId

theorem solo_insertWithOwner {room : Room} (hempty : s.drafts 0 = none) : Solo (Exec 0) Later
    (fun _ t => t.tables = s.tables ∧ ∀ d, t.drafts 0 = some d → OwnedBy room.ownerId d) (insertWithOwner room) s := by
  intro s₁ h₁ r s₂ he
  cases he with
  | insertRoomFailed =>
    refine ⟨h₁.tables, fun d hd => ?_⟩
    rw [h₁.drafts, hempty] at hd
    cases hd
  | insertRoom =>
    intro s₃ h₃ r s₄ he
    have hdraft : s₃.drafts 0 = some (room.draft s₁.now) := by
      rw [h₃.drafts, RoomState.drafts_setDraft_self]
    have htables : s₃.tables = s.tables := h₃.tables.trans h₁.tables
    cases he with
    | insertOwnerFailed =>
      refine ⟨htables, fun d hd => ?_⟩
      obtain rfl := Option.some.inj (hdraft.symm.trans hd)
      exact ⟨rfl, nofun⟩
    | @insertOwner _ _ d hd _ hroom =>
      refine ⟨htables, fun d' hd' => ?_⟩
      obtain rfl := Option.some.inj (hdraft.symm.trans hd)
      rw [RoomState.drafts_setDraft_self] at hd'
      obtain rfl := Option.some.inj hd'
      refine ⟨rfl, ?_⟩
      rintro _ ⟨⟩
      rfl

theorem ends_creation {room : Room} (hsame : P s.tables) (hcreate : ∀ (d : Draft) (hfree : s.tables.rooms.find d.room.id = none),
      OwnedBy room.ownerId d → P (s.tables.create d hfree)) : Ends P (unitOfWork (insertWithOwner room)) s := by
  intro s₁ h₁ r s₂ he
  have hkept : ∀ {t : RoomState}, t.tables = s.tables → P t.tables := by
    intro t ht
    rw [ht]
    exact hsame
  cases he with
  | beginFailed => exact hkept h₁.tables
  | begin =>
    refine (solo_insertWithOwner (RoomState.drafts_setDraft_self s₁ 0 none)).bind fun r t ⟨ht, howned⟩ => ?_
    have htables : t.tables = s.tables := ht.trans h₁.tables
    cases r with
    | error e =>
      intro t₁ h₁ r t₂ he
      cases he
      exact hkept (h₁.tables.trans htables)
    | ok _ =>
      intro t₁ h₁ r t₂ he
      have hcommit : ∀ (d : Draft) (hfree : t₁.tables.rooms.find d.room.id = none), t₁.drafts 0 = some d →
          P (t₁.tables.create d hfree) := by
        rw [h₁.drafts, h₁.tables, htables]
        exact fun d hfree hd => hcreate d hfree (howned d hd)
      cases he with
      | commit hd hfree => exact hcommit _ hfree hd
      | commitFailed => exact hkept (h₁.tables.trans htables)
      | commitLost hd hfree => exact hcommit _ hfree hd

section Faultless

/-- How the shared state answers while nothing fails and every user exists. -/
inductive Answers (i : Nat) : (c : RoomCmd) → RoomState → RoomReply c → RoomState → Prop where
  | newV7 {s : RoomState} {id : Uuid} (fresh : id ∉ s.drawn) (free : s.tables.rooms.find id = none) :
      Answers i .newV7 s id (s.draw id)
  | new {s : RoomState} {id : Uuid} (fresh : id ∉ s.drawn) (free : s.cache (inviteKeyPrefix ++ id.toText) = none) :
      Answers i .new s id (s.draw id)
  | now (s : RoomState) : Answers i .now s s.now s
  | read (s : RoomState) (q : Query) : Answers i (.read q) s (s.tables.answer q) s
  | write {s : RoomState} {w : Write} {t : RoomTables} {n : Nat} (h : w.apply s.now s.tables = .ok (t, n)) :
      Answers i (.write w) s (.ok n) (s.store i w t)
  | writeRefused {s : RoomState} {w : Write} {e : DbError} (h : w.apply s.now s.tables = .error e) :
      Answers i (.write w) s (.error e) s
  | cacheMiss {s : RoomState} {key : String} (h : s.lookup key = none) : Answers i (.cacheGet key) s none s
  | cacheHit {s : RoomState} {key : String} {data : InviteLinkData} (h : s.lookup key = some data) :
      Answers i (.cacheGet key) s (some data) (s.find i key data)
  | cacheSet (s : RoomState) (key : String) (data : InviteLinkData) (ttl : Int) :
      Answers i (.cacheSet key data ttl) s true (s.setCache key (some ⟨data, cacheExpiry s.now ttl⟩))
  | cacheDelete (s : RoomState) (key : String) : Answers i (.cacheDelete key) s true (s.setCache key none)
  | getUser (s : RoomState) (id : String) (user : UserInfo) : Answers i (.getUser id) s (some user) s

variable {i : Nat} {drift : RoomState → RoomState → Prop} {k : Uuid} {room : Room} {t : RoomTables} {n : Nat}

theorem Answers.exec {c : RoomCmd} {s t : RoomState} {r : RoomReply c} (h : Answers i c s r t) : Exec i c s r t := by
  cases h with
  | newV7 fresh free => exact .newV7 fresh free
  | new fresh free => exact .new fresh free
  | now => exact .now _
  | read => exact .read _ _
  | write h => exact .write h
  | writeRefused h => exact .writeRefused h
  | cacheMiss h => exact .cacheMiss h
  | cacheHit h => exact .cacheHit h
  | cacheSet => exact .cacheSet _ _ _ _ _
  | cacheDelete => exact .cacheDelete _ _ _
  | getUser => exact .getUser _ _ _

theorem Answers.alone {p : RoomProg α} {r : α} {u : RoomState} (h : Alone (Answers i) drift p s r u) :
    Alone (Exec i) drift p s r u :=
  h.mono fun _ _ _ _ => Answers.exec

theorem alone_affect (hdrift : ∀ s, drift s s) (missing : AppError) (happly : w.apply s.now s.tables = .ok (t, n)) :
    ∃ r, Alone (Answers i) drift (affect missing w) s r (s.store i w t) ∧ (0 < n → r = .ok ()) := by
  cases n with
  | zero => exact ⟨_, .call (hdrift s) (.write happly) (.ret _ _), nofun⟩
  | succ n => exact ⟨_, .call (hdrift s) (.write happly) (.ret _ _), fun _ => rfl⟩

theorem alone_read (hdrift : ∀ s, drift s s) (q : Query) :
    Alone (Answers i) drift (read q) s ((s.tables.answer q).mapError .db) s := by
  refine .call (hdrift s) (.read s q) ?_
  cases s.tables.answer q <;> exact .ret _ _

theorem alone_unlessPopped (hdrift : ∀ s, drift s s) {next : Room → RoomProg (Result α)} {r : Result α} {u : RoomState}
    (hroom : s.tables.getRoomById k = .ok room) (hpop : room.poppedAt = none)
    (h : Alone (Answers i) drift (next room) s r u) : Alone (Answers i) drift (unlessPopped k next) s r u := by
  refine (alone_read hdrift (.getRoomById k)).bind ?_
  rw [show s.tables.answer (.getRoomById k) = .ok room from hroom]
  dsimp only [Except.mapError]
  rw [hpop]
  exact h

theorem solo_answers_read (hdrift : ∀ t, drift s t → t.tables = s.tables) (q : Query) : Solo (Answers i) drift
    (fun r t => drift s t ∧ r = (s.tables.answer q).mapError .db) (read q) s := by
  intro s₁ hd r s₂ ha
  cases ha with
  | read =>
    rw [hdrift s₁ hd]
    cases s.tables.answer q <;> exact ⟨hd, rfl⟩

theorem solo_answers_unlessPopped {Q : Result α → RoomState → Prop} {next : Room → RoomProg (Result α)}
    (hdrift : ∀ t, drift s t → t.tables = s.tables) (hroom : s.tables.getRoomById k = .ok room)
    (hpop : room.poppedAt = none) (h : ∀ t, drift s t → Solo (Answers i) drift Q (next room) t) :
    Solo (Answers i) drift Q (unlessPopped k next) s := by
  refine (solo_answers_read hdrift (.getRoomById k)).bind fun r t ⟨ht, hr⟩ => ?_
  rw [show s.tables.answer (.getRoomById k) = .ok room from hroom] at hr
  subst hr
  dsimp only [Except.mapError]
  rw [hpop]
  exact h t ht

/-- An insertion into an open room goes through exactly if the pair has no row. -/
theorem addMember_ok {m : NewMember} {t : RoomTables} (now : Nat) (hopen : t.hasRoom Room.isOpen m.roomId = true) :
    (∃ t', (Write.addMember m).apply now t = .ok (t', 1)) ↔
      m.role.Fits ∧ t.members.find (m.roomId, m.userId) = none := by
  show (∃ t', t.insertMember Room.isOpen m now = .ok (t', 1)) ↔ _
  unfold RoomTables.insertMember
  split
  · next hrole =>
    split
    · next hfree => exact ⟨fun _ => ⟨hrole, hfree⟩, fun _ => ⟨_, rfl⟩⟩
    · next hused =>
      refine iff_of_false ?_ fun h => hused h.2
      intro hok
      obtain ⟨_, h⟩ := hok
      cases h
  · next hrole =>
    refine iff_of_false ?_ fun h => hrole h.1
    intro hok
    obtain ⟨_, h⟩ := hok
    cases h

theorem addMember_affects {m : NewMember} {t t' : RoomTables} {now : Nat}
    (hopen : t.hasRoom Room.isOpen m.roomId = true) (h : (Write.addMember m).apply now t = .ok (t', n)) : n = 1 := by
  have hinsert : t.insertMember Room.isOpen m now = .ok (t', n) := h
  unfold RoomTables.insertMember at hinsert
  split at hinsert
  · split at hinsert
    · exact (congrArg Prod.snd (Except.ok.inj hinsert)).symm
    · cases hinsert
  · cases hinsert

theorem hasRoom_open (hroom : t.getRoomById k = .ok room) (hpop : room.poppedAt = none) :
    t.hasRoom Room.isOpen k = true := by
  obtain ⟨hfind, hlive⟩ := getRoom_ok hroom
  unfold RoomTables.hasRoom Room.isOpen
  rw [hfind, Option.any_some, hpop, hlive]
  rfl

theorem alone_inviteUser (hdrift : ∀ s, drift s s) {member : RoomUser}
    (hroom : s.tables.getRoomById member.roomId = .ok room) (hpop : room.poppedAt = none)
    (happly : (Write.addMember member.newMember).apply s.now s.tables = .ok (t, 1)) :
    Alone (Answers i) drift (inviteUser member) s (.ok ()) (s.store i (.addMember member.newMember) t) := by
  obtain ⟨r, haffect, hr⟩ := alone_affect (i := i) hdrift errConflict happly
  obtain rfl := hr Nat.one_pos
  exact alone_unlessPopped hdrift hroom hpop haffect

end Faultless

end Chinwag.Rooms

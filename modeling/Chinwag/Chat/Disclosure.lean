import Chinwag.Chat.Authorship
import Chinwag.Chat.CacheCoherence

/-!
# Who is shown a message

The query service beside the room service. The projection and the cache change all the time, and so do
the members of a room; what a call was told of the members is kept in a record.
-/
namespace Chinwag.Query

open Chat Program Rfc3339 Transition
open Rooms (RoomPool RoomLabel RoomStep RoomTables)

/-- `GET /rooms/:id/members` as the adapter reads it: whoever is listed is in the room. -/
def AnswersMembers (t : RoomTables) : (c : QueryCmd) → QueryReply c → Prop
  | .getMembersByRoomId roomId, .ok members => ∀ user ∈ members, ∃ k row, Uuid.parse roomId = some k ∧
      row ∈ t.getMembersByRoomId k ∧ user = row.userId.toText
  | _, _ => True

/-- One reply to a lookup of members: to whom, of which room, and who is in it. -/
structure Told where
  thread : Nat
  roomId : String
  members : List String

def toldBy (i : Nat) : (c : QueryCmd) → QueryReply c → List Told
  | .getMembersByRoomId roomId, .ok members => [⟨i, roomId, members⟩]
  | _, _ => []

/-- The two services. No command reads what is on record: the tables the projection has been, and what
calls were told of members. -/
structure Readers where
  query : QueryState
  rooms : RoomPool
  past : List Projections
  told : List Told

structure Readers.Exec (i : Nat) (c : QueryCmd) (s : Readers) (r : QueryReply c) (s' : Readers) : Prop where
  query : Query.Exec c s.query r s'.query
  answer : AnswersMembers s.rooms.shared.tables c r
  rooms : s'.rooms = s.rooms
  past : s'.past = s.past
  told : s'.told = s.told ++ toldBy i c r

inductive Readers.Around (s : Readers) : QueryEvent ⊕ RoomLabel → Readers → Prop where
  | query {e : QueryEvent} {q : QueryState} (h : Query.Around s.query e q) :
      Around s (.inl e) { s with query := q, past := s.query.projections :: s.past }
  | rooms {l : RoomLabel} {q : RoomPool} (h : RoomStep s.rooms l q) : Around s (.inr l) { s with rooms := q }

def readersSemantics : Semantics Readers (QueryEvent ⊕ RoomLabel) QueryCmd QueryReply where
  exec := Readers.Exec
  env := Readers.Around

abbrev ReadersPool := Pool Readers QueryCmd QueryReply Outcome

abbrev ReadersLabel := Label (QueryEvent ⊕ RoomLabel) QueryCmd QueryReply Outcome

abbrev ReadersStep : ReadersPool → ReadersLabel → ReadersPool → Prop :=
  Step readersSemantics fun p => ∃ call, p = serve call

/-- Nothing is on record; what is cached is what the projection has. -/
structure ReadersInit (pool : ReadersPool) : Prop where
  threads : pool.threads = []
  coherent : Coherent pool.shared.query
  told : pool.shared.told = []
  past : pool.shared.past = []

/-- All of a response but the time of its last edit. -/
def MessageResponse.body (resp : MessageResponse) : MessageResponse := { resp.printed with updatedAt := none }

/-- The repository has given this row under this id. -/
def Shown (s : Readers) (id : Uuid) (row : MessageProjection) : Prop :=
  ∃ p ∈ s.query.projections :: s.past, liveRow p id = some row

/-- The hash is that of the row, whatever it says of the last edit. -/
def HashOf (fields : Hash) (row : MessageProjection) : Prop :=
  ∀ name, name ≠ "updated_at" → fields name = responseToHash (toResponse row) name

/-- What is cached was a row once. -/
def CachedRows (s : Readers) : Prop :=
  ∀ id fields, s.query.cache id = some fields → ∃ row, Shown s id row ∧ HashOf fields row

/-- Thread `i` was told that the user is a member of the room. -/
def IsTold (i : Nat) (userId : Uuid) (roomId : String) (s : Readers) : Prop :=
  ∃ members, ⟨i, roomId, members⟩ ∈ s.told ∧ userId.toText ∈ members

def readersContract : Contract Readers QueryCmd where
  inv := CachedRows
  rely _ s t :=
    (∀ p ∈ s.query.projections :: s.past, p ∈ t.query.projections :: t.past) ∧ ∀ l ∈ s.told, l ∈ t.told
  guar _ c s := ∀ id fields, c = .hset id fields → ∃ row, Shown s id row ∧ fields = responseToHash (toResponse row)

section Steps

variable {s t : Readers} {id : Uuid} {row row' : MessageProjection} {fields old : Hash} {i : Nat} {userId : Uuid}
  {roomId : String} {resp : MessageResponse}

theorem Shown.later (hp : ∀ p ∈ s.query.projections :: s.past, p ∈ t.query.projections :: t.past)
    (h : Shown s id row) : Shown t id row := by
  obtain ⟨p, hmem, hrow⟩ := h
  exact ⟨p, hp p hmem, hrow⟩

theorem IsTold.later (ht : ∀ l ∈ s.told, l ∈ t.told) (h : IsTold i userId roomId s) :
    IsTold i userId roomId t := by
  obtain ⟨members, hmem, hin⟩ := h
  exact ⟨members, ht _ hmem, hin⟩

/-- Two responses are hashed under the same names, but for the last edit. -/
theorem hashed_names {a b : MessageResponse} {name : String} (hname : name ≠ "updated_at")
    (h : responseToHash a name = none) : responseToHash b name = none := by
  unfold responseToHash at h ⊢
  split at h
  · cases h
  · cases h
  · cases h
  · cases h
  · cases h
  · cases h
  · cases h
  · exact absurd rfl hname
  · rfl

/-- Of two rows merged in a hash the later one is left. -/
theorem hashOf_merge (h : HashOf old row) : HashOf (mergeFields (responseToHash (toResponse row')) (some old)) row' := by
  intro name hname
  show (responseToHash (toResponse row') name).or (old name) = _
  cases hfield : responseToHash (toResponse row') name with
  | some value => rfl
  | none =>
    rw [Option.none_or, h name hname]
    exact hashed_names hname hfield

theorem cachedRows_store (h : CachedRows s) (hshown : Shown s id row)
    (ht : ∀ p ∈ s.query.projections :: s.past, p ∈ t.query.projections :: t.past)
    (hquery : t.query = s.query.store id (responseToHash (toResponse row))) : CachedRows t := by
  intro other fields hfields
  rw [hquery] at hfields
  by_cases heq : other = id
  · subst heq
    refine ⟨row, hshown.later ht, ?_⟩
    rw [cache_store] at hfields
    rw [← Option.some.inj hfields]
    cases hold : s.query.cache other with
    | none => exact fun _ _ => rfl
    | some old =>
      obtain ⟨row', -, hhash⟩ := h other old hold
      exact hashOf_merge hhash
  · rw [cache_store_of_ne heq] at hfields
    obtain ⟨row', hrow', hhash⟩ := h other fields hfields
    exact ⟨row', hrow'.later ht, hhash⟩

theorem CachedRows.same (h : CachedRows s)
    (ht : ∀ p ∈ s.query.projections :: s.past, p ∈ t.query.projections :: t.past)
    (hcache : ∀ id fields, t.query.cache id = some fields → s.query.cache id = some fields) : CachedRows t := by
  intro id fields hfields
  obtain ⟨row, hrow, hhash⟩ := h id fields (hcache id fields hfields)
  exact ⟨row, hrow.later ht, hhash⟩

/-- What is read from the hash of a row is the row, but for the last edit. -/
theorem body_of_hash (h : HashOf fields row) (hresp : hashToResponse fields = some resp) :
    resp.body = (toResponse row).body := by
  have hid : fields "id" = some row.id.toText := h "id" (by decide)
  have hroom : fields "room_id" = some row.roomId.toText := h "room_id" (by decide)
  have hauthor : fields "author_id" = some row.authorId.toText := h "author_id" (by decide)
  have hname : fields "author_name" = some row.authorName := h "author_name" (by decide)
  have htype : fields "message_type" = some (toString (toResponse row).messageType) := h "message_type" (by decide)
  have hcontent : fields "content" = some row.content := h "content" (by decide)
  have hcreated : fields "created_at" = some (format row.createdAt) := h "created_at" (by decide)
  unfold hashToResponse at hresp
  dsimp only at hresp
  split at hresp
  · cases hresp
  · simp only [Option.bind_eq_bind, Option.bind_eq_some_iff, Option.pure_def, Option.some.injEq] at hresp
    obtain ⟨messageType, hmessageType, createdAt, hcreatedAt, updatedAt, -, rfl⟩ := hresp
    rw [htype] at hmessageType
    rw [hcreated] at hcreatedAt
    have hmessageType : messageType = (toResponse row).messageType := parseInt16_toString hmessageType
    have hcreatedAt : createdAt = row.createdAt.printed := parse_format hcreatedAt
    subst hmessageType hcreatedAt
    have hprinted := congrArg MessageResponse.createdAt (MessageResponse.printed_printed (toResponse row))
    simp only [MessageResponse.body, MessageResponse.printed, hid, hroom, hauthor, hname, hcontent, Option.getD_some]
    exact congrArg (fun time => { (toResponse row) with createdAt := time, updatedAt := none }) hprinted

theorem Exec.tables {c : QueryCmd} {r : QueryReply c} {q q' : QueryState} (h : Query.Exec c q r q') :
    q'.projections = q.projections := by
  cases h <;> rfl

/-- Everything a command of the service leaves is still on record. -/
theorem Readers.Exec.keeps {c : QueryCmd} {r : QueryReply c} (h : Readers.Exec i c s r t) :
    (∀ p ∈ s.query.projections :: s.past, p ∈ t.query.projections :: t.past) ∧ ∀ l ∈ s.told, l ∈ t.told := by
  refine ⟨fun p hp => ?_, fun l hl => ?_⟩
  · rw [h.past, h.query.tables]
    exact hp
  · rw [h.told]
    exact List.mem_append_left _ hl

theorem readersContract_sound : readersContract.Sound readersSemantics where
  rely_refl _ _ := ⟨fun _ h => h, fun _ h => h⟩
  rely_trans _ _ _ _ h h' := ⟨fun p hp => h'.1 p (h.1 p hp), fun l hl => h'.2 l (h.2 l hl)⟩
  env s e t hs he := by
    cases he with
    | @query e q h =>
      have hkeep : ∀ p ∈ s.query.projections :: s.past, p ∈ q.projections :: s.query.projections :: s.past :=
        fun p hp => List.mem_cons_of_mem _ hp
      refine ⟨hs.same hkeep fun id fields hfields => ?_, fun _ => ⟨hkeep, fun _ h => h⟩⟩
      cases h with
      | deliver => exact hfields
      | expire other =>
        by_cases heq : id = other
        · subst heq
          have hnone : (s.query.expire id).cache id = none := cache_expire s.query id
          rw [hnone] at hfields
          cases hfields
        · exact (cache_expire_of_ne heq).symm.trans hfields
    | rooms h => exact ⟨hs.same (fun _ hp => hp) fun _ _ h => h, fun _ => ⟨fun _ hp => hp, fun _ h => h⟩⟩
  cmd i c s r t hs hguar hexec := by
    have hkeep := hexec.keeps
    refine ⟨?_, fun _ _ => hkeep⟩
    have hquery := hexec.query
    generalize ht : t.query = q at hquery
    cases hquery with
    | hset id fields | hsetLost id fields =>
      obtain ⟨row, hshown, rfl⟩ := hguar id fields rfl
      exact cachedRows_store hs hshown hkeep.1 ht
    | _ => exact hs.same hkeep.1 fun id fields hfields => by rwa [ht] at hfields

end Steps

/-- The user was told the message by thread `i`: a row there was under that id, in a room of whose members the
thread had been told that the user is one. -/
def MayRead (i : Nat) (userId id : Uuid) (resp : MessageResponse) (s : Readers) : Prop :=
  ∃ row, Shown s id row ∧ resp.body = (toResponse row).body ∧ IsTold i userId row.roomId.toText s

/-- What a call answers. -/
def Given (i : Nat) (outcome : Outcome) (s : Readers) : Prop :=
  (∀ id userId resp, outcome = .message id userId (.ok resp) → MayRead i userId id resp s) ∧
  ∀ userId req msgs next, outcome = .listed userId req (.ok (msgs, next)) →
    ∀ resp ∈ msgs, ∃ id, MayRead i userId id resp s

section Calls

variable {s t : Readers} {i : Nat} {id userId messageId : Uuid} {roomId : String} {resp : MessageResponse} {α : Type}

abbrev SafeRead (i : Nat) {α : Type} (Q : α → Readers → Prop) (p : QueryProg α) (s : Readers) : Prop :=
  Safe readersSemantics readersContract i Q p s

theorem MayRead.later (h : MayRead i userId id resp s) (hr : readersContract.rely i s t) :
    MayRead i userId id resp t := by
  obtain ⟨row, hshown, hbody, htold⟩ := h
  exact ⟨row, hshown.later hr.1, hbody, htold.later hr.2⟩

theorem stable_given : readersContract.Stable Given := fun _ _ _ _ h hr =>
  ⟨fun id userId resp ho => (h.1 id userId resp ho).later hr, fun userId req msgs next ho resp hresp => by
    obtain ⟨id, hmay⟩ := h.2 userId req msgs next ho resp hresp
    exact ⟨id, hmay.later hr⟩⟩

theorem told_of_check {reply : Except Unit (List String)} {a b : α}
    (hexec : Readers.Exec i (.getMembersByRoomId roomId) s reply t) (h : checkMember userId reply a = .ok b) :
    b = a ∧ IsTold i userId roomId t := by
  unfold checkMember at h
  split at h
  · cases h
  · rename_i members
    split at h
    · refine ⟨(Except.ok.inj h).symm, members, ?_, ‹_›⟩
      rw [hexec.told]
      exact List.mem_append_right _ (List.mem_singleton_self _)
    · cases h

/-- A call that asks for the members of a room knows whom it may answer. -/
theorem safe_members (userId : Uuid) {Q : α → Readers → Prop} {next : Except Unit (List String) → QueryProg α}
    (hnext : ∀ reply t, (∀ p ∈ s.query.projections :: s.past, p ∈ t.query.projections :: t.past) →
      (∀ {β : Type} (a b : β), checkMember userId reply a = .ok b → b = a ∧ IsTold i userId roomId t) →
      SafeRead i Q (next reply) t) :
    SafeRead i Q (.call (.getMembersByRoomId roomId) next) s := by
  rintro s₁ - ⟨hrely, -⟩
  refine ⟨(fun _ _ h => nomatch h), fun reply s₂ hexec _ => ?_⟩
  exact hnext reply s₂ (fun p hp => hexec.keeps.1 p (hrely p hp)) fun a b h => told_of_check hexec h

/-- A row that was shown is cached. -/
theorem safe_hset {Q : α → Readers → Prop} {row : MessageProjection} {next : Except CacheError Unit → QueryProg α}
    (hshown : Shown s id row)
    (hnext : ∀ reply t, readersContract.rely i s t → SafeRead i Q (next reply) t) :
    SafeRead i Q (.call (.hset id (responseToHash (toResponse row))) next) s := by
  rintro s₁ - ⟨hrely, htold⟩
  refine ⟨?_, fun reply s₂ hexec _ => ?_⟩
  · rintro _ _ ⟨⟩
    exact ⟨row, hshown.later hrely, rfl⟩
  · have hkeep := hexec.keeps
    exact hnext reply s₂ ⟨fun p hp => hkeep.1 p (hrely p hp), fun l hl => hkeep.2 l (htold l hl)⟩

theorem safe_getMessage : SafeRead i (fun r t => ∀ b, r = .ok b → MayRead i userId messageId b t)
    (getMessage messageId userId) s := by
  rintro s₁ hinv -
  refine ⟨(by rintro _ _ ⟨⟩), fun got s₂ hexec _ => ?_⟩
  have hkeep := hexec.keeps.1
  cases hcached : cachedResponse got with
  | some msg =>
    obtain ⟨fields, rfl, hmsg⟩ := cachedResponse_eq_some hcached
    have hfields : s₁.query.cache messageId = some fields := by
      rcases exec_hgetAll hexec.query with heq | ⟨e, heq⟩
      · exact (Except.ok.inj heq).symm
      · cases heq
    obtain ⟨row, hshown, hhash⟩ := hinv messageId fields hfields
    have hbody := body_of_hash hhash hmsg
    have hroom : msg.roomId = row.roomId.toText := congrArg MessageResponse.roomId hbody
    simp only [Prog.bind, hcached]
    refine safe_members userId fun reply t htables hcheck b hb => ?_
    obtain ⟨rfl, htold⟩ := hcheck _ _ hb
    rw [hroom] at htold
    exact ⟨row, (hshown.later hkeep).later htables, hbody, htold⟩
  | none =>
    simp only [Prog.bind, hcached]
    rintro s₃ - -
    refine ⟨(by rintro _ _ ⟨⟩), fun got s₄ hexec' _ => ?_⟩
    cases got with
    | error e => rintro _ ⟨⟩
    | ok row =>
      have hlive : liveRow s₃.query.projections messageId = some row := by
        rcases exec_getById hexec'.query with ⟨row', heq, hlive⟩ | ⟨heq, -⟩ | heq
        · rw [Except.ok.inj heq]
          exact hlive
        · cases heq
        · cases heq
      have hshown : Shown s₄ messageId row :=
        Shown.later hexec'.keeps.1 ⟨_, List.mem_cons_self, hlive⟩
      refine safe_members userId fun reply t htables hcheck => ?_
      simp only [Prog.bind]
      cases hchecked : checkMember userId reply (toResponse row) with
      | error e => rintro _ ⟨⟩
      | ok resp =>
        obtain ⟨rfl, htold⟩ := hcheck _ _ hchecked
        have hmay : MayRead i userId messageId (toResponse row) t := ⟨row, hshown.later htables, rfl, htold⟩
        refine safe_hset (hshown.later htables) fun reply u hr b hb => ?_
        rw [← Except.ok.inj hb]
        exact hmay.later hr

theorem safe_cacheAll {msgs : List MessageProjection} (hmsgs : ∀ msg ∈ msgs, Shown s msg.id msg) :
    SafeRead i (fun result t => readersContract.rely i s t ∧ result = msgs.map toResponse) (cacheAll msgs) s := by
  induction msgs generalizing s with
  | nil => exact ⟨readersContract_sound.rely_refl i s, rfl⟩
  | cons msg msgs ih =>
    refine safe_hset (hmsgs msg List.mem_cons_self) fun reply t hr => ?_
    have hrest : ∀ msg ∈ msgs, Shown t msg.id msg :=
      fun msg hmsg => (hmsgs msg (List.mem_cons_of_mem _ hmsg)).later hr.1
    refine (ih hrest).bind fun result u hu => ⟨readersContract_sound.rely_trans i s t u hr hu.1, ?_⟩
    rw [hu.2]
    rfl

theorem rows_list {q q' : QueryState} {room : Uuid} {cursor : String} {limit : Int} {msgs : List MessageProjection}
    {next : Option CursorMeta} (h : Exec (.listByRoomId room cursor limit) q (.ok (msgs, next)) q') :
    ∀ msg ∈ msgs, liveRow q.projections msg.id = some msg ∧ msg.roomId = room := by
  cases h with
  | list hmsgs => exact hmsgs

theorem rows_listAfter {q q' : QueryState} {room : Uuid} {after : String} {limit : Int} {msgs : List MessageProjection}
    (h : Exec (.listAfterByRoomId room after limit) q (.ok msgs) q') :
    ∀ msg ∈ msgs, liveRow q.projections msg.id = some msg ∧ msg.roomId = room := by
  cases h with
  | listAfter hmsgs => exact hmsgs

/-- The rows of the room that were read are cached and answered. -/
theorem safe_answerAll {room : Uuid} {msgs : List MessageProjection} {next : Option CursorMeta}
    (hmsgs : ∀ msg ∈ msgs, Shown s msg.id msg ∧ msg.roomId = room) (htold : IsTold i userId room.toText s) :
    SafeRead i
      (fun r t => ∀ resps cursor, r = .ok (resps, cursor) → ∀ resp ∈ resps, ∃ id, MayRead i userId id resp t)
      (cacheAll msgs >>= fun result => .ret (.ok (result, next)) :
        QueryProg (Except QueryError (List MessageResponse × Option CursorMeta))) s := by
  refine (safe_cacheAll fun msg hmsg => (hmsgs msg hmsg).1).bind fun result t ht resps cursor heq resp hresp => ?_
  obtain ⟨hr, rfl⟩ := ht
  obtain ⟨rfl, rfl⟩ := Prod.mk.inj (Except.ok.inj heq)
  obtain ⟨msg, hmsg, rfl⟩ := List.mem_map.mp hresp
  obtain ⟨hshown, rfl⟩ := hmsgs msg hmsg
  exact ⟨msg.id, msg, hshown.later hr.1, rfl, htold.later hr.2⟩

theorem safe_listMessages {req : ListMessagesRequest} :
    SafeRead i
      (fun r t => ∀ resps cursor, r = .ok (resps, cursor) → ∀ resp ∈ resps, ∃ id, MayRead i userId id resp t)
      (listMessages userId req) s := by
  unfold listMessages
  split
  · rintro _ _ ⟨⟩
  · rename_i room _
    refine safe_members userId fun reply t htables hcheck => ?_
    simp only [Prog.bind]
    cases hchecked : checkMember userId reply () with
    | error e => rintro _ _ ⟨⟩
    | ok _ =>
      obtain ⟨-, htold⟩ := hcheck _ _ hchecked
      dsimp only
      split
      · rintro s₁ - ⟨-, htolds⟩
        refine ⟨(by rintro _ _ ⟨⟩), fun got s₂ hexec _ => ?_⟩
        cases got with
        | error e => rintro _ _ ⟨⟩
        | ok msgs =>
          have hrows := rows_listAfter hexec.query
          refine safe_answerAll (fun msg hmsg => ⟨?_, (hrows msg hmsg).2⟩) ((htold.later htolds).later hexec.keeps.2)
          exact Shown.later hexec.keeps.1 ⟨_, List.mem_cons_self, (hrows msg hmsg).1⟩
      · rintro s₁ - ⟨-, htolds⟩
        refine ⟨(by rintro _ _ ⟨⟩), fun got s₂ hexec _ => ?_⟩
        cases got with
        | error e => rintro _ _ ⟨⟩
        | ok page =>
          obtain ⟨msgs, next⟩ := page
          have hrows := rows_list hexec.query
          refine safe_answerAll (fun msg hmsg => ⟨?_, (hrows msg hmsg).2⟩) ((htold.later htolds).later hexec.keeps.2)
          exact Shown.later hexec.keeps.1 ⟨_, List.mem_cons_self, (hrows msg hmsg).1⟩

theorem safe_serve (call : Call) : SafeRead i (Given i) (serve call) s := by
  cases call with
  | getMessage messageId userId =>
    refine safe_getMessage.bind fun result t ht => ⟨?_, fun _ _ _ _ h => nomatch h⟩
    rintro _ _ resp ⟨⟩
    exact ht resp rfl
  | listMessages userId req =>
    refine safe_listMessages.bind fun result t ht => ⟨(fun _ _ _ h => nomatch h), ?_⟩
    rintro _ _ msgs next ⟨⟩
    exact ht msgs next rfl

end Calls

section Runs

variable {pool₀ pool : ReadersPool} {trace : List ReadersLabel} {i : Nat} {id userId roomId : Uuid}
  {row : MessageProjection} {resp : MessageResponse} {outcome : Outcome}

theorem cachedRows_init (h₀ : ReadersInit pool₀) : CachedRows pool₀.shared := by
  intro id fields hfields
  obtain ⟨row, hrow, rfl⟩ := Option.map_eq_some_iff.mp (h₀.coherent id fields hfields)
  exact ⟨row, ⟨_, List.mem_cons_self, hrow⟩, fun _ _ => rfl⟩

theorem good_readers (h₀ : ReadersInit pool₀) (hrun : Run ReadersStep pool₀ trace pool) :
    Good readersSemantics readersContract Given pool := by
  have hfree : ∀ i (s t : Readers), True → readersContract.rely i s t → True := fun _ _ _ _ _ => trivial
  refine (Good.run_started readersContract_sound stable_given hfree (fun i p s hp _ => ?_) hrun
    ⟨cachedRows_init h₀, ?_⟩ fun _ _ => trivial).1
  · obtain ⟨call, rfl⟩ := hp
    exact safe_serve call
  · simp [h₀.threads]

/-- Within the run the repository had the row under the id. -/
def ShownAt (pool₀ : ReadersPool) (trace : List ReadersLabel) (id : Uuid) (row : MessageProjection) : Prop :=
  ∃ before after q, trace = before ++ after ∧ Run ReadersStep pool₀ before q ∧
    liveRow q.shared.query.projections id = some row

/-- Within the run, while thread `i` asked for the members of the room, the user was one of them. -/
def ListedAt (pool₀ : ReadersPool) (trace : List ReadersLabel) (i : Nat) (userId roomId : Uuid) : Prop :=
  ∃ before members after q, trace = before ++ .cmd i (.getMembersByRoomId roomId.toText) (.ok members) :: after ∧
    Run ReadersStep pool₀ before q ∧
    ∃ member ∈ q.shared.rooms.shared.tables.getMembersByRoomId roomId, member.userId = userId

theorem shownAt_of_shown (h₀ : ReadersInit pool₀) (hrun : Run ReadersStep pool₀ trace pool)
    (h : Shown pool.shared id row) : ShownAt pool₀ trace id row := by
  obtain ⟨p, hp, hrow⟩ := h
  rcases List.mem_cons.mp hp with rfl | hpast
  · exact ⟨trace, [], pool, (List.append_nil _).symm, hrun, hrow⟩
  · have hstart : p ∉ pool₀.shared.past := by simp [h₀.past]
    obtain ⟨before, l, after, q, q', rfl, hbefore, hl, -, hno, hyes⟩ :=
      hrun.crossing (P := fun q => p ∈ q.shared.past) hstart hpast
    refine ⟨before, l :: after, q, rfl, hbefore, ?_⟩
    cases hl with
    | spawn => exact absurd hyes hno
    | cmd _ hexec =>
      have hexec' : Readers.Exec _ _ q.shared _ _ := hexec
      rw [hexec'.past] at hyes
      exact absurd hyes hno
    | env he =>
      cases he with
      | rooms => exact absurd hyes hno
      | query =>
        obtain rfl := (List.mem_cons.mp hyes).resolve_right hno
        exact hrow

theorem listedAt_of_told (h₀ : ReadersInit pool₀) (hrun : Run ReadersStep pool₀ trace pool)
    (h : IsTold i userId roomId.toText pool.shared) : ListedAt pool₀ trace i userId roomId := by
  obtain ⟨members, htold, hin⟩ := h
  have hstart : ⟨i, roomId.toText, members⟩ ∉ pool₀.shared.told := by simp [h₀.told]
  obtain ⟨before, l, after, q, q', rfl, hbefore, hl, -, hno, hyes⟩ :=
    hrun.crossing (P := fun q => ⟨i, roomId.toText, members⟩ ∈ q.shared.told) hstart htold
  cases hl with
  | spawn => exact absurd hyes hno
  | env he =>
    cases he with
    | query => exact absurd hyes hno
    | rooms => exact absurd hyes hno
  | @cmd j c next r s hi hexec =>
    have hexec' : Readers.Exec j c q.shared r s := hexec
    rw [hexec'.told] at hyes
    have hnew := (List.mem_append.mp hyes).resolve_left hno
    cases c with
    | getMembersByRoomId room =>
      cases r with
      | error e => cases hnew
      | ok listed =>
        obtain ⟨rfl, rfl, rfl⟩ := Told.mk.inj (List.mem_singleton.mp hnew)
        obtain ⟨k, member, hk, hmember, huser⟩ := hexec'.answer _ hin
        obtain rfl : k = roomId := Option.some.inj (hk.symm.trans (Uuid.parse_text _))
        exact ⟨before, members, after, q, rfl, hbefore, member, hmember, Uuid.text_injective huser.symm⟩
    | _ => cases hnew

/-- A response is disclosed to a member: it is a row that was under the id, and the user was a member of its room
while the call asked. -/
def DisclosedTo (pool₀ : ReadersPool) (trace : List ReadersLabel) (i : Nat) (userId id : Uuid)
    (resp : MessageResponse) : Prop :=
  ∃ row, ShownAt pool₀ trace id row ∧ resp.body = (toResponse row).body ∧
    ListedAt pool₀ trace i userId row.roomId

theorem disclosedTo_of_mayRead (h₀ : ReadersInit pool₀) (hrun : Run ReadersStep pool₀ trace pool)
    (h : MayRead i userId id resp pool.shared) : DisclosedTo pool₀ trace i userId id resp := by
  obtain ⟨row, hshown, hbody, htold⟩ := h
  exact ⟨row, shownAt_of_shown h₀ hrun hshown, hbody, listedAt_of_told h₀ hrun htold⟩

/-- No call answers a message, from the cache or from the table, to anyone but a member of the message's room. -/
theorem messages_disclosed_to_members (h₀ : ReadersInit pool₀) (hrun : Run ReadersStep pool₀ trace pool)
    (hi : pool.threads[i]? = some (.ret outcome)) :
    (∀ id userId resp, outcome = .message id userId (.ok resp) → DisclosedTo pool₀ trace i userId id resp) ∧
    ∀ userId req resps cursor, outcome = .listed userId req (.ok (resps, cursor)) →
      ∀ resp ∈ resps, ∃ id, DisclosedTo pool₀ trace i userId id resp := by
  have hgiven : Given i outcome pool.shared := (good_readers h₀ hrun).safe i _ hi
  refine ⟨fun id userId resp ho => disclosedTo_of_mayRead h₀ hrun (hgiven.1 id userId resp ho), ?_⟩
  intro userId req resps cursor ho resp hresp
  obtain ⟨id, hmay⟩ := hgiven.2 userId req resps cursor ho resp hresp
  exact ⟨id, disclosedTo_of_mayRead h₀ hrun hmay⟩

end Runs

section Sample

/-- A message of ann in the den. -/
def annRow : MessageProjection := { sampleRow with roomId := Rooms.den, authorId := Rooms.ann }

def annReaders : Readers where
  query := ⟨Function.update (fun _ => none) sampleMessage (some annRow), fun _ => none⟩
  rooms := dueRooms
  past := []
  told := []

theorem annReaders_init : ReadersInit ⟨annReaders, []⟩ := ⟨rfl, nofun, rfl, rfl⟩

/-- A call of a thread that runs alone, and the rest of the thread. -/
theorem alone_plain {s : Readers} {i : Nat} {c : QueryCmd} {r : QueryReply c} {q : QueryState} {α : Type} {a : α}
    {next : QueryReply c → QueryProg α} (h : Query.Exec c s.query r q)
    (hanswer : AnswersMembers s.rooms.shared.tables c r)
    (hrest : ∃ t, Alone (Readers.Exec i) Eq (next r) { s with query := q, told := s.told ++ toldBy i c r } a t) :
    ∃ t, Alone (Readers.Exec i) Eq (.call c next) s a t := by
  obtain ⟨t, hrest⟩ := hrest
  have hexec : Readers.Exec i c s r { s with query := q, told := s.told ++ toldBy i c r } :=
    ⟨h, hanswer, rfl, rfl, rfl⟩
  exact ⟨t, .call rfl hexec hrest⟩

/-- ann reads her message, which is not cached yet. -/
theorem messages_disclosed_to_ann : ∃ trace pool, Run ReadersStep ⟨annReaders, []⟩ trace pool ∧
    pool.threads[0]? = some (.ret (.message sampleMessage Rooms.ann (.ok (toResponse annRow)))) ∧
    DisclosedTo ⟨annReaders, []⟩ trace 0 Rooms.ann sampleMessage (toResponse annRow) := by
  have hlive : liveRow annReaders.query.projections sampleMessage = some annRow := by
    simp [liveRow, annReaders, annRow, sampleRow]
  have hmembers :
      AnswersMembers dueRooms.shared.tables (.getMembersByRoomId Rooms.den.toText) (.ok [Rooms.ann.toText]) := by
    intro user huser
    obtain rfl := List.mem_singleton.mp huser
    exact ⟨Rooms.den, ⟨Rooms.den, Rooms.ann, Rooms.Role.ADMIN, 0, none⟩, Uuid.parse_text _, by decide, rfl⟩
  have hchecked : checkMember Rooms.ann (.ok [Rooms.ann.toText]) (toResponse annRow) = .ok (toResponse annRow) := by
    simp [checkMember]
  obtain ⟨t, halone⟩ : ∃ t, Alone (Readers.Exec 0) Eq (serve (.getMessage sampleMessage Rooms.ann)) annReaders
      (.message sampleMessage Rooms.ann (.ok (toResponse annRow))) t := by
    refine alone_plain (.hgetAll sampleMessage) trivial (alone_plain (.getById hlive) trivial ?_)
    refine alone_plain (.members Rooms.den.toText (.ok [Rooms.ann.toText])) hmembers ?_
    simp only [Prog.bind, hchecked]
    exact alone_plain (.hset sampleMessage _) trivial ⟨_, .ret _ _⟩
  obtain ⟨trace, hrun⟩ : ∃ trace, Run ReadersStep ⟨annReaders, []⟩ trace
      ⟨t, [.ret (.message sampleMessage Rooms.ann (.ok (toResponse annRow)))]⟩ :=
    Alone.spawn_run [] ⟨_, rfl⟩ halone
  exact ⟨trace, _, hrun, rfl, (messages_disclosed_to_members annReaders_init hrun rfl).1 _ _ _ rfl⟩

end Sample

end Chinwag.Query

import Mathlib.Data.List.Basic
import Chinwag.Chat.QueryService
import Chinwag.Chat.SoloRuns

/-!
# The cache beside the projection

Calls of the query service and deliveries of the consumer take steps in any order. Nothing but the
service writes the cache, so an entry keeps what the row was when it was stored.
-/
namespace Chinwag.Query

open Chat Program Rfc3339 Transition

structure QueryState where
  projections : Projections
  cache : Uuid → Option Hash

/-- `GetById` finds rows with no `deleted_at`. -/
def liveRow (p : Projections) (id : Uuid) : Option MessageProjection :=
  (p id).filter fun row => row.deletedAt.isNone

/-- `HSET` leaves the fields it is not given. -/
def mergeFields (fields : Hash) : Option Hash → Hash
  | none => fields
  | some old => fun name => (fields name).or (old name)

def QueryState.store (s : QueryState) (id : Uuid) (fields : Hash) : QueryState :=
  { s with cache := Function.update s.cache id (some (mergeFields fields (s.cache id))) }

def QueryState.expire (s : QueryState) (id : Uuid) : QueryState := { s with cache := Function.update s.cache id none }

/-- A call that fails may have been carried out or not; the room service answers as it will. -/
inductive Exec : (c : QueryCmd) → QueryState → QueryReply c → QueryState → Prop where
  | hgetAll {s : QueryState} (id : Uuid) : Exec (.hgetAll id) s (.ok (s.cache id)) s
  | hgetAllFailed {s : QueryState} (id : Uuid) (e : CacheError) : Exec (.hgetAll id) s (.error e) s
  | hset {s : QueryState} (id : Uuid) (fields : Hash) : Exec (.hset id fields) s (.ok ()) (s.store id fields)
  | hsetLost {s : QueryState} (id : Uuid) (fields : Hash) :
      Exec (.hset id fields) s (.error .replyLost) (s.store id fields)
  | hsetNotDone {s : QueryState} (id : Uuid) (fields : Hash) : Exec (.hset id fields) s (.error .notDone) s
  | getById {s : QueryState} {id : Uuid} {row : MessageProjection} (hrow : liveRow s.projections id = some row) :
      Exec (.getById id) s (.ok row) s
  | getByIdNone {s : QueryState} {id : Uuid} (hnone : liveRow s.projections id = none) :
      Exec (.getById id) s (.error .notFound) s
  | getByIdFailed {s : QueryState} (id : Uuid) : Exec (.getById id) s (.error .database) s
  | list {s : QueryState} {roomId : Uuid} {cursor : String} {limit : Int} {msgs : List MessageProjection}
      {next : Option CursorMeta} (hmsgs : ∀ msg ∈ msgs, liveRow s.projections msg.id = some msg ∧ msg.roomId = roomId) :
      Exec (.listByRoomId roomId cursor limit) s (.ok (msgs, next)) s
  | listFailed {s : QueryState} (roomId : Uuid) (cursor : String) (limit : Int) (e : QueryError) :
      Exec (.listByRoomId roomId cursor limit) s (.error e) s
  | listAfter {s : QueryState} {roomId : Uuid} {after : String} {limit : Int} {msgs : List MessageProjection}
      (hmsgs : ∀ msg ∈ msgs, liveRow s.projections msg.id = some msg ∧ msg.roomId = roomId) :
      Exec (.listAfterByRoomId roomId after limit) s (.ok msgs) s
  | listAfterFailed {s : QueryState} (roomId : Uuid) (after : String) (limit : Int) (e : QueryError) :
      Exec (.listAfterByRoomId roomId after limit) s (.error e) s
  | members {s : QueryState} (roomId : String) (reply : Except Unit (List String)) :
      Exec (.getMembersByRoomId roomId) s reply s

inductive QueryEvent where
  | deliver (a : Attempt) (payload : Option Json)
  | expire (id : Uuid)

/-- The consumer handles whatever it is given, and an entry may expire at any time. -/
inductive Around (s : QueryState) : QueryEvent → QueryState → Prop where
  | deliver (a : Attempt) (payload : Option Json) :
      Around s (.deliver a payload) { s with projections := (handle a payload s.projections).2 }
  | expire (id : Uuid) : Around s (.expire id) (s.expire id)

def querySemantics : Semantics QueryState QueryEvent QueryCmd QueryReply where
  exec _ := Exec
  env := Around

abbrev QueryPool := Pool QueryState QueryCmd QueryReply Outcome

abbrev QueryLabel := Label QueryEvent QueryCmd QueryReply Outcome

abbrev QueryStep : QueryPool → QueryLabel → QueryPool → Prop := Step querySemantics fun p => ∃ call, p = serve call

/-! ### The property -/

/-- What a call of `GetMessage` may return by what `GetById` gives from the table, where `asked` are the
replies of the room service. -/
inductive Uncached (asked : String → Except Unit (List String) → Prop) (p : Projections) (id userId : Uuid) :
    Except QueryError MessageResponse → Prop where
  | notFound (hnone : liveRow p id = none) : Uncached asked p id userId (.error (.repo .notFound))
  | failed : Uncached asked p id userId (.error (.repo .database))
  | found {row : MessageProjection} {reply : Except Unit (List String)} {resp : MessageResponse}
      (hrow : liveRow p id = some row) (hasked : asked row.roomId.toText reply)
      (hresp : resp.printed = (toResponse row).printed) : Uncached asked p id userId (checkMember userId reply resp)

/-- Every call of `GetMessage` that has returned gave what the uncached path gives at a moment of the call. -/
def ReadsAgree (pool : QueryPool) (trace : List QueryLabel) (pool' : QueryPool) : Prop :=
  ∀ i id userId result, pool'.threads[i]? = some (.ret (.message id userId result)) →
    ∃ before c r after t, trace = before ++ .cmd i c r :: after ∧ Run QueryStep pool before t ∧
      Uncached (fun room reply => .cmd i (.getMembersByRoomId room) reply ∈ trace) t.shared.projections id userId result

/-- The hash of the row that `GetById` gives. -/
def rendered (p : Projections) (id : Uuid) : Option Hash := (liveRow p id).map fun row => responseToHash (toResponse row)

/-- What is cached is the hash of the row. -/
def Coherent (s : QueryState) : Prop := ∀ id fields, s.cache id = some fields → rendered s.projections id = some fields

structure QueryInit (pool : QueryPool) : Prop where
  threads : pool.threads = []
  coherent : Coherent pool.shared

/-- A delivery changes no message that is cached, and what is stored is what the row gives then. -/
def Quiet (s : QueryState) : QueryLabel → Prop
  | .env (.deliver a payload) =>
    ∀ id, s.cache id ≠ none → rendered (handle a payload s.projections).2 id = rendered s.projections id
  | .cmd _ (.hset id fields) r => r ≠ .error .notDone → rendered s.projections id = some (mergeFields fields (s.cache id))
  | _ => True

/-- All steps of the run are quiet. -/
def QuietRun (pool : QueryPool) (trace : List QueryLabel) (pool' : QueryPool) : Prop :=
  ∀ before e after t t', trace = before ++ e :: after → Run QueryStep pool before t → QueryStep t e t' →
    Run QueryStep t' after pool' → Quiet t.shared e

/-! ### What a step does to the cache -/

section Steps

variable {s t : QueryState} {pool pool' : QueryPool} {trace : List QueryLabel} {l : QueryLabel}

@[simp] theorem cache_store (s : QueryState) (id : Uuid) (fields : Hash) :
    (s.store id fields).cache id = some (mergeFields fields (s.cache id)) := Function.update_self ..

theorem cache_store_of_ne {id other : Uuid} (h : other ≠ id) (fields : Hash) :
    (s.store id fields).cache other = s.cache other := Function.update_of_ne h ..

theorem cache_expire_of_ne {id other : Uuid} (h : other ≠ id) : (s.expire id).cache other = s.cache other :=
  Function.update_of_ne h ..

@[simp] theorem cache_expire (s : QueryState) (id : Uuid) : (s.expire id).cache id = none := Function.update_self ..

theorem coherent_store {id : Uuid} {fields : Hash} (h : Coherent s) :
    Coherent (s.store id fields) ↔ rendered s.projections id = some (mergeFields fields (s.cache id)) := by
  constructor
  · exact fun hs => hs id _ (cache_store s id fields)
  · intro hid other stored hstored
    by_cases heq : other = id
    · subst heq
      rw [cache_store] at hstored
      rw [← Option.some.inj hstored]
      exact hid
    · rw [cache_store_of_ne heq] at hstored
      exact h other stored hstored

theorem coherent_exec {i : Nat} {c : QueryCmd} {r : QueryReply c} (h : Coherent s) (hexec : Exec c s r t) :
    Coherent t ↔ Quiet s (.cmd i c r) := by
  cases hexec with
  | hset id fields =>
    rw [coherent_store h]
    exact ⟨fun hid _ => hid, fun hid => hid (nofun)⟩
  | hsetLost id fields =>
    rw [coherent_store h]
    exact ⟨fun hid _ => hid, fun hid => hid (nofun)⟩
  | hsetNotDone id fields => exact iff_of_true h fun hne => absurd rfl hne
  | hgetAll | hgetAllFailed | getById | getByIdNone | getByIdFailed | list | listFailed | listAfter | listAfterFailed
    | members => exact iff_of_true h trivial

theorem coherent_around {e : QueryEvent} (h : Coherent s) (he : Around s e t) : Coherent t ↔ Quiet s (.env e) := by
  cases he with
  | deliver a payload =>
    constructor
    · intro ht id hcached
      obtain ⟨fields, hfields⟩ := Option.ne_none_iff_exists'.mp hcached
      rw [h id fields hfields]
      exact ht id fields hfields
    · intro hquiet id fields hfields
      have hsame := hquiet id (by rw [show s.cache id = some fields from hfields]; exact Option.some_ne_none _)
      exact hsame.trans (h id fields hfields)
  | expire id =>
    refine iff_of_true (fun other fields hfields => ?_) trivial
    by_cases heq : other = id
    · subst heq
      rw [cache_expire] at hfields
      cases hfields
    · rw [cache_expire_of_ne heq] at hfields
      exact h other fields hfields

theorem coherent_step (h : Coherent pool.shared) (hstep : QueryStep pool l pool') :
    Coherent pool'.shared ↔ Quiet pool.shared l := by
  cases hstep with
  | cmd _ hexec => exact coherent_exec h hexec
  | spawn => exact iff_of_true h trivial
  | env he => exact coherent_around h he

/-- The cache is coherent all along exactly if every step is quiet. -/
theorem always_coherent_iff (hcoherent : Coherent pool.shared) :
    (∀ before after t, trace = before ++ after → Run QueryStep pool before t → Run QueryStep t after pool' →
      Coherent t.shared) ↔ QuietRun pool trace pool' := by
  have hstep : ∀ (p : QueryPool) (l : QueryLabel) (p' : QueryPool), True → Coherent p.shared → QueryStep p l p' →
      (Coherent p'.shared ↔ Quiet p.shared l) := fun _ _ _ _ h hstep => coherent_step h hstep
  exact Run.always_good_iff (fun _ _ _ _ _ => trivial) hstep trivial hcoherent

end Steps

/-! ### What a call is told -/

section Replies

variable {id userId : Uuid} {replies : List (Σ c, QueryReply c)} {result : Except QueryError MessageResponse}

/-- The replies that decide what a call of `GetMessage` returns: an entry of the cache, or the repository's reply. -/
inductive Decided (id userId : Uuid) (replies : List (Σ c, QueryReply c)) : Except QueryError MessageResponse → Prop where
  | cached {fields : Hash} {msg : MessageResponse} {reply : Except Unit (List String)}
      (hget : ⟨.hgetAll id, .ok (some fields)⟩ ∈ replies) (hmsg : hashToResponse fields = some msg)
      (hmembers : ⟨.getMembersByRoomId msg.roomId, reply⟩ ∈ replies) : Decided id userId replies (checkMember userId reply msg)
  | failed {e : RepoError} (hget : ⟨.getById id, .error e⟩ ∈ replies) : Decided id userId replies (.error (.repo e))
  | read {row : MessageProjection} {reply : Except Unit (List String)} (hget : ⟨.getById id, .ok row⟩ ∈ replies)
      (hmembers : ⟨.getMembersByRoomId row.roomId.toText, reply⟩ ∈ replies) :
      Decided id userId replies (checkMember userId reply (toResponse row))

theorem cachedResponse_eq_some {reply : Except CacheError (Option Hash)} {msg : MessageResponse}
    (h : cachedResponse reply = some msg) : ∃ fields, reply = .ok (some fields) ∧ hashToResponse fields = some msg := by
  unfold cachedResponse at h
  split at h
  · exact ⟨_, rfl, h⟩
  · cases h

theorem checkMember_cases {α : Type} (userId : Uuid) (reply : Except Unit (List String)) (a : α) :
    checkMember userId reply a = .ok a ∨ ∃ e, ∀ β (b : β), checkMember userId reply b = .error e := by
  unfold checkMember
  split
  · exact .inr ⟨_, fun _ _ => rfl⟩
  · split
    · exact .inl rfl
    · exact .inr ⟨_, fun _ _ => rfl⟩

theorem decided_getMessage (h : Did (getMessage id userId) replies result) : Decided id userId replies result := by
  obtain ⟨hget, rest, rfl, hrest⟩ := did_call h
  cases hcached : cachedResponse hget with
  | some msg =>
    obtain ⟨fields, rfl, hmsg⟩ := cachedResponse_eq_some hcached
    simp only [Prog.bind, hcached] at hrest
    obtain ⟨reply, rest', rfl, hret⟩ := did_call hrest
    obtain ⟨-, rfl⟩ := did_ret hret
    exact .cached List.mem_cons_self hmsg (by simp)
  | none =>
    simp only [Prog.bind, hcached] at hrest
    obtain ⟨row, rest', rfl, hrow⟩ := did_call hrest
    cases row with
    | error e =>
      obtain ⟨-, rfl⟩ := did_ret hrow
      exact .failed (by simp)
    | ok row =>
      obtain ⟨reply, rest'', rfl, hchecked⟩ := did_call hrow
      simp only [Prog.bind] at hchecked
      rcases checkMember_cases userId reply (toResponse row) with hok | ⟨e, herror⟩
      · rw [hok] at hchecked
        obtain ⟨stored, _, -, hret⟩ := did_call hchecked
        obtain ⟨-, rfl⟩ := did_ret hret
        rw [← hok]
        exact .read (by simp) (by simp)
      · rw [herror] at hchecked
        obtain ⟨-, rfl⟩ := did_ret hchecked
        rw [← herror MessageResponse (toResponse row)]
        exact .read (by simp) (by simp)

theorem exec_hgetAll {s t : QueryState} {r : Except CacheError (Option Hash)} (h : Exec (.hgetAll id) s r t) :
    r = .ok (s.cache id) ∨ ∃ e, r = .error e := by
  cases h with
  | hgetAll => exact .inl rfl
  | hgetAllFailed _ e => exact .inr ⟨e, rfl⟩

theorem exec_getById {s t : QueryState} {r : Except RepoError MessageProjection} (h : Exec (.getById id) s r t) :
    (∃ row, r = .ok row ∧ liveRow s.projections id = some row) ∨
      (r = .error .notFound ∧ liveRow s.projections id = none) ∨ r = .error .database := by
  cases h with
  | getById hrow => exact .inl ⟨_, rfl, hrow⟩
  | getByIdNone hnone => exact .inr (.inl ⟨rfl, hnone⟩)
  | getByIdFailed => exact .inr (.inr rfl)

end Replies

/-- A row read from a coherent cache is the one of the table, with its times as they are printed. -/
theorem Coherent.read {s : QueryState} (h : Coherent s) {id : Uuid} {fields : Hash} {msg : MessageResponse}
    (hcached : s.cache id = some fields) (hmsg : hashToResponse fields = some msg) :
    ∃ row, liveRow s.projections id = some row ∧ msg = (toResponse row).printed := by
  obtain ⟨row, hrow, rfl⟩ := Option.map_eq_some_iff.mp (h id fields hcached)
  exact ⟨row, hrow, hashToResponse_responseToHash hmsg⟩

/-- A message is returned where there is one. -/
theorem Uncached.row {asked : String → Except Unit (List String) → Prop} {p : Projections} {id userId : Uuid}
    {resp : MessageResponse} (h : Uncached asked p id userId (.ok resp)) : ∃ row, liveRow p id = some row := by
  generalize hresult : Except.ok resp = result at h
  cases h with
  | notFound => cases hresult
  | failed => cases hresult
  | found hrow => exact ⟨_, hrow⟩

theorem MessageResponse.printed_printed (resp : MessageResponse) : resp.printed.printed = resp.printed := by
  have htime : ∀ t : Time, t.printed.printed = t.printed := by
    intro t
    unfold Time.printed
    rw [wholeMinutes_idem]
  have hmap : Time.printed ∘ Time.printed = Time.printed := funext htime
  unfold MessageResponse.printed
  rw [htime, Option.map_map, hmap]

section Run

variable {pool pool' : QueryPool} {trace : List QueryLabel}

/-- The state that answered a command of the run. -/
theorem moment (hinit : QueryInit pool) (hrun : Run QueryStep pool trace pool') (hquiet : QuietRun pool trace pool')
    {i : Nat} {c : QueryCmd} {r : QueryReply c} (hmem : ⟨c, r⟩ ∈ repliesTo i trace) :
    ∃ before after t s, trace = before ++ .cmd i c r :: after ∧ Run QueryStep pool before t ∧ Coherent t.shared ∧
      Exec c t.shared r s := by
  obtain ⟨before, after, rfl⟩ := List.append_of_mem (mem_repliesTo.mp hmem)
  obtain ⟨t, t', hbefore, hstep, hafter⟩ := hrun.at_label
  have hcoherent : Coherent t.shared :=
    (always_coherent_iff hinit.coherent).mpr hquiet before _ t rfl hbefore (.cons hstep hafter)
  cases hstep with
  | cmd hi hexec => exact ⟨before, after, t, _, rfl, hbefore, hcoherent, hexec⟩

end Run

/-! ### A message that is cached -/

/-- Neither a delivery nor a write to the cache. -/
def Reading : QueryLabel → Prop
  | .env (.deliver _ _) => False
  | .cmd _ (.hset _ _) _ => False
  | _ => True

theorem quiet_reading {s : QueryState} {l : QueryLabel} (h : Reading l) : Quiet s l := by
  match l, h with
  | .env (.expire id), _ => trivial
  | .spawn p, _ => trivial
  | .cmd i (.hgetAll id) r, _ => trivial
  | .cmd i (.getById id) r, _ => trivial
  | .cmd i (.listByRoomId roomId cursor limit) r, _ => trivial
  | .cmd i (.listAfterByRoomId roomId after limit) r, _ => trivial
  | .cmd i (.getMembersByRoomId roomId) r, _ => trivial

/-- Only a delivery changes the table. -/
theorem projections_step {p p' : QueryPool} {l : QueryLabel} (hl : ∀ a payload, l ≠ .env (.deliver a payload))
    (hstep : QueryStep p l p') : p'.shared.projections = p.shared.projections := by
  cases hstep with
  | cmd _ hexec => cases hexec <;> rfl
  | spawn => rfl
  | env he =>
    cases he with
    | deliver a payload => exact absurd rfl (hl a payload)
    | expire => rfl

theorem projections_run {p p' : QueryPool} {trace : List QueryLabel}
    (hnone : ∀ l ∈ trace, ∀ a payload, l ≠ .env (.deliver a payload)) (hrun : Run QueryStep p trace p') :
    p'.shared.projections = p.shared.projections := by
  induction hrun with
  | nil => rfl
  | cons hstep _ ih =>
    rw [ih fun l hl => hnone l (List.mem_cons_of_mem _ hl)]
    exact projections_step (hnone _ List.mem_cons_self) hstep

def sampleRow : MessageProjection where
  id := sampleMessage
  roomId := sampleRoom
  authorId := sampleAuthor
  authorName := "Ann"
  messageType := 0
  content := "hello"
  createdAt := sampleTime
  updatedAt := none
  deletedAt := none

def sampleHash : Hash := responseToHash (toResponse sampleRow)

def cachedState : QueryState where
  projections := Function.update (fun _ => none) sampleMessage (some sampleRow)
  cache := Function.update (fun _ => none) sampleMessage (some sampleHash)

theorem projections_cachedState : cachedState.projections sampleMessage = some sampleRow := by
  simp [cachedState]

theorem cache_cachedState : cachedState.cache sampleMessage = some sampleHash := by
  simp [cachedState]

theorem liveRow_deleted {p : Projections} {id : Uuid} {row : MessageProjection} (h : row.deletedAt.isSome) :
    liveRow (Function.update p id (some row)) id = none := by
  unfold liveRow
  rw [Function.update_self, Option.filter_some, if_neg (by simpa using Option.isSome_iff_ne_none.mp h)]

def readCall : Call := .getMessage sampleMessage sampleAuthor

def cachedReply : Outcome := .message sampleMessage sampleAuthor (.ok (toResponse sampleRow).printed)

theorem init_cachedState : QueryInit ⟨cachedState, []⟩ := by
  refine ⟨rfl, fun id fields hfields => ?_⟩
  have hcache : Function.update (fun _ => none) sampleMessage (some sampleHash) id = some fields := hfields
  by_cases hid : id = sampleMessage
  · subst hid
    rw [Function.update_self] at hcache
    cases hcache
    show Option.map _ (Option.filter _ (Function.update (fun _ => none) sampleMessage (some sampleRow) sampleMessage)) = _
    rw [Function.update_self]
    rfl
  · rw [Function.update_of_ne hid] at hcache
    cases hcache

theorem sampleHash_read : hashToResponse sampleHash = some (toResponse sampleRow).printed := by
  have hcreated : parse (format sampleTime) = some sampleTime.printed :=
    parse_marshal (marshal_eq_format (by decide) (by decide))
  have htype : parseInt16 (toString (0 : Int)) = some 0 := by
    rw [parseInt16, Redis.tonumber_toString]
    rfl
  have hid : (toResponse sampleRow).id ≠ "" := sampleMessage.text_ne_empty
  show (if (toResponse sampleRow).id = "" then none else
    (parseInt16 (toString (0 : Int))).bind fun messageType => (parse (format sampleTime)).bind fun createdAt =>
      (parseUpdatedAt "").bind fun updatedAt => _) = _
  rw [if_neg hid, htype, hcreated]
  rfl

def readTrace : List QueryLabel :=
  [.spawn (serve readCall), .cmd 0 (.hgetAll sampleMessage) (.ok (some sampleHash)),
    .cmd 0 (.getMembersByRoomId sampleRoom.toText) (.ok [sampleAuthor.toText])]

theorem serve_readCall : ∃ f, serve readCall = .call (.hgetAll sampleMessage) f ∧
    ∃ f', f (.ok (some sampleHash)) = .call (.getMembersByRoomId sampleRoom.toText) f' ∧
      f' (.ok [sampleAuthor.toText]) = .ret cachedReply := by
  have hcached : cachedResponse (.ok (some sampleHash)) = some (toResponse sampleRow).printed := sampleHash_read
  refine ⟨_, rfl, ?_⟩
  simp only [Prog.bind, hcached]
  refine ⟨_, rfl, ?_⟩
  rfl

/-- A call that finds the entry, whatever has become of the row. -/
theorem readTrace_run {s : QueryState} (hs : s.cache sampleMessage = some sampleHash) :
    Run QueryStep ⟨s, []⟩ readTrace ⟨s, [.ret cachedReply]⟩ := by
  obtain ⟨f, hserve, f', hget, hmembers⟩ := serve_readCall
  have hread : Exec (.hgetAll sampleMessage) s (.ok (some sampleHash)) s := hs ▸ .hgetAll sampleMessage
  have hspawn : QueryStep ⟨s, []⟩ (.spawn (serve readCall)) ⟨s, [serve readCall]⟩ := .spawn ⟨readCall, rfl⟩
  have hgot : QueryStep ⟨s, [serve readCall]⟩ (.cmd 0 (.hgetAll sampleMessage) (.ok (some sampleHash)))
      ⟨s, [f (.ok (some sampleHash))]⟩ := Step.into (congrArg some hserve) hread rfl
  have hreturned : QueryStep ⟨s, [f (.ok (some sampleHash))]⟩
      (.cmd 0 (.getMembersByRoomId sampleRoom.toText) (.ok [sampleAuthor.toText])) ⟨s, [.ret cachedReply]⟩ :=
    Step.into (congrArg some hget) (.members _ _) (by rw [hmembers]; rfl)
  exact .cons hspawn (.cons hgot (.single hreturned))

theorem reading_readTrace : ∀ l ∈ readTrace, Reading l := by
  intro l hl
  simp only [readTrace, List.mem_cons, List.not_mem_nil, or_false] at hl
  rcases hl with rfl | rfl | rfl <;> trivial

/-- The table once the message is deleted. -/
def deletedState : QueryState where
  projections := Function.update cachedState.projections sampleMessage (some { sampleRow with deletedAt := some sampleTime })
  cache := cachedState.cache

def deletion : QueryEvent := .deliver ⟨sampleTime, .up⟩ (some (deletedMessagePayload sampleMessage sampleRoom))

theorem handle_deletion : (handle ⟨sampleTime, .up⟩ (some (deletedMessagePayload sampleMessage sampleRoom))
    cachedState.projections).2 = deletedState.projections := by
  rw [handle_deletedMessage]
  show (softDelete sampleMessage sampleTime cachedState.projections).2 = _
  rw [softDelete, updateLive, projections_cachedState]
  rfl

theorem deletion_projections {pool : QueryPool} (h : QueryStep ⟨cachedState, []⟩ (.env deletion) pool) :
    pool.shared.projections = deletedState.projections := by
  cases h with
  | env he =>
    cases he with
    | deliver => exact handle_deletion

theorem deletion_step : QueryStep ⟨cachedState, []⟩ (.env deletion) ⟨deletedState, []⟩ := by
  have hdeleted : deletedState = { cachedState with projections := (handle ⟨sampleTime, .up⟩
      (some (deletedMessagePayload sampleMessage sampleRoom)) cachedState.projections).2 } := by
    rw [handle_deletion]
    rfl
  rw [hdeleted]
  exact .env (.deliver _ _)

end Chinwag.Query

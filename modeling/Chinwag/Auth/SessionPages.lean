import Mathlib.Data.String.Basic
import Chinwag.Auth.SessionCount
import Chinwag.Lib.Ranking
import Chinwag.Pages.Cursor

/-!
# The listing of all sessions

`ListAllSessions` pages through `refresh:sessions`. A session is loaded from the record of whichever token
its lineage lists first, and the cursor takes its time from there, not from the index. The rest of the
sessions of that time are put behind the older ones.
-/
namespace Chinwag.Auth

open Redis Script Program Transition Pages Ranking

variable {α β : Type} (r : RefreshConfig) (order : List String → List String)

/-- The reply to a command, where `order` is how the server lists a set. -/
def answer (s : Server) : (c : CacheCmd) → CacheReply c
  | .smembers key => (serve (.smembers key) s).1.map order
  | .hset key fields => (serve (.hset key fields) s).1
  | .expire key seconds => (serve (.expire key seconds) s).1
  | .hgetall key => (serve (.hgetall key) s).1
  | .zrem key member => (serve (.zrem key member) s).1
  | .zrevrange key => (serve (.zrevrange key) s).1

/-- What a program of reads returns while nothing changes. -/
def readOff (s : Server) : CacheProg α → α
  | .ret a => a
  | .call c next => readOff s (next (answer order s c))

/-- The session that the listing has for a lineage, if any. -/
def loadedSession (s : Server) (lineageID : String) : Option AdminSession :=
  match readOff order s (sessionFromLineage r lineageID) with
  | .ok session => session
  | .error _ => none

def encodeSessionCursor (createdAt : Int) (lineageID : String) : CursorText :=
  .json (.obj [("created_at", .int createdAt), ("lineage_id", .str lineageID)])

def decodeSessionCursor : CursorText → Option (Int × String)
  | .json j => do
    let fields ← j.asStruct
    let createdAt ← Json.int64Field "created_at" fields
    let lineageId ← Json.stringField "lineage_id" fields
    return (createdAt, lineageId)
  | _ => none

/-- The sessions after which a cursor goes on: none is named by the empty one. -/
def sessionBound : CursorText → Option (Option (Int × String))
  | .empty => some none
  | cursorStr => (decodeSessionCursor cursorStr).map some

def scoreOf (scores : Scores) (member : String) : Int := (scores.lookup member).getD 0

/-- `ZREVRANGEBYSCORE key (max -inf LIMIT 0 count`, from `+inf` where there is no maximum. -/
def zRevRangeByScore (scores : Scores) (max : Option Int) (count : Nat) : List String :=
  ((revRange scores).filter fun m => max.all fun c => decide (scoreOf scores m < c)).take count

/-- `ZRANGEBYSCORE key c c`. -/
def zRangeByScore (scores : Scores) (c : Int) : List String :=
  ((revRange scores).filter fun m => decide (scoreOf scores m = c)).reverse

def sessionLimit (limit : Int) : Nat := if limit ≤ 0 ∨ 200 < limit then 50 else limit.toNat

def lineagePage (scores : Scores) (bound : Option (Int × String)) (fetchLimit : Nat) : List String :=
  match bound with
  | none => zRevRangeByScore scores none fetchLimit
  | some (createdAt, lineageId) =>
    let ids := zRevRangeByScore scores (some createdAt) fetchLimit
    -- the ties are gone through from the last to the first
    let ties := (zRangeByScore scores createdAt).reverse.filter fun tie => decide (tie < lineageId)
    (ids ++ ties).take fetchLimit

/-- The sessions of a page with its `NextCursor`, or an error. -/
def listAllSessions (limit : Int) (cursorStr : CursorText) (s : Server) :
    Option (List AdminSession × Option CursorText) := do
  let limit := sessionLimit limit
  let bound ← sessionBound cursorStr
  let scores ← (s.zsetAt r.sessionsKey).toOption
  let lineageIDs := lineagePage scores bound (limit + 1)
  let sessions := readOff order s (loadSessions r (lineageIDs.take limit))
  return (sessions, if limit < lineageIDs.length then
    sessions.getLast?.map fun last => encodeSessionCursor last.createdAt last.lineageId else none)

section Loading

variable {r order} {s : Server}

theorem readOff_bind (p : CacheProg α) (f : α → CacheProg β) :
    readOff order s (p >>= f) = readOff order s (f (readOff order s p)) := by
  induction p with
  | ret a => rfl
  | call c next ih => exact ih _

/-- The listing leaves out the lineages that do not load. -/
theorem readOff_loadSessions (ids : List String) :
    readOff order s (loadSessions r ids) = ids.filterMap (loadedSession r order s) := by
  induction ids with
  | nil => rfl
  | cons lg rest ih =>
    rw [loadSessions, readOff_bind]
    cases h : readOff order s (sessionFromLineage r lg) with
    | error e =>
      have hnone : loadedSession r order s lg = none := by simp only [loadedSession, h]
      rw [List.filterMap_cons_none hnone, ← ih]
    | ok session =>
      have hload : loadedSession r order s lg = session := by simp only [loadedSession, h]
      cases session with
      | none => rw [List.filterMap_cons_none hload, ← ih]
      | some session =>
        rw [List.filterMap_cons_some hload, ← ih]
        exact readOff_bind _ _

/-- What the listing has for a lineage whose first listed token has a record. -/
theorem loadedSession_eq {sid first : String} {members others : List String} {f : Fields}
    (hm : s.setAt (r.lineageMembersKey sid) = .ok members) (horder : order members = first :: others)
    (hf : s.hashAt (r.tokenKey first) = .ok f) (hne : f.entries.isEmpty = false) :
    loadedSession r order s sid = some ⟨sid, (toRecord f).userID, (toRecord f).createdAt, (toRecord f).used,
      (toRecord f).revoked, (toRecord f).jkt, others.length + 1⟩ := by
  have hreply : readOff order s (sMembers (r.lineageMembersKey sid)) = .ok (first :: others) := by
    show Except.map order (s.setAt (r.lineageMembersKey sid)) = _
    rw [hm, ← horder]
    rfl
  have hrecord : readOff order s (getRecord r first) = .ok (toRecord f) := by
    have hfields : readOff order s (hGetAll (r.tokenKey first)) = .ok f := hf
    rw [getRecord, readOff_bind, hfields]
    simp [hne, readOff]
  have hload : readOff order s (sessionFromLineage r sid) = .ok (some ⟨sid, (toRecord f).userID, (toRecord f).createdAt,
      (toRecord f).used, (toRecord f).revoked, (toRecord f).jkt, others.length + 1⟩) := by
    rw [sessionFromLineage, readOff_bind, hreply]
    dsimp only
    rw [readOff_bind, hrecord]
    rfl
  simp only [loadedSession, hload]

theorem loadedSession_lineageId {sid : String} {session : AdminSession} (h : loadedSession r order s sid = some session) :
    session.lineageId = sid := by
  have hall : ∀ session, readOff order s (sessionFromLineage r sid) = .ok (some session) → session.lineageId = sid := by
    intro session hs
    rw [sessionFromLineage, readOff_bind] at hs
    cases hm : readOff order s (sMembers (r.lineageMembersKey sid)) with
    | error e =>
      rw [hm] at hs
      cases hs
    | ok members =>
      rw [hm] at hs
      cases members with
      | nil => cases hs
      | cons first others =>
        dsimp only at hs
        rw [readOff_bind] at hs
        cases hrec : readOff order s (getRecord r first) with
        | error e =>
          rw [hrec] at hs
          cases hs
        | ok rec =>
          rw [hrec] at hs
          cases hs
          rfl
  unfold loadedSession at h
  split at h
  · next session' hs =>
    subst h
    exact hall session hs
  · cases h

end Loading

section Index

variable {scores : Scores} {r order} {s : Server}

theorem scoreOf_of_mem {e : Σ _ : String, Int} (h : e ∈ scores.entries) : scoreOf scores e.1 = e.2 := by
  have hl : scores.lookup e.1 = some e.2 := AList.mem_lookup_iff.mpr h
  rw [scoreOf, hl, Option.getD_some]

/-- The index has the newest first, and names of one time downwards. -/
theorem descending_revRange (scores : Scores) :
    Keyset.Descending (rank (scoreOf scores) id) (revRange scores) := by
  let newer : String → String → Prop := fun a b => rank (scoreOf scores) id b ≤ rank (scoreOf scores) id a
  have : Std.Total newer := ⟨fun a b => le_total _ _⟩
  have : IsTrans String newer := ⟨fun a b c hab hbc => le_trans hbc hab⟩
  have heq : revRange scores = scores.keys.insertionSort newer := by
    refine List.map_insertionSort _ newer Sigma.fst _ fun a ha b hb => ?_
    show _ ↔ rank (scoreOf scores) id b.1 ≤ rank (scoreOf scores) id a.1
    rw [rank, rank, Prod.Lex.toLex_le_toLex, scoreOf_of_mem ha, scoreOf_of_mem hb]
    rfl
  have hnodup : (revRange scores).Nodup := by
    rw [heq]
    exact (List.perm_insertionSort newer _).nodup_iff.mpr scores.keys_nodup
  have hsorted : (revRange scores).Pairwise newer := heq ▸ List.pairwise_insertionSort newer _
  refine hsorted.imp₂ (fun a b hle hne => lt_of_le_of_ne hle fun hrank => hne ?_) hnodup
  exact (congrArg (fun k => (ofLex k).2) hrank).symm

theorem lineagePage_eq (bound : Option (Int × String)) (fetchLimit : Nat) :
    lineagePage scores bound fetchLimit = fetched (scoreOf scores) id bound fetchLimit (revRange scores) := by
  cases bound with
  | none => simp [lineagePage, zRevRangeByScore, fetched]
  | some c =>
    obtain ⟨createdAt, lineageId⟩ := c
    have hties : (zRangeByScore scores createdAt).reverse.filter (fun tie => decide (tie < lineageId)) =
        (revRange scores).filter fun m => decide (scoreOf scores m = createdAt ∧ id m < lineageId) := by
      rw [zRangeByScore, List.reverse_reverse, List.filter_filter]
      refine List.filter_congr fun m _ => ?_
      rw [Bool.and_comm, Bool.decide_and]
      rfl
    show (zRevRangeByScore scores (some createdAt) fetchLimit ++ _).take fetchLimit = _
    rw [hties]
    rfl

/-- A cursor reads back as what it was made from, where its time is an `int64`. -/
theorem decode_encodeSession (createdAt : Int) (lineageID : String) :
    decodeSessionCursor (encodeSessionCursor createdAt lineageID) =
      (Json.readInt64 (.int createdAt)).map fun createdAt => (createdAt, lineageID) := by
  have hnames : Json.foldName "created_at" ≠ Json.foldName "lineage_id" := by decide
  have hcreated : Json.valuesOf "created_at" [("created_at", .int createdAt), ("lineage_id", .str lineageID)] =
      [.int createdAt] := by
    rw [Json.valuesOf_cons, Json.valuesOf_cons, if_pos rfl, if_neg hnames.symm, Json.valuesOf_nil]
  have hid : Json.valuesOf "lineage_id" [("created_at", .int createdAt), ("lineage_id", .str lineageID)] =
      [.str lineageID] := by
    rw [Json.valuesOf_cons, Json.valuesOf_cons, if_pos rfl, if_neg hnames, Json.valuesOf_nil]
  have hint : Json.int64Field "created_at" [("created_at", .int createdAt), ("lineage_id", .str lineageID)] =
      Json.readInt64 (.int createdAt) := by
    simp [Json.int64Field, Json.field, hcreated, Json.decodeOnto]
  rw [encodeSessionCursor]
  simp only [decodeSessionCursor, Json.asStruct_obj, Option.bind_eq_bind, Option.bind_some, hint,
    Json.stringField_of_values hid]
  cases Json.readInt64 (.int createdAt) <;> rfl

end Index

/-- The time that the cursor after a session stands for. -/
def sessionStamp (session : AdminSession) : Option Int := Json.readInt64 (.int session.createdAt)

/-- The index can be walked in pages of this limit. -/
def SessionsWalkable (limit : Int) (s : Server) : Prop :=
  Walkable (scoreOf (indexOf s r.sessionsKey)) (loadedSession r order s) (LiveLineage r s) sessionStamp
    (sessionLimit limit) (revRange (indexOf s r.sessionsKey))

/-- Following the cursors comes to an end, with each live lineage once and the newest first. -/
def WalksAll (limit : Int) (s : Server) : Prop :=
  ∃ pages, Keyset.Walk (listAllSessions r order limit) .empty (List.replicate pages.length s) pages ∧
    (∀ sid, LiveLineage r s sid → (pages.flatten.map AdminSession.lineageId).count sid = 1) ∧
    pages.flatten.Pairwise fun a b =>
      scoreOf (indexOf s r.sessionsKey) b.lineageId ≤ scoreOf (indexOf s r.sessionsKey) a.lineageId

section Walks

variable {r order} {s : Server} {limit : Int}

/-- One call, on an index of the right type. -/
theorem listAllSessions_eq (hindex : IsIndex s r.sessionsKey) {cursorStr : CursorText} {bound : Option (Int × String)}
    (hbound : sessionBound cursorStr = some bound) : listAllSessions r order limit cursorStr s =
      let page := loadPage (loadedSession r order s) (sessionLimit limit) (fetched (scoreOf (indexOf s r.sessionsKey)) id
        bound (sessionLimit limit + 1) (revRange (indexOf s r.sessionsKey)))
      some (page.1, page.2.map fun last => encodeSessionCursor last.createdAt last.lineageId) := by
  simp only [listAllSessions, hbound, hindex.zsetAt, Except.toOption, Option.bind_eq_bind, Option.bind_some,
    lineagePage_eq, readOff_loadSessions, loadPage]
  split
  · rfl
  · rfl

theorem serves_sessions (hindex : IsIndex s r.sessionsKey) :
    Serves (scoreOf (indexOf s r.sessionsKey)) id (loadedSession r order s) (listAllSessions r order limit)
      (fun s => revRange (indexOf s r.sessionsKey)) (sessionLimit limit) sessionStamp
      (fun cursorStr bound => sessionBound cursorStr = some bound) s := by
  refine ⟨descending_revRange _, fun cursorStr bound hbound => ?_⟩
  refine ⟨_, listAllSessions_eq hindex hbound, fun hnone => by rw [hnone]; rfl, fun sid session created hload hstamp hlast => ?_⟩
  rw [hlast]
  refine ⟨_, rfl, ?_⟩
  show (decodeSessionCursor (encodeSessionCursor session.createdAt session.lineageId)).map some = _
  rw [decode_encodeSession, show Json.readInt64 (.int session.createdAt) = some created from hstamp,
    loadedSession_lineageId hload]
  rfl

theorem indexed_of_reachable {pool : SessionPool} (h : Reachable (SessionStep r) (SessionInit r) pool) :
    SessionGood r pool ∧ Indexed r pool.shared := by
  have hinit : ∀ p, SessionInit r p → SessionGood r p ∧ Indexed r p.shared := by
    rintro ⟨⟨redis, minted⟩, threads⟩ ⟨hdata, rfl, rfl⟩
    exact ⟨good_init ⟨hdata, rfl, rfl⟩, indexed_init hdata⟩
  have hstep : ∀ p l p', SessionGood r p ∧ Indexed r p.shared → SessionStep r p l p' →
      SessionGood r p' ∧ Indexed r p'.shared :=
    fun _ _ _ hp hs => ⟨good_step hp.1 hs, indexed_step hp.1 hp.2 hs⟩
  exact h.invariant hinit hstep

end Walks

section Logins

variable {r order} {s : Sessions} {sid jti sid' jti' : Uuid} {user jkt : String} {now created : Int}

/-- The lineage is live with one token, whose record says when it was made. -/
structure LoggedIn (r : RefreshConfig) (s : Server) (sid jti : Uuid) (created : Int) : Prop where
  members : s.setAt (r.lineageMembersKey sid.text) = .ok [jti.text]
  record : ∃ f, s.hashAt (r.tokenKey jti.text) = .ok f ∧ f.entries.isEmpty = false ∧ (toRecord f).createdAt = created
  live : LiveLineage r s sid.text

theorem loggedIn_issued : LoggedIn r (issued r s.redis sid jti user jkt now) sid jti now := by
  have hget : ∀ {key v}, (issued r s.redis sid jti user jkt now).data key = some ⟨v, some (deadline r s.redis)⟩ →
      (issued r s.redis sid jti user jkt now).get key = some ⟨v, some (deadline r s.redis)⟩ := by
    intro key v hd
    refine Server.get_eq_some.mpr ⟨hd, (Entry.isLive_iff _ _).mpr fun t ht => ?_⟩
    cases ht
    exact Nat.le_add_right _ _
  refine ⟨setAt_of_get (hget issued_members), ⟨_, hashAt_of_get (hget issued_token), ?_, ?_⟩, _, _, hget issued_lineage, ?_⟩
  · cases h : (setFields ∅ (activeFields sid.text user jkt (toString now))).entries with
    | nil =>
      have hsid : (setFields ∅ (activeFields sid.text user jkt (toString now))).lookup "sid" = some sid.text := by simp
      rw [AList.lookup, h] at hsid
      cases hsid
    | cons e rest => rfl
  · have hcreated : (setFields ∅ (activeFields sid.text user jkt (toString now))).lookup "created_at" =
        some (toString now) := by simp
    simp only [toRecord, field, hcreated, Option.getD_some, tonumber_toString]
  · simp

/-- Another login leaves it as it is. -/
theorem LoggedIn.on_issued (h : LoggedIn r s.redis sid jti created) (hsid : sid ≠ sid') (hjti : jti ≠ jti') :
    LoggedIn r (issued r s.redis sid' jti' user jkt now) sid jti created := by
  have hmembers : (issued r s.redis sid' jti' user jkt now).get (r.lineageMembersKey sid.text) =
      s.redis.get (r.lineageMembersKey sid.text) := Server.get_congr (by simp [issued, Server.data_set, hsid]) rfl
  have htoken : (issued r s.redis sid' jti' user jkt now).get (r.tokenKey jti.text) = s.redis.get (r.tokenKey jti.text) :=
    Server.get_congr (by simp [issued, Server.data_set, hjti]) rfl
  have hlineage : (issued r s.redis sid' jti' user jkt now).get (r.lineageKey sid.text) =
      s.redis.get (r.lineageKey sid.text) := Server.get_congr (by simp [issued, Server.data_set, hsid]) rfl
  obtain ⟨f, hf, hne, hcreated⟩ := h.record
  refine ⟨(setAt_congr hmembers).trans h.members, ⟨f, (hashAt_congr htoken).trans hf, hne, hcreated⟩, ?_⟩
  obtain ⟨g, x, hg, hs⟩ := h.live
  exact ⟨g, x, hlineage.trans hg, hs⟩

theorem LoggedIn.loads (h : LoggedIn r s.redis sid jti created) :
    ∃ session, loadedSession r id s.redis sid.text = some session ∧ session.createdAt = created ∧
      session.lineageId = sid.text := by
  obtain ⟨f, hf, hne, hcreated⟩ := h.record
  exact ⟨_, loadedSession_eq h.members rfl hf hne, hcreated, rfl⟩

end Logins

/-- Where the index can be walked, the pages have every live lineage once, the newest first. -/
theorem walks_all_sessions {r : RefreshConfig} {pool : SessionPool} (h : Reachable (SessionStep r) (SessionInit r) pool)
    {order : List String → List String} {limit : Int} (hw : SessionsWalkable r order limit pool.shared.redis) :
    WalksAll r order limit pool.shared.redis := by
  have hindexed := indexed_of_reachable h
  have hindex : IsIndex pool.shared.redis r.sessionsKey := hindexed.1.shared.sessionsIndex
  obtain ⟨pages, kept, dropped, hwalk, hsplit, hflat, hloads, hdropped⟩ := (serves_sessions hindex).walk hw
    (show sessionBound .empty = some none from rfl) (List.nil_append _).symm rfl
  have hids : pages.flatten.map AdminSession.lineageId =
      kept.filter fun sid => (loadedSession r order pool.shared.redis sid).isSome := by
    rw [hflat]
    exact map_loaded (fun _ _ => loadedSession_lineageId) kept
  have hdesc : Keyset.Descending (rank (scoreOf (indexOf pool.shared.redis r.sessionsKey)) id)
      (pages.flatten.map AdminSession.lineageId) := by
    have hall := descending_revRange (indexOf pool.shared.redis r.sessionsKey)
    rw [hsplit] at hall
    rw [hids]
    exact (List.pairwise_append.mp hall).1.sublist List.filter_sublist
  refine ⟨pages, hwalk, fun sid hlive => ?_, ?_⟩
  · have hkept : sid ∈ kept := by
      have hlisted := mem_revRange.mpr (hindexed.2.mem_of_live hlive)
      rw [hsplit] at hlisted
      exact (List.mem_append.mp hlisted).resolve_right fun hd => hdropped sid hd hlive
    refine List.count_eq_one_of_mem ?_ ?_
    · exact hdesc.imp fun hlt heq => absurd (heq ▸ hlt) (lt_irrefl _)
    · rw [hids, List.mem_filter, Option.isSome_iff_ne_none]
      exact ⟨hkept, hloads sid hkept hlive⟩
  · refine (List.pairwise_map.mp hdesc).imp fun hlt => ?_
    rcases Prod.Lex.toLex_lt_toLex.mp hlt with hscore | ⟨hscore, -⟩
    · exact hscore.le
    · exact hscore.le

theorem walks_all_login : WalksAll sampleConfig id 1 sampleLogin.redis := by
  have hranking : revRange (indexOf sampleLogin.redis sampleConfig.sessionsKey) = [sampleSid.text] := by decide
  have hlogin : LoggedIn sampleConfig sampleLogin.redis sampleSid sampleJti 0 := loggedIn_issued
  obtain ⟨session, hload, -⟩ := hlogin.loads
  refine walks_all_sessions ⟨samplePool, _, samplePool_init, .single sampleLogin_step⟩ ?_
  unfold SessionsWalkable
  rw [hranking]
  refine .last (by decide) fun sid hsid _ => ?_
  rw [List.mem_singleton.mp hsid, hload]
  exact Option.some_ne_none _

section Tied

theorem lowSid_canonical : Uuid.isCanonical "01890a5d-ac96-774b-bcce-b302099a8060".toList = true := by decide

def lowSid : Uuid := ⟨"01890a5d-ac96-774b-bcce-b302099a8060", lowSid_canonical⟩

def highSid : Uuid := ⟨"01890a5d-ac96-774b-bcce-b302099a8061", by decide⟩

def oldSid : Uuid := ⟨"01890a5d-ac96-774b-bcce-b302099a8062", by decide⟩

/-- After one login in second 50. -/
def oldLogin : Sessions :=
  ⟨issued sampleConfig samplePool.shared.redis oldSid sampleJti "alice" "jkt" 50, [⟨"alice", sampleJti, oldSid, "jkt"⟩]⟩

def highLogin : Sessions :=
  ⟨issued sampleConfig oldLogin.redis highSid sampleJti' "alice" "jkt" 100,
    oldLogin.minted ++ [⟨"alice", sampleJti', highSid, "jkt"⟩]⟩

/-- After two more in second 100. -/
def tiedLogins : Sessions :=
  ⟨issued sampleConfig highLogin.redis lowSid lowSid "alice" "jkt" 100,
    highLogin.minted ++ [⟨"alice", lowSid, lowSid, "jkt"⟩]⟩

theorem tiedLogins_reachable : Reachable (SessionStep sampleConfig) (SessionInit sampleConfig) ⟨tiedLogins, []⟩ := by
  have hold : Reachable (SessionStep sampleConfig) (SessionInit sampleConfig) ⟨oldLogin, []⟩ :=
    ⟨samplePool, _, samplePool_init,
      .single (.env (issue_step (good_init samplePool_init).shared (fun _ hc => (nomatch hc)) (samplePool_fresh _) (by decide) 50))⟩
  have hhigh : Reachable (SessionStep sampleConfig) (SessionInit sampleConfig) ⟨highLogin, []⟩ :=
    hold.tail (.env (issue_step (good_of_reachable hold).shared (by unfold FreshJti; decide) ⟨by decide, rfl, rfl⟩ (by decide) 100))
  exact hhigh.tail (.env (issue_step (good_of_reachable hhigh).shared (by unfold FreshJti; decide) ⟨by decide, rfl, rfl⟩ (by decide) 100))

theorem tiedLogins_ranking : revRange (indexOf tiedLogins.redis sampleConfig.sessionsKey) =
    [highSid.text, lowSid.text, oldSid.text] := by decide

/-- A page of one session, where there is another one behind it. -/
theorem tiedLogins_page {cursorStr : CursorText} {bound : Option (Int × String)} {first second : String}
    {session : AdminSession} (hbound : sessionBound cursorStr = some bound)
    (hfetched : fetched (scoreOf (indexOf tiedLogins.redis sampleConfig.sessionsKey)) id bound 2
      [highSid.text, lowSid.text, oldSid.text] = [first, second])
    (hload : loadedSession sampleConfig id tiedLogins.redis first = some session) :
    listAllSessions sampleConfig id 1 cursorStr tiedLogins.redis =
      some ([session], some (encodeSessionCursor session.createdAt session.lineageId)) := by
  have hindex := (good_of_reachable tiedLogins_reachable).shared.sessionsIndex
  have hlimit : sessionLimit 1 = 1 := rfl
  rw [listAllSessions_eq hindex hbound, hlimit, tiedLogins_ranking, hfetched]
  simp [loadPage, hload]

/-- Of two sessions of one second with an older one behind them, pages of one session leave out the second. -/
theorem tied_session_skipped : ∃ pool, Reachable (SessionStep sampleConfig) (SessionInit sampleConfig) pool ∧
    ¬ WalksAll sampleConfig id 1 pool.shared.redis := by
  refine ⟨_, tiedLogins_reachable, ?_⟩
  rintro ⟨pages, hwalk, hall, -⟩
  have hlow : LoggedIn sampleConfig tiedLogins.redis lowSid lowSid 100 := loggedIn_issued
  have hhigh : LoggedIn sampleConfig tiedLogins.redis highSid sampleJti' 100 :=
    loggedIn_issued.on_issued (by decide) (by decide)
  have hold : LoggedIn sampleConfig highLogin.redis oldSid sampleJti 50 :=
    loggedIn_issued.on_issued (by decide) (by decide)
  have hold : LoggedIn sampleConfig tiedLogins.redis oldSid sampleJti 50 := hold.on_issued (by decide) (by decide)
  obtain ⟨high, hload, hcreated, hid⟩ := hhigh.loads
  obtain ⟨old, hload', hcreated', hid'⟩ := hold.loads
  have hfirst : listAllSessions sampleConfig id 1 .empty tiedLogins.redis =
      some ([high], some (encodeSessionCursor 100 highSid.text)) := by
    have hpage := tiedLogins_page (show sessionBound .empty = some none from rfl)
      (show _ = [highSid.text, lowSid.text] by decide) hload
    rwa [hcreated, hid] at hpage
  have hsecond : listAllSessions sampleConfig id 1 (encodeSessionCursor 100 highSid.text) tiedLogins.redis =
      some ([old], some (encodeSessionCursor 50 oldSid.text)) := by
    have hpage := tiedLogins_page
      (show sessionBound (encodeSessionCursor 100 highSid.text) = some (some (100, highSid.text)) by decide)
      (show _ = [oldSid.text, lowSid.text] by decide) hload'
    rwa [hcreated', hid'] at hpage
  have hthird : listAllSessions sampleConfig id 1 (encodeSessionCursor 50 oldSid.text) tiedLogins.redis = some ([], none) := by
    have hindex := (good_of_reachable tiedLogins_reachable).shared.sessionsIndex
    have hnone : fetched (scoreOf (indexOf tiedLogins.redis sampleConfig.sessionsKey)) id (some (50, oldSid.text)) 2
        [highSid.text, lowSid.text, oldSid.text] = [] := by decide
    have hlimit : sessionLimit 1 = 1 := rfl
    rw [listAllSessions_eq hindex (show sessionBound _ = some (some (50, oldSid.text)) from rfl), hlimit,
      tiedLogins_ranking, hnone]
    rfl
  have heq := hwalk.unique (fun t ht => List.eq_of_mem_replicate ht) (.next hfirst (.next hsecond (.last hthird)))
    (by simp)
  have hids : pages.flatten.map AdminSession.lineageId = [highSid.text, oldSid.text] := by
    rw [heq]
    simp [hid, hid']
  have hcount := hall lowSid.text hlow.live
  rw [hids] at hcount
  revert hcount
  decide

end Tied

end Chinwag.Auth

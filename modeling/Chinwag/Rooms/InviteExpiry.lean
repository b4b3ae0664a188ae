import Chinwag.Rooms.Frozen
import Chinwag.Rooms.Sequential

/-!
# How long an invite link lives

The hours of a request become 64-bit nanoseconds, once for the cache and once for the answer. The
calls run beside any other programs, and any command may fail.
-/
namespace Chinwag.Rooms

open Program Transition

variable {h : Int}

/-- The most hours that fit into a duration. -/
def maxHours : Int := 2562047

/-- The product is cut to 64 bits exactly if the hours do not fit. -/
theorem inviteTTL_eq_iff (hpos : 0 < h) : inviteTTL (some h) = h * hour ↔ h ≤ maxHours := by
  have hwrapped : inviteTTL (some h) = Int.bmod (h * hour) (2 ^ 64) := if_pos hpos
  rw [hwrapped]
  unfold hour maxHours
  constructor
  · intro hexact
    have hbound : Int.bmod (h * 3600000000000) (2 ^ 64) < ((2 ^ 64 : ℕ) + 1) / 2 := Int.bmod_lt (by decide)
    rw [hexact] at hbound
    omega
  · intro hfits
    apply Int.bmod_eq_of_le <;> omega

section Replies

variable {α : Type} {replies : List (Σ c, RoomReply c)} {roomId createdBy : Uuid} {req : CreateInviteLinkRequest}
  {resp : InviteLinkResponse}

theorem did_read {q : Query} {r : Result q.Row} (h : Did (read q) replies r) : ∃ answer, replies = [⟨.read q, answer⟩] := by
  obtain ⟨answer, rest, rfl, hrest⟩ := did_call h
  cases answer with
  | error e =>
    obtain ⟨rfl, -⟩ := did_ret hrest
    exact ⟨_, rfl⟩
  | ok row =>
    obtain ⟨rfl, -⟩ := did_ret hrest
    exact ⟨_, rfl⟩

theorem did_unlessPopped {next : Room → RoomProg (Result α)} {a : α} (h : Did (unlessPopped roomId next) replies (.ok a)) :
    ∃ answer rest room, replies = ⟨.read (.getRoomById roomId), answer⟩ :: rest ∧ Did (next room) rest (.ok a) := by
  obtain ⟨r, first, second, rfl, hfirst, hsecond⟩ := did_bind h
  obtain ⟨answer, rfl⟩ := did_read hfirst
  cases r with
  | error e => exact nomatch (did_ret hsecond).2
  | ok room =>
    dsimp only at hsecond
    split at hsecond
    · exact nomatch (did_ret hsecond).2
    · exact ⟨answer, second, room, rfl, hsecond⟩

/-- A call that returns a link has stored it and then read the clock. -/
theorem did_createInviteLink (h : Did (createInviteLink roomId createdBy req) replies (.ok resp)) :
    ∃ first data now, replies = first ++ [⟨.cacheSet (inviteKeyPrefix ++ resp.token) data (inviteTTL req.ttlHours), true⟩,
        ⟨.now, now⟩] ∧ (∀ e ∈ first, e.1 ≠ .now) ∧ resp.expiresAt = (now : Nat) + inviteTTL req.ttlHours := by
  obtain ⟨answer, rest, room, rfl, hrest⟩ := did_unlessPopped h
  obtain ⟨manager, second, third, rfl, hmanager, hthird⟩ := did_bind hrest
  obtain ⟨member, fourth, fifth, rfl, hread, hfifth⟩ := did_bind hmanager
  obtain ⟨found, rfl⟩ := did_read hread
  obtain rfl : fifth = [] := by
    cases member <;> exact (did_ret hfifth).1
  rcases manager with e | _ | _
  · exact nomatch (did_ret hthird).2
  · exact nomatch (did_ret hthird).2
  · obtain ⟨token, rest, rfl, hset⟩ := did_call hthird
    obtain ⟨answered, rest, rfl, hanswered⟩ := did_call hset
    cases answered with
    | false => exact nomatch (did_ret hanswered).2
    | true =>
      obtain ⟨now, rest, rfl, hlast⟩ := did_call hanswered
      obtain ⟨rfl, hresp⟩ := did_ret hlast
      obtain rfl := Except.ok.inj hresp
      refine ⟨[⟨.read (.getRoomById roomId), answer⟩, ⟨.read (.getMemberByRoomIdAndMemberId roomId createdBy), found⟩,
        ⟨.new, token⟩], _, now, rfl, ?_, rfl⟩
      simp

end Replies

theorem RoomState.cache_setCache_self (s : RoomState) (key : String) (e : Option CacheEntry) :
    (s.setCache key e).cache key = e := Function.update_self ..

section Lifetime

/-- Programs that may return a link, beside any others. -/
abbrev LinkPool := Pool RoomState RoomCmd RoomReply (Result InviteLinkResponse)

abbrev LinkLabel := Label Nat RoomCmd RoomReply (Result InviteLinkResponse)

abbrev LinkStep (entry : RoomProg (Result InviteLinkResponse) → Prop) : LinkPool → LinkLabel → LinkPool → Prop :=
  Step roomSemantics entry

variable {entry : RoomProg (Result InviteLinkResponse) → Prop} {p p' : LinkPool} {trace : List LinkLabel} {i : Nat}
  {roomId createdBy : Uuid} {req : CreateInviteLinkRequest} {resp : InviteLinkResponse}

/-- Thread `i` has stored the link to run out in so many hours, and has answered with the moment
that is so many hours after the time it read. -/
structure LivesFor (entry : RoomProg (Result InviteLinkResponse) → Prop) (hours : Int) (i : Nat) (p : LinkPool)
    (trace : List LinkLabel) (resp : InviteLinkResponse) : Prop where
  stored : ∃ before after q q' data ttl at_,
    trace = before ++ .cmd i (.cacheSet (inviteKeyPrefix ++ resp.token) data ttl) true :: after ∧
      Run (LinkStep entry) p before q ∧
      LinkStep entry q (.cmd i (.cacheSet (inviteKeyPrefix ++ resp.token) data ttl) true) q' ∧
      q'.shared.cache (inviteKeyPrefix ++ resp.token) = some ⟨data, some at_⟩ ∧
      (at_ : Int) = q.shared.now + hours * hour
  reported : ∃ now, .cmd i .now now ∈ trace ∧ resp.expiresAt = (now : Nat) + hours * hour

theorem replies_createInviteLink (hstart : p.threads[i]? = some (createInviteLink roomId createdBy req))
    (hrun : Run (LinkStep entry) p trace p') (hend : p'.threads[i]? = some (.ret (.ok resp))) :
    Did (createInviteLink roomId createdBy req) (repliesTo i trace) (.ok resp) := by
  obtain ⟨q, hq, hfollows⟩ := Follows.of_run hrun hstart
  obtain rfl := Option.some.inj (hq.symm.trans hend)
  exact hfollows

theorem exec_cacheSet {s t : RoomState} {key : String} {data : InviteLinkData} {ttl : Int}
    (h : Exec i (.cacheSet key data ttl) s true t) : t = s.setCache key (some ⟨data, cacheExpiry s.now ttl⟩) := by
  cases h
  rfl

theorem stored_of_label {key : String} {data : InviteLinkData} {ttl : Int} (hpos : 0 < ttl)
    (hrun : Run (LinkStep entry) p trace p') (hlabel : .cmd i (.cacheSet key data ttl) true ∈ trace) :
    ∃ before after q q' at_, trace = before ++ .cmd i (.cacheSet key data ttl) true :: after ∧
      Run (LinkStep entry) p before q ∧ LinkStep entry q (.cmd i (.cacheSet key data ttl) true) q' ∧
      q'.shared.cache key = some ⟨data, some at_⟩ ∧ (at_ : Int) = q.shared.now + ttl := by
  obtain ⟨before, after, rfl⟩ := List.append_of_mem hlabel
  obtain ⟨q, q', hbefore, hstep, -⟩ := hrun.at_label
  refine ⟨before, after, q, q', q.shared.now + ttl.toNat, rfl, hbefore, hstep, ?_, by omega⟩
  cases hstep with
  | cmd hi hexec =>
    rw [exec_cacheSet hexec]
    have hexpiry : cacheExpiry q.shared.now ttl = some (q.shared.now + ttl.toNat) := if_pos hpos
    rw [hexpiry]
    exact RoomState.cache_setCache_self ..

theorem lives_iff_exact (hhours : req.ttlHours = some h) (hpos : 0 < h)
    (hstart : p.threads[i]? = some (createInviteLink roomId createdBy req)) (hrun : Run (LinkStep entry) p trace p')
    (hend : p'.threads[i]? = some (.ret (.ok resp))) :
    LivesFor entry h i p trace resp ↔ inviteTTL (some h) = h * hour := by
  obtain ⟨first, data, now, hreplies, hfirst, hexpires⟩ :=
    did_createInviteLink (replies_createInviteLink hstart hrun hend)
  rw [hhours] at hreplies hexpires
  constructor
  · intro hlives
    obtain ⟨now', hlabel, hreported⟩ := hlives.reported
    -- the thread reads the clock once
    have hmem : (⟨.now, now'⟩ : Σ c, RoomReply c) ∈ repliesTo i trace := mem_repliesTo.mpr hlabel
    rw [hreplies] at hmem
    have hsame : now' = now := by
      rcases List.mem_append.mp hmem with hearlier | hlast
      · exact absurd rfl (hfirst _ hearlier)
      · rcases List.mem_cons.mp hlast with hset | hlast
        · cases hset
        · cases List.mem_singleton.mp hlast
          rfl
    rw [hsame, hexpires] at hreported
    omega
  · intro hexact
    have hset : (.cmd i (.cacheSet (inviteKeyPrefix ++ resp.token) data (inviteTTL (some h))) true : LinkLabel) ∈ trace := by
      rw [← mem_repliesTo, hreplies]
      simp
    have hnow : (.cmd i .now now : LinkLabel) ∈ trace := by
      rw [← mem_repliesTo, hreplies]
      simp
    rw [hexact] at hset hexpires
    have hlong : 0 < h * hour := Int.mul_pos hpos (by decide)
    obtain ⟨before, after, q, q', at_, htrace, hbefore, hstep, hcache, hat⟩ := stored_of_label hlong hrun hset
    exact ⟨⟨before, after, q, q', data, _, at_, htrace, hbefore, hstep, hcache, hat⟩, now, hnow, hexpires⟩

/-- A link that was returned lives for the hours of its request exactly if they fit into a duration. -/
theorem link_lives_iff (hhours : req.ttlHours = some h) (hpos : 0 < h)
    (hstart : p.threads[i]? = some (createInviteLink roomId createdBy req)) (hrun : Run (LinkStep entry) p trace p')
    (hend : p'.threads[i]? = some (.ret (.ok resp))) : LivesFor entry h i p trace resp ↔ h ≤ maxHours :=
  (lives_iff_exact hhours hpos hstart hrun hend).trans (inviteTTL_eq_iff hpos)

end Lifetime

section Sample

def annLink : Uuid := ⟨"5c60f693-bef5-4e01-a3d0-8e8f2d3c11aa", by decide +kernel⟩

/-- Ann, who administers the den, asks for a link. -/
def annAsks (hours : Int) : LinkPool :=
  ⟨restingState (sampleTables (sampleRoom 16 none none) sampleRoom_id), [createInviteLink den ann ⟨some hours, none⟩]⟩

def annsLink (hours : Int) : InviteLinkResponse := ⟨annLink.toText, den.toText, 1 + inviteTTL (some hours)⟩

theorem ann_gets_link (hours : Int) : ∃ trace p', Run (LinkStep fun _ => False) (annAsks hours) trace p' ∧
    p'.threads[0]? = some (.ret (.ok (annsLink hours))) ∧
    (p'.shared.cache (inviteKeyPrefix ++ annLink.toText)).map CacheEntry.expireAt =
      some (cacheExpiry 1 (inviteTTL (some hours))) := by
  generalize hs : restingState (sampleTables (sampleRoom 16 none none) rfl) = s
  have hroom : s.tables.getRoomById den = .ok (sampleRoom 16 none none) := by
    rw [← hs]
    rfl
  have hmember : s.tables.answer (.getMemberByRoomIdAndMemberId den ann) = .ok ⟨den, ann, Role.ADMIN, 0, none⟩ := by
    rw [← hs]
    rfl
  have hfree : s.cache (inviteKeyPrefix ++ annLink.toText) = none := by
    rw [← hs]
    rfl
  have hnow : s.now = 1 := by
    rw [← hs]
    rfl
  have hfresh : annLink ∉ s.drawn := by
    rw [← hs]
    exact List.not_mem_nil
  have hrefl : ∀ s : RoomState, s = s := fun _ => rfl
  have hmanager : Alone (Answers 0) Eq (hasManagerPermission ann den) s (.ok true) s := by
    refine (alone_read hrefl (.getMemberByRoomIdAndMemberId den ann)).bind ?_
    rw [hmember]
    exact .ret _ _
  have hrest : Alone (Answers 0) Eq (createInviteLink den ann ⟨some hours, none⟩) s
      (.ok ⟨annLink.toText, den.toText, s.now + inviteTTL (some hours)⟩) _ :=
    alone_unlessPopped hrefl hroom rfl
      (hmanager.bind (.call rfl (.new hfresh hfree) (.call rfl (.cacheSet _ _ _ _) (.call rfl (.now _) (.ret _ _)))))
  obtain ⟨trace, hrun⟩ : ∃ trace, Run (LinkStep fun _ => False) ⟨s, [createInviteLink den ann ⟨some hours, none⟩]⟩ trace
      ⟨_, [.ret (.ok ⟨annLink.toText, den.toText, s.now + inviteTTL (some hours)⟩)]⟩ :=
    (Answers.alone hrest).run (S := roomSemantics) rfl
  unfold annAsks
  rw [hs]
  refine ⟨trace, _, hrun, ?_, ?_⟩
  · rw [hnow]
    rfl
  · dsimp only
    rw [RoomState.cache_setCache_self, Option.map_some, ← hnow]
    rfl

/-- A day. -/
theorem link_lives_a_day : ∃ trace p', Run (LinkStep fun _ => False) (annAsks 24) trace p' ∧
    (LivesFor (fun _ => False) 24 0 (annAsks 24) trace (annsLink 24) ↔ (24 : Int) ≤ maxHours) := by
  obtain ⟨trace, p', hrun, hend, -⟩ := ann_gets_link 24
  exact ⟨trace, p', hrun, link_lives_iff rfl (by decide) rfl hrun hend⟩

/-- One hour more than fits: the link never runs out, and has run out long ago by the answer. -/
theorem link_never_expires : ∃ trace p', Run (LinkStep fun _ => False) (annAsks 2562048) trace p' ∧
    p'.threads[0]? = some (.ret (.ok (annsLink 2562048))) ∧
    (p'.shared.cache (inviteKeyPrefix ++ annLink.toText)).map CacheEntry.expireAt = some none ∧
    (annsLink 2562048).expiresAt < 0 ∧
    ¬ LivesFor (fun _ => False) 2562048 0 (annAsks 2562048) trace (annsLink 2562048) := by
  obtain ⟨trace, p', hrun, hend, hcache⟩ := ann_gets_link 2562048
  refine ⟨trace, p', hrun, hend, hcache.trans (by decide), by decide, fun hlives => ?_⟩
  have hexact := (lives_iff_exact rfl (by decide) rfl hrun hend).mp hlives
  revert hexact
  decide

end Sample

end Chinwag.Rooms

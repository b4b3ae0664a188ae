import Chinwag.Chat.TicketInvariant

/-!
# One connection for a ticket

The two handlers keep to what the invariant asks of them, so the connection of a ticket is the only
one, and is for the user and the room of the issue.
-/
namespace Chinwag.Tickets

open Chat Program Transition

section Programs

variable {requests : List WsRequest} {s t : TicketState} {i : Nat}

abbrev TicketSafe (requests : List WsRequest) (i : Nat) (p : WsProg WsResponse) (s : TicketState) : Prop :=
  Safe ticketSemantics (ticketContract requests) i (fun _ _ => True) p s

/-- The request has neither stored a ticket nor upgraded to a connection. -/
def Unmarked (i : Nat) (s : TicketState) : Prop :=
  (∀ x ∈ s.issued, x.request ≠ i) ∧ ∀ c ∈ s.conns, c.request ≠ i

theorem Unmarked.leaves (h : Unmarked i s) (hleaves : Leaves i s t) : Unmarked i t :=
  ⟨fun x hx hi => h.1 x (hleaves.issued x hx hi) hi, fun c hc hi => h.2 c (hleaves.conns c hc hi) hi⟩

theorem safe_issueWsTicket {claims : Option String} {param : String} (hi : requests[i]? = some (.issue claims param))
    (hnew : Unmarked i s) : TicketSafe requests i (issueWsTicket claims param) s := by
  unfold issueWsTicket
  cases claims with
  | none => trivial
  | some userID =>
    dsimp only
    split
    · trivial
    · rename_i roomID hparse
      intro s₁ _ h₁
      refine ⟨trivial, fun ticket s₂ hexec _ => ?_⟩
      cases hexec with
      | newV7 hfresh =>
        intro s₃ _ h₃
        have hdrawn := h₃.drawn (i, ticket) List.mem_cons_self
        have hnone : ∀ x ∈ s₃.issued, x.request ≠ i := fun x hx heq =>
          (hnew.leaves h₁).1 x (h₃.issued x hx heq) heq
        refine ⟨⟨rfl, hnone, ticket, userID, roomID, hdrawn, rfl, ⟨param, hi, hparse⟩, rfl⟩, fun reply s₄ _ _ => ?_⟩
        cases reply with
        | error e => trivial
        | ok _ => trivial

/-- The request was given this payload for its ticket. -/
def Given (i : Nat) (p : WsTicketPayload) (s : TicketState) : Prop :=
  ∃ r ∈ s.redeemed, r.request = i ∧ WsTicketPayload.decode r.data = some p

theorem Given.leaves {p : WsTicketPayload} (h : Given i p s) (hleaves : Leaves i s t) : Given i p t := by
  obtain ⟨r, hr, hrest⟩ := h
  exact ⟨r, hleaves.redeemed r hr, hrest⟩

theorem unmarked_redeem (h : Unmarked i s) (key : String) : Unmarked i (s.redeem i key) := by
  unfold TicketState.redeem
  cases s.lookup key <;> exact h

theorem unmarked_consume (h : Unmarked i s) (key : String) : Unmarked i (s.consume key) := by
  unfold TicketState.consume
  cases s.lookup key <;> exact h

theorem given_redeem {key : String} {data : Json} {p : WsTicketPayload} (hlook : s.lookup key = some data)
    (hdecode : WsTicketPayload.decode data = some p) : Given i p (s.redeem i key) := by
  unfold TicketState.redeem
  rw [hlook]
  exact ⟨_, List.mem_cons_self, rfl, hdecode⟩

theorem safe_consumeWsTicket {ticket : String} (hi : Presents requests i ticket) (hnew : Unmarked i s) :
    Safe ticketSemantics (ticketContract requests) i
      (fun result t => Unmarked i t ∧ ∀ p, result = .ok (some p) → Given i p t) (consumeWsTicket ticket) s := by
  unfold consumeWsTicket
  intro s₁ _ h₁
  have hnew₁ := hnew.leaves h₁
  refine ⟨⟨ticket, hi, rfl⟩, fun reply s₂ hexec _ => ?_⟩
  cases hexec with
  | consumeFailed _ e => exact ⟨hnew₁, nofun⟩
  | consumeLost _ e => exact ⟨unmarked_consume hnew₁ _, nofun⟩
  | consume =>
    cases hlook : s₁.lookup (ticketKey ticket) with
    | none => exact ⟨unmarked_redeem hnew₁ _, nofun⟩
    | some data =>
      cases hdecode : WsTicketPayload.decode data with
      | none =>
        simp only [Prog.bind, hdecode]
        exact ⟨unmarked_redeem hnew₁ _, nofun⟩
      | some p =>
        simp only [Prog.bind, hdecode]
        refine ⟨unmarked_redeem hnew₁ _, fun q hq => ?_⟩
        cases hq
        exact given_redeem hlook hdecode

theorem safe_connect {p : WsTicketPayload} {roomID userID : Uuid} (hnew : Unmarked i s) (hgiven : Given i p s)
    (hroom : p.roomID = roomID.toText) (huser : Uuid.parse p.userID = some userID) :
    TicketSafe requests i (connect roomID userID) s := by
  unfold connect
  intro s₁ hinv₁ h₁
  obtain ⟨r, hr, hreq, hdecode⟩ := hgiven.leaves h₁
  refine ⟨⟨⟨r, hr, hreq⟩, (hnew.leaves h₁).2⟩, fun reply s₂ hexec _ => ?_⟩
  cases hexec with
  | upgradeFailed e => trivial
  | upgrade =>
    intro s₃ _ h₃
    have hconn : s₃.conns[s₁.conns.length]? = some ⟨i, s₁.now⟩ := h₃.kept _ _ List.getElem?_concat_length
    -- the hub has only been handed connections that were there before
    have hunowned : s₁.conns.length ∉ s₃.owners := by
      intro hin
      have hold := h₃.owners _ _ List.getElem?_concat_length rfl hin
      obtain ⟨k, hk⟩ := List.getElem?_of_mem hold
      have hlt : k < s₁.hub.clients.length := hinv₁.aligned ▸ (List.getElem?_eq_some_iff.mp hk).1
      obtain ⟨c, -, -, hc, -⟩ := hinv₁.owned k _ _ hk (List.getElem?_eq_getElem hlt)
      exact absurd (List.getElem?_eq_some_iff.mp hc).1 (Nat.lt_irrefl _)
    exact ⟨⟨hunowned, _, r, p, hconn, rfl, h₃.redeemed r hr, hreq, hdecode, hroom, huser⟩, fun _ _ _ _ => trivial⟩

theorem safe_admit {p : WsTicketPayload} {param : String} (hnew : Unmarked i s) (hgiven : Given i p s) :
    TicketSafe requests i (admitTicket p param) s := by
  unfold admitTicket
  split
  · trivial
  · split
    · trivial
    · rename_i hroom
      split
      · trivial
      · rename_i userID huser
        exact safe_connect hnew hgiven (not_not.mp hroom) huser

theorem safe_serveWS {ticket param : String} (hi : requests[i]? = some (.serve ticket param)) (hnew : Unmarked i s) :
    TicketSafe requests i (serveWS ticket param) s := by
  unfold serveWS
  split
  · trivial
  · refine (safe_consumeWsTicket ⟨param, hi⟩ hnew).bind fun result t hresult => ?_
    match result with
    | .error e => trivial
    | .ok none => trivial
    | .ok (some p) => exact safe_admit hresult.1 (hresult.2 p rfl)

theorem safe_request {q : WsRequest} (hi : requests[i]? = some q) (hnew : Unmarked i s) :
    TicketSafe requests i q.prog s := by
  cases q with
  | issue claims param => exact safe_issueWsTicket hi hnew
  | serve ticket param => exact safe_serveWS hi hnew

end Programs

section Runs

variable {requests : List WsRequest} {pool pool' : TicketPool} {trace : List TicketLabel} {s : TicketState}

theorem inv_run (hinit : TicketInit pool) (h : Run TicketStep pool trace pool') (hserves : Serves requests trace) :
    TicketInv requests pool'.shared := by
  have hempty : Good ticketSemantics (ticketContract requests) (fun _ _ _ => True) pool := by
    refine ⟨.init hinit, fun i p hp => ?_⟩
    rw [hinit.threads] at hp
    cases hp
  have hentry : ∀ j p s, (spawned trace)[j]? = some p → (∃ q : WsRequest, p = q.prog) →
      Unmarked (pool.threads.length + j) s → TicketSafe requests (pool.threads.length + j) p s := by
    intro j p s hj _ hmark
    rw [hinit.threads, List.length_nil, Nat.zero_add] at hmark ⊢
    rw [hserves, List.getElem?_map] at hj
    obtain ⟨q, hq, rfl⟩ := Option.map_eq_some_iff.mp hj
    exact safe_request hq hmark
  have hunmarked : ∀ i, pool.threads.length ≤ i → Unmarked i pool.shared := by
    intro i _
    unfold Unmarked
    rw [hinit.issued, hinit.conns]
    exact ⟨nofun, nofun⟩
  exact (Good.run_spawned ticketContract_sound (fun _ _ _ _ _ _ => trivial)
    (fun _ _ _ => Unmarked.leaves) h hentry hempty hunmarked).shared

/-- The one issue of this ticket, for the user and the room that its request asked for. -/
structure IssuedFor (requests : List WsRequest) (s : TicketState) (x : Issue) (ticket userID : String)
    (roomID : Uuid) : Prop where
  issued : x ∈ s.issued
  key : x.key = ticketKey ticket
  asked : AsksFor requests x.request userID roomID
  only : ∀ y ∈ s.issued, y.key = ticketKey ticket → y = x

/-- The request of a connection took the ticket from Redis while it was to be found there. -/
def InTime (s : TicketState) (x : Issue) (c : Upgraded) : Prop :=
  ∃ r ∈ s.redeemed, r.request = c.request ∧ r.key = x.key ∧ x.time ≤ r.time ∧ r.time ≤ x.time + wsTicketTTL ∧
    r.time ≤ c.time

/-- A ticket opens at most one connection, by a request that took it in time; a client of the hub has
one connection to itself, and the user and the room of the issue of its ticket. -/
structure OneShot (requests : List WsRequest) (s : TicketState) : Prop where
  once : ∀ (conn conn' : Nat) (c c' : Upgraded) (ticket : String), s.conns[conn]? = some c →
    s.conns[conn']? = some c' → Presents requests c.request ticket → Presents requests c'.request ticket → conn = conn'
  opened : ∀ c ∈ s.conns, ∃ ticket x userID roomID, Presents requests c.request ticket ∧
    IssuedFor requests s x ticket userID roomID ∧ InTime s x c
  client : ∀ (k : Nat) (client : Client), s.hub.clients[k]? = some client →
    ∃ conn c ticket x userID, s.owners[k]? = some conn ∧ s.conns[conn]? = some c ∧ Presents requests c.request ticket ∧
      IssuedFor requests s x ticket userID client.roomID ∧ InTime s x c ∧ Uuid.parse userID = some client.userID
  alone : s.owners.Nodup
  registered : ∀ (roomID : Uuid) (k : Nat), k ∈ s.hub.members roomID →
    ∃ client, s.hub.clients[k]? = some client ∧ client.roomID = roomID

theorem Presents.same {i : Nat} {ticket ticket' : String} (h : Presents requests i ticket)
    (h' : Presents requests i ticket') : ticket = ticket' := by
  obtain ⟨param, hparam⟩ := h
  obtain ⟨param', hparam'⟩ := h'
  cases hparam.symm.trans hparam'
  rfl

theorem TicketInv.same_redemption (h : TicketInv requests s) {r r' : Redemption} (hr : r ∈ s.redeemed)
    (hr' : r' ∈ s.redeemed) (hkey : r.key = r'.key) : r = r' :=
  List.inj_on_of_nodup_map h.once hr hr' hkey

/-- A request is given no more than the one ticket it came with. -/
theorem TicketInv.redemption_of_presents (h : TicketInv requests s) {r : Redemption} {ticket : String}
    (hr : r ∈ s.redeemed) (hby : Presents requests r.request ticket) : r.key = ticketKey ticket := by
  obtain ⟨⟨other, hother, hkey⟩, -⟩ := h.redeemed r hr
  rw [hkey, hother.same hby]

theorem TicketInv.issuedFor (h : TicketInv requests s) {x : Issue} (hx : x ∈ s.issued) :
    ∃ ticket userID roomID, IssuedFor requests s x ticket userID roomID ∧
      x.data = WsTicketPayload.encode ⟨userID, roomID.toText⟩ := by
  obtain ⟨ticket, userID, roomID, hans⟩ := h.issued x hx
  refine ⟨ticket.toText, userID, roomID, ⟨hx, hans.key, hans.asked, fun y hy hkey => ?_⟩, hans.data⟩
  exact List.inj_on_of_nodup_map h.keys hy hx (hkey.trans hans.key.symm)

/-- The issue behind a redemption. -/
theorem TicketInv.issue_of_redemption (h : TicketInv requests s) {r : Redemption} (hr : r ∈ s.redeemed) :
    ∃ ticket x userID roomID, Presents requests r.request ticket ∧ IssuedFor requests s x ticket userID roomID ∧
      r.data = WsTicketPayload.encode ⟨userID, roomID.toText⟩ ∧ r.key = x.key ∧ x.time ≤ r.time ∧
      r.time ≤ x.time + wsTicketTTL := by
  obtain ⟨⟨ticket, hby, hkey⟩, x, hx, hxkey, hdata, hlow, hhigh⟩ := h.redeemed r hr
  obtain ⟨issued, userID, roomID, hfor, hxdata⟩ := h.issuedFor hx
  obtain rfl : issued = ticket := ticketKey_injective (hfor.key.symm.trans (hxkey.trans hkey))
  exact ⟨issued, x, userID, roomID, hby, hfor, hdata.symm.trans hxdata, hxkey.symm, hlow, hhigh⟩

theorem TicketInv.oneShot (h : TicketInv requests s) : OneShot requests s where
  once := by
    intro conn conn' c c' ticket hc hc' hby hby'
    obtain ⟨r, hr, hreq, -⟩ := h.conns c (List.mem_of_getElem? hc)
    obtain ⟨r', hr', hreq', -⟩ := h.conns c' (List.mem_of_getElem? hc')
    have hkey : r.key = r'.key :=
      (h.redemption_of_presents hr (hreq ▸ hby)).trans (h.redemption_of_presents hr' (hreq' ▸ hby')).symm
    have hsame : c.request = c'.request := by
      rw [← hreq, ← hreq', h.same_redemption hr hr' hkey]
    -- the same request, and no request upgrades twice
    have hmap : (s.conns.map Upgraded.request)[conn]? = some c.request := by
      rw [List.getElem?_map, hc]
      rfl
    have hmap' : (s.conns.map Upgraded.request)[conn']? = some c.request := by
      rw [List.getElem?_map, hc', hsame]
      rfl
    obtain ⟨hlt, -⟩ := List.getElem?_eq_some_iff.mp hmap
    exact (List.getElem?_inj hlt h.single).mp (hmap.trans hmap'.symm)
  opened := by
    intro c hc
    obtain ⟨r, hr, hreq, hle⟩ := h.conns c hc
    obtain ⟨ticket, x, userID, roomID, hby, hfor, -, hkey, hlow, hhigh⟩ := h.issue_of_redemption hr
    exact ⟨ticket, x, userID, roomID, hreq ▸ hby, hfor, r, hr, hreq, hkey, hlow, hhigh, hle⟩
  client := by
    intro k client hk
    have hlt : k < s.owners.length := h.aligned ▸ (List.getElem?_eq_some_iff.mp hk).1
    have hown := List.getElem?_eq_getElem hlt
    obtain ⟨c, r, p, hc, hr, hreq, hadmits⟩ := h.owned k _ client hown hk
    obtain ⟨ticket, x, userID, roomID, hby, hfor, hdata, hkey, hlow, hhigh⟩ := h.issue_of_redemption hr
    have hp : p = ⟨userID, roomID.toText⟩ := by
      have hdecoded := hadmits.decoded
      rw [hdata, WsTicketPayload.decode_encode] at hdecoded
      exact (Option.some.inj hdecoded).symm
    subst hp
    obtain rfl : roomID = client.roomID := Uuid.ext_text hadmits.room
    -- the request of the connection took its own ticket
    obtain ⟨r', hr', hreq', hle⟩ := h.conns c (List.mem_of_getElem? hc)
    have hsame : r' = r :=
      h.same_redemption hr' hr ((h.redemption_of_presents hr' (hreq'.trans hreq.symm ▸ hby)).trans
        (h.redemption_of_presents hr hby).symm)
    subst hsame
    exact ⟨_, c, ticket, x, userID, hown, hc, hreq ▸ hby, hfor, ⟨r', hr, hreq, hkey, hlow, hhigh, hle⟩, hadmits.user⟩
  alone := h.owners
  registered := h.rooms

end Runs

section Visit

/-- A ticket is asked for, and somebody comes with it. -/
def visit (user room ticket : Uuid) : List WsRequest :=
  [.issue (some user.toText) room.toText, .serve ticket.toText room.toText]

/-- Nothing has happened yet. -/
def quiet (members : Uuid → Uuid → Bool) : TicketState := ⟨fun _ => none, 0, newHub, [], members, [], [], [], []⟩

theorem quiet_init (members : Uuid → Uuid → Bool) : TicketInit ⟨quiet members, []⟩ :=
  ⟨fun _ => rfl, rfl, rfl, rfl, rfl, rfl, rfl, rfl⟩

variable (user room ticket : Uuid) (members : Uuid → Uuid → Bool) (ms : Nat)

/-- The ticket was issued, taken, and the connection it opened `ms` later is registered. -/
def visited : TicketState :=
  let payload := WsTicketPayload.encode ⟨user.toText, room.toText⟩
  let s := (((quiet members).set 0 (ticketKey ticket.toText) payload wsTicketTTL).drop (ticketKey ticket.toText))
  { s with
    now := ms
    drawn := [(0, ticket)]
    redeemed := [⟨ticketKey ticket.toText, payload, 1, 0⟩]
    conns := [⟨1, ms⟩]
    owners := [0]
    hub := (newHub.connect room user).register 0 ⟨room, user, GoChannel.make 256, .registering, false, true⟩ }

theorem prog_issue : ∃ next rest, (WsRequest.issue (some user.toText) room.toText).prog = .call .newV7 next ∧
    next ticket = .call (.set (ticketKey ticket.toText) (WsTicketPayload.encode ⟨user.toText, room.toText⟩)
      wsTicketTTL) rest := by
  have hparse : Uuid.parse room.toText = some room := Uuid.parse_text room
  unfold WsRequest.prog issueWsTicket
  dsimp only
  rw [hparse]
  exact ⟨_, _, rfl, rfl⟩

theorem admitTicket_own : admitTicket ⟨user.toText, room.toText⟩ room.toText = connect room user := by
  have hroom : Uuid.parse room.toText = some room := Uuid.parse_text room
  have huser : Uuid.parse user.toText = some user := Uuid.parse_text user
  unfold admitTicket
  simp only [hroom, huser]
  rw [if_neg (not_not.mpr rfl)]

theorem prog_serve : ∃ next, (WsRequest.serve ticket.toText room.toText).prog =
    .call (.evalConsume (ticketKey ticket.toText)) next ∧
    next (.ok (some (WsTicketPayload.encode ⟨user.toText, room.toText⟩))) = connect room user := by
  have hne : ticket.toText ≠ "" := Uuid.text_ne_empty ticket
  unfold WsRequest.prog serveWS
  dsimp only
  rw [if_neg hne]
  refine ⟨_, rfl, ?_⟩
  simp only [Prog.bind, WsTicketPayload.decode_encode, Prog.pure_eq]
  exact admitTicket_own user room

theorem prog_connect : ∃ next rest, connect room user = .call .upgrade next ∧
    next (.ok 0) = .call (.handleConnection 0 room user) rest :=
  ⟨_, _, rfl, rfl⟩

/-- The visit as a run whose steps may be held to a condition. -/
theorem run_visit {C : TicketPool → TicketLabel → Prop}
    (hset : ∀ pool key data ttl r, pool.shared.members = members → C pool (.cmd 0 (.set key data ttl) r))
    (hother : ∀ pool l, (∀ i key data ttl r, l ≠ .cmd i (.set key data ttl) r) → C pool l) :
    ∃ trace pool', Run (fun p l p' => TicketStep p l p' ∧ C p l) ⟨quiet members, []⟩ trace pool' ∧
      Serves (visit user room ticket) trace ∧ pool'.shared = visited user room ticket members ms := by
  let payload := WsTicketPayload.encode ⟨user.toText, room.toText⟩
  let s₁ : TicketState := { quiet members with drawn := [(0, ticket)] }
  let s₂ : TicketState := s₁.set 0 (ticketKey ticket.toText) payload wsTicketTTL
  let s₃ : TicketState := { s₂.drop (ticketKey ticket.toText) with
    redeemed := [⟨ticketKey ticket.toText, payload, 1, 0⟩] }
  let s₄ : TicketState := { s₃ with now := ms }
  let s₅ : TicketState := { s₄ with conns := [⟨1, ms⟩] }
  let s₆ : TicketState := { s₅ with hub := newHub.connect room user, owners := [0] }
  have hlook : s₂.lookup (ticketKey ticket.toText) = some payload := by
    have hself : s₂.store (ticketKey ticket.toText) = some ⟨payload, wsTicketTTL⟩ :=
      (Function.update_self _ _ _).trans (congrArg some (congrArg _ (Nat.zero_add _)))
    unfold TicketState.lookup
    rw [hself]
    exact if_pos (Nat.zero_le _)
  have hredeem : s₂.redeem 1 (ticketKey ticket.toText) = s₃ := by
    unfold TicketState.redeem
    rw [hlook]
    rfl
  obtain ⟨next, rest, hissue, hnext⟩ := prog_issue user room ticket
  obtain ⟨answer, hserve, hanswer⟩ := prog_serve user room ticket
  obtain ⟨opened, closed, hconnect, hopened⟩ := prog_connect user room
  have hnew : TicketStep ⟨quiet members, [.call .newV7 next]⟩ (.cmd 0 .newV7 ticket) ⟨s₁, [next ticket]⟩ :=
    .cmd rfl (.newV7 List.not_mem_nil)
  have hset₀ : TicketStep ⟨s₁, [next ticket]⟩ (.cmd 0 (.set (ticketKey ticket.toText) payload wsTicketTTL) (.ok ()))
      ⟨s₂, [rest (.ok ())]⟩ := .cmd (congrArg some hnext) (.set _ _ _)
  have hconsume : TicketStep ⟨s₂, [rest (.ok ()), .call (.evalConsume (ticketKey ticket.toText)) answer]⟩
      (.cmd 1 (.evalConsume (ticketKey ticket.toText)) (.ok (some payload)))
      ⟨s₃, [rest (.ok ()), answer (.ok (some payload))]⟩ := by
    have hexec := @Exec.consume 1 s₂ (ticketKey ticket.toText)
    rw [hlook, hredeem] at hexec
    exact .cmd rfl hexec
  have hafter : Ambient s₃ s₄ := by
    have hlater := @Ambient.after s₃ ms
    rwa [show s₃.now + ms = ms from Nat.zero_add ms] at hlater
  have hupgrade : TicketStep ⟨s₄, [rest (.ok ()), answer (.ok (some payload))]⟩ (.cmd 1 .upgrade (.ok 0))
      ⟨s₅, [rest (.ok ()), opened (.ok 0)]⟩ := .cmd (congrArg some (hanswer.trans hconnect)) .upgrade
  have hhandle : TicketStep ⟨s₅, [rest (.ok ()), opened (.ok 0)]⟩ (.cmd 1 (.handleConnection 0 room user) ())
      ⟨s₆, [rest (.ok ()), closed ()]⟩ := .cmd (congrArg some hopened) (.handleConnection 0 room user rfl)
  have hregister : HubStep (newHub.connect room user) (.register 0 room) _ :=
    .register (c := ⟨room, user, GoChannel.make 256, .registering, false, true⟩) rfl rfl rfl rfl
  refine ⟨_, ⟨_, [rest (.ok ()), closed ()]⟩, .cons ⟨.spawn ⟨_, hissue.symm⟩, hother _ _ nofun⟩
    (.cons ⟨hnew, hother _ _ nofun⟩ (.cons ⟨hset₀, hset _ _ _ _ _ rfl⟩
    (.cons ⟨.spawn ⟨_, hserve.symm⟩, hother _ _ nofun⟩ (.cons ⟨hconsume, hother _ _ nofun⟩
    (.cons ⟨.env (e := ()) hafter, hother _ _ nofun⟩ (.cons ⟨hupgrade, hother _ _ nofun⟩ (.cons ⟨hhandle, hother _ _ nofun⟩
    (.single ⟨.env (e := ()) (.hub hregister nofun), hother _ _ nofun⟩)))))))), ?_, rfl⟩
  simp only [Serves, spawned, visit, List.map_cons, List.map_nil, hissue, hserve]

end Visit

/-- Every connection was opened while its ticket was still valid. -/
def OpenedInTime (requests : List WsRequest) (s : TicketState) : Prop :=
  ∀ c ∈ s.conns, ∀ x ∈ s.issued, ∀ ticket, Presents requests c.request ticket → x.key = ticketKey ticket →
    c.time ≤ x.time + wsTicketTTL

section Claim

variable {requests : List WsRequest} {pool pool' : TicketPool} {trace : List TicketLabel}

/-- The thirty seconds are those in which a ticket can be redeemed. -/
theorem ws_ticket_one_shot (hinit : TicketInit pool) (h : Run TicketStep pool trace pool')
    (hserves : Serves requests trace) : OneShot requests pool'.shared :=
  (inv_run hinit h hserves).oneShot

end Claim

def ada : Uuid := ⟨"7d444840-9dc0-11d1-b245-5ffdce74fad2", by decide +kernel⟩

def lobby : Uuid := ⟨"1b4e28ba-2fa1-41d2-883f-0016d3cca427", by decide +kernel⟩

def adaTicket : Uuid := ⟨"01890a5d-ac96-774b-bcce-b302099a8060", by decide +kernel⟩

/-- Any member or not: the visit is a run. -/
theorem visit_run (members : Uuid → Uuid → Bool) (ms : Nat) : ∃ trace pool',
    Run TicketStep ⟨quiet members, []⟩ trace pool' ∧ Serves (visit ada lobby adaTicket) trace ∧
      pool'.shared = visited ada lobby adaTicket members ms := by
  obtain ⟨trace, pool', hrun, hrest⟩ := run_visit ada lobby adaTicket members ms
    (C := fun _ _ => True) (fun _ _ _ _ _ _ => trivial) (fun _ _ _ => trivial)
  exact ⟨trace, pool', hrun.mono fun _ _ _ h => h.1, hrest⟩

theorem ws_ticket_one_shot_visit : ∃ pool' : TicketPool, pool'.shared.conns ≠ [] ∧
    OneShot (visit ada lobby adaTicket) pool'.shared := by
  obtain ⟨trace, pool', hrun, hserves, hfinal⟩ := visit_run (fun _ _ => false) 0
  refine ⟨pool', ?_, ws_ticket_one_shot (quiet_init _) hrun hserves⟩
  rw [hfinal]
  exact List.cons_ne_nil _ _

/-- The upgrade may be slow in coming once the ticket is taken. -/
theorem upgrade_after_lifetime : ¬ ∀ requests pool trace pool', TicketInit pool → Run TicketStep pool trace pool' →
    Serves requests trace → OpenedInTime requests pool'.shared := by
  intro hall
  obtain ⟨trace, pool', hrun, hserves, hfinal⟩ := visit_run (fun _ _ => false) 30001
  have hintime := hall _ _ _ _ (quiet_init _) hrun hserves
  rw [hfinal] at hintime
  have hle := hintime _ List.mem_cons_self _ List.mem_cons_self adaTicket.toText ⟨_, rfl⟩ rfl
  exact absurd hle (by decide)

end Chinwag.Tickets

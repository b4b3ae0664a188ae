import Chinwag.Chat.HubClients
import Chinwag.Chat.WsTickets

/-!
# What becomes of a ticket

It is stored by the request that drew it and by no other, and whoever is given what it stands for has
deleted it. Each request finds its own part of that untouched by the others.
-/
namespace Chinwag.Tickets

open Chat GoChannel Program Redis Slots Transition

section Invariant

variable {requests : List WsRequest} {s t : TicketState} {i : Nat}

/-- Request `i` asks for a ticket for this user and room. -/
def AsksFor (requests : List WsRequest) (i : Nat) (userID : String) (roomID : Uuid) : Prop :=
  ∃ param, requests[i]? = some (.issue (some userID) param) ∧ Uuid.parse param = some roomID

/-- Request `i` comes with this ticket. -/
def Presents (requests : List WsRequest) (i : Nat) (ticket : String) : Prop :=
  ∃ param, requests[i]? = some (.serve ticket param)

/-- What an issue has to do with the request it answers. -/
structure Issue.Answers (requests : List WsRequest) (drawn : List (Nat × Uuid)) (x : Issue) (ticket : Uuid)
    (userID : String) (roomID : Uuid) : Prop where
  drawn : (x.request, ticket) ∈ drawn
  key : x.key = ticketKey ticket.toText
  asked : AsksFor requests x.request userID roomID
  data : x.data = WsTicketPayload.encode ⟨userID, roomID.toText⟩

/-- A client of the hub belongs to the payload that this request was given. -/
structure Redemption.Admits (r : Redemption) (roomID userID : Uuid) (p : WsTicketPayload) : Prop where
  decoded : WsTicketPayload.decode r.data = some p
  room : p.roomID = roomID.toText
  user : Uuid.parse p.userID = some userID

structure TicketInv (requests : List WsRequest) (s : TicketState) : Prop where
  drawn : (s.drawn.map Prod.snd).Nodup
  issued : ∀ x ∈ s.issued, ∃ ticket userID roomID, x.Answers requests s.drawn ticket userID roomID
  keys : (s.issued.map Issue.key).Nodup
  past : ∀ x ∈ s.issued, x.time ≤ s.now
  held : ∀ key e, s.store key = some e →
    (∃ x ∈ s.issued, x.key = key ∧ e = ⟨x.data, x.time + wsTicketTTL⟩) ∧ ∀ r ∈ s.redeemed, r.key ≠ key
  redeemed : ∀ r ∈ s.redeemed, (∃ ticket, Presents requests r.request ticket ∧ r.key = ticketKey ticket) ∧
    ∃ x ∈ s.issued, x.key = r.key ∧ x.data = r.data ∧ x.time ≤ r.time ∧ r.time ≤ x.time + wsTicketTTL
  once : (s.redeemed.map Redemption.key).Nodup
  conns : ∀ c ∈ s.conns, ∃ r ∈ s.redeemed, r.request = c.request ∧ r.time ≤ c.time
  single : (s.conns.map Upgraded.request).Nodup
  owned : ∀ (k conn : Nat) (client : Client), s.owners[k]? = some conn → s.hub.clients[k]? = some client →
    ∃ c r p, s.conns[conn]? = some c ∧ r ∈ s.redeemed ∧ r.request = c.request ∧
      r.Admits client.roomID client.userID p
  owners : s.owners.Nodup
  aligned : s.owners.length = s.hub.clients.length
  rooms : OwnRoom s.hub
  before : ∀ r ∈ s.redeemed, r.time ≤ s.now

theorem TicketInv.init {pool : TicketPool} (h : TicketInit pool) : TicketInv requests pool.shared where
  drawn := by simp [h.drawn]
  issued := by simp [h.issued]
  keys := by simp [h.issued]
  past := by simp [h.issued]
  held key e he := by simp [h.store] at he
  redeemed := by simp [h.redeemed]
  once := by simp [h.redeemed]
  conns := by simp [h.conns]
  single := by simp [h.conns]
  owned k conn client hk := by simp [h.owners] at hk
  owners := by simp [h.owners]
  aligned := by simp [h.owners, h.hub, newHub]
  rooms := h.hub ▸ OwnRoom.newHub
  before := by simp [h.redeemed]

theorem TicketInv.draw (h : TicketInv requests s) {ticket : Uuid} (hfresh : ticket ∉ s.drawn.map Prod.snd) (i : Nat) :
    TicketInv requests { s with drawn := (i, ticket) :: s.drawn } :=
  { h with
    drawn := List.nodup_cons.mpr ⟨hfresh, h.drawn⟩
    issued := by
      intro x hx
      obtain ⟨old, userID, roomID, hans⟩ := h.issued x hx
      exact ⟨old, userID, roomID, List.mem_cons_of_mem _ hans.drawn, hans.key, hans.asked, hans.data⟩ }

/-- The key of a request that has stored no ticket yet is new. -/
theorem TicketInv.key_fresh (h : TicketInv requests s) {ticket : Uuid} (hdrawn : (i, ticket) ∈ s.drawn)
    (hnone : ∀ x ∈ s.issued, x.request ≠ i) : ∀ x ∈ s.issued, x.key ≠ ticketKey ticket.toText := by
  intro x hx hkey
  obtain ⟨other, _, _, hans⟩ := h.issued x hx
  obtain rfl : other = ticket := Uuid.ext_text (ticketKey_injective (hans.key.symm.trans hkey))
  have hsame := List.inj_on_of_nodup_map h.drawn hans.drawn hdrawn rfl
  exact hnone x hx (Prod.ext_iff.mp hsame).1

theorem TicketInv.set (h : TicketInv requests s) {ticket : Uuid} {userID : String} {roomID : Uuid}
    (hdrawn : (i, ticket) ∈ s.drawn) (hasked : AsksFor requests i userID roomID)
    (hnone : ∀ x ∈ s.issued, x.request ≠ i) :
    TicketInv requests (s.set i (ticketKey ticket.toText) (WsTicketPayload.encode ⟨userID, roomID.toText⟩)
      wsTicketTTL) := by
  have hfresh := h.key_fresh hdrawn hnone
  refine { h with issued := ?_, keys := ?_, past := ?_, held := ?_, redeemed := ?_ }
  · intro x hx
    cases List.mem_cons.mp hx with
    | inl heq =>
      subst heq
      exact ⟨ticket, userID, roomID, hdrawn, rfl, hasked, rfl⟩
    | inr hold => exact h.issued x hold
  · refine List.nodup_cons.mpr ⟨fun hin => ?_, h.keys⟩
    obtain ⟨x, hx, hkey⟩ := List.mem_map.mp hin
    exact hfresh x hx hkey
  · intro x hx
    cases List.mem_cons.mp hx with
    | inl heq => exact heq ▸ Nat.le_refl s.now
    | inr hold => exact h.past x hold
  · intro key e he
    by_cases hkey : key = ticketKey ticket.toText
    · subst hkey
      have hself := Function.update_self (ticketKey ticket.toText)
        (some (⟨WsTicketPayload.encode ⟨userID, roomID.toText⟩, s.now + wsTicketTTL⟩ : StoredTicket)) s.store
      obtain rfl := Option.some.inj (he.symm.trans hself)
      refine ⟨⟨_, List.mem_cons_self, rfl, rfl⟩, fun r hr hsame => ?_⟩
      obtain ⟨x, hx, hx', -⟩ := (h.redeemed r hr).2
      exact hfresh x hx (hx'.trans hsame)
    · obtain ⟨⟨x, hx, hans⟩, hnot⟩ := h.held key e ((Function.update_of_ne hkey _ _).symm.trans he)
      exact ⟨⟨x, List.mem_cons_of_mem _ hx, hans⟩, hnot⟩
  · intro r hr
    obtain ⟨hby, x, hx, hrest⟩ := h.redeemed r hr
    exact ⟨hby, x, List.mem_cons_of_mem _ hx, hrest⟩

theorem TicketInv.drop (h : TicketInv requests s) (key : String) : TicketInv requests (s.drop key) :=
  { h with
    held := by
      intro k e he
      by_cases hk : k = key
      · subst hk
        have hgone : (s.drop k).store k = none := Function.update_self _ _ _
        rw [hgone] at he
        cases he
      · exact h.held k e ((Function.update_of_ne hk _ _).symm.trans he) }

theorem TicketInv.consume (h : TicketInv requests s) (key : String) : TicketInv requests (s.consume key) := by
  unfold TicketState.consume
  cases s.lookup key with
  | none => exact h
  | some data => exact h.drop key

theorem lookup_some {key : String} {data : Json} (h : s.lookup key = some data) :
    ∃ e, s.store key = some e ∧ e.data = data ∧ s.now ≤ e.expireAt := by
  unfold TicketState.lookup at h
  split at h
  · rename_i e he
    split at h
    · rename_i hlive
      exact ⟨e, he, Option.some.inj h, hlive⟩
    · cases h
  · cases h

/-- Who is given what a ticket stands for is the first, and in time. -/
theorem TicketInv.redeem (h : TicketInv requests s) {ticket : String} (hby : Presents requests i ticket) :
    TicketInv requests (s.redeem i (ticketKey ticket)) := by
  unfold TicketState.redeem
  cases hlook : s.lookup (ticketKey ticket) with
  | none => exact h
  | some data =>
    obtain ⟨e, he, rfl, hlive⟩ := lookup_some hlook
    obtain ⟨⟨x, hx, hkey, rfl⟩, hnot⟩ := h.held _ e he
    have hdrop := h.drop (ticketKey ticket)
    refine { hdrop with held := ?_, redeemed := ?_, once := ?_, conns := ?_, owned := ?_, before := ?_ }
    · intro k e' hk
      obtain ⟨hissue, hnone⟩ := hdrop.held k e' hk
      refine ⟨hissue, fun r hr => ?_⟩
      cases List.mem_cons.mp hr with
      | inl heq =>
        subst heq
        rintro rfl
        have hgone : (s.drop (ticketKey ticket)).store (ticketKey ticket) = none := Function.update_self _ _ _
        cases hgone.symm.trans hk
      | inr hold => exact hnone r hold
    · intro r hr
      cases List.mem_cons.mp hr with
      | inl heq =>
        subst heq
        exact ⟨⟨ticket, hby, rfl⟩, x, hx, hkey, rfl, h.past x hx, hlive⟩
      | inr hold => exact h.redeemed r hold
    · refine List.nodup_cons.mpr ⟨fun hin => ?_, h.once⟩
      obtain ⟨r, hr, hsame⟩ := List.mem_map.mp hin
      exact hnot r hr hsame
    · intro c hc
      obtain ⟨r, hr, hreq⟩ := h.conns c hc
      exact ⟨r, List.mem_cons_of_mem _ hr, hreq⟩
    · intro k conn client hk hclient
      obtain ⟨c, r, p, hc, hr, hrest⟩ := h.owned k conn client hk hclient
      exact ⟨c, r, p, hc, List.mem_cons_of_mem _ hr, hrest⟩
    · intro r hr
      cases List.mem_cons.mp hr with
      | inl heq => exact heq ▸ Nat.le_refl s.now
      | inr hold => exact h.before r hold

theorem TicketInv.upgrade (h : TicketInv requests s) (hr : ∃ r ∈ s.redeemed, r.request = i)
    (hnone : ∀ c ∈ s.conns, c.request ≠ i) :
    TicketInv requests { s with conns := s.conns ++ [⟨i, s.now⟩] } := by
  refine { h with conns := ?_, single := ?_, owned := ?_ }
  · intro c hc
    cases List.mem_append.mp hc with
    | inl hold => exact h.conns c hold
    | inr hnew =>
      obtain rfl := List.mem_singleton.mp hnew
      obtain ⟨r, hr, hreq⟩ := hr
      exact ⟨r, hr, hreq, h.before r hr⟩
  · rw [List.map_append, List.nodup_append]
    refine ⟨h.single, List.nodup_singleton _, ?_⟩
    intro a ha b hb hab
    obtain ⟨c, hc, hreq⟩ := List.mem_map.mp ha
    obtain rfl : b = i := List.mem_singleton.mp hb
    exact hnone c hc (hreq.trans hab)
  · intro k conn client hk hclient
    obtain ⟨c, r, p, hc, hrest⟩ := h.owned k conn client hk hclient
    exact ⟨c, r, p, (List.getElem?_append_left (List.getElem?_eq_some_iff.mp hc).1).trans hc, hrest⟩

theorem TicketInv.handle (h : TicketInv requests s) {conn : Nat} {roomID userID : Uuid} (hnew : conn ∉ s.owners)
    (hgiven : ∃ c r p, s.conns[conn]? = some c ∧ r ∈ s.redeemed ∧ r.request = c.request ∧ r.Admits roomID userID p) :
    TicketInv requests { s with hub := s.hub.connect roomID userID, owners := s.owners ++ [conn] } := by
  refine { h with owned := ?_, owners := ?_, aligned := ?_, rooms := h.rooms.connect roomID userID }
  · intro k conn' client hk hclient
    rcases slot_concat hk with hold | ⟨rfl, rfl⟩
    · have hlt : k < s.hub.clients.length := h.aligned ▸ (List.getElem?_eq_some_iff.mp hold).1
      exact h.owned k conn' client hold ((List.getElem?_append_left hlt).symm.trans hclient)
    · have hlast : (s.hub.connect roomID userID).clients[s.owners.length]? =
          some ⟨roomID, userID, make 256, .registering, false, true⟩ := by
        rw [h.aligned]
        exact List.getElem?_concat_length
      obtain rfl := Option.some.inj (hclient.symm.trans hlast)
      exact hgiven
  · rw [List.nodup_append]
    refine ⟨h.owners, List.nodup_singleton _, ?_⟩
    intro a ha b hb hab
    obtain rfl : b = conn := List.mem_singleton.mp hb
    exact hnew (hab ▸ ha)
  · show (s.owners ++ [conn]).length = (s.hub.clients ++ [_]).length
    rw [List.length_append, List.length_append, h.aligned]
    rfl

theorem TicketInv.hub (h : TicketInv requests s) {hub : Hub} (hsame : SameClients s.hub hub) :
    TicketInv requests { s with hub := hub } := by
  refine { h with owned := ?_, aligned := ?_, rooms := h.rooms.same hsame }
  · intro k conn client hk hclient
    obtain ⟨old, hold, hroom, huser⟩ := hsame.client k client hclient
    rw [hroom, huser]
    exact h.owned k conn old hk hold
  · rw [hsame.length]
    exact h.aligned

theorem TicketInv.ambient (h : TicketInv requests s) (hamb : Ambient s t) : TicketInv requests t := by
  cases hamb with
  | after ms =>
    exact { h with
      past := fun x hx => (h.past x hx).trans (Nat.le_add_right _ _)
      before := fun r hr => (h.before r hr).trans (Nat.le_add_right _ _) }
  | lose key => exact h.drop key
  | hub hstep hother => exact h.hub (sameClients_step hstep hother)
  | members => exact { h with }
  | restart =>
    exact { h with
      owned := fun k conn client hk => nomatch hk
      owners := List.nodup_nil
      aligned := rfl
      rooms := .newHub }

end Invariant

section Contract

variable {requests : List WsRequest} {s t u : TicketState} {i : Nat}

/-- What no other request does to the ticket and the connection of request `i`. -/
structure Leaves (i : Nat) (s t : TicketState) : Prop where
  drawn : ∀ d ∈ s.drawn, d ∈ t.drawn
  issued : ∀ x ∈ t.issued, x.request = i → x ∈ s.issued
  redeemed : ∀ r ∈ s.redeemed, r ∈ t.redeemed
  kept : ∀ (conn : Nat) (c : Upgraded), s.conns[conn]? = some c → t.conns[conn]? = some c
  conns : ∀ c ∈ t.conns, c.request = i → c ∈ s.conns
  owners : ∀ (conn : Nat) (c : Upgraded), s.conns[conn]? = some c → c.request = i → conn ∈ t.owners → conn ∈ s.owners

theorem Leaves.refl (i : Nat) (s : TicketState) : Leaves i s s :=
  ⟨fun _ h => h, fun _ h _ => h, fun _ h => h, fun _ _ h => h, fun _ h _ => h, fun _ _ _ _ h => h⟩

theorem Leaves.trans (h : Leaves i s t) (h' : Leaves i t u) : Leaves i s u where
  drawn d hd := h'.drawn d (h.drawn d hd)
  issued x hx hi := h.issued x (h'.issued x hx hi) hi
  redeemed r hr := h'.redeemed r (h.redeemed r hr)
  kept conn c hc := h'.kept conn c (h.kept conn c hc)
  conns c hc hi := h.conns c (h'.conns c hc hi) hi
  owners conn c hc hi ho := h.owners conn c hc hi (h'.owners conn c (h.kept conn c hc) hi ho)

theorem leaves_ambient (hamb : Ambient s t) (i : Nat) : Leaves i s t := by
  cases hamb with
  | after | lose | hub | members =>
    exact { Leaves.refl i s with }
  | restart => exact { Leaves.refl i s with owners := fun _ _ _ _ ho => nomatch ho }

/-- What a request has done before each of its calls. -/
def Owes (requests : List WsRequest) (i : Nat) : WsCmd → TicketState → Prop
  | .newV7, _ => True
  | .set key data ttl, s => ttl = wsTicketTTL ∧ (∀ x ∈ s.issued, x.request ≠ i) ∧
    ∃ ticket userID roomID, (i, ticket) ∈ s.drawn ∧ key = ticketKey ticket.toText ∧
      AsksFor requests i userID roomID ∧ data = WsTicketPayload.encode ⟨userID, roomID.toText⟩
  | .evalConsume key, _ => ∃ ticket, Presents requests i ticket ∧ key = ticketKey ticket
  | .upgrade, s => (∃ r ∈ s.redeemed, r.request = i) ∧ ∀ c ∈ s.conns, c.request ≠ i
  | .handleConnection conn roomID userID, s => conn ∉ s.owners ∧
    ∃ c r p, s.conns[conn]? = some c ∧ c.request = i ∧ r ∈ s.redeemed ∧ r.request = i ∧ r.Admits roomID userID p

theorem exec_keeps {c : WsCmd} {reply : WsReply c} (h : TicketInv requests s) (howes : Owes requests i c s)
    (hexec : Exec i c s reply t) : TicketInv requests t := by
  cases hexec with
  | newV7 hfresh => exact h.draw hfresh i
  | set key data ttl =>
    obtain ⟨rfl, hnone, ticket, userID, roomID, hdrawn, rfl, hasked, rfl⟩ := howes
    exact h.set hdrawn hasked hnone
  | setFailed => exact h
  | setLost key data ttl e =>
    obtain ⟨rfl, hnone, ticket, userID, roomID, hdrawn, rfl, hasked, rfl⟩ := howes
    exact h.set hdrawn hasked hnone
  | consume key =>
    obtain ⟨ticket, hby, rfl⟩ := howes
    exact h.redeem hby
  | consumeFailed => exact h
  | consumeLost key => exact h.consume key
  | upgrade => exact h.upgrade howes.1 howes.2
  | upgradeFailed => exact h
  | handleConnection conn roomID userID _ =>
    obtain ⟨hnew, c, r, p, hc, rfl, hr, hreq, hadmits⟩ := howes
    exact h.handle hnew ⟨c, r, p, hc, hr, hreq, hadmits⟩

/-- Redis forgets a key, and the ghosts of the requests stay. -/
theorem leaves_drop (s : TicketState) (key : String) (i : Nat) : Leaves i s (s.drop key) := { Leaves.refl i s with }

theorem leaves_redeem (s : TicketState) (j : Nat) (key : String) (i : Nat) : Leaves i s (s.redeem j key) := by
  unfold TicketState.redeem
  cases s.lookup key with
  | none => exact .refl i s
  | some data => exact { leaves_drop s key i with redeemed := fun r hr => List.mem_cons_of_mem _ hr }

theorem leaves_consume (s : TicketState) (key : String) (i : Nat) : Leaves i s (s.consume key) := by
  unfold TicketState.consume
  cases s.lookup key with
  | none => exact .refl i s
  | some data => exact leaves_drop s key i

theorem leaves_set {j : Nat} (hij : i ≠ j) (s : TicketState) (key : String) (data : Json) (ttl : Nat) :
    Leaves i s (s.set j key data ttl) :=
  { Leaves.refl i s with
    issued := by
      intro x hx hreq
      cases List.mem_cons.mp hx with
      | inl heq =>
        subst heq
        exact absurd hreq.symm hij
      | inr hold => exact hold }

theorem exec_leaves {c : WsCmd} {reply : WsReply c} {j : Nat} (howes : Owes requests j c s)
    (hexec : Exec j c s reply t) (hij : i ≠ j) : Leaves i s t := by
  cases hexec with
  | newV7 => exact { Leaves.refl i s with drawn := fun d hd => List.mem_cons_of_mem _ hd }
  | set key data ttl => exact leaves_set hij s key data ttl
  | setFailed => exact .refl i s
  | setLost key data ttl => exact leaves_set hij s key data ttl
  | consume key => exact leaves_redeem s j key i
  | consumeFailed => exact .refl i s
  | consumeLost key => exact leaves_consume s key i
  | upgrade =>
    exact { Leaves.refl i s with
      kept := fun conn c hc => (List.getElem?_append_left (List.getElem?_eq_some_iff.mp hc).1).trans hc
      conns := by
        intro c hc hreq
        cases List.mem_append.mp hc with
        | inl hold => exact hold
        | inr hnew =>
          obtain rfl := List.mem_singleton.mp hnew
          exact absurd hreq.symm hij }
  | upgradeFailed => exact .refl i s
  | handleConnection conn roomID userID _ =>
    obtain ⟨-, c, -, -, hc, hreq, -⟩ := howes
    exact { Leaves.refl i s with
      owners := by
        intro conn' c' hc' hreq' hin
        cases List.mem_append.mp hin with
        | inl hold => exact hold
        | inr hnew =>
          obtain rfl := List.mem_singleton.mp hnew
          obtain rfl := Option.some.inj (hc'.symm.trans hc)
          exact absurd (hreq'.symm.trans hreq) hij }

def ticketContract (requests : List WsRequest) : Contract TicketState WsCmd where
  inv := TicketInv requests
  rely := Leaves
  guar := Owes requests

theorem ticketContract_sound : (ticketContract requests).Sound ticketSemantics where
  rely_refl := Leaves.refl
  rely_trans _ _ _ _ := Leaves.trans
  env _ _ _ h hamb := ⟨h.ambient hamb, leaves_ambient hamb⟩
  cmd _ _ _ _ _ h howes hexec := ⟨exec_keeps h howes hexec, fun _ hij => exec_leaves howes hexec hij⟩

end Contract

end Chinwag.Tickets

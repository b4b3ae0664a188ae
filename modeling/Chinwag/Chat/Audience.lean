import Chinwag.Chat.TicketSafety

/-!
# Who hears a room

Whoever asks for a ticket gets one, member or not, and the hub asks no more than the ticket. So a room
is heard by members only as long as nobody else asks.
-/
namespace Chinwag.Tickets

open Chat Program Transition

variable {requests : List WsRequest} {pool pool' : TicketPool} {trace : List TicketLabel} {s t : TicketState} {i : Nat}

/-- A ticket is stored only for a user who is an active member of the room by then. -/
def ForMember (requests : List WsRequest) (pool : TicketPool) : TicketLabel → Prop
  | .cmd i (.set _ _ _) _ => ∀ userID roomID user, AsksFor requests i userID roomID → Uuid.parse userID = some user →
    pool.shared.members roomID user = true
  | _ => True

/-- A step that meets the condition. -/
def MemberStep (requests : List WsRequest) (p : TicketPool) (l : TicketLabel) (p' : TicketPool) : Prop :=
  TicketStep p l p' ∧ ForMember requests p l

/-- Every client registered for a room was an active member of it when the one ticket that its
connection came with was issued, for that room and that user. -/
def MembersHear (requests : List WsRequest) (s : TicketState) : Prop :=
  ∀ (roomID : Uuid) (k : Nat), k ∈ s.hub.members roomID → ∃ client conn c ticket x userID,
    s.hub.clients[k]? = some client ∧ client.roomID = roomID ∧ s.owners[k]? = some conn ∧ s.conns[conn]? = some c ∧
      Presents requests c.request ticket ∧ IssuedFor requests s x ticket userID roomID ∧
      Uuid.parse userID = some client.userID ∧ x.audience roomID client.userID = true

/-- Whoever was issued a ticket was a member then. -/
def IssuedToMembers (requests : List WsRequest) (s : TicketState) : Prop :=
  ∀ x ∈ s.issued, ∀ userID roomID user, AsksFor requests x.request userID roomID → Uuid.parse userID = some user →
    x.audience roomID user = true

theorem issued_redeem (s : TicketState) (i : Nat) (key : String) : (s.redeem i key).issued = s.issued := by
  unfold TicketState.redeem
  cases s.lookup key <;> rfl

theorem issued_consume (s : TicketState) (key : String) : (s.consume key).issued = s.issued := by
  unfold TicketState.consume
  cases s.lookup key <;> rfl

/-- Tickets come from `SET` alone. -/
theorem issued_exec {c : WsCmd} {reply : WsReply c} (hexec : Exec i c s reply t) :
    t.issued = s.issued ∨ ∃ key data ttl, c = .set key data ttl ∧
      t.issued = ⟨key, data, i, s.now, s.members⟩ :: s.issued := by
  cases hexec with
  | set key data ttl => exact .inr ⟨key, data, ttl, rfl, rfl⟩
  | setLost key data ttl => exact .inr ⟨key, data, ttl, rfl, rfl⟩
  | consume key => exact .inl (issued_redeem s i key)
  | consumeLost key => exact .inl (issued_consume s key)
  | newV7 | setFailed | consumeFailed | upgrade | upgradeFailed | handleConnection => exact .inl rfl

theorem issued_ambient (hamb : Ambient s t) : t.issued = s.issued := by
  cases hamb <;> rfl

theorem issuedToMembers_step {l : TicketLabel} (h : IssuedToMembers requests pool.shared)
    (hstep : MemberStep requests pool l pool') : IssuedToMembers requests pool'.shared := by
  obtain ⟨hst, hfor⟩ := hstep
  cases hst with
  | cmd hi hexec =>
    intro x hx
    rcases issued_exec hexec with hsame | ⟨key, data, ttl, rfl, hnew⟩
    · exact h x (hsame ▸ hx)
    · rw [hnew] at hx
      cases List.mem_cons.mp hx with
      | inl heq =>
        subst heq
        exact hfor
      | inr hold => exact h x hold
  | spawn => exact h
  | env hamb =>
    intro x hx
    exact h x (issued_ambient hamb ▸ hx)

theorem members_hear (hinit : TicketInit pool) (h : Run (MemberStep requests) pool trace pool')
    (hserves : Serves requests trace) : MembersHear requests pool'.shared := by
  have hmembers : IssuedToMembers requests pool'.shared := by
    refine h.invariant (fun _ _ _ hp hstep => issuedToMembers_step hp hstep) ?_
    intro x hx
    rw [hinit.issued] at hx
    cases hx
  have hshot := (inv_run hinit (h.mono fun _ _ _ hstep => hstep.1) hserves).oneShot
  intro roomID k hk
  obtain ⟨client, hclient, rfl⟩ := hshot.registered roomID k hk
  obtain ⟨conn, c, ticket, x, userID, hown, hc, hby, hfor, -, huser⟩ := hshot.client k client hclient
  have haudience := hmembers x hfor.issued userID client.roomID client.userID hfor.asked huser
  exact ⟨client, conn, c, ticket, x, userID, hclient, rfl, hown, hc, hby, hfor, huser, haudience⟩

theorem asksFor_visit {user room ticket roomID : Uuid} {userID : String}
    (h : AsksFor (visit user room ticket) 0 userID roomID) : userID = user.toText ∧ roomID = room := by
  obtain ⟨param, hparam, hparse⟩ := h
  cases hparam
  exact ⟨rfl, Option.some.inj (hparse.symm.trans (Uuid.parse_text room))⟩

theorem registered_visited (user room ticket : Uuid) (members : Uuid → Uuid → Bool) (ms : Nat) :
    0 ∈ (visited user room ticket members ms).hub.members room := by
  show 0 ∈ Hub.members (Hub.register _ 0 _) room
  rw [register_members, if_pos rfl]
  exact Finset.mem_insert_self _ _

theorem members_hear_visit : ∃ pool' : TicketPool, 0 ∈ pool'.shared.hub.members lobby ∧
    MembersHear (visit ada lobby adaTicket) pool'.shared := by
  let members : Uuid → Uuid → Bool := fun room user => room = lobby && user = ada
  obtain ⟨trace, pool', hrun, hserves, hfinal⟩ := run_visit ada lobby adaTicket members 0
    (C := ForMember (visit ada lobby adaTicket)) (fun pool _ _ _ _ hmembers userID roomID user hasks hparse => by
      obtain ⟨rfl, rfl⟩ := asksFor_visit hasks
      obtain rfl := Option.some.inj (hparse.symm.trans (Uuid.parse_text ada))
      rw [hmembers]
      simp [members])
    (fun _ l hl => by
      cases l with
      | cmd i c r =>
        cases c with
        | set key data ttl => exact absurd rfl (hl i key data ttl r)
        | newV7 | evalConsume | upgrade | handleConnection => trivial
      | spawn | env => trivial)
  refine ⟨pool', ?_, members_hear (quiet_init _) hrun hserves⟩
  rw [hfinal]
  exact registered_visited _ _ _ _ _

/-- A stranger hears the room. -/
theorem stranger_hears : ¬ ∀ requests pool trace pool', TicketInit pool → Run TicketStep pool trace pool' →
    Serves requests trace → MembersHear requests pool'.shared := by
  intro hall
  obtain ⟨trace, pool', hrun, hserves, hfinal⟩ := visit_run (fun _ _ => false) 0
  have hhear := hall _ _ _ _ (quiet_init _) hrun hserves
  rw [hfinal] at hhear
  obtain ⟨client, conn, c, ticket, x, userID, -, -, -, -, -, hfor, -, haudience⟩ :=
    hhear lobby 0 (registered_visited _ _ _ _ _)
  obtain rfl := List.mem_singleton.mp hfor.issued
  cases haudience

end Chinwag.Tickets

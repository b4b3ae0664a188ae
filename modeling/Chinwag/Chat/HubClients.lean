import Chinwag.Chat.HubDelivery

/-!
# Room and user of a client

They are those it was connected with for as long as it is there, and a room has only clients of its own.
-/
namespace Chinwag.Chat

open GoChannel Slots Transition

variable {h h' : Hub} {i : Nat} {c : Client}

/-- What a step of the hub and its pumps leaves of the clients: nobody comes or goes, nobody changes
room or user, and a room gains only clients of its own. -/
structure SameClients (h h' : Hub) : Prop where
  length : h'.clients.length = h.clients.length
  client : ∀ (k : Nat) (c' : Client), h'.clients[k]? = some c' →
    ∃ c, h.clients[k]? = some c ∧ c'.roomID = c.roomID ∧ c'.userID = c.userID
  member : ∀ (room : Uuid) (k : Nat), k ∈ h'.members room →
    k ∈ h.members room ∨ ∃ c, h.clients[k]? = some c ∧ c.roomID = room

theorem SameClients.of_eq (hclients : h'.clients = h.clients) (hrooms : h'.rooms = h.rooms) : SameClients h h' where
  length := by rw [hclients]
  client k c' hk := ⟨c', hclients ▸ hk, rfl, rfl⟩
  member room k hk := by
    unfold Hub.members at hk ⊢
    rw [hrooms] at hk
    exact .inl hk

theorem SameClients.of_set (c' : Client) (hi : h.clients[i]? = some c) (hroom : c'.roomID = c.roomID)
    (huser : c'.userID = c.userID) (hclients : h'.clients = h.clients.set i c')
    (hmember : ∀ (room : Uuid) (k : Nat), k ∈ h'.members room → k ∈ h.members room ∨ k = i ∧ c.roomID = room) :
    SameClients h h' where
  length := by rw [hclients, List.length_set]
  client k d hk := by
    rw [hclients] at hk
    rcases slot_set hk with ⟨rfl, rfl⟩ | ⟨-, hold⟩
    · exact ⟨c, hi, hroom, huser⟩
    · exact ⟨d, hold, rfl, rfl⟩
  member room k hk := by
    rcases hmember room k hk with hold | ⟨rfl, hown⟩
    · exact .inl hold
    · exact .inr ⟨c, hi, hown⟩

theorem sameClients_setClient {c' : Client} (hi : h.clients[i]? = some c) (hroom : c'.roomID = c.roomID)
    (huser : c'.userID = c.userID) : SameClients h (h.setClient i c') :=
  .of_set c' hi hroom huser rfl fun _ _ hk => .inl hk

theorem sameClients_register (hi : h.clients[i]? = some c) : SameClients h (h.register i c) := by
  refine .of_set { c with reader := .reading, writing := true } hi rfl rfl rfl fun room k hk => ?_
  rw [register_members] at hk
  split at hk
  · rename_i heq
    rcases Finset.mem_insert.mp hk with rfl | hold
    · exact .inr ⟨rfl, heq.symm⟩
    · exact .inl (heq ▸ hold)
  · exact .inl hk

/-- The rooms after one of them has lost a client. -/
theorem mem_of_update {rooms : Uuid → Option (Finset Nat)} {room other : Uuid} {value : Option (Finset Nat)} {k : Nat}
    (hvalue : value.getD ∅ ⊆ (rooms room).getD ∅) (hk : k ∈ (Function.update rooms room value other).getD ∅) :
    k ∈ (rooms other).getD ∅ := by
  rw [members_update] at hk
  split at hk
  · rename_i heq
    exact heq ▸ hvalue hk
  · exact hk

theorem sameClients_unregister (hi : h.clients[i]? = some c) : SameClients h (h.unregister i c) := by
  unfold Hub.unregister
  split
  · cases c.send.close with
    | error p => exact .of_eq rfl rfl
    | ok send =>
      refine .of_set { c with send := send, reader := .closing } hi rfl rfl rfl fun room k hk =>
        .inl (mem_of_update ?_ hk)
      split
      · exact Finset.empty_subset _
      · exact Finset.erase_subset _ _
  · exact sameClients_setClient hi rfl rfl

theorem sameClients_deliver {msg : BroadcastMessage} {left : Finset Nat} (hi : h.clients[i]? = some c) :
    SameClients h (h.deliver msg left i c) := by
  unfold Hub.deliver
  match c.send.trySend (.message msg.message) with
  | .error p => exact .of_eq rfl rfl
  | .ok none => exact .of_eq rfl rfl
  | .ok (some send) => exact .of_set { c with send := send } hi rfl rfl rfl fun _ _ hk => .inl hk

theorem sameClients_evict {msg : BroadcastMessage} {left : Finset Nat} (hi : h.clients[i]? = some c) :
    SameClients h (h.evict msg left i c) := by
  unfold Hub.evict
  cases c.send.close with
  | error p => exact .of_eq rfl rfl
  | ok send =>
    refine .of_set { c with send := send } hi rfl rfl rfl fun room k hk => .inl (mem_of_update ?_ hk)
    cases h.rooms c.roomID with
    | none => exact Finset.empty_subset _
    | some members => exact Finset.erase_subset _ _

theorem sameClients_answerPing (hi : h.clients[i]? = some c) : SameClients h (h.answerPing i c) := by
  unfold Hub.answerPing
  match c.send.trySend .pong with
  | .error p => exact .of_eq rfl rfl
  | .ok none => exact sameClients_setClient hi rfl rfl
  | .ok (some send) => exact sameClients_setClient hi rfl rfl

theorem sameClients_step {e : HubEvent} (hstep : HubStep h e h') (hother : ∀ room user, e ≠ .connect room user) :
    SameClients h h' := by
  cases hstep with
  | connect _ room user => exact absurd rfl (hother room user)
  | register _ _ hi _ => exact sameClients_register hi
  | ping _ hi _ _ => exact sameClients_setClient hi rfl rfl
  | readFailed _ hi _ => exact sameClients_setClient hi rfl rfl
  | pong _ hi _ => exact sameClients_answerPing hi
  | unregister _ _ hi _ => exact sameClients_unregister hi
  | closed _ hi _ => exact sameClients_setClient hi rfl rfl
  | write _ hi _ _ => exact sameClients_setClient hi rfl rfl
  | writeClosed _ hi _ _ => exact sameClients_setClient hi rfl rfl
  | writeFailed _ hi _ => exact sameClients_setClient hi rfl rfl
  | post => exact .of_eq rfl rfl
  | take => exact .of_eq rfl rfl
  | deliver _ _ _ hi _ => exact sameClients_deliver hi
  | crash _ _ _ hi _ => exact sameClients_deliver hi
  | overflow _ _ _ hi _ => exact sameClients_deliver hi
  | evict _ _ hi => exact sameClients_evict hi
  | finish => exact .of_eq rfl rfl

/-- The members of a room are clients that asked for it. -/
def OwnRoom (h : Hub) : Prop :=
  ∀ (room : Uuid) (k : Nat), k ∈ h.members room → ∃ c, h.clients[k]? = some c ∧ c.roomID = room

theorem OwnRoom.newHub : OwnRoom Chat.newHub := fun _ k hk => absurd hk (Finset.notMem_empty k)

theorem OwnRoom.connect (hown : OwnRoom h) (room user : Uuid) : OwnRoom (h.connect room user) := by
  intro r k hk
  obtain ⟨c, hc, hroom⟩ := hown r k hk
  exact ⟨c, (List.getElem?_append_left (List.getElem?_eq_some_iff.mp hc).1).trans hc, hroom⟩

theorem OwnRoom.same (hown : OwnRoom h) (hsame : SameClients h h') : OwnRoom h' := by
  intro room k hk
  obtain ⟨c, hc, hroom⟩ : ∃ c, h.clients[k]? = some c ∧ c.roomID = room := by
    rcases hsame.member room k hk with hold | hnew
    · exact hown room k hold
    · exact hnew
  have hlt : k < h'.clients.length := hsame.length ▸ (List.getElem?_eq_some_iff.mp hc).1
  obtain ⟨d, hd, hdroom, -⟩ := hsame.client k _ (List.getElem?_eq_getElem hlt)
  obtain rfl := Option.some.inj (hd.symm.trans hc)
  exact ⟨_, List.getElem?_eq_getElem hlt, hdroom.trans hroom⟩

end Chinwag.Chat

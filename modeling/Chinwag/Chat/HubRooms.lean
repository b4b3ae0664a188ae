import Mathlib.Data.Finset.Basic
import Chinwag.Chat.HubSafety

/-!
# The rooms of the hub

A room has an entry in the map of the hub from its first client on. Two branches remove a client;
only one of them drops the entry with the last.
-/
namespace Chinwag.Chat

open GoChannel Slots Transition

variable {h h' : Hub} {i : Nat} {c : Client} {rooms : Uuid → Option (Finset Nat)}

def Occupied (rooms : Uuid → Option (Finset Nat)) : Prop := ∀ room s, rooms room = some s → s ≠ ∅

/-- No room is kept without a client, and those that have registered are in the map, under their
own room, exactly while their channel is open. -/
structure Tight (h : Hub) : Prop where
  occupied : Occupied h.rooms
  own : ∀ (room : Uuid) (i : Nat), i ∈ h.members room → ∃ c, h.clients[i]? = some c ∧ c.roomID = room
  open_iff : ∀ (i : Nat) (c : Client), h.clients[i]? = some c → c.reader ≠ .registering →
    (i ∈ h.members c.roomID ↔ c.send.closed = false)

theorem tight_iff (hinv : HubInv h) : Tight h ↔ Occupied h.rooms := by
  constructor
  · exact Tight.occupied
  · intro hoccupied
    exact ⟨hoccupied, hinv.member, fun i c hi hc => (hinv.open_iff i c hi hc).symm⟩

theorem occupied_update (hoccupied : Occupied rooms) (room : Uuid) (value : Option (Finset Nat)) :
    Occupied (Function.update rooms room value) ↔ value ≠ some ∅ := by
  constructor
  · intro hafter hempty
    exact hafter room ∅ (by rw [Function.update_self, hempty]) rfl
  · intro hvalue other s hs
    by_cases heq : other = room
    · subst heq
      rw [Function.update_self] at hs
      rw [hs] at hvalue
      exact fun hempty => hvalue (congrArg some hempty)
    · rw [Function.update_of_ne heq] at hs
      exact hoccupied other s hs

/-- No client is evicted from a room in which it is alone. -/
def EvictsInCompany (h : Hub) (e : HubEvent) : Prop :=
  ∀ i c, e = .evict i → h.clients[i]? = some c → h.members c.roomID ≠ {i}

theorem occupied_register (hoccupied : Occupied h.rooms) : Occupied (h.register i c).rooms := by
  refine (occupied_update hoccupied _ _).mpr fun hempty => ?_
  exact Finset.insert_ne_empty i (h.members c.roomID) (Option.some.inj hempty)

theorem occupied_unregister (hoccupied : Occupied h.rooms) : Occupied (h.unregister i c).rooms := by
  unfold Hub.unregister
  split
  · split
    · exact hoccupied
    · refine (occupied_update hoccupied _ _).mpr ?_
      split
      · exact nofun
      · next hrest => exact fun hempty => hrest (Option.some.inj hempty)
  · exact hoccupied

theorem occupied_evict (hinv : HubInv h) (hoccupied : Occupied h.rooms) {msg : BroadcastMessage} {left : Finset Nat}
    (hphase : h.phase = .evicting msg left i) (hi : h.clients[i]? = some c) :
    Occupied (h.evict msg left i c).rooms ↔ h.members c.roomID ≠ {i} := by
  have hok := hinv.phase
  unfold PhaseOk at hok
  rw [hphase] at hok
  have hmem : i ∈ h.members c.roomID := by
    rw [hinv.room_of_mem hi hok.2.1]
    exact hok.2.1
  have hne : c.reader ≠ .registering := fun hreg => (hinv.fresh i c hi hreg).2 hmem
  unfold Hub.evict
  rw [close_open ((hinv.open_iff i c hi hne).mpr hmem)]
  refine (occupied_update hoccupied _ _).trans (not_congr ?_)
  unfold Hub.members at hmem ⊢
  cases hroom : h.rooms c.roomID with
  | none =>
    rw [hroom] at hmem
    exact absurd hmem (Finset.notMem_empty i)
  | some s =>
    rw [hroom] at hmem
    have hsome : s ≠ ∅ := Finset.ne_empty_of_mem hmem
    rw [Option.map_some, Option.some.injEq, Finset.erase_eq_empty_iff, Option.getD_some]
    exact or_iff_right hsome

/-- A step other than an eviction keeps the rooms occupied. -/
theorem occupied_step (hinv : HubInv h) (hoccupied : Occupied h.rooms) {e : HubEvent} (hstep : HubStep h e h') :
    Occupied h'.rooms ↔ EvictsInCompany h e := by
  have hother : ∀ {e : HubEvent} {h' : Hub}, (∀ i, e ≠ .evict i) → Occupied h'.rooms →
      (Occupied h'.rooms ↔ EvictsInCompany h e) := by
    intro e h' hne hkept
    exact iff_of_true hkept fun i c heq => absurd heq (hne i)
  cases hstep with
  | register => exact hother nofun (occupied_register hoccupied)
  | unregister => exact hother nofun (occupied_unregister hoccupied)
  | @evict msg left i c halive hphase hi =>
    rw [occupied_evict hinv hoccupied hphase hi]
    constructor
    · intro hcompany j d heq hd
      cases heq
      obtain rfl := Option.some.inj (hi.symm.trans hd)
      exact hcompany
    · exact fun hcompany => hcompany i c rfl hi
  | pong =>
    refine hother nofun ?_
    unfold Hub.answerPing
    split <;> exact hoccupied
  | deliver =>
    refine hother nofun ?_
    unfold Hub.deliver
    split <;> exact hoccupied
  | crash =>
    refine hother nofun ?_
    unfold Hub.deliver
    split <;> exact hoccupied
  | overflow =>
    refine hother nofun ?_
    unfold Hub.deliver
    split <;> exact hoccupied
  | _ => exact hother nofun hoccupied

/-- The map stays tight along a run exactly if no eviction takes the last client of its room. -/
theorem rooms_tight_iff (trace : List HubEvent) (h : Hub) :
    (∀ before after s, trace = before ++ after → Run HubStep newHub before s → Run HubStep s after h → Tight s) ↔
    ∀ before e after s t, trace = before ++ e :: after → Run HubStep newHub before s → HubStep s e t →
      Run HubStep t after h → EvictsInCompany s e := by
  have hinv : ∀ s e t, HubInv s → HubStep s e t → HubInv t := fun s e t hs hst => (hs.step hst).1
  have hgood : ∀ s e t, HubInv s → Tight s → HubStep s e t → (Tight t ↔ EvictsInCompany s e) := by
    intro s e t hs htight hst
    rw [tight_iff (hinv s e t hs hst)]
    exact occupied_step hs htight.occupied hst
  exact Run.always_good_iff hinv hgood HubInv.init ((tight_iff HubInv.init).mpr nofun)

/-- The only client of a room does not read, and the hub gives it up. -/
theorem stalled_room_stays : ∃ trace h, Run HubStep newHub trace h ∧ h.rooms wsRoom = some ∅ ∧ ¬ Tight h := by
  obtain ⟨trace, hrun⟩ := stalled_fills 256 (Nat.le_refl _)
  obtain ⟨last, h, hevicted, -, -, hroom⟩ := stalled_evicted .reading
  refine ⟨_, h, stalled_registers.append (hrun.append hevicted), hroom, fun htight => ?_⟩
  exact htight.occupied wsRoom ∅ hroom rfl

end Chinwag.Chat

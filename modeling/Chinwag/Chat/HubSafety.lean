import Chinwag.Chat.Hub
import Chinwag.Lib.Slots

/-!
# Who may still send to a client

The hub sends only to clients it knows, and closes a channel when it forgets the client. Its
`readPump` does not learn of that before it reads again.
-/
namespace Chinwag.Chat

open GoChannel Slots Transition

variable {h h' : Hub} {i j : Nat} {c c' : Client} {room : Uuid}

/-- The hub knows the client. -/
def Hub.knows (h : Hub) (i : Nat) : Prop := ∃ c, h.clients[i]? = some c ∧ i ∈ h.members c.roomID

/-- The clients the range has still to come to, or to evict, are members of the room. -/
def PhaseOk (h : Hub) : Prop :=
  match h.phase with
  | .selecting => True
  | .delivering msg left => left ⊆ h.members msg.roomID
  | .evicting msg left i => left ⊆ h.members msg.roomID ∧ i ∈ h.members msg.roomID ∧ i ∉ left

/-- A client that has registered has an open channel exactly while the hub knows it. -/
structure HubInv (h : Hub) : Prop where
  member : ∀ (room : Uuid) (i : Nat), i ∈ h.members room → ∃ c, h.clients[i]? = some c ∧ c.roomID = room
  open_iff : ∀ (i : Nat) (c : Client), h.clients[i]? = some c → c.reader ≠ .registering →
    (c.send.closed = false ↔ i ∈ h.members c.roomID)
  fresh : ∀ (i : Nat) (c : Client), h.clients[i]? = some c → c.reader = .registering →
    c.send.closed = false ∧ i ∉ h.members c.roomID
  phase : PhaseOk h

theorem HubInv.init : HubInv newHub where
  member := fun _ i hi => absurd hi (Finset.notMem_empty i)
  open_iff := fun _ _ hi => nomatch hi
  fresh := fun _ _ hi => nomatch hi
  phase := trivial

/-- A member of the room of another client has that room. -/
theorem HubInv.room_of_mem (hinv : HubInv h) (hi : h.clients[i]? = some c) (hmem : i ∈ h.members room) :
    c.roomID = room := by
  obtain ⟨d, hd, hroom⟩ := hinv.member room i hmem
  obtain rfl := Option.some.inj (hi.symm.trans hd)
  exact hroom

theorem HubInv.knows_iff (hinv : HubInv h) (hi : h.clients[i]? = some c) (hc : c.reader ≠ .registering) :
    h.knows i ↔ c.send.closed = false := by
  constructor
  · rintro ⟨d, hd, hmem⟩
    obtain rfl := Option.some.inj (hi.symm.trans hd)
    exact (hinv.open_iff i c hi hc).mpr hmem
  · exact fun hopen => ⟨c, hi, (hinv.open_iff i c hi hc).mp hopen⟩

/-- A step of a client that leaves its channel open or closed as it was. -/
theorem HubInv.setClient (hinv : HubInv h) (hi : h.clients[i]? = some c) (hroom : c'.roomID = c.roomID)
    (hclosed : c'.send.closed = c.send.closed) (hreader : c'.reader = .registering ↔ c.reader = .registering) :
    HubInv (h.setClient i c') where
  member := by
    intro room j hj
    obtain ⟨d, hd, hdroom⟩ := hinv.member room j hj
    by_cases heq : i = j
    · subst heq
      obtain rfl := Option.some.inj (hi.symm.trans hd)
      exact ⟨c', slot_set_self hi, hroom.trans hdroom⟩
    · exact ⟨d, (List.getElem?_set_ne heq).trans hd, hdroom⟩
  open_iff := by
    intro j d hd hne
    rcases slot_set hd with ⟨rfl, rfl⟩ | ⟨-, hold⟩
    · rw [hclosed, hroom]
      exact hinv.open_iff j c hi (mt hreader.mpr hne)
    · exact hinv.open_iff j d hold hne
  fresh := by
    intro j d hd heq
    rcases slot_set hd with ⟨rfl, rfl⟩ | ⟨-, hold⟩
    · rw [hclosed, hroom]
      exact hinv.fresh j c hi (hreader.mp heq)
    · exact hinv.fresh j d hold heq
  phase := hinv.phase

/-- A step of the hub in its range that moves no client in or out. -/
theorem HubInv.setPhase (hinv : HubInv h) (phase : Phase) (hphase : PhaseOk { h with phase := phase }) :
    HubInv { h with phase := phase } :=
  ⟨hinv.member, hinv.open_iff, hinv.fresh, hphase⟩

theorem HubInv.die (hinv : HubInv h) (p : Panic) : HubInv (h.die p) :=
  ⟨hinv.member, hinv.open_iff, hinv.fresh, hinv.phase⟩

theorem HubInv.setBroadcast (hinv : HubInv h) (queue : List BroadcastMessage) : HubInv { h with broadcast := queue } :=
  ⟨hinv.member, hinv.open_iff, hinv.fresh, hinv.phase⟩

section Rooms

/-- Only the set of one room changes, and only by this client. -/
theorem HubInv.setRoom (hinv : HubInv h) (c' : Client) (value : Option (Finset Nat)) (phase : Phase)
    (hi : h.clients[i]? = some c) (hroom : c'.roomID = c.roomID) (hreader : c'.reader ≠ .registering)
    (hothers : ∀ j, j ≠ i → (j ∈ value.getD ∅ ↔ j ∈ h.members c.roomID))
    (hopen : c'.send.closed = false ↔ i ∈ value.getD ∅)
    (hphase : PhaseOk { h with rooms := Function.update h.rooms c.roomID value, phase := phase }) :
    HubInv { h with
      clients := h.clients.set i c', rooms := Function.update h.rooms c.roomID value, phase := phase } := by
  have hmembers : ∀ room, Hub.members { h with
      clients := h.clients.set i c', rooms := Function.update h.rooms c.roomID value, phase := phase } room =
        if room = c.roomID then value.getD ∅ else h.members room := by
    intro room
    unfold Hub.members
    by_cases heq : room = c.roomID
    · subst heq
      simp
    · simp [heq]
  -- for another client nothing has changed
  have hsame : ∀ j, j ≠ i → ∀ room, (j ∈ Hub.members { h with
      clients := h.clients.set i c', rooms := Function.update h.rooms c.roomID value, phase := phase } room ↔
        j ∈ h.members room) := by
    intro j hj room
    rw [hmembers]
    split
    · rename_i heq
      rw [heq]
      exact hothers j hj
    · exact Iff.rfl
  refine ⟨fun room j hj => ?_, fun j d hd hne => ?_, fun j d hd heq => ?_, hphase⟩
  · by_cases heq : j = i
    · subst heq
      refine ⟨c', slot_set_self hi, ?_⟩
      rw [hmembers] at hj
      split at hj
      · rename_i hr
        exact hroom.trans hr.symm
      · exact hroom.trans (hinv.room_of_mem hi hj)
    · obtain ⟨d, hd, hdroom⟩ := hinv.member room j ((hsame j heq room).mp hj)
      exact ⟨d, (List.getElem?_set_ne (Ne.symm heq)).trans hd, hdroom⟩
  · rcases slot_set hd with ⟨rfl, rfl⟩ | ⟨hji, hold⟩
    · rw [hmembers, if_pos hroom]
      exact hopen
    · rw [hsame j hji]
      exact hinv.open_iff j d hold hne
  · rcases slot_set hd with ⟨rfl, rfl⟩ | ⟨hji, hold⟩
    · exact absurd heq hreader
    · rw [hsame j hji]
      exact hinv.fresh j d hold heq

theorem HubInv.register (hinv : HubInv h) (hi : h.clients[i]? = some c) (hc : c.reader = .registering)
    (hphase : h.phase = .selecting) : HubInv (h.register i c) := by
  have hopen := (hinv.fresh i c hi hc).1
  have hok := hinv.setRoom { c with reader := .reading, writing := true } (some (insert i (h.members c.roomID)))
    .selecting hi rfl nofun (fun j hj => by simp [hj]) (by simp [hopen]) trivial
  unfold Hub.register
  rw [← hphase] at hok
  exact hok

theorem HubInv.unregister (hinv : HubInv h) (hi : h.clients[i]? = some c) (hc : c.reader = .leaving)
    (hphase : h.phase = .selecting) : HubInv (h.unregister i c) ∧ (h.unregister i c).panic = h.panic := by
  have hne : c.reader ≠ .registering := by
    rw [hc]
    nofun
  unfold Hub.unregister
  split
  · rename_i hmem
    rw [close_open ((hinv.open_iff i c hi hne).mpr hmem)]
    refine ⟨?_, rfl⟩
    have hrest : (if (h.members c.roomID).erase i = ∅ then none else some ((h.members c.roomID).erase i)).getD ∅ =
        (h.members c.roomID).erase i := by
      split
      · rename_i hempty
        exact hempty.symm
      · rfl
    have hok := hinv.setRoom { c with send := { c.send with closed := true }, reader := .closing }
      (if (h.members c.roomID).erase i = ∅ then none else some ((h.members c.roomID).erase i)) .selecting hi rfl nofun
      (fun j hj => by rw [hrest]; simp [hj]) (by rw [hrest]; simp) trivial
    rw [← hphase] at hok
    exact hok
  · refine ⟨hinv.setClient hi rfl rfl ?_, rfl⟩
    rw [hc]
    exact ⟨nofun, nofun⟩

theorem HubInv.evict (hinv : HubInv h) {msg : BroadcastMessage} {left : Finset Nat}
    (hphase : h.phase = .evicting msg left i) (hi : h.clients[i]? = some c) :
    HubInv (h.evict msg left i c) ∧ (h.evict msg left i c).panic = h.panic := by
  have hok := hinv.phase
  unfold PhaseOk at hok
  rw [hphase] at hok
  obtain ⟨hleft, hmem, hnot⟩ := hok
  have hroom : c.roomID = msg.roomID := hinv.room_of_mem hi hmem
  rw [← hroom] at hmem hleft
  have hne : c.reader ≠ .registering := fun hreg => (hinv.fresh i c hi hreg).2 hmem
  have hopen := (hinv.open_iff i c hi hne).mpr hmem
  have hset : ((h.rooms c.roomID).map fun s => s.erase i).getD ∅ = (h.members c.roomID).erase i := by
    unfold Hub.members
    cases h.rooms c.roomID <;> rfl
  have hafter : PhaseOk { h with
      rooms := Function.update h.rooms c.roomID ((h.rooms c.roomID).map fun s => s.erase i)
      phase := .delivering msg left } := by
    intro j hj
    unfold Hub.members
    dsimp only
    rw [← hroom, Function.update_self, hset, Finset.mem_erase]
    refine ⟨?_, hleft hj⟩
    rintro rfl
    exact hnot hj
  have hgone := hinv.setRoom { c with send := { c.send with closed := true } }
    ((h.rooms c.roomID).map fun s => s.erase i) (.delivering msg left) hi rfl hne
    (fun j hj => by rw [hset]; simp [hj]) (by rw [hset]; simp) hafter
  unfold Hub.evict
  rw [close_open hopen]
  exact ⟨hgone, rfl⟩

end Rooms

/-- The range offers the message to a client the hub knows. -/
theorem HubInv.deliver (hinv : HubInv h) {msg : BroadcastMessage} {left : Finset Nat}
    (hphase : h.phase = .delivering msg left) (hleft : i ∈ left) (hi : h.clients[i]? = some c) :
    HubInv (h.deliver msg left i c) ∧ (h.deliver msg left i c).panic = h.panic := by
  have hok := hinv.phase
  unfold PhaseOk at hok
  rw [hphase] at hok
  have hmem := hok hleft
  have hroom : c.roomID = msg.roomID := hinv.room_of_mem hi hmem
  have hne : c.reader ≠ .registering := fun hreg => (hinv.fresh i c hi hreg).2 (hroom ▸ hmem)
  have hopen : c.send.closed = false := (hinv.open_iff i c hi hne).mpr (hroom ▸ hmem)
  unfold Hub.deliver
  split
  · rename_i p hsend
    rw [(trySend_error.mp hsend).1] at hopen
    cases hopen
  · rename_i send hsend
    obtain ⟨-, rfl⟩ := trySend_some hsend
    have hsent : HubInv (h.setClient i { c with send := { c.send with buffer := c.send.buffer ++ [.message msg.message] } }) :=
      hinv.setClient hi rfl rfl Iff.rfl
    exact ⟨hsent.setPhase _ ((Finset.erase_subset i left).trans hok), rfl⟩
  · refine ⟨hinv.setPhase _ ⟨(Finset.erase_subset i left).trans hok, hmem, ?_⟩, rfl⟩
    exact Finset.notMem_erase i left

/-- Answering a ping is harmless exactly while the hub knows the client. -/
theorem HubInv.answerPing (hinv : HubInv h) (hi : h.clients[i]? = some c) (hc : c.reader = .answering)
    (halive : h.panic = none) :
    HubInv (h.answerPing i c) ∧ ((h.answerPing i c).panic = none ↔ h.knows i) := by
  have hne : c.reader ≠ .registering := by
    rw [hc]
    nofun
  have hreading : ∀ send, send.closed = c.send.closed →
      HubInv (h.setClient i { c with send := send, reader := .reading }) := by
    intro send hclosed
    refine hinv.setClient hi rfl hclosed ?_
    rw [hc]
    exact ⟨nofun, nofun⟩
  rw [hinv.knows_iff hi hne]
  unfold Hub.answerPing
  split
  · rename_i p hsend
    have hclosed := (trySend_error.mp hsend).1
    refine ⟨hinv.die p, ?_⟩
    rw [hclosed]
    exact ⟨nofun, nofun⟩
  · rename_i send hsend
    obtain ⟨hopen, rfl⟩ := trySend_some hsend
    exact ⟨hreading _ rfl, iff_of_true halive hopen⟩
  · rename_i hsend
    exact ⟨hreading c.send rfl, iff_of_true halive (trySend_none hsend)⟩

/-- A ping is answered only for a client the hub still knows. -/
def PingsKnown (h : Hub) (e : HubEvent) : Prop := ∀ i, e = .pong i → h.knows i

theorem HubInv.step (hinv : HubInv h) {e : HubEvent} (hstep : HubStep h e h') :
    HubInv h' ∧ (h'.panic = none ↔ PingsKnown h e) := by
  have hother : ∀ {e : HubEvent} {h' : Hub}, (∀ i, e ≠ .pong i) → h.panic = none → h'.panic = h.panic →
      (h'.panic = none ↔ PingsKnown h e) := by
    intro e h' hne halive hsame
    rw [hsame]
    exact iff_of_true halive fun i heq => absurd heq (hne i)
  cases hstep with
  | connect halive room user =>
    refine ⟨⟨fun r j hj => ?_, fun j d hd hne => ?_, fun j d hd heq => ?_, hinv.phase⟩, hother nofun halive rfl⟩
    · obtain ⟨d, hd, hroom⟩ := hinv.member r j hj
      exact ⟨d, (List.getElem?_append_left (List.getElem?_eq_some_iff.mp hd).1).trans hd, hroom⟩
    · rcases slot_concat hd with hold | ⟨-, rfl⟩
      · exact hinv.open_iff j d hold hne
      · exact absurd rfl hne
    · rcases slot_concat hd with hold | ⟨rfl, rfl⟩
      · exact hinv.fresh j d hold heq
      · refine ⟨rfl, fun hmem => ?_⟩
        obtain ⟨d, hd', -⟩ := hinv.member _ _ hmem
        have hlt := (List.getElem?_eq_some_iff.mp hd').1
        omega
  | register halive hphase hi hc => exact ⟨hinv.register hi hc hphase, hother nofun halive rfl⟩
  | ping halive hi hc hconn =>
    exact ⟨hinv.setClient hi rfl rfl (by rw [hc]; exact ⟨nofun, nofun⟩), hother nofun halive rfl⟩
  | readFailed halive hi hc =>
    exact ⟨hinv.setClient hi rfl rfl (by rw [hc]; exact ⟨nofun, nofun⟩), hother nofun halive rfl⟩
  | @pong i c halive hi hc =>
    obtain ⟨hok, hiff⟩ := hinv.answerPing hi hc halive
    refine ⟨hok, hiff.trans ⟨fun hk j heq => ?_, fun hall => hall i rfl⟩⟩
    cases heq
    exact hk
  | unregister halive hphase hi hc =>
    obtain ⟨hok, hsame⟩ := hinv.unregister hi hc hphase
    exact ⟨hok, hother nofun halive hsame⟩
  | closed halive hi hc =>
    exact ⟨hinv.setClient hi rfl rfl (by rw [hc]; exact ⟨nofun, nofun⟩), hother nofun halive rfl⟩
  | write halive hi hc hrecv =>
    exact ⟨hinv.setClient hi rfl (recv_closed hrecv) Iff.rfl, hother nofun halive rfl⟩
  | writeClosed halive hi hc hrecv =>
    exact ⟨hinv.setClient hi rfl (recv_closed hrecv) Iff.rfl, hother nofun halive rfl⟩
  | writeFailed halive hi hc => exact ⟨hinv.setClient hi rfl rfl Iff.rfl, hother nofun halive rfl⟩
  | post halive msg hroom => exact ⟨hinv.setBroadcast _, hother nofun halive rfl⟩
  | @take msg rest halive hphase hqueue =>
    have hqueued := hinv.setBroadcast rest
    exact ⟨hqueued.setPhase (.delivering msg (h.members msg.roomID)) (Finset.Subset.refl _), hother nofun halive rfl⟩
  | deliver halive hphase hleft hi hsend =>
    obtain ⟨hok, hsame⟩ := hinv.deliver hphase hleft hi
    exact ⟨hok, hother nofun halive hsame⟩
  | crash halive hphase hleft hi hsend =>
    obtain ⟨hok, hsame⟩ := hinv.deliver hphase hleft hi
    exact ⟨hok, hother nofun halive hsame⟩
  | overflow halive hphase hleft hi hsend =>
    obtain ⟨hok, hsame⟩ := hinv.deliver hphase hleft hi
    exact ⟨hok, hother nofun halive hsame⟩
  | evict halive hphase hi =>
    obtain ⟨hok, hsame⟩ := hinv.evict hphase hi
    exact ⟨hok, hother nofun halive hsame⟩
  | finish halive hphase => exact ⟨hinv.setPhase _ trivial, hother nofun halive rfl⟩

/-- A run of the hub and the pumps never sends on a closed channel or closes one twice, exactly if
its pings are all answered for clients the hub knows at that moment. -/
theorem hub_never_panics_iff (trace : List HubEvent) (h : Hub) :
    (∀ before after s, trace = before ++ after → Run HubStep newHub before s → Run HubStep s after h →
      s.panic = none) ↔
    ∀ before e after s t, trace = before ++ e :: after → Run HubStep newHub before s → HubStep s e t →
      Run HubStep t after h → PingsKnown s e := by
  have hinv : ∀ s e t, HubInv s → HubStep s e t → HubInv t := fun s e t hs hst => (hs.step hst).1
  have hgood : ∀ s e t, HubInv s → s.panic = none → HubStep s e t → (t.panic = none ↔ PingsKnown s e) :=
    fun s e t hs _ hst => (hs.step hst).2
  exact Run.always_good_iff hinv hgood HubInv.init rfl

section Sample

def wsRoom : Uuid := ⟨"01890a5d-ac96-774b-bcce-b302099a8057", by decide⟩

def wsUser : Uuid := ⟨"01890a5d-ac96-774b-bcce-b302099a8058", by decide⟩

/-- A client that pings and does not read, with so many answers waiting for it. -/
def stalledClient (n : Nat) (reader : Reader) : Client :=
  ⟨wsRoom, wsUser, ⟨256, List.replicate n .pong, false⟩, reader, true, true⟩

def stalledHub (n : Nat) (reader : Reader) : Hub :=
  { newHub with
    clients := [stalledClient n reader]
    rooms := Function.update newHub.rooms wsRoom (some (insert 0 ∅)) }

theorem stalled_ping (n : Nat) : HubStep (stalledHub n .reading) (.ping 0) (stalledHub n .answering) := by
  have hstep : HubStep (stalledHub n .reading) (.ping 0)
      ((stalledHub n .reading).setClient 0 { stalledClient n .reading with reader := .answering }) :=
    .ping rfl rfl rfl rfl
  exact hstep

theorem stalled_fills (n : Nat) (hn : n ≤ 256) :
    ∃ trace, Run HubStep (stalledHub 0 .reading) trace (stalledHub n .reading) := by
  induction n with
  | zero => exact ⟨[], .nil _⟩
  | succ n ih =>
    obtain ⟨trace, hrun⟩ := ih (by omega)
    have hroom : (stalledClient n .answering).send.trySend .pong =
        .ok (some ⟨256, List.replicate (n + 1) .pong, false⟩) := by
      have hlength : (List.replicate n Frame.pong).length < 256 := by
        rw [List.length_replicate]
        omega
      rw [List.replicate_succ']
      exact trySend_room (c := ⟨256, List.replicate n Frame.pong, false⟩) rfl hlength Frame.pong
    have hpong : HubStep (stalledHub n .answering) (.pong 0) (stalledHub (n + 1) .reading) := by
      have hstep : HubStep (stalledHub n .answering) (.pong 0)
          ((stalledHub n .answering).answerPing 0 (stalledClient n .answering)) := .pong rfl rfl rfl
      rw [Hub.answerPing, hroom] at hstep
      exact hstep
    exact ⟨_, hrun.append (.cons (stalled_ping n) (.single hpong))⟩

def wsMessage : BroadcastMessage := ⟨wsRoom, "hello"⟩

theorem stalled_registers : Run HubStep newHub [.connect wsRoom wsUser, .register 0 wsRoom] (stalledHub 0 .reading) := by
  have hregister : HubStep (newHub.connect wsRoom wsUser) (.register 0 wsRoom) (stalledHub 0 .reading) := by
    have hstep : HubStep (newHub.connect wsRoom wsUser) (.register 0 wsRoom)
        ((newHub.connect wsRoom wsUser).register 0 ⟨wsRoom, wsUser, make 256, .registering, false, true⟩) :=
      @HubStep.register _ 0 ⟨wsRoom, wsUser, make 256, .registering, false, true⟩ rfl rfl rfl rfl
    exact hstep
  exact .cons (.connect rfl wsRoom wsUser) (.single hregister)

/-- With one more broadcast the hub closes the channel. -/
theorem stalled_evicted (reader : Reader) : ∃ trace s, Run HubStep (stalledHub 256 reader) trace s ∧ s.panic = none ∧
    s.clients[0]? = some { stalledClient 256 reader with send := ⟨256, List.replicate 256 .pong, true⟩ } ∧
    s.rooms wsRoom = some ∅ := by
  have hmem : 0 ∈ (stalledHub 256 reader).members wsRoom := by
    simp [Hub.members, stalledHub]
  have hfull : (stalledClient 256 reader).send.trySend (.message wsMessage.message) = .ok none :=
    trySend_full rfl (by rw [stalledClient, List.length_replicate]) _
  have hpost : HubStep (stalledHub 256 reader) (.post wsMessage)
      { stalledHub 256 reader with broadcast := [wsMessage] } := .post rfl wsMessage (show 0 < 256 by decide)
  have htake : HubStep { stalledHub 256 reader with broadcast := [wsMessage] } (.take wsMessage)
      { stalledHub 256 reader with
        phase := .delivering wsMessage ((stalledHub 256 reader).members wsRoom) } := .take rfl rfl rfl
  have hoverflow := @HubStep.overflow
    { stalledHub 256 reader with
      phase := .delivering wsMessage ((stalledHub 256 reader).members wsRoom) }
    wsMessage _ 0 (stalledClient 256 reader) rfl rfl hmem rfl hfull
  rw [Hub.deliver, hfull] at hoverflow
  have hevict := @HubStep.evict
    { stalledHub 256 reader with
      phase := .evicting wsMessage (((stalledHub 256 reader).members wsRoom).erase 0) 0 }
    wsMessage _ 0 (stalledClient 256 reader) rfl rfl rfl
  rw [Hub.evict, close_open rfl] at hevict
  have hrooms : (stalledHub 256 reader).rooms wsRoom = some (insert 0 ∅) := by
    show Function.update newHub.rooms wsRoom (some (insert 0 ∅)) wsRoom = _
    rw [Function.update_self]
  refine ⟨_, _, .cons hpost (.cons htake (.cons hoverflow (.single hevict))), rfl, rfl, ?_⟩
  dsimp only
  rw [show (stalledClient 256 reader).roomID = wsRoom from rfl, Function.update_self, hrooms]
  rfl

/-- The ping is read, and before it is answered the hub comes to the client with a message. -/
theorem stalled_panics : ∃ trace h, Run HubStep newHub trace h ∧ h.panic = some .sendOnClosed := by
  obtain ⟨trace, hrun⟩ := stalled_fills 256 (Nat.le_refl _)
  obtain ⟨last, evicted, hevicted, halive, hi, -⟩ := stalled_evicted .answering
  have hpong := HubStep.pong halive hi rfl
  have hclosed : ∀ frame : Frame, Chan.trySend ⟨256, List.replicate 256 .pong, true⟩ frame = .error .sendOnClosed :=
    fun frame => trySend_error.mpr ⟨rfl, rfl⟩
  rw [Hub.answerPing, hclosed] at hpong
  have hrest := hrun.append (.cons (stalled_ping 256) (hevicted.append (.single hpong)))
  exact ⟨_, _, stalled_registers.append hrest, rfl⟩

end Sample

end Chinwag.Chat

import Chinwag.Chat.HubSafety

/-!
# What a client is sent

Read off the steps of a run: the broadcasts for the room of a client while it was registered, and
those that were put into its channel. At most the one the hub is busy with makes a difference.
-/
namespace Chinwag.Chat

open GoChannel Slots Transition

variable {h h' : Hub} {i j : Nat} {c : Client}

/-- The room a client is registered for, and the broadcasts for that room so far. -/
structure Heard where
  registered : Option Uuid
  log : List BroadcastMessage

/-- A client that could not keep up does not count the broadcast it was removed for. -/
def Heard.next (i : Nat) (s : Heard) : HubEvent → Heard
  | .register j room => if j = i then ⟨some room, s.log⟩ else s
  | .unregister j => if j = i then ⟨none, s.log⟩ else s
  | .evict j => if j = i then ⟨none, s.log.dropLast⟩ else s
  | .take msg => if s.registered = some msg.roomID then ⟨s.registered, s.log ++ [msg]⟩ else s
  | _ => s

@[simp] theorem Heard.next_register (i j : Nat) (s : Heard) (room : Uuid) :
    s.next i (.register j room) = if j = i then ⟨some room, s.log⟩ else s := rfl

@[simp] theorem Heard.next_unregister (i j : Nat) (s : Heard) :
    s.next i (.unregister j) = if j = i then ⟨none, s.log⟩ else s := rfl

@[simp] theorem Heard.next_evict (i j : Nat) (s : Heard) :
    s.next i (.evict j) = if j = i then ⟨none, s.log.dropLast⟩ else s := rfl

@[simp] theorem Heard.next_take (i : Nat) (s : Heard) (msg : BroadcastMessage) :
    s.next i (.take msg) = if s.registered = some msg.roomID then ⟨s.registered, s.log ++ [msg]⟩ else s := rfl

def heard (i : Nat) (trace : List HubEvent) : Heard := trace.foldl (Heard.next i) ⟨none, []⟩

/-- The broadcasts for the room of the client that the hub processed between its registration and its removal. -/
def processed (i : Nat) (trace : List HubEvent) : List BroadcastMessage := (heard i trace).log

/-- What the hub put into the channel of the client. -/
def enqueued (i : Nat) (trace : List HubEvent) : List BroadcastMessage :=
  trace.filterMap fun
    | .deliver j msg => if j = i then some msg else none
    | _ => none

/-- The broadcast the hub is busy with, where it has not come to the client yet. -/
def inFlight (h : Hub) (i : Nat) : List BroadcastMessage :=
  match h.phase with
  | .selecting => []
  | .delivering msg left => if i ∈ left then [msg] else []
  | .evicting msg left j => if i ∈ left ∨ i = j then [msg] else []

/-- The trace and the hub agree on who is registered and on what is on its way. -/
structure Delivered (trace : List HubEvent) (h : Hub) : Prop where
  inv : HubInv h
  registered : ∀ i room, (heard i trace).registered = some room ↔ i ∈ h.members room
  sent : ∀ i, enqueued i trace ++ inFlight h i = processed i trace

theorem heard_concat (i : Nat) (trace : List HubEvent) (e : HubEvent) :
    heard i (trace ++ [e]) = (heard i trace).next i e := by
  simp [heard]

theorem enqueued_concat (i : Nat) (trace : List HubEvent) (e : HubEvent) :
    enqueued i (trace ++ [e]) = enqueued i trace ++ enqueued i [e] := by
  simp [enqueued]

/-- A step that is neither a registration, a removal, the start of a broadcast nor a delivery. -/
theorem Delivered.quiet {trace : List HubEvent} {e : HubEvent} (hd : Delivered trace h) (hinv : HubInv h')
    (hheard : ∀ i s, Heard.next i s e = s) (hsent : ∀ i, enqueued i [e] = [])
    (hmembers : ∀ room, h'.members room = h.members room) (hflight : ∀ i, inFlight h' i = inFlight h i) :
    Delivered (trace ++ [e]) h' where
  inv := hinv
  registered := by
    intro i room
    rw [heard_concat, hheard, hmembers]
    exact hd.registered i room
  sent := by
    intro i
    rw [enqueued_concat, hsent, List.append_nil, hflight, processed, heard_concat, hheard]
    exact hd.sent i

theorem inFlight_selecting (hphase : h.phase = .selecting) (i : Nat) : inFlight h i = [] := by
  rw [inFlight, hphase]

theorem members_update (rooms : Uuid → Option (Finset Nat)) (room other : Uuid) (value : Option (Finset Nat)) :
    (Function.update rooms room value other).getD ∅ = if other = room then value.getD ∅ else (rooms other).getD ∅ := by
  by_cases heq : other = room
  · subst heq
    simp
  · simp [heq]

/-- What a step leaves of the members, the client it moves apart. -/
def MembersKept (h h' : Hub) (i : Nat) : Prop :=
  ∀ j, j ≠ i → ∀ room, (j ∈ h'.members room ↔ j ∈ h.members room)

/-- What a step without broadcasts does to the log of a client. -/
theorem Delivered.sent_selecting {trace : List HubEvent} {e : HubEvent} (hd : Delivered trace h)
    (hphase : h.phase = .selecting) (hphase' : h'.phase = .selecting) (hlog : ∀ i s, (Heard.next i s e).log = s.log)
    (hsent : ∀ i, enqueued i [e] = []) (i : Nat) :
    enqueued i (trace ++ [e]) ++ inFlight h' i = processed i (trace ++ [e]) := by
  have hbefore := hd.sent i
  rw [inFlight_selecting hphase, List.append_nil] at hbefore
  rw [enqueued_concat, hsent, inFlight_selecting hphase', List.append_nil, List.append_nil, hbefore, processed,
    processed, heard_concat, hlog]

theorem register_members (h : Hub) (i : Nat) (c : Client) (room : Uuid) : (h.register i c).members room =
    if room = c.roomID then insert i (h.members c.roomID) else h.members room :=
  members_update _ _ _ _

theorem Delivered.register {trace : List HubEvent} (hd : Delivered trace h) (hinv : HubInv (h.register i c))
    (hphase : h.phase = .selecting) (hi : h.clients[i]? = some c) :
    Delivered (trace ++ [.register i c.roomID]) (h.register i c) where
  inv := hinv
  registered := by
    intro j room
    rw [heard_concat, register_members, Heard.next_register]
    by_cases hij : i = j
    · subst hij
      rw [if_pos rfl, Option.some.injEq]
      constructor
      · rintro rfl
        rw [if_pos rfl]
        exact Finset.mem_insert_self _ _
      · intro hmem
        split at hmem
        · rename_i heq
          exact heq.symm
        · exact hd.inv.room_of_mem hi hmem
    · rw [if_neg hij, hd.registered]
      split
      · rename_i heq
        rw [heq, Finset.mem_insert, or_iff_right (Ne.symm hij)]
      · exact Iff.rfl
  sent := hd.sent_selecting hphase hphase (fun j s => by rw [Heard.next_register]; split <;> rfl) fun _ => rfl

/-- A step that removes a client. -/
theorem Delivered.registered_removed {trace : List HubEvent} {e : HubEvent} (hd : Delivered trace h)
    (hheard : ∀ j s, (Heard.next j s e).registered = if i = j then none else s.registered)
    (hkept : MembersKept h h' i) (hgone : ∀ room, i ∉ h'.members room) (j : Nat) (room : Uuid) :
    (heard j (trace ++ [e])).registered = some room ↔ j ∈ h'.members room := by
  rw [heard_concat, hheard]
  by_cases hij : i = j
  · subst hij
    rw [if_pos rfl]
    exact iff_of_false nofun (hgone room)
  · rw [if_neg hij, hkept j (Ne.symm hij)]
    exact hd.registered j room

/-- The members after a client was taken out of its room. -/
theorem removed_members (hinv : HubInv h) (hi : h.clients[i]? = some c) {value : Option (Finset Nat)}
    (hvalue : value.getD ∅ = (h.members c.roomID).erase i) (hrooms : h'.rooms = Function.update h.rooms c.roomID value) :
    MembersKept h h' i ∧ ∀ room, i ∉ h'.members room := by
  have hmembers : ∀ room, h'.members room =
      if room = c.roomID then (h.members c.roomID).erase i else h.members room := by
    intro room
    unfold Hub.members at hvalue ⊢
    rw [hrooms, members_update, hvalue]
  refine ⟨fun j hj room => ?_, fun room => ?_⟩
  · rw [hmembers]
    split
    · rename_i heq
      rw [heq, Finset.mem_erase, and_iff_right hj]
    · exact Iff.rfl
  · rw [hmembers]
    split
    · exact Finset.notMem_erase i _
    · rename_i hne
      intro hmem
      exact hne (hinv.room_of_mem hi hmem).symm

theorem Delivered.unregister {trace : List HubEvent} (hd : Delivered trace h) (hphase : h.phase = .selecting)
    (hi : h.clients[i]? = some c) (hc : c.reader = .leaving) :
    Delivered (trace ++ [.unregister i]) (h.unregister i c) := by
  have hne : c.reader ≠ .registering := by
    rw [hc]
    nofun
  have hmoved : MembersKept h (h.unregister i c) i ∧ (∀ room, i ∉ (h.unregister i c).members room) ∧
      (h.unregister i c).phase = .selecting := by
    unfold Hub.unregister
    split
    · rename_i hmem
      rw [close_open ((hd.inv.open_iff i c hi hne).mpr hmem)]
      have hvalue : (if (h.members c.roomID).erase i = ∅ then none else some ((h.members c.roomID).erase i)).getD ∅ =
          (h.members c.roomID).erase i := by
        split
        · rename_i hempty
          exact hempty.symm
        · rfl
      have hmoved := fun (t : Hub) hrooms => @removed_members h t i c hd.inv hi _ hvalue hrooms
      exact ⟨(hmoved _ rfl).1, (hmoved _ rfl).2, hphase⟩
    · rename_i hnot
      refine ⟨fun _ _ _ => Iff.rfl, fun room hmem => ?_, hphase⟩
      rw [← hd.inv.room_of_mem hi hmem] at hmem
      exact hnot hmem
  obtain ⟨hkept, hgone, hphase'⟩ := hmoved
  have hheard : ∀ j s, (Heard.next j s (.unregister i)).registered = if i = j then none else s.registered := by
    intro j s
    rw [Heard.next_unregister]
    split <;> rfl
  have hlog : ∀ j s, (Heard.next j s (.unregister i)).log = s.log := by
    intro j s
    rw [Heard.next_unregister]
    split <;> rfl
  exact ⟨(hd.inv.unregister hi hc hphase).1, hd.registered_removed hheard hkept hgone,
    hd.sent_selecting hphase hphase' hlog fun _ => rfl⟩

/-- A broadcast begins; the members of its room are still to get it. -/
theorem Delivered.take {trace : List HubEvent} (hd : Delivered trace h) {msg : BroadcastMessage}
    {rest : List BroadcastMessage} (hphase : h.phase = .selecting)
    (hinv : HubInv { h with broadcast := rest, phase := .delivering msg (h.members msg.roomID) }) :
    Delivered (trace ++ [.take msg])
      { h with broadcast := rest, phase := .delivering msg (h.members msg.roomID) } where
  inv := hinv
  registered := by
    intro i room
    have hsame : ((heard i trace).next i (.take msg)).registered = (heard i trace).registered := by
      rw [Heard.next_take]
      split <;> rfl
    rw [heard_concat, hsame]
    exact hd.registered i room
  sent := by
    intro i
    have hsent := hd.sent i
    rw [inFlight_selecting hphase, List.append_nil] at hsent
    rw [enqueued_concat, hsent, processed, processed, heard_concat, Heard.next_take, inFlight]
    have hnone : enqueued i [.take msg] = [] := rfl
    rw [hnone, List.append_nil]
    dsimp only
    by_cases hmem : i ∈ h.members msg.roomID
    · rw [if_pos hmem, if_pos ((hd.registered i msg.roomID).mpr hmem)]
    · rw [if_neg hmem, if_neg (mt (hd.registered i msg.roomID).mp hmem), List.append_nil]

theorem Delivered.deliver {trace : List HubEvent} (hd : Delivered trace h) {msg : BroadcastMessage}
    {left : Finset Nat} {send : Chan Frame} (hphase : h.phase = .delivering msg left) (hleft : i ∈ left)
    (hi : h.clients[i]? = some c) (hsend : c.send.trySend (.message msg.message) = .ok (some send)) :
    Delivered (trace ++ [.deliver i msg]) (h.deliver msg left i c) := by
  have hafter : h.deliver msg left i c =
      { h.setClient i { c with send := send } with phase := .delivering msg (left.erase i) } := by
    rw [Hub.deliver, hsend]
  refine ⟨(hd.inv.deliver hphase hleft hi).1, fun j room => ?_, fun j => ?_⟩
  · rw [hafter, heard_concat]
    exact hd.registered j room
  · have hsent := hd.sent j
    rw [inFlight, hphase] at hsent
    rw [hafter, enqueued_concat, processed, heard_concat, inFlight]
    have hlog : ((heard j trace).next j (.deliver i msg)).log = processed j trace := rfl
    rw [hlog, ← hsent, List.append_assoc, List.append_right_inj]
    by_cases hij : i = j
    · subst hij
      have hself : enqueued i [.deliver i msg] = [msg] := by simp [enqueued]
      dsimp only
      rw [hself, if_pos hleft, if_neg (Finset.notMem_erase i left), List.append_nil]
    · have hnone : enqueued j [.deliver i msg] = [] := by simp [enqueued, hij]
      have hmem : j ∈ left.erase i ↔ j ∈ left := by
        rw [Finset.mem_erase, and_iff_right (Ne.symm hij)]
      rw [hnone, List.nil_append]
      exact if_congr hmem rfl rfl

/-- The channel is full: the broadcast stays undelivered while the client is removed. -/
theorem Delivered.overflow {trace : List HubEvent} (hd : Delivered trace h) {msg : BroadcastMessage}
    {left : Finset Nat} (hphase : h.phase = .delivering msg left) (hleft : i ∈ left)
    (hi : h.clients[i]? = some c) (hsend : c.send.trySend (.message msg.message) = .ok none) :
    Delivered (trace ++ [.overflow i]) (h.deliver msg left i c) := by
  have hafter : h.deliver msg left i c = { h with phase := .evicting msg (left.erase i) i } := by
    rw [Hub.deliver, hsend]
  refine hd.quiet (hd.inv.deliver hphase hleft hi).1 (fun _ _ => rfl) (fun _ => rfl) ?_ ?_
  · rw [hafter]
    exact fun _ => rfl
  · intro j
    rw [hafter, inFlight, inFlight, hphase]
    refine if_congr ?_ rfl rfl
    rw [Finset.mem_erase]
    constructor
    · rintro (⟨-, hmem⟩ | rfl)
      · exact hmem
      · exact hleft
    · intro hmem
      by_cases hij : j = i
      · exact .inr hij
      · exact .inl ⟨hij, hmem⟩

theorem Delivered.evict {trace : List HubEvent} (hd : Delivered trace h) {msg : BroadcastMessage} {left : Finset Nat}
    (hphase : h.phase = .evicting msg left i) (hi : h.clients[i]? = some c) :
    Delivered (trace ++ [.evict i]) (h.evict msg left i c) := by
  have hok := hd.inv.phase
  unfold PhaseOk at hok
  rw [hphase] at hok
  obtain ⟨-, hmem, hnot⟩ := hok
  have hroom : c.roomID = msg.roomID := hd.inv.room_of_mem hi hmem
  rw [← hroom] at hmem
  have hne : c.reader ≠ .registering := fun hreg => (hd.inv.fresh i c hi hreg).2 hmem
  have hafter : h.evict msg left i c =
      { h.setClient i { c with send := { c.send with closed := true } } with
        rooms := Function.update h.rooms c.roomID ((h.rooms c.roomID).map fun s => s.erase i)
        phase := .delivering msg left } := by
    rw [Hub.evict, close_open ((hd.inv.open_iff i c hi hne).mpr hmem)]
  have hvalue : ((h.rooms c.roomID).map fun s => s.erase i).getD ∅ = (h.members c.roomID).erase i := by
    unfold Hub.members
    cases h.rooms c.roomID <;> rfl
  obtain ⟨hkept, hgone⟩ : MembersKept h (h.evict msg left i c) i ∧ ∀ room, i ∉ (h.evict msg left i c).members room := by
    rw [hafter]
    exact removed_members hd.inv hi hvalue rfl
  have hheard : ∀ j s, (Heard.next j s (.evict i)).registered = if i = j then none else s.registered := by
    intro j s
    rw [Heard.next_evict]
    split <;> rfl
  refine ⟨(hd.inv.evict hphase hi).1, hd.registered_removed hheard hkept hgone, fun j => ?_⟩
  have hsent := hd.sent j
  have hnone : enqueued j [.evict i] = [] := rfl
  rw [inFlight, hphase] at hsent
  rw [hafter, enqueued_concat, hnone, List.append_nil, processed, heard_concat, Heard.next_evict, inFlight]
  dsimp only at hsent ⊢
  by_cases hij : i = j
  · subst hij
    -- the last broadcast of the log is the one that overflowed
    rw [if_pos (.inr rfl), processed] at hsent
    rw [if_pos rfl, if_neg hnot, ← hsent, List.dropLast_concat, List.append_nil]
  · rw [if_neg hij]
    refine Eq.trans ?_ hsent
    rw [List.append_right_inj]
    exact if_congr (or_iff_left (Ne.symm hij)).symm rfl rfl

theorem Delivered.step {trace : List HubEvent} {e : HubEvent} (hd : Delivered trace h) (hstep : HubStep h e h') :
    Delivered (trace ++ [e]) h' := by
  have hinv := (hd.inv.step hstep).1
  cases hstep with
  | connect => exact hd.quiet hinv (fun _ _ => rfl) (fun _ => rfl) (fun _ => rfl) fun _ => rfl
  | register halive hphase hi hc => exact hd.register hinv hphase hi
  | ping => exact hd.quiet hinv (fun _ _ => rfl) (fun _ => rfl) (fun _ => rfl) fun _ => rfl
  | readFailed => exact hd.quiet hinv (fun _ _ => rfl) (fun _ => rfl) (fun _ => rfl) fun _ => rfl
  | @pong i c halive hi hc =>
    have hsame : (h.answerPing i c).rooms = h.rooms ∧ (h.answerPing i c).phase = h.phase := by
      unfold Hub.answerPing
      split <;> exact ⟨rfl, rfl⟩
    refine hd.quiet hinv (fun _ _ => rfl) (fun _ => rfl) (fun room => ?_) fun j => ?_
    · rw [Hub.members, Hub.members, hsame.1]
    · rw [inFlight, inFlight, hsame.2]
  | unregister halive hphase hi hc => exact hd.unregister hphase hi hc
  | closed => exact hd.quiet hinv (fun _ _ => rfl) (fun _ => rfl) (fun _ => rfl) fun _ => rfl
  | write => exact hd.quiet hinv (fun _ _ => rfl) (fun _ => rfl) (fun _ => rfl) fun _ => rfl
  | writeClosed => exact hd.quiet hinv (fun _ _ => rfl) (fun _ => rfl) (fun _ => rfl) fun _ => rfl
  | writeFailed => exact hd.quiet hinv (fun _ _ => rfl) (fun _ => rfl) (fun _ => rfl) fun _ => rfl
  | post => exact hd.quiet hinv (fun _ _ => rfl) (fun _ => rfl) (fun _ => rfl) fun _ => rfl
  | take halive hphase hqueue => exact hd.take hphase hinv
  | deliver halive hphase hleft hi hsend => exact hd.deliver hphase hleft hi hsend
  | crash halive hphase hleft hi hsend =>
    refine hd.quiet hinv (fun _ _ => rfl) (fun _ => rfl) ?_ ?_ <;> rw [Hub.deliver, hsend] <;> exact fun _ => rfl
  | overflow halive hphase hleft hi hsend => exact hd.overflow hphase hleft hi hsend
  | evict halive hphase hi => exact hd.evict hphase hi
  | finish halive hphase =>
    refine hd.quiet hinv (fun _ _ => rfl) (fun _ => rfl) (fun _ => rfl) fun i => ?_
    rw [inFlight, inFlight, hphase]
    exact (if_neg (Finset.notMem_empty i)).symm

theorem Delivered.init : Delivered [] newHub where
  inv := .init
  registered := fun i _ => iff_of_false nofun (Finset.notMem_empty i)
  sent := fun _ => rfl

/-- What the hub put into the channel of a client is what it processed for it, in that order, up to
the broadcast it is busy with. -/
theorem hub_delivery_no_gaps {trace : List HubEvent} (hrun : Run HubStep newHub trace h) (i : Nat) :
    enqueued i trace ++ inFlight h i = processed i trace ∧
      (h.phase = .selecting → enqueued i trace = processed i trace) := by
  have hstep : ∀ past s e t, Delivered past s → HubStep s e t → Delivered (past ++ [e]) t :=
    fun _ _ _ _ hd hs => hd.step hs
  have hd : Delivered ([] ++ trace) h := hrun.history hstep [] .init
  refine ⟨hd.sent i, fun hphase => ?_⟩
  have hsent := hd.sent i
  rwa [inFlight_selecting hphase, List.append_nil] at hsent

theorem hub_delivery_sent : ∃ trace h, Run HubStep newHub trace h ∧ enqueued 0 trace = [wsMessage] ∧
    enqueued 0 trace ++ inFlight h 0 = processed 0 trace := by
  have hregister := @HubStep.register (newHub.connect wsRoom wsUser) 0
    ⟨wsRoom, wsUser, make 256, .registering, false, true⟩ rfl rfl rfl rfl
  have hdeliver := @HubStep.deliver
    { stalledHub 0 .reading with phase := .delivering wsMessage ((stalledHub 0 .reading).members wsRoom) }
    wsMessage _ 0 (stalledClient 0 .reading) _ rfl rfl (by simp [Hub.members, stalledHub]) rfl
    (trySend_room rfl (by decide) _)
  have hrun := Run.cons (.connect rfl wsRoom wsUser) (.cons hregister
    (.cons (.post rfl wsMessage (by decide)) (.cons (.take rfl rfl rfl) (.single hdeliver))))
  exact ⟨_, _, hrun, rfl, (hub_delivery_no_gaps hrun 0).1⟩

end Chinwag.Chat

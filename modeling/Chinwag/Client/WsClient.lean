import Mathlib.Tactic.Common
import Mathlib.Algebra.Ring.Nat
import Chinwag.Lib.Transition

/-!
# The life of a WebSocket client

Its handlers run one at a time, each whenever the browser has an event for it. What is sent and
received over a socket is left out.
-/
namespace Chinwag.Client

open Transition

inductive ReadyState where
  | connecting
  | opened
  | closing
  | closed
deriving DecidableEq

inductive WsStatus where
  | disconnected
  | connecting
  | connected
deriving DecidableEq

/-- The fields of the client, and what the browser holds for it: its sockets in the order they were
made, its pending timers with their delays, and the ticket requests that are out. -/
structure WsClient where
  ws : Option ℕ
  reconnectAttempt : ℕ
  reconnectTimeout : Option ℕ
  heartbeat : Bool
  intentionalClose : Bool
  connectInFlight : Bool
  status : WsStatus
  sockets : List ReadyState
  timers : List (ℕ × ℕ)
  nextTimer : ℕ
  requests : ℕ
deriving DecidableEq

namespace WsClient

def maxReconnectAttempts : ℕ := 10

def new : WsClient where
  ws := none
  reconnectAttempt := 0
  reconnectTimeout := none
  heartbeat := false
  intentionalClose := false
  connectInFlight := false
  status := .disconnected
  sockets := []
  timers := []
  nextTimer := 1
  requests := 0

variable (c : WsClient)

/-- `this.ws?.readyState`. -/
def readyState : Option ReadyState := c.ws.bind fun i => c.sockets[i]?

def connect : WsClient :=
  if c.connectInFlight ∨ c.readyState = some .opened ∨ c.readyState = some .connecting then c
  else
    { c with
      intentionalClose := false
      status := .connecting
      connectInFlight := true
      requests := c.requests + 1 }

def scheduleReconnect : WsClient :=
  if maxReconnectAttempts ≤ c.reconnectAttempt then c
  else
    { c with
      reconnectAttempt := c.reconnectAttempt + 1
      timers := (c.nextTimer, min (1000 * 2 ^ c.reconnectAttempt) 30000) :: c.timers
      reconnectTimeout := some c.nextTimer
      nextTimer := c.nextTimer + 1 }

/-- What becomes of a ticket request: the ticket may be missing, and a URL with it may be none a
socket can be made for. -/
inductive TicketResponse where
  | ticket (connectable : Bool)
  | noTicket
  | failed
deriving DecidableEq

/-- `openSocket` from where it waits for the response. -/
def ticketResponse (r : TicketResponse) : WsClient :=
  let c := { c with requests := c.requests - 1, connectInFlight := false }
  match r with
  | .failed => if c.intentionalClose then c else c.scheduleReconnect
  | .noTicket => if c.intentionalClose then c else c.scheduleReconnect
  | .ticket connectable =>
    if c.intentionalClose then c
    else if connectable then { c with ws := some c.sockets.length, sockets := c.sockets ++ [.connecting] }
    else c.scheduleReconnect

def onopen (i : ℕ) : WsClient :=
  { c with sockets := c.sockets.set i .opened, reconnectAttempt := 0, status := .connected, heartbeat := true }

def onclose (i : ℕ) : WsClient :=
  let c := { c with sockets := c.sockets.set i .closed, heartbeat := false, status := .disconnected }
  if c.intentionalClose then c else c.scheduleReconnect

/-- The server has begun to close the socket, of which no handler hears. -/
def serverCloses (i : ℕ) : WsClient := { c with sockets := c.sockets.set i .closing }

def timerFires (id : ℕ) : WsClient := connect { c with timers := c.timers.filter fun timer => timer.1 ≠ id }

/-- `close` of a socket; one that is closed stays so. -/
def closeSocket (sockets : List ReadyState) (i : ℕ) : List ReadyState :=
  if sockets[i]? = some .closed then sockets else sockets.set i .closing

def disconnect : WsClient :=
  { c with
    intentionalClose := true
    heartbeat := false
    timers := match c.reconnectTimeout with
      | some id => c.timers.filter fun timer => timer.1 ≠ id
      | none => c.timers
    reconnectTimeout := none
    sockets := match c.ws with
      | some i => closeSocket c.sockets i
      | none => c.sockets
    ws := none
    status := .disconnected }

end WsClient

inductive WsEvent where
  | connect
  | response (r : WsClient.TicketResponse)
  | opened (i : ℕ)
  | serverCloses (i : ℕ)
  | closed (i : ℕ)
  | fired (id : ℕ)
  | disconnect
deriving DecidableEq

/-- The client with what its owner has asked of it. -/
structure Owned where
  client : WsClient
  connected : Bool
  disconnected : Bool

def Owned.new : Owned := ⟨.new, false, false⟩

/-- One call to connect from outside at most and one to disconnect, which is the last; the rest in
any order. A socket can also open after it was told to close. -/
inductive WsStep : Owned → WsEvent → Owned → Prop where
  | connect {o : Owned} : o.connected = false → o.disconnected = false →
      WsStep o .connect ⟨o.client.connect, true, false⟩
  | response {o : Owned} (r : WsClient.TicketResponse) : 0 < o.client.requests →
      WsStep o (.response r) { o with client := o.client.ticketResponse r }
  | opened {o : Owned} {i : ℕ} {s : ReadyState} : o.client.sockets[i]? = some s → s ≠ .closed →
      WsStep o (.opened i) { o with client := o.client.onopen i }
  | serverCloses {o : Owned} {i : ℕ} {s : ReadyState} : o.client.sockets[i]? = some s → s ≠ .closed →
      WsStep o (.serverCloses i) { o with client := o.client.serverCloses i }
  | closed {o : Owned} {i : ℕ} {s : ReadyState} : o.client.sockets[i]? = some s → s ≠ .closed →
      WsStep o (.closed i) { o with client := o.client.onclose i }
  | fired {o : Owned} {id delay : ℕ} : (id, delay) ∈ o.client.timers →
      WsStep o (.fired id) { o with client := o.client.timerFires id }
  | disconnect {o : Owned} : o.disconnected = false →
      WsStep o .disconnect ⟨o.client.disconnect, o.connected, true⟩

/-- The sockets that are not closed. -/
def WsClient.live (c : WsClient) : ℕ := c.sockets.countP fun s => s ≠ .closed

def WsEvent.isOpened : WsEvent → Bool
  | opened _ => true
  | _ => false

def WsEvent.isFired : WsEvent → Bool
  | fired _ => true
  | _ => false

/-- The attempts to reconnect since a socket last opened. -/
def attemptsSince (past : List WsEvent) : ℕ := (past.reverse.takeWhile fun e => !e.isOpened).countP WsEvent.isFired

theorem attemptsSince_concat (past : List WsEvent) (e : WsEvent) :
    attemptsSince (past ++ [e]) = if e.isOpened then 0 else attemptsSince past + if e.isFired then 1 else 0 := by
  unfold attemptsSince
  rw [List.reverse_append, List.reverse_singleton, List.singleton_append]
  cases h : e.isOpened with
  | true => rw [List.takeWhile_cons_of_neg (by simp [h])]; rfl
  | false => rw [List.takeWhile_cons_of_pos (by simp [h]), List.countP_cons]; rfl

/-- What the client is at any time: it asks, waits or holds a socket, and never two of these. -/
structure WsLifecycle (past : List WsEvent) (o : Owned) : Prop where
  one_socket : o.client.live ≤ 1
  one_timer : o.client.timers.length ≤ 1
  attempts : attemptsSince past ≤ 10
  silent : ∀ after o', Run WsStep o after o' → o.disconnected = true → o'.client.sockets.length = o.client.sockets.length

/-! ### The invariant -/

namespace WsClient

variable {c : WsClient}

/-- Everything that can make the client act by itself. -/
def load (c : WsClient) : ℕ := c.requests + c.timers.length + c.live

theorem live_set {i : ℕ} {s : ReadyState} (h : c.sockets[i]? = some s) (hs : s ≠ .closed) (t : ReadyState) :
    (c.sockets.set i t).countP (fun s => s ≠ .closed) + 1 = c.live + if t = .closed then 0 else 1 := by
  obtain ⟨hi, hget⟩ := List.getElem?_eq_some_iff.mp h
  have hpos : 0 < c.live := List.countP_pos_iff.mpr ⟨s, List.mem_of_getElem? h, by simpa using hs⟩
  unfold live at hpos ⊢
  rw [List.countP_set hi, hget, if_pos (by simpa using hs)]
  by_cases ht : t = .closed
  · rw [if_neg (by simpa using ht), if_pos ht]
    omega
  · rw [if_pos (by simpa using ht), if_neg ht]
    omega

/-- A client with at most one thing pending, whose attempts are counted. -/
structure Steady (n : ℕ) (c : WsClient) : Prop where
  load_le : c.load ≤ 1
  timer : ∀ t ∈ c.timers, c.reconnectTimeout = some t.1
  counted : n + c.timers.length ≤ c.reconnectAttempt
  bounded : c.reconnectAttempt ≤ 10

theorem connect_frame (c : WsClient) :
    c.connect.timers = c.timers ∧ c.connect.reconnectTimeout = c.reconnectTimeout ∧
      c.connect.reconnectAttempt = c.reconnectAttempt ∧ c.connect.sockets = c.sockets ∧
      c.connect.requests ≤ c.requests + 1 ∧ (c.intentionalClose = false → c.connect.intentionalClose = false) := by
  unfold connect
  split
  · exact ⟨rfl, rfl, rfl, rfl, Nat.le_succ _, id⟩
  · exact ⟨rfl, rfl, rfl, rfl, Nat.le_refl _, fun _ => rfl⟩

theorem Steady.connect {n : ℕ} (h : Steady n c) (hload : c.load = 0) : Steady n c.connect := by
  obtain ⟨htimers, htimeout, hattempt, hsockets, hrequests, -⟩ := connect_frame c
  refine ⟨?_, ?_, ?_, ?_⟩
  · unfold load live at hload ⊢
    rw [htimers, hsockets]
    omega
  · rw [htimers, htimeout]
    exact h.timer
  · rw [htimers, hattempt]
    exact h.counted
  · rw [hattempt]
    exact h.bounded

theorem scheduleReconnect_frame (c : WsClient) :
    c.scheduleReconnect.sockets = c.sockets ∧ c.scheduleReconnect.requests = c.requests ∧
      c.scheduleReconnect.intentionalClose = c.intentionalClose := by
  unfold scheduleReconnect
  split <;> exact ⟨rfl, rfl, rfl⟩

theorem Steady.scheduleReconnect {n : ℕ} (h : Steady n c) (hload : c.load = 0) : Steady n c.scheduleReconnect := by
  unfold load live at hload
  have hnone : c.timers = [] := List.length_eq_zero_iff.mp (by omega)
  have hcounted := h.counted
  unfold WsClient.scheduleReconnect
  split
  · exact h
  · rename_i hmore
    unfold maxReconnectAttempts at hmore
    refine ⟨?_, ?_, ?_, ?_⟩
    · unfold load live
      rw [List.length_cons]
      dsimp only
      omega
    · intro t ht
      rw [hnone, List.mem_singleton] at ht
      rw [ht]
    · rw [List.length_cons]
      dsimp only
      omega
    · show c.reconnectAttempt + 1 ≤ 10
      omega

/-- A handler that ends by scheduling, unless the client was told to close. -/
theorem Steady.unlessClosed {n : ℕ} (h : Steady n c) (hload : c.load = 0) :
    Steady n (if c.intentionalClose then c else c.scheduleReconnect) := by
  split
  · exact h
  · exact h.scheduleReconnect hload

theorem Steady.ticketResponse {n : ℕ} (h : Steady n c) (hrequest : 0 < c.requests) (r : TicketResponse) :
    Steady n (c.ticketResponse r) := by
  have hle := h.load_le
  have hload : load { c with requests := c.requests - 1, connectInFlight := false } = 0 := by
    unfold load live at hle ⊢
    dsimp only
    omega
  have hsteady : Steady n { c with requests := c.requests - 1, connectInFlight := false } :=
    ⟨by omega, h.timer, h.counted, h.bounded⟩
  cases r with
  | noTicket => exact hsteady.unlessClosed hload
  | failed => exact hsteady.unlessClosed hload
  | ticket connectable =>
    unfold WsClient.ticketResponse
    dsimp only
    split
    · exact hsteady
    · split
      · refine ⟨?_, h.timer, h.counted, h.bounded⟩
        unfold load live at hload ⊢
        rw [List.countP_append]
        dsimp only at hload ⊢
        have hone : List.countP (fun s => decide (s ≠ ReadyState.closed)) [.connecting] = 1 := rfl
        omega
      · exact hsteady.scheduleReconnect hload

/-- An event of a socket that is not closed: there is nothing else. -/
theorem Steady.alone {n i : ℕ} {s : ReadyState} (h : Steady n c) (hget : c.sockets[i]? = some s) (hs : s ≠ .closed) :
    c.timers = [] ∧ c.requests = 0 ∧ c.live = 1 := by
  have hle := h.load_le
  have hpos : 0 < c.live := List.countP_pos_iff.mpr ⟨s, List.mem_of_getElem? hget, by simpa using hs⟩
  unfold load at hle
  exact ⟨List.length_eq_zero_iff.mp (by omega), by omega, by omega⟩

theorem Steady.onopen {n i : ℕ} {s : ReadyState} (h : Steady n c) (hget : c.sockets[i]? = some s) (hs : s ≠ .closed) :
    Steady 0 (c.onopen i) := by
  obtain ⟨htimers, hrequests, hlive⟩ := h.alone hget hs
  have hset := live_set hget hs .opened
  refine ⟨?_, h.timer, ?_, Nat.zero_le _⟩
  · show c.requests + c.timers.length + (c.sockets.set i .opened).countP (fun s => decide (s ≠ .closed)) ≤ 1
    rw [htimers, hrequests]
    simp only [reduceCtorEq, if_false] at hset
    simp only [List.length_nil]
    omega
  · show 0 + c.timers.length ≤ 0
    rw [htimers]
    exact Nat.le_refl _

theorem Steady.serverCloses {n i : ℕ} {s : ReadyState} (h : Steady n c) (hget : c.sockets[i]? = some s)
    (hs : s ≠ .closed) : Steady n (c.serverCloses i) := by
  obtain ⟨htimers, hrequests, hlive⟩ := h.alone hget hs
  have hset := live_set hget hs .closing
  refine ⟨?_, h.timer, h.counted, h.bounded⟩
  show c.requests + c.timers.length + (c.sockets.set i .closing).countP (fun s => decide (s ≠ .closed)) ≤ 1
  rw [htimers, hrequests]
  simp only [reduceCtorEq, if_false] at hset
  simp only [List.length_nil]
  omega

theorem Steady.onclose {n i : ℕ} {s : ReadyState} (h : Steady n c) (hget : c.sockets[i]? = some s) (hs : s ≠ .closed) :
    Steady n (c.onclose i) := by
  obtain ⟨htimers, hrequests, hlive⟩ := h.alone hget hs
  have hset := live_set hget hs .closed
  have hload : load { c with sockets := c.sockets.set i .closed, heartbeat := false, status := .disconnected } = 0 := by
    show c.requests + c.timers.length + (c.sockets.set i .closed).countP (fun s => decide (s ≠ .closed)) = 0
    rw [htimers, hrequests]
    simp only [if_true] at hset
    simp only [List.length_nil]
    omega
  have hsteady : Steady n { c with sockets := c.sockets.set i .closed, heartbeat := false, status := .disconnected } :=
    ⟨by omega, h.timer, h.counted, h.bounded⟩
  exact hsteady.unlessClosed hload

theorem Steady.timerFires {n id delay : ℕ} (h : Steady n c) (hmem : (id, delay) ∈ c.timers) :
    Steady (n + 1) (c.timerFires id) := by
  have hle := h.load_le
  have hcounted := h.counted
  obtain ⟨t, htimers⟩ : ∃ t, c.timers = [t] := by
    have hpos := List.length_pos_of_mem hmem
    unfold load at hle
    exact List.length_eq_one_iff.mp (by omega)
  have hid : t = (id, delay) := (List.mem_singleton.mp (htimers ▸ hmem)).symm
  have hnone : c.timers.filter (fun timer => timer.1 ≠ id) = [] := by
    rw [htimers, hid]
    simp
  unfold WsClient.timerFires
  rw [hnone]
  rw [htimers] at hcounted
  have hload : load { c with timers := [] } = 0 := by
    unfold load live at hle ⊢
    rw [htimers, List.length_singleton] at hle
    dsimp only [List.length_nil]
    omega
  refine Steady.connect ⟨by omega, fun t ht => absurd ht List.not_mem_nil, ?_, h.bounded⟩ hload
  exact hcounted

/-- `disconnect` leaves no timer, and only tells the socket to close. -/
theorem disconnect_frame {n : ℕ} (h : Steady n c) :
    c.disconnect.timers = [] ∧ c.disconnect.requests = c.requests ∧ c.disconnect.reconnectAttempt = c.reconnectAttempt ∧
      c.disconnect.sockets.length = c.sockets.length ∧ c.disconnect.live = c.live := by
  refine ⟨?_, rfl, rfl, ?_, ?_⟩
  · unfold disconnect
    rcases List.eq_nil_or_concat c.timers with hnil | ⟨first, t, hlast⟩
    · rw [hnil]
      cases c.reconnectTimeout <;> rfl
    · have hle := h.load_le
      unfold load at hle
      rw [List.concat_eq_append] at hlast
      have hfirst : first = [] := by
        rw [hlast, List.length_append, List.length_singleton] at hle
        exact List.length_eq_zero_iff.mp (by omega)
      have htimeout := h.timer t (by rw [hlast]; simp)
      rw [htimeout, hlast, hfirst]
      simp
  · unfold disconnect closeSocket
    cases c.ws with
    | none => rfl
    | some i =>
      dsimp only
      split
      · rfl
      · exact List.length_set
  · unfold disconnect live closeSocket
    cases c.ws with
    | none => rfl
    | some i =>
      dsimp only
      split
      · rfl
      · rename_i hopen
        cases hget : c.sockets[i]? with
        | none => rw [List.set_eq_of_length_le (List.getElem?_eq_none_iff.mp hget)]
        | some s =>
          have hs : s ≠ .closed := fun heq => hopen (by rw [hget, heq])
          have hset := live_set hget hs .closing
          simp only [reduceCtorEq, if_false] at hset
          unfold live at hset
          omega

theorem Steady.disconnect {n : ℕ} (h : Steady n c) : Steady n c.disconnect := by
  obtain ⟨htimers, hrequests, hattempt, -, hlive⟩ := disconnect_frame h
  have hle := h.load_le
  have hcounted := h.counted
  refine ⟨?_, ?_, ?_, ?_⟩
  · unfold load at hle ⊢
    rw [htimers, hrequests, hlive, List.length_nil]
    omega
  · rw [htimers]
    exact fun t ht => absurd ht List.not_mem_nil
  · rw [htimers, hattempt, List.length_nil]
    omega
  · rw [hattempt]
    exact h.bounded

end WsClient

/-- The client is steady; it has nothing pending before it was asked to connect, and no timer after
it was asked to disconnect, which it remembers. -/
structure WsInvariant (past : List WsEvent) (o : Owned) : Prop where
  steady : WsClient.Steady (attemptsSince past) o.client
  unasked : o.connected = false → o.client.load = 0
  intent : o.client.intentionalClose = o.disconnected
  stopped : o.disconnected = true → o.client.timers = []

theorem wsInvariant_new : WsInvariant [] .new where
  steady := ⟨Nat.zero_le _, fun _ ht => absurd ht List.not_mem_nil, Nat.le_refl _, Nat.zero_le _⟩
  unasked _ := rfl
  intent := rfl
  stopped _ := rfl

open WsClient

variable {past : List WsEvent} {o o' : Owned} {e : WsEvent}

/-- Something is pending, so the client was asked to connect. -/
theorem WsInvariant.asked (h : WsInvariant past o) (hload : 0 < o.client.load) : ¬ o.connected = false := fun hno => by
  have hzero := h.unasked hno
  omega

theorem load_pos_of_socket {c : WsClient} {i : ℕ} {s : ReadyState} (hget : c.sockets[i]? = some s) (hs : s ≠ .closed) :
    0 < c.load := by
  have hpos : 0 < c.live := List.countP_pos_iff.mpr ⟨s, List.mem_of_getElem? hget, by simpa using hs⟩
  unfold load
  omega

theorem unlessClosed_frame (c : WsClient) :
    (if c.intentionalClose then c else c.scheduleReconnect).intentionalClose = c.intentionalClose ∧
      (c.intentionalClose = true → (if c.intentionalClose then c else c.scheduleReconnect) = c) := by
  split
  · exact ⟨rfl, fun _ => rfl⟩
  · rename_i hopen
    exact ⟨(scheduleReconnect_frame c).2.2, fun h => absurd h hopen⟩

/-- A response changes no intent, and after a disconnect nothing but what is in flight. -/
theorem ticketResponse_frame (c : WsClient) (r : TicketResponse) :
    (c.ticketResponse r).intentionalClose = c.intentionalClose ∧
      (c.intentionalClose = true →
        (c.ticketResponse r).timers = c.timers ∧ (c.ticketResponse r).sockets = c.sockets) := by
  have hframe := unlessClosed_frame { c with requests := c.requests - 1, connectInFlight := false }
  cases r with
  | noTicket => exact ⟨hframe.1, fun h => by rw [ticketResponse, hframe.2 h]; exact ⟨rfl, rfl⟩⟩
  | failed => exact ⟨hframe.1, fun h => by rw [ticketResponse, hframe.2 h]; exact ⟨rfl, rfl⟩⟩
  | ticket connectable =>
    unfold ticketResponse
    dsimp only
    split
    · exact ⟨rfl, fun _ => ⟨rfl, rfl⟩⟩
    · rename_i hopen
      refine ⟨?_, fun h => absurd h hopen⟩
      split
      · rfl
      · exact (scheduleReconnect_frame _).2.2

theorem WsInvariant.step (h : WsInvariant past o) (hst : WsStep o e o') : WsInvariant (past ++ [e]) o' := by
  obtain ⟨hsteady, hunasked, hintent, hstopped⟩ := h
  have hquiet : ∀ {e : WsEvent}, e.isOpened = false → e.isFired = false →
      attemptsSince (past ++ [e]) = attemptsSince past := by
    intro e hopened hfired
    rw [attemptsSince_concat, hopened, hfired]
    rfl
  cases hst with
  | connect hconnected hdisconnected =>
    rw [hdisconnected] at hintent
    refine ⟨?_, nofun, (connect_frame _).2.2.2.2.2 hintent, nofun⟩
    rw [hquiet rfl rfl]
    exact hsteady.connect (hunasked hconnected)
  | response r hrequest =>
    have hpos : 0 < o.client.load := by
      unfold load
      omega
    obtain ⟨hsame, hrest⟩ := ticketResponse_frame o.client r
    refine ⟨?_, fun hno => absurd (hunasked hno) (by omega), hsame.trans hintent, fun hdone => ?_⟩
    · rw [hquiet rfl rfl]
      exact hsteady.ticketResponse hrequest r
    · exact (hrest (hintent.trans hdone)).1.trans (hstopped hdone)
  | opened hget hs =>
    have hpos := load_pos_of_socket hget hs
    refine ⟨?_, fun hno => absurd (hunasked hno) (by omega), hintent, hstopped⟩
    rw [attemptsSince_concat]
    exact hsteady.onopen hget hs
  | serverCloses hget hs =>
    have hpos := load_pos_of_socket hget hs
    refine ⟨?_, fun hno => absurd (hunasked hno) (by omega), hintent, hstopped⟩
    rw [hquiet rfl rfl]
    exact hsteady.serverCloses hget hs
  | @closed i s hget hs =>
    have hpos := load_pos_of_socket hget hs
    have hframe := unlessClosed_frame
      { o.client with sockets := o.client.sockets.set i .closed, heartbeat := false, status := .disconnected }
    refine ⟨?_, fun hno => absurd (hunasked hno) (by omega), hframe.1.trans hintent, fun hdone => ?_⟩
    · rw [hquiet rfl rfl]
      exact hsteady.onclose hget hs
    · have heq := hframe.2 (hintent.trans hdone)
      exact (congrArg timers heq).trans (hstopped hdone)
  | @fired id delay hmem =>
    have hpos : 0 < o.client.load := by
      have hlen := List.length_pos_of_mem hmem
      unfold load
      omega
    -- a timer is pending, so nobody has disconnected
    have hlive : o.disconnected = false := by
      rw [← Bool.not_eq_true]
      intro hdone
      rw [hstopped hdone] at hmem
      cases hmem
    refine ⟨?_, fun hno => absurd (hunasked hno) (by omega), ?_, fun hdone => absurd hdone (by simp [hlive])⟩
    · rw [attemptsSince_concat]
      exact hsteady.timerFires hmem
    · rw [hlive] at hintent ⊢
      exact (connect_frame _).2.2.2.2.2 hintent
  | disconnect hdisconnected =>
    obtain ⟨htimers, hrequests, -, -, hlive⟩ := disconnect_frame hsteady
    refine ⟨?_, fun hno => ?_, rfl, fun _ => htimers⟩
    · rw [hquiet rfl rfl]
      exact hsteady.disconnect
    · have hzero := hunasked hno
      unfold load at hzero ⊢
      dsimp only
      rw [htimers, hrequests, hlive, List.length_nil]
      omega

/-- After the disconnect no step makes a socket. -/
theorem WsInvariant.silent_step (h : WsInvariant past o) (hdone : o.disconnected = true) (hst : WsStep o e o') :
    o'.disconnected = true ∧ o'.client.sockets.length = o.client.sockets.length := by
  cases hst with
  | connect _ hdisconnected => simp [hdone] at hdisconnected
  | response r hrequest =>
    have hsame := (ticketResponse_frame o.client r).2 (h.intent.trans hdone)
    exact ⟨hdone, congrArg List.length hsame.2⟩
  | opened hget hs => exact ⟨hdone, List.length_set⟩
  | serverCloses hget hs => exact ⟨hdone, List.length_set⟩
  | @closed i s hget hs =>
    have heq := (unlessClosed_frame
      { o.client with sockets := o.client.sockets.set i .closed, heartbeat := false, status := .disconnected }).2
      (h.intent.trans hdone)
    exact ⟨hdone, (congrArg (fun c => c.sockets.length) heq).trans List.length_set⟩
  | fired hmem =>
    rw [h.stopped hdone] at hmem
    cases hmem
  | disconnect hdisconnected => simp [hdone] at hdisconnected

theorem WsInvariant.silent {after : List WsEvent} (h : WsInvariant past o) (hdone : o.disconnected = true)
    (hr : Run WsStep o after o') : o'.client.sockets.length = o.client.sockets.length := by
  induction hr generalizing past with
  | nil => rfl
  | cons hst _ ih =>
    obtain ⟨hdone', hlen⟩ := h.silent_step hdone hst
    exact (ih (h.step hst) hdone').trans hlen

/-- The life of the client, whatever order its events come in. -/
theorem wsClient_lifecycle (h : Run WsStep .new past o) : WsLifecycle past o := by
  have hinv : WsInvariant past o :=
    h.history (P := WsInvariant) (fun _ _ _ _ hi hst => hi.step hst) [] wsInvariant_new
  have hload := hinv.steady.load_le
  unfold load at hload
  refine ⟨by omega, by omega, ?_, fun after o' hr hdone => hinv.silent hdone hr⟩
  have hcounted := hinv.steady.counted
  have hbounded := hinv.steady.bounded
  omega

/-- A client that connects, loses its ticket and is told to stop before the timer fires. -/
theorem wsClient_lifecycle_stopped :
    WsLifecycle [.connect, .response .failed, .disconnect]
      ⟨(WsClient.new.connect.ticketResponse .failed).disconnect, true, true⟩ :=
  wsClient_lifecycle (.cons (.connect rfl rfl) (.cons (.response .failed (by decide)) (.single (.disconnect rfl))))

end Chinwag.Client

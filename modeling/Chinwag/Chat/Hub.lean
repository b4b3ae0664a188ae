import Mathlib.Data.Finset.Insert
import Mathlib.Data.Finset.Erase
import Mathlib.Logic.Function.Basic
import Chinwag.Lib.GoChannel
import Chinwag.Lib.Transition
import Chinwag.Lib.Uuid

/-!
# The WebSocket hub and its pumps

One goroutine selects among registrations, removals and broadcasts; every client has one that reads
its connection and one that writes it. A panic of any of them ends the process.
-/
namespace Chinwag.Chat

open GoChannel Transition

structure BroadcastMessage where
  roomID : Uuid
  message : String

/-- What stands in a client's `send` channel. -/
inductive Frame where
  | message (text : String)
  | pong

/-- `HandleConnection` waits to register, then `readPump` reads, answers a ping, waits to
unregister, and closes the connection. -/
inductive Reader where
  | registering
  | reading
  | answering
  | leaving
  | closing
  | done
  deriving DecidableEq

structure Client where
  roomID : Uuid
  userID : Uuid
  send : Chan Frame
  reader : Reader
  writing : Bool
  connected : Bool

/-- Where `Run` is: in its `select`, in the range over a room, with the clients it has not come to
yet, or about to evict one of them. -/
inductive Phase where
  | selecting
  | delivering (msg : BroadcastMessage) (left : Finset Nat)
  | evicting (msg : BroadcastMessage) (left : Finset Nat) (client : Nat)

/-- Clients are known by the order in which they connected. -/
structure Hub where
  clients : List Client
  rooms : Uuid → Option (Finset Nat)
  broadcast : List BroadcastMessage
  phase : Phase
  panic : Option Panic

def newHub : Hub := ⟨[], fun _ => none, [], .selecting, none⟩

/-- The clients of a room, of which there are none where the room has no map. -/
def Hub.members (h : Hub) (room : Uuid) : Finset Nat := (h.rooms room).getD ∅

def Hub.setClient (h : Hub) (i : Nat) (c : Client) : Hub := { h with clients := h.clients.set i c }

/-- The end of the process. -/
def Hub.die (h : Hub) (p : Panic) : Hub := { h with panic := some p }

/-- `HandleConnection` makes the client it goes on to register. -/
def Hub.connect (h : Hub) (room user : Uuid) : Hub :=
  { h with clients := h.clients ++ [⟨room, user, make 256, .registering, false, true⟩] }

/-- `case client := <-h.register`. -/
def Hub.register (h : Hub) (i : Nat) (c : Client) : Hub :=
  { h.setClient i { c with reader := .reading, writing := true } with
    rooms := Function.update h.rooms c.roomID (some (insert i (h.members c.roomID))) }

/-- `case client := <-h.unregister`. -/
def Hub.unregister (h : Hub) (i : Nat) (c : Client) : Hub :=
  if i ∈ h.members c.roomID then
    match c.send.close with
    | .error p => h.die p
    | .ok send =>
      let rest := (h.members c.roomID).erase i
      { h.setClient i { c with send := send, reader := .closing } with
        rooms := Function.update h.rooms c.roomID (if rest = ∅ then none else some rest) }
  else h.setClient i { c with reader := .closing }

/-- The attempt to send in the range of `case msg := <-h.broadcast`. -/
def Hub.deliver (h : Hub) (msg : BroadcastMessage) (left : Finset Nat) (i : Nat) (c : Client) : Hub :=
  match c.send.trySend (.message msg.message) with
  | .error p => h.die p
  | .ok (some send) => { h.setClient i { c with send := send } with phase := .delivering msg (left.erase i) }
  | .ok none => { h with phase := .evicting msg (left.erase i) i }

/-- Its default: the client cannot keep up. -/
def Hub.evict (h : Hub) (msg : BroadcastMessage) (left : Finset Nat) (i : Nat) (c : Client) : Hub :=
  match c.send.close with
  | .error p => h.die p
  | .ok send =>
    { h.setClient i { c with send := send } with
      rooms := Function.update h.rooms c.roomID ((h.rooms c.roomID).map fun s => s.erase i)
      phase := .delivering msg left }

/-- The answer of `readPump` to a ping. -/
def Hub.answerPing (h : Hub) (i : Nat) (c : Client) : Hub :=
  match c.send.trySend .pong with
  | .error p => h.die p
  | .ok (some send) => h.setClient i { c with send := send, reader := .reading }
  | .ok none => h.setClient i { c with reader := .reading }

inductive HubEvent where
  | connect (room user : Uuid)
  | register (i : Nat) (room : Uuid)
  | ping (i : Nat)
  | readFailed (i : Nat)
  | pong (i : Nat)
  | unregister (i : Nat)
  | closed (i : Nat)
  | write (i : Nat)
  | writeFailed (i : Nat)
  | post (msg : BroadcastMessage)
  | take (msg : BroadcastMessage)
  | deliver (i : Nat) (msg : BroadcastMessage)
  | crash (i : Nat)
  | overflow (i : Nat)
  | evict (i : Nat)
  | finish

/-- One step of one of the goroutines. -/
inductive HubStep : Hub → HubEvent → Hub → Prop where
  | connect {h : Hub} (halive : h.panic = none) (room user : Uuid) :
      HubStep h (.connect room user) (h.connect room user)
  | register {h : Hub} {i : Nat} {c : Client} (halive : h.panic = none) (hphase : h.phase = .selecting)
      (hi : h.clients[i]? = some c) (hc : c.reader = .registering) :
      HubStep h (.register i c.roomID) (h.register i c)
  | ping {h : Hub} {i : Nat} {c : Client} (halive : h.panic = none) (hi : h.clients[i]? = some c)
      (hc : c.reader = .reading) (hconn : c.connected = true) :
      HubStep h (.ping i) (h.setClient i { c with reader := .answering })
  | readFailed {h : Hub} {i : Nat} {c : Client} (halive : h.panic = none) (hi : h.clients[i]? = some c)
      (hc : c.reader = .reading) : HubStep h (.readFailed i) (h.setClient i { c with reader := .leaving })
  | pong {h : Hub} {i : Nat} {c : Client} (halive : h.panic = none) (hi : h.clients[i]? = some c)
      (hc : c.reader = .answering) : HubStep h (.pong i) (h.answerPing i c)
  | unregister {h : Hub} {i : Nat} {c : Client} (halive : h.panic = none) (hphase : h.phase = .selecting)
      (hi : h.clients[i]? = some c) (hc : c.reader = .leaving) :
      HubStep h (.unregister i) (h.unregister i c)
  | closed {h : Hub} {i : Nat} {c : Client} (halive : h.panic = none) (hi : h.clients[i]? = some c)
      (hc : c.reader = .closing) :
      HubStep h (.closed i) (h.setClient i { c with reader := .done, connected := false })
  | write {h : Hub} {i : Nat} {c : Client} {frame : Frame} {send : Chan Frame} (halive : h.panic = none)
      (hi : h.clients[i]? = some c) (hc : c.writing = true) (hrecv : c.send.recv = some (some frame, send)) :
      HubStep h (.write i) (h.setClient i { c with send := send })
  | writeClosed {h : Hub} {i : Nat} {c : Client} {send : Chan Frame} (halive : h.panic = none)
      (hi : h.clients[i]? = some c) (hc : c.writing = true) (hrecv : c.send.recv = some (none, send)) :
      HubStep h (.writeFailed i) (h.setClient i { c with send := send, writing := false, connected := false })
  | writeFailed {h : Hub} {i : Nat} {c : Client} (halive : h.panic = none) (hi : h.clients[i]? = some c)
      (hc : c.writing = true) :
      HubStep h (.writeFailed i) (h.setClient i { c with writing := false, connected := false })
  | post {h : Hub} (halive : h.panic = none) (msg : BroadcastMessage) (hroom : h.broadcast.length < 256) :
      HubStep h (.post msg) { h with broadcast := h.broadcast ++ [msg] }
  | take {h : Hub} {msg : BroadcastMessage} {rest : List BroadcastMessage} (halive : h.panic = none)
      (hphase : h.phase = .selecting) (hqueue : h.broadcast = msg :: rest) :
      HubStep h (.take msg) { h with broadcast := rest, phase := .delivering msg (h.members msg.roomID) }
  | deliver {h : Hub} {msg : BroadcastMessage} {left : Finset Nat} {i : Nat} {c : Client} {send : Chan Frame}
      (halive : h.panic = none) (hphase : h.phase = .delivering msg left) (hleft : i ∈ left)
      (hi : h.clients[i]? = some c) (hsend : c.send.trySend (.message msg.message) = .ok (some send)) :
      HubStep h (.deliver i msg) (h.deliver msg left i c)
  | crash {h : Hub} {msg : BroadcastMessage} {left : Finset Nat} {i : Nat} {c : Client} {p : Panic}
      (halive : h.panic = none) (hphase : h.phase = .delivering msg left) (hleft : i ∈ left)
      (hi : h.clients[i]? = some c) (hsend : c.send.trySend (.message msg.message) = .error p) :
      HubStep h (.crash i) (h.deliver msg left i c)
  | overflow {h : Hub} {msg : BroadcastMessage} {left : Finset Nat} {i : Nat} {c : Client} (halive : h.panic = none)
      (hphase : h.phase = .delivering msg left) (hleft : i ∈ left) (hi : h.clients[i]? = some c)
      (hsend : c.send.trySend (.message msg.message) = .ok none) :
      HubStep h (.overflow i) (h.deliver msg left i c)
  | evict {h : Hub} {msg : BroadcastMessage} {left : Finset Nat} {i : Nat} {c : Client} (halive : h.panic = none)
      (hphase : h.phase = .evicting msg left i) (hi : h.clients[i]? = some c) :
      HubStep h (.evict i) (h.evict msg left i c)
  | finish {h : Hub} {msg : BroadcastMessage} (halive : h.panic = none) (hphase : h.phase = .delivering msg ∅) :
      HubStep h .finish { h with phase := .selecting }

end Chinwag.Chat

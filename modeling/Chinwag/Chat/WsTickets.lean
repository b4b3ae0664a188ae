import Chinwag.Chat.Hub
import Chinwag.Lib.Json
import Chinwag.Lib.Program
import Chinwag.Lib.Redis

/-!
# WebSocket tickets

`IssueWsTicket` leaves the user and the room under a key of Redis, `ServeWS` takes them from there
and hands the upgraded connection to the hub. Both are programs of the calls they make.
-/
namespace Chinwag.Tickets

open Chat Program Redis

structure WsTicketPayload where
  userID : String
  roomID : String

namespace WsTicketPayload

def encode (p : WsTicketPayload) : Json := .obj [("user_id", .str p.userID), ("room_id", .str p.roomID)]

def decode (v : Json) : Option WsTicketPayload := do
  let fields ← v.asStruct
  let userID ← Json.stringField "user_id" fields
  let roomID ← Json.stringField "room_id" fields
  return ⟨userID, roomID⟩

theorem foldName_fields : Json.foldName "user_id" = "user_id".toList ∧ Json.foldName "room_id" = "room_id".toList := by
  decide

@[simp] theorem decode_encode (p : WsTicketPayload) : decode p.encode = some p := by
  simp [decode, encode, Json.stringField, Json.field, Json.valuesOf_cons, foldName_fields, Json.decodeOnto,
    Json.readString]

end WsTicketPayload

/-- Thirty seconds, in milliseconds. -/
def wsTicketTTL : Nat := 30 * 1000

def ticketKey (ticket : String) : String := "ws:ticket:" ++ ticket

theorem ticketKey_injective : Function.Injective ticketKey := by
  intro a b h
  have hlist := congrArg String.toList h
  simp only [ticketKey, String.toList_append, List.append_cancel_left_eq] at hlist
  exact String.toList_injective hlist

/-- The calls the two handlers make; a connection is known by the order of the upgrades. -/
inductive WsCmd where
  | newV7
  | set (key : String) (data : Json) (ttl : Nat)
  | evalConsume (key : String)
  | upgrade
  | handleConnection (conn : Nat) (roomID userID : Uuid)

abbrev WsReply : WsCmd → Type
  | .newV7 => Uuid
  | .set _ _ _ => Except RedisError Unit
  | .evalConsume _ => Except RedisError (Option Json)
  | .upgrade => Except String Nat
  | .handleConnection _ _ _ => Unit

abbrev WsProg (α : Type) := Prog WsCmd WsReply α

open Prog (perform)

inductive WsResponse where
  | issued (ticket : String) (expiresIn : Nat)
  | refused (status : Nat) (error : String)
  | notUpgraded (error : String)
  | connected

inductive ConsumeError where
  | redis (e : RedisError)
  | unmarshal

/-- `IssueWsTicket`, given the subject of the claims, if there are any, and the path parameter. -/
def issueWsTicket (claims : Option String) (param : String) : WsProg WsResponse :=
  match claims with
  | none => return .refused 401 "unauthorized"
  | some userID =>
    match Uuid.parse param with
    | none => return .refused 400 "invalid room id"
    | some roomID => do
      let ticket ← perform WsCmd.newV7
      let payload : WsTicketPayload := ⟨userID, roomID.toText⟩
      match ← perform (WsCmd.set (ticketKey ticket.toText) payload.encode wsTicketTTL) with
      | .error _ => return .refused 500 "failed to issue ticket"
      | .ok () => return .issued ticket.toText (wsTicketTTL / 1000)

def consumeWsTicket (ticket : String) : WsProg (Except ConsumeError (Option WsTicketPayload)) := do
  match ← perform (WsCmd.evalConsume (ticketKey ticket)) with
  | .error e => return .error (.redis e)
  | .ok none => return .ok none
  | .ok (some data) =>
    match WsTicketPayload.decode data with
    | none => return .error .unmarshal
    | some p => return .ok (some p)

/-- The upgrade of `ServeWS` and what follows it. -/
def connect (roomID userID : Uuid) : WsProg WsResponse := do
  match ← perform WsCmd.upgrade with
  | .error e => return .notUpgraded e
  | .ok conn =>
    perform (WsCmd.handleConnection conn roomID userID)
    return .connected

/-- `ServeWS` once the ticket was consumed. -/
def admitTicket (payload : WsTicketPayload) (param : String) : WsProg WsResponse :=
  match Uuid.parse param with
  | none => return .refused 400 "invalid room id"
  | some roomID =>
    if payload.roomID ≠ roomID.toText then return .refused 401 "ws ticket not valid for this room"
    else match Uuid.parse payload.userID with
      | none => return .refused 400 "invalid user id"
      | some userID => connect roomID userID

def serveWS (ticket param : String) : WsProg WsResponse :=
  if ticket = "" then return .refused 401 "missing ws ticket"
  else do
    match ← consumeWsTicket ticket with
    | .error _ => return .refused 500 "failed to consume ticket"
    | .ok none => return .refused 401 "invalid or expired ws ticket"
    | .ok (some payload) => admitTicket payload param

inductive WsRequest where
  | issue (claims : Option String) (param : String)
  | serve (ticket param : String)

def WsRequest.prog : WsRequest → WsProg WsResponse
  | .issue claims param => issueWsTicket claims param
  | .serve ticket param => serveWS ticket param

section State

structure StoredTicket where
  data : Json
  expireAt : Nat

/-- Which request stored a ticket, when, and who was an active member of which room then. -/
structure Issue where
  key : String
  data : Json
  request : Nat
  time : Nat
  audience : Uuid → Uuid → Bool

/-- Which request was given what a ticket stood for, and when. -/
structure Redemption where
  key : String
  data : Json
  request : Nat
  time : Nat

/-- Which request upgraded to a connection, and when. -/
structure Upgraded where
  request : Nat
  time : Nat

/-- Redis and its clock in milliseconds, the hub with the connection of each of its clients, the
active members of each room, and what was drawn, issued, redeemed and upgraded so far. -/
structure TicketState where
  store : String → Option StoredTicket
  now : Nat
  hub : Hub
  owners : List Nat
  members : Uuid → Uuid → Bool
  drawn : List (Nat × Uuid)
  issued : List Issue
  redeemed : List Redemption
  conns : List Upgraded

namespace TicketState

/-- `GET key`. -/
def lookup (s : TicketState) (key : String) : Option Json :=
  match s.store key with
  | some e => if s.now ≤ e.expireAt then some e.data else none
  | none => none

/-- `SET key data PX ttl`, for request `i`. -/
def set (s : TicketState) (i : Nat) (key : String) (data : Json) (ttl : Nat) : TicketState :=
  { s with
    store := Function.update s.store key (some ⟨data, s.now + ttl⟩)
    issued := ⟨key, data, i, s.now, s.members⟩ :: s.issued }

def drop (s : TicketState) (key : String) : TicketState :=
  { s with store := Function.update s.store key none }

/-- `consumeWsTicketScript`, when its answer reaches nobody. -/
def consume (s : TicketState) (key : String) : TicketState :=
  match s.lookup key with
  | none => s
  | some _ => s.drop key

/-- `consumeWsTicketScript`, answered to request `i`. -/
def redeem (s : TicketState) (i : Nat) (key : String) : TicketState :=
  match s.lookup key with
  | none => s
  | some data => { s.drop key with redeemed := ⟨key, data, i, s.now⟩ :: s.redeemed }

end TicketState

/-- A ticket is drawn that never was before. A call to Redis that fails may have been carried out or
not; a connection is handed to the hub while the process lives. -/
inductive Exec (i : Nat) : (c : WsCmd) → TicketState → WsReply c → TicketState → Prop where
  | newV7 {s : TicketState} {ticket : Uuid} (fresh : ticket ∉ s.drawn.map Prod.snd) :
      Exec i .newV7 s ticket { s with drawn := (i, ticket) :: s.drawn }
  | set {s : TicketState} (key : String) (data : Json) (ttl : Nat) :
      Exec i (.set key data ttl) s (.ok ()) (s.set i key data ttl)
  | setFailed {s : TicketState} (key : String) (data : Json) (ttl : Nat) (e : RedisError) :
      Exec i (.set key data ttl) s (.error e) s
  | setLost {s : TicketState} (key : String) (data : Json) (ttl : Nat) (e : RedisError) :
      Exec i (.set key data ttl) s (.error e) (s.set i key data ttl)
  | consume {s : TicketState} (key : String) :
      Exec i (.evalConsume key) s (.ok (s.lookup key)) (s.redeem i key)
  | consumeFailed {s : TicketState} (key : String) (e : RedisError) :
      Exec i (.evalConsume key) s (.error e) s
  | consumeLost {s : TicketState} (key : String) (e : RedisError) :
      Exec i (.evalConsume key) s (.error e) (s.consume key)
  | upgrade {s : TicketState} :
      Exec i .upgrade s (.ok s.conns.length) { s with conns := s.conns ++ [⟨i, s.now⟩] }
  | upgradeFailed {s : TicketState} (e : String) : Exec i .upgrade s (.error e) s
  | handleConnection {s : TicketState} (conn : Nat) (roomID userID : Uuid) (halive : s.hub.panic = none) :
      Exec i (.handleConnection conn roomID userID) s ()
        { s with hub := s.hub.connect roomID userID, owners := s.owners ++ [conn] }

/-- Time passes, Redis loses a key, the hub and its pumps take a step, members come and go, and the
service is started anew with an empty hub. -/
inductive Ambient : TicketState → TicketState → Prop where
  | after {s : TicketState} (ms : Nat) : Ambient s { s with now := s.now + ms }
  | lose {s : TicketState} (key : String) : Ambient s (s.drop key)
  | hub {s : TicketState} {e : HubEvent} {h : Hub} (hstep : HubStep s.hub e h)
      (hother : ∀ room user, e ≠ .connect room user) : Ambient s { s with hub := h }
  | members {s : TicketState} (members : Uuid → Uuid → Bool) : Ambient s { s with members := members }
  | restart {s : TicketState} : Ambient s { s with hub := newHub, owners := [] }

def ticketSemantics : Semantics TicketState Unit WsCmd WsReply where
  exec := Exec
  env s _ t := Ambient s t

abbrev TicketPool := Pool TicketState WsCmd WsReply WsResponse

abbrev TicketLabel := Label Unit WsCmd WsReply WsResponse

abbrev TicketStep : TicketPool → TicketLabel → TicketPool → Prop :=
  Step ticketSemantics fun p => ∃ q : WsRequest, p = q.prog

/-- No ticket was issued yet and nobody is connected. -/
structure TicketInit (pool : TicketPool) : Prop where
  store : ∀ key, pool.shared.store key = none
  drawn : pool.shared.drawn = []
  issued : pool.shared.issued = []
  redeemed : pool.shared.redeemed = []
  conns : pool.shared.conns = []
  owners : pool.shared.owners = []
  hub : pool.shared.hub = newHub
  threads : pool.threads = []

/-- The requests a run is about, by the number of the thread that serves each. -/
def Serves (requests : List WsRequest) (trace : List TicketLabel) : Prop :=
  spawned trace = requests.map WsRequest.prog

end State

end Chinwag.Tickets

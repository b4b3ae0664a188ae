import Chinwag.Chat.OutboxAtomicity
import Chinwag.Rooms.Frozen
import Chinwag.Rooms.Sequential

/-!
# Writes to popped rooms

A call asks the room service for the room once, before its transaction; what that service does in
the meantime it does not see. Beside the two services the state remembers which room each call
was last told is open.
-/
namespace Chinwag.Chat

open Program Transition
open Rooms (RoomPool RoomLabel RoomStep RoomTables RoomInit Popped)

/-- The command service beside the room service; no command reads `looked`. -/
structure Services where
  chat : Store
  rooms : RoomPool
  looked : Nat → Option Uuid

/-- `GET /rooms/:id` as the adapter reads it: a room it answers with is one of the table. -/
def RoomAnswer (t : RoomTables) (roomId : String) (r : Except ChatError RoomInfo) : Prop :=
  ∀ info, r = .ok info → ∃ id room, Uuid.parse roomId = some id ∧ t.getRoomById id = .ok room ∧
    info.poppedAt.isSome = room.poppedAt.isSome

def AnswersRoom (t : RoomTables) : (c : ChatCmd) → ChatReply c → Prop
  | .getRoomById roomId, r => RoomAnswer t roomId r
  | _, _ => True

/-- The room a reply says is open. -/
def openRoom : (c : ChatCmd) → ChatReply c → Option Uuid
  | .getRoomById roomId, .ok info => if info.poppedAt.isSome then none else Uuid.parse roomId
  | _, _ => none

def lookedAfter (looked : Nat → Option Uuid) (i : Nat) : Option Uuid → Nat → Option Uuid
  | none => looked
  | some k => Function.update looked i (some k)

structure Services.Exec (present : Nat → Rfc3339.Time) (i : Nat) (c : ChatCmd) (s : Services) (r : ChatReply c)
    (s' : Services) : Prop where
  chat : exec present i c s.chat r s'.chat
  answer : AnswersRoom s.rooms.shared.tables c r
  rooms : s'.rooms = s.rooms
  looked : s'.looked = lookedAfter s.looked i (openRoom c r)

/-- What happens around the calls: what happens to the database, and the steps of the room service. -/
inductive Services.Around (s : Services) : Ambient ⊕ RoomLabel → Services → Prop where
  | chat {e : Ambient} {t : Store} (h : ambient s.chat e t) : Around s (.inl e) { s with chat := t }
  | rooms {l : RoomLabel} {q : RoomPool} (h : RoomStep s.rooms l q) : Around s (.inr l) { s with rooms := q }

def servicesSemantics (present : Nat → Rfc3339.Time) :
    Semantics Services (Ambient ⊕ RoomLabel) ChatCmd ChatReply where
  exec := Services.Exec present
  env := Services.Around

abbrev ServicesPool := Pool Services ChatCmd ChatReply Outcome

abbrev ServicesLabel := Label (Ambient ⊕ RoomLabel) ChatCmd ChatReply Outcome

abbrev ServicesStep (present : Nat → Rfc3339.Time) : ServicesPool → ServicesLabel → ServicesPool → Prop :=
  Step (servicesSemantics present) Entry

structure ServicesInit (pool : ServicesPool) : Prop where
  threads : pool.threads = []
  chat : Starts pool.shared.chat
  rooms : RoomInit pool.shared.rooms
  looked : ∀ i, pool.shared.looked i = none

/-- A change of a message of the room. -/
def Mutation.InRoom (m : Messages) (k : Uuid) : Mutation → Prop
  | .insert _ row => row.roomId = k
  | .setContent id _ _ => ∃ row, m id = some row ∧ row.roomId = k
  | .softDelete id _ => ∃ row, m id = some row ∧ row.roomId = k

variable {present : Nat → Rfc3339.Time} {i : Nat} {k : Uuid} {ids : Uuid → Prop} {m m' : Messages}
  {s t : Services} {mine : Nat → Prop} {s₀ : Store}

theorem Mutation.InRoom.unique {w : Mutation} {k' : Uuid} (h : w.InRoom m k) (h' : w.InRoom m k') : k = k' := by
  cases w with
  | insert id row => exact h.symm.trans h'
  | setContent id content now | softDelete id now =>
    obtain ⟨row, hrow, rfl⟩ := h
    obtain ⟨row', hrow', rfl⟩ := h'
    rw [Option.some.inj (hrow.symm.trans hrow')]

theorem Mutation.InRoom.persist {w : Mutation} (h : w.InRoom m k) (hp : RowsPersist m m') : w.InRoom m' k := by
  cases w with
  | insert id row => exact h
  | setContent id content now | softDelete id now =>
    obtain ⟨row, hrow, rfl⟩ := h
    obtain ⟨row', hrow', hroom, -, -⟩ := hp id row hrow
    exact ⟨row', hrow', hroom⟩

section Contract

/-- The messages are there and are messages of the room. -/
def RowsIn (k : Uuid) (ids : Uuid → Prop) (m : Messages) : Prop :=
  ∀ id, ids id → ∃ row, m id = some row ∧ row.roomId = k

/-- The commands of a call that has its answer, for the room `k` and the messages `ids`. -/
def WritesIn (k : Uuid) (ids : Uuid → Prop) : ChatCmd → Prop
  | .now | .newV7 | .getMembersByRoomId _ | .getUser _ => True
  | .begin | .insertOutbox _ | .commit | .rollback => True
  | .insertMessage msg => msg.roomId = k
  | .updateMessage id _ => ids id
  | .deleteMessage id => ids id
  | _ => False

/-- The transaction of thread `i` writes in that room only. -/
def TxIn (i : Nat) (k : Uuid) (s : Store) : Prop :=
  ∀ tx, s.txs i = some tx → ∀ w ∈ tx.writes, w.InRoom s.messages k

/-- Thread `i` has been told that the room is open, and writes there. -/
structure Told (i : Nat) (k : Uuid) (ids : Uuid → Prop) (s : Services) : Prop where
  looked : s.looked i = some k
  rows : RowsIn k ids s.chat.messages
  tx : TxIn i k s.chat

/-- Those of `mine` commit changes of the room they were told is open, and no others. -/
def lookupContract (mine : Nat → Prop) : Contract Services ChatCmd where
  inv _ := True
  rely i s t := Rely i s.chat t.chat ∧ t.looked i = s.looked i
  guar i c s := c = .commit → mine i → ∃ k, s.looked i = some k ∧ TxIn i k s.chat

def servicesContract (s₀ : Store) (mine : Nat → Prop) : Contract Services ChatCmd :=
  ((chatContract s₀).pullback Services.chat).both (lookupContract mine)

theorem lookedAfter_ne {looked : Nat → Option Uuid} {j : Nat} (hj : j ≠ i) (k : Option Uuid) :
    lookedAfter looked i k j = looked j := by
  cases k with
  | none => rfl
  | some k => exact Function.update_of_ne hj _ _

theorem servicesContract_sound (s₀ : Store) (mine : Nat → Prop) :
    (servicesContract s₀ mine).Sound (servicesSemantics present) where
  rely_refl i s := ⟨Rely.refl i s.chat, Rely.refl i s.chat, rfl⟩
  rely_trans i s t u h h' := ⟨h.1.trans h'.1, h.2.1.trans h'.2.1, h'.2.2.trans h.2.2⟩
  env s e t hs he := by
    cases he with
    | chat hchat =>
      obtain ⟨hinv, hrely⟩ := (chatContract_sound present s₀).env _ _ _ hs.1 hchat
      exact ⟨⟨hinv, trivial⟩, fun i => ⟨hrely i, hrely i, rfl⟩⟩
    | rooms => exact ⟨⟨hs.1, trivial⟩, fun i => ⟨Rely.refl i _, Rely.refl i _, rfl⟩⟩
  cmd i c s r t hs hguar hexec := by
    obtain ⟨hinv, hrely⟩ := (chatContract_sound present s₀).cmd i c _ r _ hs.1 hguar.1 hexec.chat
    refine ⟨⟨hinv, trivial⟩, fun j hj => ⟨hrely j hj, hrely j hj, ?_⟩⟩
    rw [hexec.looked, lookedAfter_ne hj]

theorem RowsIn.persist (h : RowsIn k ids m) (hp : RowsPersist m m') : RowsIn k ids m' := by
  intro id hid
  obtain ⟨row, hrow, rfl⟩ := h id hid
  obtain ⟨row', hrow', hroom, -, -⟩ := hp id row hrow
  exact ⟨row', hrow', hroom⟩

theorem RowsIn.apply {w : Mutation} (h : RowsIn k ids m) (hw : ∀ id row, w = .insert id row → row.roomId = k) :
    RowsIn k ids (w.apply m) := by
  intro id hid
  obtain ⟨row, hrow, hroom⟩ := h id hid
  by_cases heq : id = w.target
  · subst heq
    rw [w.apply_target, hrow]
    cases w with
    | insert id' row' => exact ⟨row', rfl, hw id' row' rfl⟩
    | setContent id' content now => exact ⟨_, rfl, hroom⟩
    | softDelete id' now => exact ⟨_, rfl, hroom⟩
  · exact ⟨row, by rw [w.apply_ne m heq, hrow], hroom⟩

theorem RowsIn.view {tx : Tx} (h : RowsIn k ids m) (hw : ∀ w ∈ tx.writes, w.InRoom m k) :
    RowsIn k ids (tx.view m) := by
  have hinserts : ∀ w ∈ tx.writes, ∀ id row, w = .insert id row → row.roomId = k := by
    rintro _ hmem id row rfl
    exact hw _ hmem
  unfold Tx.view
  generalize tx.writes = writes at hinserts
  clear hw
  induction writes generalizing m with
  | nil => exact h
  | cons w writes ih =>
    have hfirst := h.apply (hinserts w List.mem_cons_self)
    exact ih hfirst fun w' hw' => hinserts w' (List.mem_cons_of_mem w hw')

theorem Told.rely (h : Told i k ids s) (hr : (lookupContract mine).rely i s t) : Told i k ids t := by
  obtain ⟨hrely, hlooked⟩ := hr
  refine ⟨hlooked.trans h.looked, h.rows.persist hrely.rows, fun tx htx w hw => ?_⟩
  rcases hrely.tx with hsame | hnone
  · exact (h.tx tx (hsame.symm.trans htx) w hw).persist hrely.rows
  · rw [hnone] at htx
    cases htx

section Writes

variable {c u : Store}

theorem TxIn.set {o : Option Tx} (h : ∀ tx, o = some tx → ∀ w ∈ tx.writes, w.InRoom c.messages k) :
    TxIn i k (c.setTx i o) := by
  intro tx htx
  simp only [Store.setTx, Function.update_self] at htx
  exact h tx htx

theorem TxIn.addWrite {tx : Tx} {w : Mutation} (h : TxIn i k c) (htx : c.txs i = some tx)
    (hw : w.InRoom c.messages k) : TxIn i k (c.addWrite i tx w) := by
  refine TxIn.set ?_
  rintro _ ⟨⟩ w' hw'
  rcases List.mem_append.mp hw' with hold | hnew
  · exact h tx htx w' hold
  · rw [List.mem_singleton.mp hnew]
    exact hw

theorem TxIn.updateRow {w : Nat → Mutation} {rows : Nat} (h : TxIn i k c)
    (hw : ∀ n, (w n).InRoom c.messages k) (he : UpdateRow i w c rows u) :
    TxIn i k u ∧ u.messages = c.messages := by
  obtain ⟨tx, htx, ⟨-, -, -, rfl⟩ | ⟨-, -, rfl⟩⟩ := he
  · exact ⟨h.addWrite htx (hw _), rfl⟩
  · exact ⟨h, rfl⟩

theorem of_fallible {α : Type} {effect : α → Store → Prop} {r : Except ChatError α} {P : Store → Prop}
    (hsame : P c) (heffect : ∀ a u, effect a u → P u) (h : Fallible effect c r u) : P u := by
  cases r with
  | ok a => exact heffect a u h
  | error e =>
    rcases h with rfl | ⟨a, ha⟩
    · exact hsame
    · exact heffect a u ha

/-- A command that may only write in the room. -/
theorem writesIn_exec {cmd : ChatCmd} {r : ChatReply cmd} (hc : WritesIn k ids cmd) (hrows : RowsIn k ids c.messages)
    (htx : TxIn i k c) (hexec : exec present i cmd c r u) : RowsIn k ids u.messages ∧ TxIn i k u := by
  have hdrop : RowsIn k ids (c.setTx i none).messages ∧ TxIn i k (c.setTx i none) :=
    ⟨hrows, TxIn.set fun _ h => nomatch h⟩
  cases cmd with
  | now | newV7 | getMembersByRoomId | getUser =>
    obtain rfl := hexec
    exact ⟨hrows, htx⟩
  | begin =>
    cases r with
    | ok _ =>
      obtain rfl := hexec
      refine ⟨hrows, TxIn.set ?_⟩
      rintro _ ⟨⟩ w hw
      cases hw
    | error e =>
      obtain rfl := hexec
      exact ⟨hrows, htx⟩
  | insertMessage msg =>
    refine of_fallible (P := fun u => RowsIn k ids u.messages ∧ TxIn i k u) ⟨hrows, htx⟩ ?_ hexec
    rintro _ _ ⟨tx, hi, -, -, rfl⟩
    exact ⟨hrows, htx.addWrite hi hc⟩
  | updateMessage id content | deleteMessage id =>
    refine of_fallible (P := fun u => RowsIn k ids u.messages ∧ TxIn i k u) ⟨hrows, htx⟩ ?_ hexec
    intro rows u he
    obtain ⟨htx', hsame⟩ := htx.updateRow (fun _ => by exact hrows id hc) he
    exact ⟨by rw [hsame]; exact hrows, htx'⟩
  | insertOutbox event =>
    refine of_fallible (P := fun u => RowsIn k ids u.messages ∧ TxIn i k u) ⟨hrows, htx⟩ ?_ hexec
    rintro _ _ ⟨tx, hi, -, rfl⟩
    refine ⟨hrows, TxIn.set ?_⟩
    rintro _ ⟨⟩ w hw
    exact htx tx hi w hw
  | commit =>
    cases r with
    | ok _ =>
      obtain ⟨tx, hi, rfl⟩ := hexec
      refine ⟨hrows.view (htx tx hi), ?_⟩
      intro tx' htx'
      simp [Store.commitTx, Store.setTx] at htx'
    | error e =>
      rcases hexec with rfl | rfl
      · exact ⟨hrows, htx⟩
      · exact hdrop
  | rollback =>
    cases r with
    | ok _ =>
      obtain rfl := hexec
      exact hdrop
    | error e =>
      rcases hexec with rfl | rfl
      · exact ⟨hrows, htx⟩
      · exact hdrop
  | _ => exact hc.elim

end Writes

theorem openRoom_of_writesIn {c : ChatCmd} (hc : WritesIn k ids c) (r : ChatReply c) : openRoom c r = none := by
  cases c with
  | getRoomById => exact hc.elim
  | _ => rfl

/-- Safety under the lookup contract alone. -/
abbrev SafeLookup (present : Nat → Rfc3339.Time) (mine : Nat → Prop) (i : Nat) {α : Type} (p : ChatProg α)
    (s : Services) : Prop :=
  Safe (servicesSemantics present) (lookupContract mine) i (fun _ _ => True) p s

variable {α β : Type}

/-- After the lookup: whatever the others do, what is written is in the room. -/
theorem safe_writesIn {p : ChatProg α} (hp : Only (WritesIn k ids) p) (h : Told i k ids s) :
    SafeLookup present mine i p s := by
  induction p generalizing s with
  | ret a => trivial
  | call c next ih =>
    obtain ⟨hc, hnext⟩ := hp
    intro s₁ _ hrely
    have h₁ := h.rely hrely
    refine ⟨fun _ _ => ⟨k, h₁.looked, h₁.tx⟩, fun r s₂ hexec _ => ih r (hnext r) ?_⟩
    obtain ⟨hrows, htx⟩ := writesIn_exec hc h₁.rows h₁.tx hexec.chat
    have hlooked : s₂.looked = s₁.looked := by rw [hexec.looked, openRoom_of_writesIn hc r, lookedAfter]
    exact ⟨by rw [hlooked]; exact h₁.looked, hrows, htx⟩

/-- Before the lookup. -/
structure Untold (i : Nat) (k : Uuid) (ids : Uuid → Prop) (s : Services) : Prop where
  rows : RowsIn k ids s.chat.messages
  tx : s.chat.txs i = none

theorem Untold.rely (h : Untold i k ids s) (hr : (lookupContract mine).rely i s t) : Untold i k ids t := by
  refine ⟨h.rows.persist hr.1.rows, ?_⟩
  rcases hr.1.tx with hsame | hnone
  · exact hsame.trans h.tx
  · exact hnone

theorem safe_lookup {tail : RoomInfo → ChatProg (Except ChatError α)} (h : Untold i k ids s)
    (htail : ∀ room, Only (WritesIn k ids) (tail room)) :
    SafeLookup present mine i
      (checked (getRoomById k.toText) fun room => if room.poppedAt.isSome then fail roomPopped else tail room) s := by
  intro s₁ _ hrely
  have h₁ := h.rely hrely
  refine ⟨fun hcommit => (nomatch hcommit), fun r s₂ hexec _ => ?_⟩
  cases r with
  | error e => trivial
  | ok room =>
    dsimp only [Prog.bind]
    split
    · trivial
    · rename_i hopen
      have hroom : openRoom (.getRoomById k.toText) (.ok room) = some k := by
        simp only [openRoom, if_neg hopen]
        exact Uuid.parse_text k
      have hchat : s₂.chat = s₁.chat := hexec.chat
      refine safe_writesIn (htail room) ⟨?_, ?_, ?_⟩
      · rw [hexec.looked, hroom]
        exact Function.update_self i (some k) s₁.looked
      · rw [hchat]
        exact h₁.rows
      · intro tx htx
        rw [hchat, h₁.tx] at htx
        cases htx

theorem only_checked {P : ChatCmd → Prop} {p : ChatProg (Except ChatError α)}
    {f : α → ChatProg (Except ChatError β)} (hp : Only P p) (hf : ∀ a, Only P (f a)) :
    Only P (checked p f) := by
  refine hp.bind fun r => ?_
  cases r with
  | error e => trivial
  | ok a => exact hf a

theorem only_perform {P : ChatCmd → Prop} {c : ChatCmd} (hc : P c) : Only P (Prog.perform c : ChatProg _) :=
  ⟨hc, fun _ => trivial⟩

theorem only_marshalled {P : ChatCmd → Prop} {payload : Option Json} {f : Json → ChatProg (Except ChatError α)}
    (hf : ∀ json, Only P (f json)) : Only P (marshalled payload f) := by
  cases payload with
  | none => trivial
  | some json => exact hf json

/-- A unit of work of one statement and its event. -/
theorem only_work {statement : ChatProg (Except ChatError Unit)} (event : Uuid → OutboxEvent)
    (h : Only (WritesIn k ids) statement) :
    Only (WritesIn k ids) (unitOfWork (checked statement fun _ => insertEvent event)) := by
  have hevent : Only (WritesIn k ids) (insertEvent event) := (only_perform trivial).bind fun _ => only_perform trivial
  refine only_checked (only_perform trivial) fun _ => (only_checked h fun _ => hevent).bind fun r => ?_
  cases r with
  | error e => exact (only_perform trivial).bind fun r => by cases r <;> trivial
  | ok _ => exact only_perform trivial

theorem only_affectsRow {statement : ChatProg (Except ChatError Nat)} (h : Only (WritesIn k ids) statement) :
    Only (WritesIn k ids) (affectsRow statement) := by
  refine only_checked h fun rows => ?_
  split <;> trivial

theorem safe_checked_all {p : ChatProg (Except ChatError α)} {f : α → ChatProg (Except ChatError β)}
    (h : SafeLookup present mine i p s) (hf : ∀ a t, SafeLookup present mine i (f a) t) :
    SafeLookup present mine i (checked p f) s := by
  refine h.bind fun r t _ => ?_
  cases r with
  | error e => trivial
  | ok a => exact hf a t

theorem untold_start (htx : s.chat.txs i = none) : Untold i k (fun _ => False) s :=
  ⟨fun _ h => h.elim, htx⟩

theorem safe_create (roomId authorId : Uuid) (req : CreateMessageRequest) (htx : s.chat.txs i = none) :
    SafeLookup present mine i (createMessage roomId authorId req) s := by
  refine safe_lookup (untold_start htx) fun room => only_checked (only_perform trivial) fun members => ?_
  split
  · refine only_checked (only_perform trivial) fun user => (only_perform trivial).bind fun now => ?_
    refine only_marshalled fun payload => only_checked (only_work _ ?_) fun _ => trivial
    exact only_perform rfl
  · trivial

/-- The message is read first, and with it the room that is looked up. -/
theorem safe_readMessage {messageId : Uuid} {f : ChatMessage → ChatProg (Except ChatError α)}
    (htx : s.chat.txs i = none)
    (hf : ∀ msg t, msg.id = messageId → Untold i msg.roomId (fun id => id = messageId) t →
      SafeLookup present mine i (f msg) t) :
    SafeLookup present mine i (checked (getMessageById messageId) f) s := by
  intro s₁ _ hrely
  have h₁ : Untold i messageId (fun _ => False) s₁ := (untold_start htx).rely hrely
  refine ⟨fun hcommit => (nomatch hcommit), fun r s₂ hexec _ => ?_⟩
  cases r with
  | error e => trivial
  | ok msg =>
    obtain ⟨hchat, hread⟩ := hexec.chat
    obtain ⟨row, hrow, -, rfl⟩ := hread msg rfl
    refine hf _ s₂ rfl ⟨?_, ?_⟩
    · rintro id rfl
      exact ⟨row, by rw [hchat]; exact hrow, rfl⟩
    · rw [hchat]
      exact h₁.tx

theorem safe_update (messageId userId : Uuid) (req : UpdateMessageRequest) (htx : s.chat.txs i = none) :
    SafeLookup present mine i (updateMessage messageId userId req) s := by
  refine safe_readMessage htx fun msg t hid ht => safe_lookup ht fun room => ?_
  split
  · trivial
  · refine (only_perform trivial).bind fun now => only_checked (only_perform trivial) fun user => ?_
    refine only_marshalled fun payload => only_checked (only_work _ ?_) fun _ => trivial
    exact only_affectsRow (only_perform hid)

theorem safe_delete (messageId userId : Uuid) (htx : s.chat.txs i = none) :
    SafeLookup present mine i (deleteMessage messageId userId) s := by
  refine safe_readMessage htx fun msg t _ ht => safe_lookup ht fun room => ?_
  split
  · trivial
  · exact only_checked (only_work _ (only_affectsRow (only_perform rfl))) fun _ => trivial

/-- A request that is not an administrator's. -/
def Call.Ordinary (call : Call) : Prop := ∀ messageId, call ≠ .adminDelete messageId

theorem safe_ordinary {call : Call} (hcall : call.Ordinary) (htx : s.chat.txs i = none) :
    SafeLookup present mine i (serve call) s := by
  refine Safe.bind (Q := fun _ _ => True) ?_ fun _ _ _ => trivial
  cases call with
  | create roomId authorId req => exact safe_checked_all (safe_create roomId authorId req htx) fun _ _ => trivial
  | update messageId userId req => exact safe_checked_all (safe_update messageId userId req htx) fun _ _ => trivial
  | delete messageId userId => exact safe_checked_all (safe_delete messageId userId htx) fun _ _ => trivial
  | adminDelete messageId => exact absurd rfl (hcall messageId)

theorem safe_notMine (h : ¬ mine i) (p : ChatProg α) (s : Services) : SafeLookup present mine i p s :=
  Safe.of_guar (fun _ _ _ hm => absurd hm h) p s

end Contract

section Runs

variable {pool₀ pool pool' : ServicesPool} {trace before after : List ServicesLabel}

/-- Thread `i` was started for a request that is not an administrator's. -/
def ServesOrdinary (trace : List ServicesLabel) (i : Nat) : Prop :=
  ∃ call : Call, call.Ordinary ∧ (spawned trace)[i]? = some (serve call)

theorem good_services (h₀ : ServicesInit pool₀) (hrun : Run (ServicesStep present) pool₀ trace pool) :
    Good (servicesSemantics present) (servicesContract pool₀.shared.chat (ServesOrdinary trace))
      (fun _ _ _ => True) pool := by
  have hmark : ∀ i s t, Uncommitted i s.chat ∧ s.chat.txs i = none →
      (servicesContract pool₀.shared.chat (ServesOrdinary trace)).rely i s t →
      Uncommitted i t.chat ∧ t.chat.txs i = none := by
    rintro i s t ⟨hunc, htx⟩ ⟨hrely, -⟩
    have hrely' : Rely i s.chat t.chat := hrely
    refine ⟨lasting_uncommitted i _ _ hunc hrely', ?_⟩
    rcases hrely'.tx with hsame | hnone
    · exact hsame.trans htx
    · exact hnone
  have hlen : pool₀.threads.length = 0 := by rw [h₀.threads, List.length_nil]
  refine Good.run_spawned (servicesContract_sound _ _) (fun _ _ _ _ _ _ => trivial) hmark hrun ?_ ?_ ?_
  · rintro j p s hj hp ⟨hunc, htx⟩
    rw [hlen, Nat.zero_add] at hunc htx ⊢
    have hchat : Safe (servicesSemantics present) ((chatContract pool₀.shared.chat).pullback Services.chat) j
        (fun a s => Ended j a s.chat) p s :=
      (safe_entry hp hunc).pullback fun _ _ _ _ _ h => Services.Exec.chat h
    have hlookup : SafeLookup present (ServesOrdinary trace) j p s := by
      by_cases hmine : ServesOrdinary trace j
      · obtain ⟨call, hcall, hserve⟩ := hmine
        obtain rfl : p = serve call := Option.some.inj (hj.symm.trans hserve)
        exact safe_ordinary hcall htx
      · exact safe_notMine hmine p s
    exact (hchat.both hlookup).mono fun _ _ _ => trivial
  · exact ⟨⟨storeInv_start h₀.chat, trivial⟩, by simp [h₀.threads]⟩
  · intro i _
    exact ⟨by simp [Uncommitted, h₀.chat.history], h₀.chat.txs i⟩

theorem allOrdinary_step {l : ServicesLabel} (hord : Rooms.AllOrdinary pool.shared.rooms)
    (hstep : ServicesStep present pool l pool') : Rooms.AllOrdinary pool'.shared.rooms := by
  cases hstep with
  | cmd hi hexec =>
    have hexec' : Services.Exec present _ _ pool.shared _ _ := hexec
    rw [hexec'.rooms]
    exact hord
  | spawn => exact hord
  | env he =>
    cases he with
    | chat => exact hord
    | rooms hroom => exact Rooms.allOrdinary_step hord hroom

theorem allOrdinary_services (h₀ : ServicesInit pool₀) (hrun : Run (ServicesStep present) pool₀ trace pool) :
    Rooms.AllOrdinary pool.shared.rooms := by
  have hstep : ∀ q l q', Rooms.AllOrdinary q.shared.rooms → ServicesStep present q l q' →
      Rooms.AllOrdinary q'.shared.rooms := fun _ _ _ => allOrdinary_step
  exact hrun.invariant hstep (Rooms.allOrdinary_init h₀.rooms)

/-- No step of either service makes a popped room writable again. -/
theorem popped_step {l : ServicesLabel} (hord : Rooms.AllOrdinary pool.shared.rooms)
    (h : Popped pool.shared.rooms.shared.tables k) (hstep : ServicesStep present pool l pool') :
    Popped pool'.shared.rooms.shared.tables k := by
  cases hstep with
  | cmd hi hexec =>
    have hexec' : Services.Exec present _ _ pool.shared _ _ := hexec
    rw [hexec'.rooms]
    exact h
  | spawn => exact h
  | env he =>
    cases he with
    | chat => exact h
    | rooms hroom => exact h.of_same (Rooms.sameRoom_of_step hord hroom h)

/-- The command by which thread `i` is told that a room is open. -/
def ToldOpen (i : Nat) (k : Uuid) (l : ServicesLabel) : Prop :=
  ∃ roomId info, l = .cmd i (.getRoomById roomId) (.ok info) ∧ info.poppedAt = none ∧ Uuid.parse roomId = some k

/-- A room is popped after thread `i` was told that it is open. -/
def PoppedMeanwhile (present : Nat → Rfc3339.Time) (pool₀ : ServicesPool) (before : List ServicesLabel)
    (pool : ServicesPool) (i : Nat) (k : Uuid) : Prop :=
  ∃ first l last q q', before = first ++ l :: last ∧ Run (ServicesStep present) pool₀ first q ∧
    ServicesStep present q l q' ∧ Run (ServicesStep present) q' last pool ∧ (∃ e ∈ first, ToldOpen i k e) ∧
    ¬ Popped q.shared.rooms.shared.tables k ∧ Popped q'.shared.rooms.shared.tables k

/-- At this place of a run a call that is not an administrator's commits a change of the room. -/
structure CommitsIn (present : Nat → Rfc3339.Time) (pool₀ : ServicesPool) (trace : List ServicesLabel)
    (pool' : ServicesPool) (before : List ServicesLabel) (pool : ServicesPool) (i : Nat) (k : Uuid) : Prop where
  run : Run (ServicesStep present) pool₀ before pool
  commit : ∃ q after, trace = before ++ .cmd i .commit (.ok ()) :: after ∧
    ServicesStep present pool (.cmd i .commit (.ok ())) q ∧ Run (ServicesStep present) q after pool'
  call : ServesOrdinary before i
  change : ∃ tx, pool.shared.chat.txs i = some tx ∧ ∃ w ∈ tx.writes, w.InRoom pool.shared.chat.messages k

/-- What a thread commits is in the room it was last told is open. -/
theorem CommitsIn.looked (h₀ : ServicesInit pool₀) (h : CommitsIn present pool₀ trace pool' before pool i k) :
    pool.shared.looked i = some k := by
  obtain ⟨q, after, -, hstep, -⟩ := h.commit
  have hgood := good_services h₀ h.run
  cases hstep with
  | cmd hi hexec =>
    obtain ⟨-, hguar⟩ := hgood.guar (servicesContract_sound _ _) hi
    obtain ⟨k', hlooked, htx⟩ := hguar rfl h.call
    obtain ⟨tx, hopen, w, hw, hin⟩ := h.change
    rw [hlooked, (htx tx hopen w hw).unique hin]

/-- The step by which a thread came to know a room as open found it so. -/
theorem toldOpen_of_looked {l : ServicesLabel} (hstep : ServicesStep present pool l pool')
    (hno : pool.shared.looked i ≠ some k) (hyes : pool'.shared.looked i = some k) :
    ToldOpen i k l ∧ ¬ Popped pool'.shared.rooms.shared.tables k := by
  cases hstep with
  | spawn => exact absurd hyes hno
  | env he =>
    cases he with
    | chat => exact absurd hyes hno
    | rooms => exact absurd hyes hno
  | @cmd j c next r s hi hexec =>
    have hexec' : Services.Exec present j c pool.shared r s := hexec
    rw [hexec'.looked] at hyes
    by_cases hj : i = j
    · subst hj
      cases c with
      | getRoomById roomId =>
        cases r with
        | error e => exact absurd hyes hno
        | ok info =>
          obtain ⟨id, room, hid, hroom, hpopped⟩ := hexec'.answer info rfl
          simp only [openRoom, hid] at hyes
          split at hyes
          · exact absurd hyes hno
          · rename_i hopen
            obtain rfl : id = k := by simpa [lookedAfter] using hyes
            refine ⟨⟨roomId, info, rfl, Option.not_isSome_iff_eq_none.mp hopen, hid⟩, ?_⟩
            rw [hexec'.rooms]
            rintro ⟨room', hfind, hpop⟩
            obtain rfl : room' = room := Option.some.inj (hfind.symm.trans (Rooms.getRoom_ok hroom).1)
            rw [hpopped] at hopen
            exact hopen (Option.isSome_iff_ne_none.mpr hpop)
      | _ => exact absurd hyes hno
    · rw [lookedAfter_ne hj] at hyes
      exact absurd hyes hno

/-- A change finds its room open exactly if no pop came between it and the lookup. -/
theorem CommitsIn.unpopped_iff (h₀ : ServicesInit pool₀)
    (h : CommitsIn present pool₀ trace pool' before pool i k) :
    ¬ Popped pool.shared.rooms.shared.tables k ↔ ¬ PoppedMeanwhile present pool₀ before pool i k := by
  refine not_congr ⟨fun hpopped => ?_, ?_⟩
  · have hstart : pool₀.shared.looked i ≠ some k := by simp [h₀.looked]
    obtain ⟨first, l, rest, q, q', rfl, hfirst, hl, hrest, hno, hyes⟩ :=
      h.run.crossing (P := fun q => q.shared.looked i = some k) hstart (h.looked h₀)
    obtain ⟨htold, hopen⟩ := toldOpen_of_looked hl hno hyes
    obtain ⟨mid, e, last, x, x', rfl, hmid, he, hlast, hx, hx'⟩ :=
      hrest.crossing (P := fun q => Popped q.shared.rooms.shared.tables k) hopen hpopped
    refine ⟨first ++ l :: mid, e, last, x, x', by simp, hfirst.append (.cons hl hmid), he, hlast, ?_, hx, hx'⟩
    exact ⟨l, List.mem_append_right _ List.mem_cons_self, htold⟩
  · rintro ⟨first, l, last, q, q', -, hfirst, hl, hlast, -, -, hx'⟩
    have hord : Rooms.AllOrdinary q'.shared.rooms := allOrdinary_services h₀ (hfirst.append (.single hl))
    have hstay : ∀ q l q', Rooms.AllOrdinary q.shared.rooms ∧ Popped q.shared.rooms.shared.tables k →
        ServicesStep present q l q' → Rooms.AllOrdinary q'.shared.rooms ∧ Popped q'.shared.rooms.shared.tables k :=
      fun q l q' hq hstep => ⟨allOrdinary_step hq.1 hstep, popped_step hq.1 hq.2 hstep⟩
    exact (hlast.invariant hstay ⟨hord, hx'⟩).2

/-- No change of a room commits once it is popped, exactly if no pop comes between a call's lookup
and its commit. -/
theorem popped_room_read_only_iff (h₀ : ServicesInit pool₀) :
    (∀ before pool i k, CommitsIn present pool₀ trace pool' before pool i k →
      ¬ Popped pool.shared.rooms.shared.tables k) ↔
    ∀ before pool i k, CommitsIn present pool₀ trace pool' before pool i k →
      ¬ PoppedMeanwhile present pool₀ before pool i k :=
  ⟨fun hall before pool i k h => (h.unpopped_iff h₀).mp (hall before pool i k h),
    fun hall before pool i k h => (h.unpopped_iff h₀).mpr (hall before pool i k h)⟩

end Runs

section Sample

theorem Services.Exec.plain {c : ChatCmd} {r : ChatReply c} {chat : Store} (h : exec present i c s.chat r chat)
    (hanswer : AnswersRoom s.rooms.shared.tables c r) (hopen : openRoom c r = none) :
    Services.Exec present i c s r { s with chat := chat } :=
  ⟨h, hanswer, rfl, by rw [hopen]; rfl⟩

/-- A message of ann in the den. -/
def annMessage : MessageRow := ⟨Rooms.den, Rooms.ann, sampleRequest.messageType, "hello", 0, none, none⟩

def annStore : Store :=
  { emptyStore with messages := Function.update (fun _ => none) sampleMessage (some annMessage) }

/-- The den is due to be popped. -/
def dueRooms : RoomPool := ⟨Rooms.restingState (Rooms.sampleTables (Rooms.sampleRoom 16 (some 0) none) rfl), []⟩

def annServices : Services := ⟨annStore, dueRooms, fun _ => none⟩

def annPool : ServicesPool := ⟨annServices, []⟩

theorem annPool_init : ServicesInit annPool where
  threads := rfl
  chat := ⟨List.nodup_nil, fun _ => rfl, fun _ _ => rfl, rfl, rfl, rfl⟩
  rooms := Rooms.restingState_init _
  looked _ := rfl

theorem run_rooms {s : Services} {threads : List (ChatProg Outcome)} {rooms : RoomPool} {ls : List RoomLabel}
    (h : Run RoomStep s.rooms ls rooms) :
    Run (ServicesStep present) ⟨s, threads⟩ (ls.map fun l => .env (.inr l)) ⟨{ s with rooms := rooms }, threads⟩ := by
  generalize hr : s.rooms = start at h
  induction h generalizing s with
  | nil =>
    subst hr
    exact .nil _
  | cons hstep _ ih =>
    subst hr
    exact .cons (.env (.rooms hstep)) (ih (s := { s with rooms := _ }) rfl)

/-- The transaction of the deletion. -/
def annTx (writes : List Mutation) (events : List OutboxEvent) : Store := annStore.setTx 0 (some ⟨0, writes, events⟩)

def annDeletion : Mutation := .softDelete sampleMessage 0

def annEvent : OutboxEvent := deletedEvent sampleEvent Rooms.den (deletedMessagePayload sampleMessage Rooms.den)

theorem annTx_own (writes : List Mutation) (events : List OutboxEvent) :
    (annTx writes events).txs 0 = some ⟨0, writes, events⟩ := by
  simp [annTx, Store.setTx]

theorem annTx_only {writes : List Mutation} {events : List OutboxEvent} {j : Nat} {tx : Tx}
    (h : (annTx writes events).txs j = some tx) : j = 0 ∧ tx = ⟨0, writes, events⟩ := by
  by_cases hj : j = 0
  · subst hj
    rw [annTx_own, Option.some.injEq] at h
    exact ⟨rfl, h.symm⟩
  · simp [annTx, Store.setTx, hj, annStore, emptyStore] at h

theorem annTx_deletes : exec present 0 (.deleteMessage sampleMessage) (annTx [] []) (.ok 1) (annTx [annDeletion] []) := by
  refine ⟨⟨0, [], []⟩, annTx_own [] [], .inl ⟨?_, ?_, rfl, ?_⟩⟩
  · exact ⟨annMessage, by simp [Tx.view, annTx, Store.setTx, annStore, Mutation.target], rfl⟩
  · intro j tx hj htx
    exact absurd (annTx_only htx).1 hj
  · simp [annTx, annDeletion, Store.addWrite, Store.setTx]

theorem annTx_announces : exec present 0 (.insertOutbox annEvent) (annTx [annDeletion] []) (.ok ())
    (annTx [annDeletion] [annEvent]) := by
  refine ⟨⟨0, [annDeletion], []⟩, annTx_own _ _, ⟨List.not_mem_nil, ?_⟩, ?_⟩
  · intro j tx htx e he
    rw [(annTx_only htx).2] at he
    cases he
  · simp [annTx, Store.addEvent, Store.setTx]

/-- ann deletes her message while the room service runs between the lookup and the commit. -/
theorem annDelete_run {rooms : RoomPool} {ls : List RoomLabel} (h : Run RoomStep dueRooms ls rooms) :
    ∃ trace pool' before pool,
      CommitsIn (fun _ => sampleTime) annPool trace pool' before pool 0 Rooms.den ∧ pool.shared.rooms = rooms := by
  let told : Services := { annServices with looked := Function.update annServices.looked 0 (some Rooms.den) }
  have hspawn : ServicesStep (fun _ => sampleTime) annPool (.spawn (serve (.delete sampleMessage Rooms.ann)))
    ⟨annServices, [serve (.delete sampleMessage Rooms.ann)]⟩ := .spawn (.serve _)
  have hread : Services.Exec (fun _ => sampleTime) 0 (.getMessageById sampleMessage) annServices
      (.ok (annMessage.read (fun _ => sampleTime) sampleMessage)) annServices := by
    have hexec : exec (fun _ => sampleTime) 0 (.getMessageById sampleMessage) annStore
        (.ok (annMessage.read (fun _ => sampleTime) sampleMessage)) annStore := by
      refine ⟨rfl, ?_⟩
      rintro _ ⟨⟩
      exact ⟨annMessage, by simp [annStore], rfl, rfl⟩
    exact .plain hexec trivial rfl
  have hlook : Services.Exec (fun _ => sampleTime) 0 (.getRoomById Rooms.den.toText) annServices (.ok ⟨none⟩) told := by
    refine ⟨rfl, ?_, rfl, ?_⟩
    · rintro _ ⟨⟩
      exact ⟨Rooms.den, Rooms.sampleRoom 16 (some 0) none, Uuid.parse_text _, rfl, rfl⟩
    · have hopen : openRoom (.getRoomById Rooms.den.toText) (.ok ⟨none⟩) = some Rooms.den := Uuid.parse_text _
      rw [hopen]
      rfl
  have hlookup := Run.cons hspawn (.cons (Step.cmd (i := 0) rfl hread) (.single (Step.cmd (i := 0) rfl hlook)))
  have hmeanwhile := hlookup.append (run_rooms (s := told) h)
  let during : Services := { told with rooms := rooms }
  have hbegin : Services.Exec (fun _ => sampleTime) 0 .begin during (.ok ()) { during with chat := annTx [] [] } :=
    .plain rfl trivial rfl
  have hdelete : Services.Exec (fun _ => sampleTime) 0 (.deleteMessage sampleMessage)
      { during with chat := annTx [] [] } (.ok 1) { during with chat := annTx [annDeletion] [] } :=
    .plain annTx_deletes trivial rfl
  have hid : Services.Exec (fun _ => sampleTime) 0 .newV7 { during with chat := annTx [annDeletion] [] } sampleEvent
      { during with chat := annTx [annDeletion] [] } :=
    .plain (show exec _ 0 .newV7 (annTx [annDeletion] []) sampleEvent (annTx [annDeletion] []) from rfl) trivial rfl
  have hannounce : Services.Exec (fun _ => sampleTime) 0 (.insertOutbox annEvent)
      { during with chat := annTx [annDeletion] [] } (.ok ()) { during with chat := annTx [annDeletion] [annEvent] } :=
    .plain annTx_announces trivial rfl
  have hcommit : Services.Exec (fun _ => sampleTime) 0 .commit { during with chat := annTx [annDeletion] [annEvent] }
      (.ok ()) { during with chat := (annTx [annDeletion] [annEvent]).commitTx 0 ⟨0, [annDeletion], [annEvent]⟩ } :=
    .plain ⟨_, annTx_own _ _, rfl⟩ trivial rfl
  have hopened := hmeanwhile.append (.single (Step.cmd (i := 0) rfl hbegin))
  have hdeleted := hopened.append (.single (Step.cmd (i := 0) rfl hdelete))
  have hdrawn := hdeleted.append (.single (Step.cmd (i := 0) rfl hid))
  have hbefore := hdrawn.append (.single (Step.cmd (i := 0) rfl hannounce))
  have hordinary : (Call.delete sampleMessage Rooms.ann).Ordinary := fun _ h => nomatch h
  have hchange : annDeletion.InRoom (annTx [annDeletion] [annEvent]).messages Rooms.den :=
    ⟨annMessage, by simp [annTx, Store.setTx, annStore], rfl⟩
  exact ⟨_, _, _, _, ⟨hbefore, ⟨_, [], rfl, Step.cmd (i := 0) rfl hcommit, .nil _⟩, ⟨_, hordinary, rfl⟩,
    ⟨_, annTx_own _ _, annDeletion, List.mem_singleton_self _, hchange⟩⟩, rfl⟩

/-- The scheduler pops the room after ann's call has been told that it is open. -/
theorem popped_room_written : ∃ trace pool' before pool,
    CommitsIn (fun _ => sampleTime) annPool trace pool' before pool 0 Rooms.den ∧
      Popped pool.shared.rooms.shared.tables Rooms.den := by
  have hspawn : RoomStep dueRooms (.spawn Rooms.Call.popRooms.prog) ⟨dueRooms.shared, [Rooms.Call.popRooms.prog]⟩ :=
    .spawn ⟨.popRooms, rfl⟩
  have hexec : Rooms.Exec 0 (.write .popRooms) dueRooms.shared _ _ := .write rfl
  obtain ⟨trace, pool', before, pool, hcommits, hrooms⟩ :=
    annDelete_run (.cons hspawn (.single (Step.cmd (i := 0) rfl hexec)))
  refine ⟨trace, pool', before, pool, hcommits, ?_⟩
  rw [hrooms]
  exact ⟨{ Rooms.sampleRoom 16 (some 0) (some 1) with updatedAt := 1 }, rfl, nofun⟩

theorem popped_room_read_only_deletion : ∃ trace pool' before pool,
    CommitsIn (fun _ => sampleTime) annPool trace pool' before pool 0 Rooms.den ∧
      ((∀ before pool i k, CommitsIn (fun _ => sampleTime) annPool trace pool' before pool i k →
        ¬ Popped pool.shared.rooms.shared.tables k) ↔
      ∀ before pool i k, CommitsIn (fun _ => sampleTime) annPool trace pool' before pool i k →
        ¬ PoppedMeanwhile (fun _ => sampleTime) annPool before pool i k) := by
  obtain ⟨trace, pool', before, pool, hcommits, -⟩ := annDelete_run (.nil dueRooms)
  exact ⟨trace, pool', before, pool, hcommits, popped_room_read_only_iff annPool_init⟩

end Sample

end Chinwag.Chat

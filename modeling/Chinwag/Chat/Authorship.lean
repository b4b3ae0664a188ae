import Chinwag.Chat.ReadOnly

/-!
# Whose messages are written

The command service beside the room service. What a call was told of the members of a room is kept in
a record, next to the tables it was read from.
-/
namespace Chinwag.Chat

open Program Transition
open Rooms (RoomPool RoomLabel RoomStep RoomTables)

/-- One reply to a lookup of members: to whom, of which room, and who is in it. -/
structure Listing where
  thread : Nat
  roomId : String
  members : List RoomMemberInfo

/-- The command service beside the room service; no command reads `listings`. -/
structure Desk where
  chat : Store
  rooms : RoomPool
  listings : List Listing

/-- `GET /rooms/:id/members` as the adapter reads it: whoever is listed is in the room. -/
def AnswersMembers (t : RoomTables) : (c : ChatCmd) → ChatReply c → Prop
  | .getMembersByRoomId roomId, .ok members => ∀ m ∈ members, ∃ k row, Uuid.parse roomId = some k ∧
      row ∈ t.getMembersByRoomId k ∧ m.userId = row.userId.toText
  | _, _ => True

def recorded (i : Nat) : (c : ChatCmd) → ChatReply c → List Listing
  | .getMembersByRoomId roomId, .ok members => [⟨i, roomId, members⟩]
  | _, _ => []

structure Desk.Exec (present : Nat → Rfc3339.Time) (i : Nat) (c : ChatCmd) (s : Desk) (r : ChatReply c) (s' : Desk) :
    Prop where
  chat : exec present i c s.chat r s'.chat
  answer : AnswersMembers s.rooms.shared.tables c r
  rooms : s'.rooms = s.rooms
  listings : s'.listings = s.listings ++ recorded i c r

inductive Desk.Around (s : Desk) : Ambient ⊕ RoomLabel → Desk → Prop where
  | chat {e : Ambient} {t : Store} (h : ambient s.chat e t) : Around s (.inl e) { s with chat := t }
  | rooms {l : RoomLabel} {q : RoomPool} (h : RoomStep s.rooms l q) : Around s (.inr l) { s with rooms := q }

def deskSemantics (present : Nat → Rfc3339.Time) : Semantics Desk (Ambient ⊕ RoomLabel) ChatCmd ChatReply where
  exec := Desk.Exec present
  env := Desk.Around

abbrev DeskPool := Pool Desk ChatCmd ChatReply Outcome

abbrev DeskLabel := Label (Ambient ⊕ RoomLabel) ChatCmd ChatReply Outcome

abbrev DeskStep (present : Nat → Rfc3339.Time) : DeskPool → DeskLabel → DeskPool → Prop :=
  Step (deskSemantics present) Entry

structure DeskInit (pool : DeskPool) : Prop where
  threads : pool.threads = []
  chat : Starts pool.shared.chat
  listings : pool.shared.listings = []

/-- The changes a request may make of this table: a new message of its sender, a change of a message the
sender wrote, or a deletion by an administrator. -/
inductive Entitled (m : Messages) : Call → Mutation → Prop where
  | create {roomId authorId : Uuid} {req : CreateMessageRequest} (now : Nat) :
      Entitled m (.create roomId authorId req)
        (.insert req.id ⟨roomId, authorId, req.messageType, req.content, now, none, none⟩)
  | update {id userId : Uuid} {req : UpdateMessageRequest} {row : MessageRow} (h : m id = some row)
      (hauthor : row.authorId = userId) {content : String} (hcontent : ∀ c, req.content = some c → content = c)
      (now : Nat) : Entitled m (.update id userId req) (.setContent id content now)
  | delete {id userId : Uuid} {row : MessageRow} (h : m id = some row) (hauthor : row.authorId = userId) (now : Nat) :
      Entitled m (.delete id userId) (.softDelete id now)
  | adminDelete {id : Uuid} (now : Nat) : Entitled m (.adminDelete id) (.softDelete id now)

/-- Whoever writes a new message was listed as a member of its room. -/
def Seated (i : Nat) (listings : List Listing) : Mutation → Prop
  | .insert _ row => ∃ members, ⟨i, row.roomId.toText, members⟩ ∈ listings ∧
      ∃ m ∈ members, m.userId = row.authorId.toText
  | _ => True

variable {present : Nat → Rfc3339.Time} {i : Nat} {call : Call} {w w' : Mutation} {m m' : Messages} {s t : Desk}
  {served : Nat → Call → Prop} {s₀ : Store} {P : Mutation → Prop} {α β : Type}

theorem Entitled.persist (h : Entitled m call w) (hp : RowsPersist m m') : Entitled m' call w := by
  cases h with
  | create now => exact .create now
  | update h hauthor hcontent now =>
    obtain ⟨row', hrow', -, hsame, -⟩ := hp _ _ h
    exact .update hrow' (hsame.trans hauthor) hcontent now
  | delete h hauthor now =>
    obtain ⟨row', hrow', -, hsame, -⟩ := hp _ _ h
    exact .delete hrow' (hsame.trans hauthor) now
  | adminDelete now => exact .adminDelete now

/-- Only an insert gives a message another author. -/
theorem Mutation.keeps_author {id : Uuid} {row : MessageRow} (h : m id = some row) (hw : ∀ row', w ≠ .insert id row') :
    ∃ row', w.apply m id = some row' ∧ row'.authorId = row.authorId := by
  by_cases hid : id = w.target
  · subst hid
    rw [w.apply_target, h]
    cases w with
    | insert id' row' => exact absurd rfl (hw row')
    | setContent id' content now => exact ⟨_, rfl, rfl⟩
    | softDelete id' now => exact ⟨_, rfl, rfl⟩
  · exact ⟨row, by rw [w.apply_ne m hid, h], rfl⟩

/-- A permitted change leaves the other changes of its request permitted. -/
theorem Entitled.apply (h : Entitled m call w) (h' : Entitled m call w') : Entitled (w.apply m) call w' := by
  cases h' with
  | create now => exact .create now
  | adminDelete now => exact .adminDelete now
  | update hrow hauthor hcontent now =>
    have hw : ∀ id row', w ≠ .insert id row' := by
      rintro id row' rfl
      cases h
    obtain ⟨row', hrow', hsame⟩ := Mutation.keeps_author hrow (hw _)
    exact .update hrow' (hsame.trans hauthor) hcontent now
  | delete hrow hauthor now =>
    have hw : ∀ id row', w ≠ .insert id row' := by
      rintro id row' rfl
      cases h
    obtain ⟨row', hrow', hsame⟩ := Mutation.keeps_author hrow (hw _)
    exact .delete hrow' (hsame.trans hauthor) now

theorem Entitled.view {tx : Tx} (hw : ∀ w ∈ tx.writes, Entitled m call w) (h : Entitled m call w') :
    Entitled (tx.view m) call w' := by
  unfold Tx.view
  generalize tx.writes = writes at hw
  induction writes generalizing m with
  | nil => exact h
  | cons w writes ih =>
    have hfirst := hw w List.mem_cons_self
    exact @ih (w.apply m) (hfirst.apply h) fun w' hw' => hfirst.apply (hw w' (List.mem_cons_of_mem w hw'))

theorem Seated.mono {listings listings' : List Listing} (hsub : ∀ l ∈ listings, l ∈ listings')
    (h : Seated i listings w) : Seated i listings' w := by
  cases w with
  | insert id row =>
    obtain ⟨members, hmem, hin⟩ := h
    exact ⟨members, hsub _ hmem, hin⟩
  | setContent | softDelete => trivial

section Contract

/-- A thread commits only what the request it serves may do. -/
def authorContract (served : Nat → Call → Prop) : Contract Desk ChatCmd where
  inv _ := True
  rely i s t := Rely i s.chat t.chat ∧ ∀ l ∈ s.listings, l ∈ t.listings
  guar i c s := c = .commit → ∃ call, served i call ∧ ∀ tx, s.chat.txs i = some tx → ∀ w ∈ tx.writes,
    Entitled s.chat.messages call w ∧ Seated i s.listings w

def deskContract (s₀ : Store) (served : Nat → Call → Prop) : Contract Desk ChatCmd :=
  ((chatContract s₀).pullback Desk.chat).both (authorContract served)

theorem Desk.Exec.keeps_listings {c : ChatCmd} {r : ChatReply c} (h : Desk.Exec present i c s r t) :
    ∀ l ∈ s.listings, l ∈ t.listings := by
  intro l hl
  rw [h.listings]
  exact List.mem_append_left _ hl

theorem deskContract_sound (s₀ : Store) (served : Nat → Call → Prop) :
    (deskContract s₀ served).Sound (deskSemantics present) where
  rely_refl i s := ⟨Rely.refl i s.chat, Rely.refl i s.chat, fun _ => id⟩
  rely_trans i s t u h h' := ⟨h.1.trans h'.1, h.2.1.trans h'.2.1, fun l hl => h'.2.2 l (h.2.2 l hl)⟩
  env s e t hs he := by
    cases he with
    | chat hchat =>
      obtain ⟨hinv, hrely⟩ := (chatContract_sound present s₀).env _ _ _ hs.1 hchat
      exact ⟨⟨hinv, trivial⟩, fun i => ⟨hrely i, hrely i, fun _ => id⟩⟩
    | rooms => exact ⟨⟨hs.1, trivial⟩, fun i => ⟨Rely.refl i _, Rely.refl i _, fun _ => id⟩⟩
  cmd i c s r t hs hguar hexec := by
    obtain ⟨hinv, hrely⟩ := (chatContract_sound present s₀).cmd i c _ r _ hs.1 hguar.1 hexec.chat
    exact ⟨⟨hinv, trivial⟩, fun j hj => ⟨hrely j hj, hrely j hj, hexec.keeps_listings⟩⟩

section Store

variable {c u : Store}

/-- What thread `i` has written in its transaction is within `P`. -/
def WithinTx (i : Nat) (P : Mutation → Prop) (c : Store) : Prop :=
  ∀ tx, c.txs i = some tx → ∀ w ∈ tx.writes, P w

/-- The statements that write within `P`, whenever the transaction began. -/
def Allows (P : Mutation → Prop) : ChatCmd → Prop
  | .insertMessage msg => ∀ now, P (.insert msg.id
      ⟨msg.roomId, msg.authorId, msg.messageType, msg.content, now, none, none⟩)
  | .updateMessage id content => ∀ now, P (.setContent id content now)
  | .deleteMessage id => ∀ now, P (.softDelete id now)
  | _ => True

theorem allows_all (cmd : ChatCmd) : Allows (fun _ => True) cmd := by
  cases cmd with
  | insertMessage | updateMessage | deleteMessage => exact fun _ => trivial
  | _ => trivial

theorem WithinTx.set {o : Option Tx} (h : ∀ tx, o = some tx → ∀ w ∈ tx.writes, P w) :
    WithinTx i P (c.setTx i o) := by
  intro tx htx
  simp only [Store.setTx, Function.update_self] at htx
  exact h tx htx

theorem WithinTx.drop : WithinTx i P (c.setTx i none) := .set fun _ h => nomatch h

theorem WithinTx.addWrite {tx : Tx} (h : WithinTx i P c) (htx : c.txs i = some tx) (hw : P w) :
    WithinTx i P (c.addWrite i tx w) := by
  refine .set ?_
  rintro _ ⟨⟩ w' hw'
  rcases List.mem_append.mp hw' with hold | hnew
  · exact h tx htx w' hold
  · rw [List.mem_singleton.mp hnew]
    exact hw

/-- The table a command of thread `i` leaves: the same, or after a commit with what the thread had written. -/
inductive TableAfter (i : Nat) (c u : Store) : (cmd : ChatCmd) → ChatReply cmd → Prop where
  | same {cmd : ChatCmd} {r : ChatReply cmd} (h : u.messages = c.messages) : TableAfter i c u cmd r
  | view {tx : Tx} (h : c.txs i = some tx) (hview : u.messages = tx.view c.messages) : TableAfter i c u .commit (.ok ())

theorem WithinTx.updateRow {f : Nat → Mutation} {r : Except ChatError Nat} (h : WithinTx i P c) (hw : ∀ n, P (f n))
    (he : Fallible (UpdateRow i f c) c r u) : WithinTx i P u ∧ u.messages = c.messages := by
  refine of_fallible (P := fun u => WithinTx i P u ∧ u.messages = c.messages) ⟨h, rfl⟩ ?_ he
  rintro _ _ ⟨tx, htx, ⟨-, -, -, rfl⟩ | ⟨-, -, rfl⟩⟩
  · exact ⟨h.addWrite htx (hw _), rfl⟩
  · exact ⟨h, rfl⟩

theorem allows_exec {cmd : ChatCmd} {r : ChatReply cmd} (hc : Allows P cmd) (h : WithinTx i P c)
    (hexec : exec present i cmd c r u) : WithinTx i P u ∧ TableAfter i c u cmd r := by
  cases cmd with
  | now | newV7 | getRoomById | getMembersByRoomId | getUser =>
    obtain rfl := hexec
    exact ⟨h, .same rfl⟩
  | getMessageById | pollPending | inBackoff =>
    obtain ⟨rfl, -⟩ := hexec
    exact ⟨h, .same rfl⟩
  | begin =>
    cases r with
    | ok _ =>
      obtain rfl := hexec
      refine ⟨.set ?_, .same rfl⟩
      rintro _ ⟨⟩ w hw
      cases hw
    | error e =>
      obtain rfl := hexec
      exact ⟨h, .same rfl⟩
  | insertMessage msg =>
    refine of_fallible (P := fun u => WithinTx i P u ∧ TableAfter i c u _ r) ⟨h, .same rfl⟩ ?_ hexec
    rintro _ _ ⟨tx, hi, -, -, rfl⟩
    exact ⟨h.addWrite hi (hc _), .same rfl⟩
  | updateMessage | deleteMessage =>
    obtain ⟨hwithin, hsame⟩ := h.updateRow hc hexec
    exact ⟨hwithin, .same hsame⟩
  | insertOutbox event =>
    refine of_fallible (P := fun u => WithinTx i P u ∧ TableAfter i c u _ r) ⟨h, .same rfl⟩ ?_ hexec
    rintro _ _ ⟨tx, hi, -, rfl⟩
    refine ⟨.set ?_, .same rfl⟩
    rintro _ ⟨⟩ w hw
    exact h tx hi w hw
  | commit =>
    cases r with
    | ok _ =>
      obtain ⟨tx, hi, rfl⟩ := hexec
      refine ⟨fun tx' htx' => ?_, .view hi rfl⟩
      simp [Store.commitTx, Store.setTx] at htx'
    | error e =>
      rcases hexec with rfl | rfl
      · exact ⟨h, .same rfl⟩
      · exact ⟨.drop, .same rfl⟩
  | rollback =>
    cases r with
    | ok _ =>
      obtain rfl := hexec
      exact ⟨.drop, .same rfl⟩
    | error e =>
      rcases hexec with rfl | rfl
      · exact ⟨h, .same rfl⟩
      · exact ⟨.drop, .same rfl⟩
  | markPublished id =>
    have hexec' : Fallible (fun _ t => t = c.updateOutbox id (OutboxRow.marked c.now)) c r u := hexec
    refine of_fallible (P := fun u => WithinTx i P u ∧ TableAfter i c u _ r) ⟨h, .same rfl⟩ ?_ hexec'
    rintro _ _ rfl
    exact ⟨h, .same rfl⟩
  | incrementRetry id =>
    have hexec' : Fallible (fun _ t => t = (c.updateOutbox id OutboxRow.retried).setOwed (c.owed.erase (i, id)))
      c r u := hexec
    refine of_fallible (P := fun u => WithinTx i P u ∧ TableAfter i c u _ r) ⟨h, .same rfl⟩ ?_ hexec'
    rintro _ _ rfl
    exact ⟨h, .same rfl⟩
  | publishRaw => cases r <;> obtain rfl := hexec <;> exact ⟨h, .same rfl⟩
  | cleanupBackoff | setBackoff =>
    obtain ⟨time, rfl⟩ := hexec
    exact ⟨h, .same rfl⟩
  | clearBackoff =>
    obtain rfl := hexec
    exact ⟨h, .same rfl⟩

end Store

abbrev SafeAuthor (present : Nat → Rfc3339.Time) (served : Nat → Call → Prop) (i : Nat) {α : Type} (p : ChatProg α)
    (s : Desk) : Prop :=
  Safe (deskSemantics present) (authorContract served) i (fun _ _ => True) p s

/-- Thread `i` serves `call`, writes within `P` only, and may do all of `P`. -/
structure Charged (i : Nat) (call : Call) (P : Mutation → Prop) (s : Desk) : Prop where
  tx : WithinTx i P s.chat
  permitted : ∀ w, P w → Entitled s.chat.messages call w
  seated : ∀ w, P w → Seated i s.listings w

theorem Charged.rely (h : Charged i call P s) (hr : (authorContract served).rely i s t) : Charged i call P t := by
  obtain ⟨hrely, hlistings⟩ := hr
  refine ⟨fun tx htx => ?_, fun w hw => (h.permitted w hw).persist hrely.rows,
    fun w hw => (h.seated w hw).mono hlistings⟩
  rcases hrely.tx with hsame | hnone
  · exact h.tx tx (hsame.symm.trans htx)
  · rw [hnone] at htx
    cases htx

/-- Once what it may do is settled, a thread is safe whatever the others do. -/
theorem safe_charged {p : ChatProg α} (hserved : served i call) (hp : Only (Allows P) p) (h : Charged i call P s) :
    SafeAuthor present served i p s := by
  induction p generalizing s with
  | ret a => trivial
  | call c next ih =>
    obtain ⟨hc, hnext⟩ := hp
    intro s₁ _ hrely
    have h₁ := h.rely hrely
    refine ⟨fun _ => ⟨call, hserved, fun tx htx w hw => ?_⟩, fun r s₂ hexec _ => ih r (hnext r) ?_⟩
    · have hw' := h₁.tx tx htx w hw
      exact ⟨h₁.permitted w hw', h₁.seated w hw'⟩
    · obtain ⟨htx, hmessages⟩ := allows_exec hc h₁.tx hexec.chat
      refine ⟨htx, fun w hw => ?_, fun w hw => (h₁.seated w hw).mono hexec.keeps_listings⟩
      have hold := h₁.permitted w hw
      cases hmessages with
      | same hsame =>
        rw [hsame]
        exact hold
      | view hi hview =>
        rw [hview]
        exact hold.view fun w' hw' => h₁.permitted w' (h₁.tx _ hi w' hw')

/-- A command that leaves the table as it is. -/
def NoCommit (c : ChatCmd) : Prop := c ≠ .commit

theorem safe_noCommit {p : ChatProg α} (hp : Only NoCommit p) (s : Desk) : SafeAuthor present served i p s := by
  induction p generalizing s with
  | ret a => trivial
  | call c next ih => exact fun s₁ _ _ => ⟨fun hcommit => absurd hcommit hp.1, fun r s₂ _ _ => ih r (hp.2 r) s₂⟩

theorem only_publishEach (publisher : Nat) (events : List OutboxRow) : Only NoCommit (publishEach publisher events) := by
  induction events with
  | nil => trivial
  | cons evt events ih =>
    refine Only.bind ?_ fun _ => ih
    refine (only_perform nofun).bind fun waiting => ?_
    cases waiting with
    | true => trivial
    | false =>
      refine (only_perform nofun).bind fun r => ?_
      cases r with
      | error e => exact (only_perform nofun).bind fun _ => only_perform nofun
      | ok _ => exact (only_perform nofun).bind fun _ => (only_perform nofun).bind fun _ => trivial

/-- A publisher commits nothing. -/
theorem only_publish (publisher : Nat) : Only NoCommit (publish publisher) := by
  refine Only.bind ((only_perform nofun).bind fun _ => ?_) fun _ => trivial
  refine (only_perform nofun).bind fun r => ?_
  cases r with
  | error e => trivial
  | ok events => exact only_publishEach publisher events

/-- A unit of work of one statement and its event, for any kind of command that has those of the unit itself. -/
theorem only_unitOfWork {Q : ChatCmd → Prop} {statement : ChatProg (Except ChatError Unit)}
    (event : Uuid → OutboxEvent) (hbegin : Q .begin) (hid : Q .newV7) (hevent : ∀ e, Q (.insertOutbox e))
    (hcommit : Q .commit) (hrollback : Q .rollback) (h : Only Q statement) :
    Only Q (unitOfWork (checked statement fun _ => insertEvent event)) := by
  have hinsert : Only Q (insertEvent event) := (only_perform hid).bind fun _ => only_perform (hevent _)
  refine only_checked (only_perform hbegin) fun _ => (only_checked h fun _ => hinsert).bind fun r => ?_
  cases r with
  | error e => exact (only_perform hrollback).bind fun r => by cases r <;> trivial
  | ok _ => exact only_perform hcommit

theorem only_allowed_work {statement : ChatProg (Except ChatError Unit)} (event : Uuid → OutboxEvent)
    (h : Only (Allows P) statement) :
    Only (Allows P) (unitOfWork (checked statement fun _ => insertEvent event)) :=
  only_unitOfWork event trivial trivial (fun _ => trivial) trivial trivial h

theorem only_countedRow {Q : ChatCmd → Prop} {statement : ChatProg (Except ChatError Nat)} (h : Only Q statement) :
    Only Q (affectsRow statement) := by
  refine only_checked h fun rows => ?_
  split <;> trivial

/-- A question before the transaction begins. -/
theorem safe_asks {c : ChatCmd} {next : ChatReply c → ChatProg α} (hc : NoCommit c)
    (hread : ∀ a r b, exec present i c a r b → b = a) (h : s.chat.txs i = none)
    (hnext : ∀ r t u, RowsPersist s.chat.messages t.chat.messages → t.chat.txs i = none →
      Desk.Exec present i c t r u → u.chat = t.chat → SafeAuthor present served i (next r) u) :
    SafeAuthor present served i (.call c next) s := by
  rintro s₁ - ⟨hrely, -⟩
  refine ⟨fun hcommit => absurd hcommit hc, fun r s₂ hexec _ => ?_⟩
  have hidle : s₁.chat.txs i = none := by
    rcases hrely.tx with hsame | hnone
    · exact hsame.trans h
    · exact hnone
  exact hnext r s₁ s₂ hrely.rows hidle hexec (hread _ _ _ hexec.chat)

theorem charged_idle (h : s.chat.txs i = none) (hpermitted : ∀ w, P w → Entitled s.chat.messages call w)
    (hseated : ∀ w, P w → Seated i s.listings w) : Charged i call P s := by
  refine ⟨fun tx htx => ?_, hpermitted, hseated⟩
  rw [h] at htx
  cases htx

theorem safe_authored_create {roomId authorId : Uuid} {req : CreateMessageRequest}
    (hserved : served i (.create roomId authorId req)) (h : s.chat.txs i = none) :
    SafeAuthor present served i (createMessage roomId authorId req) s := by
  refine safe_asks (c := .getRoomById _) nofun (fun _ _ _ h => h) h fun room s₁ s₂ _ hidle hexec hsame => ?_
  rw [← hsame] at hidle
  cases room with
  | error e => trivial
  | ok room =>
    dsimp only [Prog.bind]
    split
    · trivial
    refine safe_asks (c := .getMembersByRoomId _) nofun (fun _ _ _ h => h) hidle
      fun r s₃ s₄ _ hidle' hexec' hsame' => ?_
    rw [← hsame'] at hidle'
    cases r with
    | error e => trivial
    | ok members =>
      dsimp only [Prog.bind]
      split
      · rename_i hlisted
        obtain ⟨m, hm, hid⟩ := List.any_eq_true.mp hlisted
        let P : Mutation → Prop := fun w => ∃ now, w = .insert req.id ⟨roomId, authorId, req.messageType,
          req.content, now, none, none⟩
        have hcharged : Charged i (.create roomId authorId req) P s₄ := by
          refine charged_idle hidle' ?_ ?_
          · rintro _ ⟨now, rfl⟩
            exact .create now
          · rintro _ ⟨now, rfl⟩
            refine ⟨members, ?_, m, hm, by simpa using hid⟩
            rw [hexec'.listings]
            exact List.mem_append_right _ (List.mem_singleton_self _)
        refine safe_charged hserved ?_ hcharged
        refine only_checked (only_perform trivial) fun user => (only_perform trivial).bind fun now => ?_
        refine only_marshalled fun payload => only_checked (only_allowed_work _ ?_) fun _ => trivial
        exact only_perform fun now => ⟨now, rfl⟩
      · trivial

/-- A message that is there, with its author. -/
def WrittenBy (id authorId : Uuid) (m : Messages) : Prop := ∃ row, m id = some row ∧ row.authorId = authorId

theorem WrittenBy.persist {id authorId : Uuid} (h : WrittenBy id authorId m) (hp : RowsPersist m m') :
    WrittenBy id authorId m' := by
  obtain ⟨row, hrow, rfl⟩ := h
  obtain ⟨row', hrow', -, hsame, -⟩ := hp _ _ hrow
  exact ⟨row', hrow', hsame⟩

/-- The message is read, then the room is asked for; the message keeps its author. -/
theorem safe_authored_read {messageId : Uuid} {f : ChatMessage → ChatProg (Except ChatError α)}
    (h : s.chat.txs i = none)
    (hf : ∀ msg t, msg.id = messageId → t.chat.txs i = none → WrittenBy messageId msg.authorId t.chat.messages →
      SafeAuthor present served i (f msg) t) :
    SafeAuthor present served i (checked (getMessageById messageId) f) s := by
  refine safe_asks (c := .getMessageById _) nofun (fun _ _ _ h => h.1) h fun r t u _ hidle hexec hsame => ?_
  cases r with
  | error e => trivial
  | ok msg =>
    obtain ⟨-, hread⟩ := hexec.chat
    obtain ⟨row, hrow, -, rfl⟩ := hread msg rfl
    refine hf _ u rfl ?_ ⟨row, ?_, rfl⟩
    · rw [hsame]
      exact hidle
    · rw [hsame]
      exact hrow

theorem safe_authored_room {roomId : String} {messageId authorId : Uuid}
    {f : RoomInfo → ChatProg (Except ChatError α)} (h : s.chat.txs i = none)
    (hrow : WrittenBy messageId authorId s.chat.messages)
    (hf : ∀ room t, t.chat.txs i = none → WrittenBy messageId authorId t.chat.messages →
      SafeAuthor present served i (f room) t) :
    SafeAuthor present served i (checked (getRoomById roomId) f) s := by
  refine safe_asks (c := .getRoomById _) nofun (fun _ _ _ h => h) h fun r t u hp hidle _ hsame => ?_
  cases r with
  | error e => trivial
  | ok room =>
    refine hf room u ?_ ?_
    · rw [hsame]
      exact hidle
    · rw [hsame]
      exact hrow.persist hp

theorem safe_authored_update {messageId userId : Uuid} {req : UpdateMessageRequest}
    (hserved : served i (.update messageId userId req)) (h : s.chat.txs i = none) :
    SafeAuthor present served i (updateMessage messageId userId req) s := by
  refine safe_authored_read h fun msg t hid ht hrow => safe_authored_room ht hrow fun room u hu hrow => ?_
  split
  · trivial
  split
  · trivial
  rename_i hauthor
  obtain ⟨row, hfound, hwriter⟩ := hrow
  let P : Mutation → Prop := fun w => ∃ now, w = .setContent messageId (req.content.getD msg.content) now
  have hcharged : Charged i (.update messageId userId req) P u := by
    refine charged_idle hu ?_ ?_
    · rintro _ ⟨now, rfl⟩
      refine .update hfound (hwriter.trans (not_not.mp hauthor)) (fun c hc => ?_) now
      rw [hc, Option.getD_some]
    · rintro _ ⟨now, rfl⟩
      trivial
  refine safe_charged hserved ?_ hcharged
  refine (only_perform trivial).bind fun now => only_checked (only_perform trivial) fun user => ?_
  refine only_marshalled fun payload => only_checked (only_allowed_work _ ?_) fun _ => trivial
  refine only_countedRow (only_perform fun now => ⟨now, ?_⟩)
  rw [hid]

/-- The unit of work both ways of deleting a message run. -/
theorem only_deleteWork {messageId : Uuid} {msg : ChatMessage} :
    Only (Allows fun w => ∃ now, w = .softDelete messageId now) (checked (unitOfWork
      (checked (repoDeleteMessage messageId) fun _ =>
        insertEvent fun id => deletedEvent id msg.roomId (deletedMessagePayload messageId msg.roomId)))
      fun _ => .ret (.ok ())) := by
  refine only_checked (only_allowed_work _ ?_) fun _ => trivial
  exact only_countedRow (only_perform fun now => ⟨now, rfl⟩)

theorem safe_authored_delete {messageId userId : Uuid} (hserved : served i (.delete messageId userId))
    (h : s.chat.txs i = none) : SafeAuthor present served i (deleteMessage messageId userId) s := by
  refine safe_authored_read h fun msg t _ ht hrow => safe_authored_room ht hrow fun room u hu hrow => ?_
  split
  · trivial
  split
  · trivial
  rename_i hauthor
  obtain ⟨row, hfound, hwriter⟩ := hrow
  refine safe_charged hserved only_deleteWork (charged_idle hu ?_ ?_)
  · rintro _ ⟨now, rfl⟩
    exact .delete hfound (hwriter.trans (not_not.mp hauthor)) now
  · rintro _ ⟨now, rfl⟩
    trivial

theorem safe_authored_adminDelete {messageId : Uuid} (hserved : served i (.adminDelete messageId))
    (h : s.chat.txs i = none) : SafeAuthor present served i (adminDeleteMessage messageId) s := by
  refine safe_authored_read h fun msg t _ ht _ => safe_charged hserved only_deleteWork (charged_idle ht ?_ ?_)
  · rintro _ ⟨now, rfl⟩
    exact .adminDelete now
  · rintro _ ⟨now, rfl⟩
    trivial

theorem safe_authored_call (hserved : served i call) (h : s.chat.txs i = none) :
    SafeAuthor present served i (serve call) s := by
  have hdone : ∀ {α : Type} {p : ChatProg (Except ChatError α)} {f : α → Option MessageResponse},
      SafeAuthor present served i p s →
      SafeAuthor present served i (checked p fun a => .ret (.ok (f a)) : ChatProg (Except ChatError _)) s := by
    intro α p f hp
    refine hp.bind fun r t _ => ?_
    cases r <;> trivial
  refine Safe.bind (Q := fun _ _ => True) ?_ fun _ _ _ => trivial
  cases call with
  | create => exact hdone (safe_authored_create hserved h)
  | update => exact hdone (safe_authored_update hserved h)
  | delete => exact hdone (safe_authored_delete hserved h)
  | adminDelete => exact hdone (safe_authored_adminDelete hserved h)

end Contract

section Runs

variable {pool₀ pool pool' : DeskPool} {trace : List DeskLabel} {l : DeskLabel} {id roomId authorId : Uuid}

/-- Thread `i` was started for the request. -/
def ServesRequest (trace : List DeskLabel) (i : Nat) (call : Call) : Prop := (spawned trace)[i]? = some (serve call)

theorem good_desk (h₀ : DeskInit pool₀) (hrun : Run (DeskStep present) pool₀ trace pool) :
    Good (deskSemantics present) (deskContract pool₀.shared.chat (ServesRequest trace)) (fun _ _ _ => True) pool := by
  have hmark : ∀ i s t, Uncommitted i s.chat ∧ s.chat.txs i = none →
      (deskContract pool₀.shared.chat (ServesRequest trace)).rely i s t →
      Uncommitted i t.chat ∧ t.chat.txs i = none := by
    rintro i s t ⟨hunc, htx⟩ ⟨hrely, -⟩
    have hrely' : Rely i s.chat t.chat := hrely
    refine ⟨lasting_uncommitted i _ _ hunc hrely', ?_⟩
    rcases hrely'.tx with hsame | hnone
    · exact hsame.trans htx
    · exact hnone
  have hlen : pool₀.threads.length = 0 := by rw [h₀.threads, List.length_nil]
  refine Good.run_spawned (deskContract_sound _ _) (fun _ _ _ _ _ _ => trivial) hmark hrun ?_ ?_ ?_
  · rintro j p s hj hp ⟨hunc, htx⟩
    rw [hlen, Nat.zero_add] at hunc htx ⊢
    have hchat : Safe (deskSemantics present) ((chatContract pool₀.shared.chat).pullback Desk.chat) j
        (fun a s => Ended j a s.chat) p s :=
      (safe_entry hp hunc).pullback fun _ _ _ _ _ h => Desk.Exec.chat h
    have hauthor : SafeAuthor present (ServesRequest trace) j p s := by
      cases hp with
      | serve call => exact safe_authored_call hj htx
      | publish publisher => exact safe_noCommit (only_publish publisher) s
    exact (hchat.both hauthor).mono fun _ _ _ => trivial
  · exact ⟨⟨storeInv_start h₀.chat, trivial⟩, by simp [h₀.threads]⟩
  · intro i _
    exact ⟨by simp [Uncommitted, h₀.chat.history], h₀.chat.txs i⟩

/-- Within the run thread `i` was told the members of the room, and the author was one of them. -/
def ToldMember (present : Nat → Rfc3339.Time) (pool₀ : DeskPool) (trace : List DeskLabel) (i : Nat)
    (roomId authorId : Uuid) : Prop :=
  ∃ before members after q q', trace = before ++ .cmd i (.getMembersByRoomId roomId.toText) (.ok members) :: after ∧
    Run (DeskStep present) pool₀ before q ∧
    DeskStep present q (.cmd i (.getMembersByRoomId roomId.toText) (.ok members)) q' ∧
    (∃ m ∈ members, m.userId = authorId.toText) ∧
    ∃ row ∈ q.shared.rooms.shared.tables.getMembersByRoomId roomId, row.userId = authorId

/-- A reply that is on record was given. -/
theorem told_of_listing {listed : Listing} (h₀ : DeskInit pool₀) (hrun : Run (DeskStep present) pool₀ trace pool)
    (h : listed ∈ pool.shared.listings) : ∃ before after q q', trace = before ++
      .cmd listed.thread (.getMembersByRoomId listed.roomId) (.ok listed.members) :: after ∧
    Run (DeskStep present) pool₀ before q ∧
    DeskStep present q (.cmd listed.thread (.getMembersByRoomId listed.roomId) (.ok listed.members)) q' ∧
    AnswersMembers q.shared.rooms.shared.tables (.getMembersByRoomId listed.roomId) (.ok listed.members) := by
  have hstart : listed ∉ pool₀.shared.listings := by simp [h₀.listings]
  obtain ⟨before, l, after, q, q', rfl, hbefore, hl, -, hno, hyes⟩ :=
    hrun.crossing (P := fun q => listed ∈ q.shared.listings) hstart h
  cases hl with
  | spawn => exact absurd hyes hno
  | env he =>
    cases he with
    | chat => exact absurd hyes hno
    | rooms => exact absurd hyes hno
  | @cmd j c next r s hi hexec =>
    have hexec' : Desk.Exec present j c q.shared r s := hexec
    rw [hexec'.listings] at hyes
    have hnew : listed ∈ recorded j c r := (List.mem_append.mp hyes).resolve_left hno
    cases c with
    | getMembersByRoomId room =>
      cases r with
      | error e => cases hnew
      | ok members =>
        obtain rfl := List.mem_singleton.mp hnew
        exact ⟨before, after, q, _, rfl, hbefore, .cmd hi hexec, hexec'.answer⟩
    | _ => cases hnew

theorem toldMember_of_seated {row : MessageRow} (h₀ : DeskInit pool₀)
    (hrun : Run (DeskStep present) pool₀ trace pool) (h : Seated i pool.shared.listings (.insert id row)) :
    ToldMember present pool₀ trace i row.roomId row.authorId := by
  obtain ⟨members, hlisted, m, hm, hid⟩ := h
  obtain ⟨before, after, q, q', htrace, hbefore, hl, hanswer⟩ := told_of_listing h₀ hrun hlisted
  refine ⟨before, members, after, q, q', htrace, hbefore, hl, ⟨m, hm, hid⟩, ?_⟩
  obtain ⟨k, listed, hk, hmem, huser⟩ := hanswer m hm
  obtain rfl : k = row.roomId := Option.some.inj (hk.symm.trans (Uuid.parse_text _))
  exact ⟨listed, hmem, Uuid.text_injective (huser.symm.trans hid)⟩

/-- What a request makes of one row of the table. -/
inductive Wrote (call : Call) (id : Uuid) : Option MessageRow → Option MessageRow → Prop where
  | created {row : MessageRow} {req : CreateMessageRequest} (hcall : call = .create row.roomId row.authorId req)
      (hid : req.id = id) (htype : row.messageType = req.messageType) (hcontent : row.content = req.content)
      (hlive : row.deletedAt = none) : Wrote call id none (some row)
  | edited {row : MessageRow} {req : UpdateMessageRequest} {content : String} {now : Nat}
      (hcall : call = .update id row.authorId req) (hlive : row.deletedAt = none)
      (hcontent : ∀ c, req.content = some c → content = c) :
      Wrote call id (some row) (some { row with content := content, updatedAt := some now })
  | deleted {row : MessageRow} {now : Nat} (hcall : call = .delete id row.authorId ∨ call = .adminDelete id)
      (hlive : row.deletedAt = none) : Wrote call id (some row) (some { row with deletedAt := some now })

theorem Entitled.wrote (h : Entitled m call w) (henabled : w.Enabled m) :
    Wrote call w.target (m w.target) (w.on (m w.target)) := by
  cases h with
  | @create roomId authorId req now =>
    have hnone : m req.id = none := henabled.1
    show Wrote _ req.id (m req.id) _
    rw [hnone]
    exact .created rfl rfl rfl rfl rfl
  | @update id userId req row hrow hauthor content hcontent now =>
    obtain ⟨row', hrow', hlive⟩ := henabled
    obtain rfl : row' = row := Option.some.inj (hrow'.symm.trans hrow)
    subst hauthor
    show Wrote _ id (m id) ((m id).map _)
    rw [hrow]
    exact .edited rfl hlive hcontent
  | @delete id userId row hrow hauthor now =>
    obtain ⟨row', hrow', hlive⟩ := henabled
    obtain rfl : row' = row := Option.some.inj (hrow'.symm.trans hrow)
    subst hauthor
    show Wrote _ id (m id) ((m id).map _)
    rw [hrow]
    exact .deleted (.inl rfl) hlive
  | @adminDelete id now =>
    obtain ⟨row, hrow, hlive⟩ := henabled
    show Wrote _ id (m id) ((m id).map _)
    rw [show m id = some row from hrow]
    exact .deleted (.inr rfl) hlive

/-- At every step of every run: a message changes only by the commit of a request that may change it so, and the
author of a new message had been a listed member of its room within the run. -/
theorem messages_authored (h₀ : DeskInit pool₀) (hrun : Run (DeskStep present) pool₀ trace pool)
    (hstep : DeskStep present pool l pool')
    (hchanged : pool'.shared.chat.messages id ≠ pool.shared.chat.messages id) :
    ∃ i call, l = .cmd i .commit (.ok ()) ∧ ServesRequest trace i call ∧
      Wrote call id (pool.shared.chat.messages id) (pool'.shared.chat.messages id) ∧
      ∀ roomId authorId req, call = .create roomId authorId req →
        ToldMember present pool₀ trace i roomId authorId := by
  have hgood := good_desk h₀ hrun
  cases hstep with
  | spawn => exact absurd rfl hchanged
  | env he =>
    cases he with
    | @chat e t h =>
      cases e <;> obtain rfl := h <;> exact absurd rfl hchanged
    | rooms => exact absurd rfl hchanged
  | @cmd i c next r s hi hexec =>
    have hexec' : Desk.Exec present i c pool.shared r s := hexec
    obtain ⟨hchat, hauthor⟩ := hgood.guar (deskContract_sound _ _) hi
    obtain ⟨-, hafterwards⟩ := allows_exec (allows_all c) (fun _ _ _ _ => trivial) hexec'.chat
    cases hafterwards with
    | same hsame => exact absurd (congrFun hsame id) hchanged
    | @view tx htx hview =>
      obtain ⟨call, hserves, hpermitted⟩ := hauthor rfl
      obtain ⟨w, e, heq, henabled, -⟩ := (hgood.shared.1.write.shape i tx htx).of_events (hchat.1 tx htx)
      have hwrites : tx.writes = [w] := by rw [heq]
      obtain ⟨hmay, hseated⟩ := hpermitted tx htx w (by rw [hwrites]; exact List.mem_singleton_self w)
      have hafter : s.chat.messages = w.apply pool.shared.chat.messages := by
        rw [hview, Tx.view, hwrites, List.foldl_cons, List.foldl_nil]
      have htarget : id = w.target := by
        by_contra hne
        exact hchanged ((congrFun hafter id).trans (w.apply_ne _ hne))
      refine ⟨i, call, rfl, hserves, ?_, ?_⟩
      · show Wrote call id _ (s.chat.messages id)
        rw [hafter, htarget, w.apply_target]
        exact hmay.wrote henabled
      · rintro roomId authorId req rfl
        cases hmay with
        | create now => exact toldMember_of_seated h₀ hrun hseated

end Runs

section Sample

/-- A command whose reply says nothing about members. -/
def Unlisted (c : ChatCmd) : Prop := ∀ roomId, c ≠ .getMembersByRoomId roomId

theorem Desk.Exec.of_chat {c : ChatCmd} {r : ChatReply c} {chat : Store} (hc : Unlisted c)
    (h : exec present i c s.chat r chat) : Desk.Exec present i c s r { s with chat := chat } := by
  cases c with
  | getMembersByRoomId roomId => exact absurd rfl (hc roomId)
  | _ => exact ⟨h, trivial, rfl, (List.append_nil _).symm⟩

/-- A thread that runs alone and asks for no members runs alike beside the room service. -/
theorem desk_of_solo {p : ChatProg α} {a : α} {chat : Store} (hp : Only Unlisted p)
    (h : Solo present i p s.chat a chat) : Alone (Desk.Exec present i) Eq p s a { s with chat := chat } := by
  generalize hdrift : (Eq : Store → Store → Prop) = drift at h
  generalize hstart : s.chat = start at h
  induction h generalizing s with
  | ret a c =>
    subst hstart
    exact .ret a s
  | call hd hanswer _ ih =>
    subst hdrift hstart
    obtain rfl := hd
    exact .call rfl (.of_chat hp.1 hanswer) (ih (s := { s with chat := _ }) (hp.2 _) rfl)

theorem update_unlisted (messageId userId : Uuid) (req : UpdateMessageRequest) :
    Only Unlisted (serve (.update messageId userId req)) := by
  refine Only.bind (only_checked ?_ fun _ => trivial) fun _ => trivial
  refine only_checked (only_perform nofun) fun msg => only_checked (only_perform nofun) fun room => ?_
  split
  · trivial
  split
  · trivial
  refine (only_perform nofun).bind fun now => only_checked (only_perform nofun) fun user => ?_
  refine only_marshalled fun payload => only_checked (only_unitOfWork _ nofun nofun nofun nofun nofun ?_) fun _ => trivial
  exact only_countedRow (only_perform nofun)

def annDesk : Desk := ⟨annStore, dueRooms, []⟩

def annEdit : Call := .update sampleMessage Rooms.ann ⟨some "edited"⟩

/-- ann edits her message. -/
theorem messages_authored_edit : ∃ trace pool l pool', Run (DeskStep fun _ => sampleTime) ⟨annDesk, []⟩ trace pool ∧
    DeskStep (fun _ => sampleTime) pool l pool' ∧
    pool'.shared.chat.messages sampleMessage ≠ pool.shared.chat.messages sampleMessage ∧
    ∃ i call, l = .cmd i .commit (.ok ()) ∧ ServesRequest trace i call ∧
      Wrote call sampleMessage (pool.shared.chat.messages sampleMessage)
        (pool'.shared.chat.messages sampleMessage) ∧
      ∀ roomId authorId req, call = .create roomId authorId req →
        ToldMember (fun _ => sampleTime) ⟨annDesk, []⟩ trace i roomId authorId := by
  have hinit : DeskInit ⟨annDesk, []⟩ := ⟨rfl, ⟨List.nodup_nil, fun _ => rfl, fun _ _ => rfl, rfl, rfl, rfl⟩, rfl⟩
  have hrow : annStore.messages sampleMessage = some annMessage := by simp [annStore]
  have htime : ∃ text, Rfc3339.marshal sampleTime = some text := Rfc3339.exists_marshal (by decide) (by decide)
  obtain ⟨text, htime⟩ := htime
  let edited := editedMessage (annMessage.read (fun _ => sampleTime) sampleMessage) "edited" sampleTime
  obtain ⟨json, hjson⟩ : ∃ json, (toResponse edited "Ann").marshalJson = some json :=
    exists_marshalJson ⟨text, htime⟩ ⟨_, marshalUpdatedAt_some htime⟩
  have hpay : updatedMessagePayload (toResponse edited "Ann") = some (wsEventJson "updated_message" json) := by
    rw [updatedMessagePayload, hjson]
    rfl
  have hsolo : Solo (fun _ => sampleTime) 0 (serve annEdit) annStore
      (.returned annEdit (.ok (some (toResponse edited "Ann"))))
      (annStore.committed 0 (.setContent sampleMessage "edited" annStore.now)
        (updatedEvent sampleEvent annMessage.roomId (wsEventJson "updated_message" json))) :=
    solo_update (fun _ => rfl) hrow rfl rfl List.not_mem_nil hpay
  have halone := desk_of_solo (s := annDesk) (update_unlisted _ _ _) hsolo
  obtain ⟨trace, hrun⟩ := Alone.spawn_run (S := deskSemantics fun _ => sampleTime) [] (Entry.serve annEdit) halone
  obtain ⟨before, l, after, pool, pool', -, hbefore, hl, -, hsame, hchanged⟩ := hrun.crossing
    (P := fun q => q.shared.chat.messages sampleMessage ≠ some annMessage) (not_not.mpr hrow)
    (by simp [Store.committed, annStore, Mutation.apply, Mutation.target, Mutation.on, annMessage])
  have hdiff : pool'.shared.chat.messages sampleMessage ≠ pool.shared.chat.messages sampleMessage := by
    rw [not_not.mp hsame]
    exact hchanged
  exact ⟨before, pool, l, pool', hbefore, hl, hdiff, messages_authored hinit hbefore hl hdiff⟩

end Sample

end Chinwag.Chat

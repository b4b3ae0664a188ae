import Chinwag.Chat.OutboxAtomicity
import Chinwag.Chat.Projection

/-!
# The projection follows the write model

Feeding the events of the outbox to the consumer once each, in commit order, keeps the
projection table in step with `chat_messages`: the simulation is kept by every commit,
whichever operation made it.
-/
namespace Chinwag.Chat

open Program Transition Rfc3339

/-- Feed payloads to `Handle` one after another; the outcomes are what it logged. -/
def feed : List (Attempt × Json) → Projections → List Handled × Projections
  | [], p => ([], p)
  | (a, payload) :: rest, p =>
    let handled := handle a (some payload) p
    let (outcomes, p') := feed rest handled.2
    (handled.1 :: outcomes, p')

/-- The columns both tables have, of a row that is not deleted. -/
structure Shown where
  id : Uuid
  roomId : Uuid
  authorId : Uuid
  messageType : Int
  content : String
  deriving DecidableEq

def shownMessage (id : Uuid) (row : MessageRow) : Option Shown :=
  if row.deletedAt.isSome then none
  else some ⟨id, row.roomId, row.authorId, row.messageType, row.content⟩

def shownProjection (r : MessageProjection) : Option Shown :=
  if r.deletedAt.isSome then none else some ⟨r.id, r.roomId, r.authorId, r.messageType, r.content⟩

def shownMessages (m : Messages) (id : Uuid) : Option Shown := (m id).bind (shownMessage id)

def shownProjections (p : Projections) (id : Uuid) : Option Shown := (p id).bind shownProjection

structure SameRow (id : Uuid) (row : MessageRow) (r : MessageProjection) : Prop where
  id : r.id = id
  roomId : r.roomId = row.roomId
  authorId : r.authorId = row.authorId
  messageType : r.messageType = row.messageType
  content : r.content = row.content
  deleted : r.deletedAt.isSome = row.deletedAt.isSome

/-- The two rows of an id: both missing, or both there and the same as far as readers see. -/
def Agree (id : Uuid) (row : Option MessageRow) (r : Option MessageProjection) : Prop :=
  match row, r with
  | none, none => True
  | some row, some r => SameRow id row r
  | _, _ => False

def Simulates (m : Messages) (p : Projections) : Prop := ∀ id, Agree id (m id) (p id)

variable {m : Messages} {p : Projections} {a : Attempt}

theorem Simulates.none (h : Simulates m p) {id : Uuid} (hm : m id = none) : p id = none := by
  have hid := h id
  rw [hm] at hid
  cases hp : p id with
  | none => rfl
  | some r =>
    rw [hp] at hid
    exact hid.elim

theorem Simulates.some (h : Simulates m p) {id : Uuid} {row : MessageRow} (hm : m id = some row) :
    ∃ r, p id = some r ∧ SameRow id row r := by
  have hid := h id
  rw [hm] at hid
  cases hp : p id with
  | none =>
    rw [hp] at hid
    exact hid.elim
  | some r =>
    rw [hp] at hid
    exact ⟨r, rfl, hid⟩

/-- Changing the row of one id on both sides. -/
theorem Simulates.update (h : Simulates m p) {w : Mutation} {row : MessageRow} {r : MessageProjection}
    (hw : w.on (m w.target) = Option.some row) (hr : SameRow w.target row r) :
    Simulates (w.apply m) (Function.update p w.target (Option.some r)) := by
  intro id
  by_cases hid : id = w.target
  · subst hid
    rw [Mutation.apply_target, hw, Function.update_self]
    exact hr
  · rw [Mutation.apply_ne w m hid, Function.update_of_ne hid]
    exact h id

/-- The database answered: the outcome is that of the statement itself. -/
theorem finish_of_answered {db : Database} {effect : Except RepoError Unit × Projections}
    (h : (finish db p effect).1 ≠ .failed .database) :
    finish db p effect = (Handled.ofReply effect.1, effect.2) ∧ effect.1 ≠ .error .database := by
  cases db with
  | up =>
    refine ⟨rfl, fun he => h ?_⟩
    simp [finish, Database.run, he, Handled.ofReply]
  | down => exact absurd rfl h
  | replyLost => exact absurd rfl h

theorem updateLive_of_visible {id : Uuid} {f : MessageProjection → MessageProjection}
    {r : MessageProjection} (hr : p id = some r) (hd : r.deletedAt = none) :
    updateLive id f p = (.ok (), Function.update p id (some (f r))) := by
  simp [updateLive, hr, hd]

/-- One commit and the delivery of its event, side by side. -/
theorem simulates_step {w : Mutation} {e : OutboxEvent} (h : Simulates m p) (hw : w.Enabled m)
    (hc : Coupled m w e) (hok : (handle a (some e.payload) p).1 ≠ .failed .database) :
    (handle a (some e.payload) p).1 = .applied ∧
      Simulates (w.apply m) (handle a (some e.payload) p).2 := by
  obtain ⟨row, hrow, ha⟩ := hc
  rw [Mutation.apply_target] at hrow
  cases w with
  | insert id row' =>
    obtain ⟨msg, name, payload, hd, hpay, he⟩ := ha
    have hpayload : e.payload = payload := congrArg OutboxEvent.payload he
    rw [hpayload, handle_newMessage hpay] at hok ⊢
    obtain ⟨hfinish, hfit⟩ := finish_of_answered hok
    rw [hfinish]
    have hrow' : row' = row := by simpa [Mutation.on] using hrow
    subst hrow'
    have hp : p msg.id = none := hd.id ▸ h.none hw.1
    unfold upsert at hfit ⊢
    split
    · rename_i hlong
      rw [if_pos hlong] at hfit
      exact absurd rfl hfit
    · refine ⟨rfl, ?_⟩
      have hup : upserted p a.now (projectionOf msg name) = projectionOf msg name := by
        unfold upserted
        rw [show p (projectionOf msg name).id = none from hp]
        rfl
      rw [hup, show (projectionOf msg name).id = id from hd.id]
      exact h.update hrow ⟨hd.id, hd.roomId, hd.authorId, congrArg Subtype.val hd.messageType,
        hd.content, by rw [hw.2]; rfl⟩
  | setContent id content now =>
    obtain ⟨msg, name, payload, t, hd, ht, hpay, he⟩ := ha
    have hpayload : e.payload = payload := congrArg OutboxEvent.payload he
    rw [hpayload, handle_updatedMessage hpay ht] at hok ⊢
    rw [(finish_of_answered hok).1]
    obtain ⟨old, hold, hlive⟩ := hw
    obtain ⟨r, hr, hsame⟩ := h.some hold
    have hrlive : r.deletedAt = none := by
      have hdel := hsame.deleted
      rw [hlive] at hdel
      simpa using hdel
    have hcontent : msg.content = row.content := hd.content
    have hnew : row = { old with content := content, updatedAt := some now } := by
      simpa [Mutation.on, Mutation.target, hold] using hrow.symm
    subst hnew
    rw [updateContent, hd.id, updateLive_of_visible hr hrlive]
    exact ⟨rfl, h.update hrow ⟨hsame.id, hsame.roomId, hsame.authorId, hsame.messageType, hcontent,
      hsame.deleted⟩⟩
  | softDelete id now =>
    have hpayload : e.payload = deletedMessagePayload id row.roomId := congrArg OutboxEvent.payload ha
    rw [hpayload, handle_deletedMessage] at hok ⊢
    rw [(finish_of_answered hok).1]
    obtain ⟨old, hold, hlive⟩ := hw
    obtain ⟨r, hr, hsame⟩ := h.some hold
    have hrlive : r.deletedAt = none := by
      have hdel := hsame.deleted
      rw [hlive] at hdel
      simpa using hdel
    have hnew : row = { old with deletedAt := some now } := by
      simpa [Mutation.on, Mutation.target, hold] using hrow.symm
    subst hnew
    rw [softDelete, updateLive_of_visible hr hrlive]
    exact ⟨rfl, h.update hrow ⟨hsame.id, hsame.roomId, hsame.authorId, hsame.messageType,
      hsame.content, rfl⟩⟩

theorem feed_append (ds ds' : List (Attempt × Json)) (p : Projections) :
    feed (ds ++ ds') p =
      ((feed ds p).1 ++ (feed ds' (feed ds p).2).1, (feed ds' (feed ds p).2).2) := by
  induction ds generalizing p with
  | nil => rfl
  | cons d ds ih => simp [feed, ih]

/-- The simulation along the whole history; the induction is on the commits. -/
theorem simulates_replays {history : List Commit} (h : Replays (fun _ => none) history m)
    (ds : List (Attempt × Json))
    (hds : ds.map Prod.snd = (history.flatMap Commit.written).map fun x => x.1.payload)
    (hok : ∀ o ∈ (feed ds fun _ => none).1, o ≠ .failed .database) :
    (∀ o ∈ (feed ds fun _ => none).1, o = .applied) ∧ Simulates m (feed ds fun _ => none).2 := by
  induction h generalizing ds with
  | nil =>
    have hnil : ds = [] := by simpa using hds
    subst hnil
    refine ⟨by simp [feed], fun id => ?_⟩
    trivial
  | @snoc history m w e i start _ hw hc ih =>
    rw [List.flatMap_append, List.map_append] at hds
    have hlast : (([⟨i, start, [w], [e]⟩] : List Commit).flatMap Commit.written).map
        (fun x => x.1.payload) = [e.payload] := rfl
    rw [hlast] at hds
    obtain ⟨ds₁, ds₂, rfl, h₁, h₂⟩ := List.map_eq_append_iff.mp hds
    obtain ⟨⟨a, payload⟩, rfl, hpayload⟩ := List.map_eq_singleton_iff.mp h₂
    simp only at hpayload
    subst hpayload
    rw [feed_append] at hok ⊢
    simp only [List.mem_append] at hok ⊢
    obtain ⟨happlied, hsim⟩ := ih ds₁ h₁ fun o ho => hok o (Or.inl ho)
    have hlast := simulates_step (a := a) hsim hw hc (hok _ (Or.inr (by simp [feed])))
    refine ⟨fun o ho => ?_, hlast.2⟩
    rcases ho with ho | ho
    · exact happlied o ho
    · have heq : o = (handle a (some e.payload) (feed ds₁ fun _ => none).2).1 := by
        simpa [feed] using ho
      rw [heq]
      exact hlast.1

theorem Simulates.shown (h : Simulates m p) (id : Uuid) :
    shownProjections p id = shownMessages m id := by
  unfold shownProjections shownMessages
  cases hm : m id with
  | none =>
    rw [h.none hm]
    rfl
  | some row =>
    obtain ⟨r, hr, hsame⟩ := h.some hm
    rw [hr]
    simp only [Option.bind_some, shownProjection, shownMessage, hsame.deleted, hsame.id, hsame.roomId,
      hsame.authorId, hsame.messageType, hsame.content]

/-- After any run that began with empty tables, delivering the outbox once in commit order
with a database that answers applies every event and gives the rows of `chat_messages`. -/
theorem projection_follows_writes {present : Nat → Time} {pool₀ pool : ChatPool}
    {trace : List (Label Ambient ChatCmd ChatReply Outcome)} (h₀ : InitialPool pool₀)
    (hmessages : ∀ id, pool₀.shared.messages id = none) (houtbox : pool₀.shared.outbox = [])
    (hrun : Run (ChatStep present) pool₀ trace pool) (deliveries : List (Attempt × Json))
    (hall : deliveries.map Prod.snd = pool.shared.outbox.map (fun r => r.payload))
    (hanswered : ∀ o ∈ (feed deliveries fun _ => none).1, o ≠ .failed .database) :
    (∀ o ∈ (feed deliveries fun _ => none).1, o = .applied) ∧
      ∀ id, shownProjections (feed deliveries fun _ => none).2 id = shownMessages pool.shared.messages id := by
  have hw := (running_run h₀ hrun).good.shared.write
  have hempty : pool₀.shared.messages = fun _ => none := funext hmessages
  have hreplays := hw.replays
  rw [hempty] at hreplays
  have hwritten : pool.shared.written = pool.shared.history.flatMap Commit.written := by
    rw [hw.written]
    simp [Store.written, houtbox]
  have hpayloads : pool.shared.outbox.map (fun r => r.payload) =
      (pool.shared.history.flatMap Commit.written).map fun x => x.1.payload := by
    rw [← hwritten]
    simp [Store.written, OutboxRow.written, Function.comp_def]
  obtain ⟨happlied, hsim⟩ := simulates_replays hreplays deliveries (hall.trans hpayloads) hanswered
  exact ⟨happlied, hsim.shown⟩

theorem projection_follows_create : ∃ pool trace deliveries,
    Run (ChatStep fun _ => sampleTime) ⟨emptyStore, []⟩ trace pool ∧
      shownProjections (feed deliveries fun _ => none).2 sampleMessage =
        some ⟨sampleMessage, sampleRoom, sampleAuthor, 0, "hello"⟩ := by
  obtain ⟨payload, hpay⟩ := exists_samplePayload
  obtain ⟨trace, hrun⟩ := sampleCreate_run hpay
  have hanswered : ∀ o ∈ (feed [(⟨sampleTime, .up⟩, payload)] fun _ => none).1,
      o ≠ .failed .database := by
    have hup : (upsert (projectionOf sampleCreated "Ann") sampleTime fun _ => none).1 = .ok () := rfl
    simp [feed, handle_newMessage hpay, finish, Database.run, hup, Handled.ofReply]
  refine ⟨_, trace, [(⟨sampleTime, .up⟩, payload)], hrun, ?_⟩
  rw [(projection_follows_writes ⟨rfl, starts_empty⟩ (fun _ => rfl) rfl hrun _ rfl hanswered).2]
  simp [shownMessages, Store.committed, Mutation.apply, Mutation.target, Mutation.on, shownMessage,
    createdRow, sampleRequest]

end Chinwag.Chat

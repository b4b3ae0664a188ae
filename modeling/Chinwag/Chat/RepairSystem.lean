import Mathlib.Data.List.Induction
import Chinwag.Chat.RepairTools
import Chinwag.Chat.StoreInvariant

/-!
# The tools, the write model and the consumer side by side

Any number of runs of the tools, the changes of `chat_messages` and the deliveries of their events take
steps in any order. What a run writes is what it read, and nobody else touches its transaction.
-/
namespace Chinwag.Repair

open Chat Program Redis Rfc3339 Transition

/-- What a run asked for, the table it was answered from, and how often each message had been changed. -/
structure Read where
  query : SourceQuery
  source : Messages
  version : Uuid → Nat

/-- The message was there to be returned. -/
def Read.Covers (rd : Read) (id : Uuid) : Prop := ∃ row, rd.source id = some row ∧ rd.query.Matches ⟨id, row⟩

/-- `origin` is the table the run began with and `history` the changes of each message since, with
the events they were announced by. Of each message, `reached` is how many of them the consumer has come
to or a tool has copied, and `shows` how many the row of the projection shows. -/
structure RepairState where
  source : Messages
  origin : Messages
  history : Uuid → List (Mutation × OutboxEvent)
  projections : Projections
  shows : Uuid → Nat
  reached : Uuid → Nat
  mark : Option (Option Int)
  txs : Nat → Option (List MessageProjection)
  reads : Nat → Option Read

/-- `INSERT ... ON CONFLICT (id) DO UPDATE SET` of all other columns. -/
def overwrite (p : Projections) (row : MessageProjection) : Projections := Function.update p row.id (some row)

def overwriteAll (rows : List MessageProjection) (p : Projections) : Projections := rows.foldl overwrite p

namespace RepairState

def setTx (s : RepairState) (i : Nat) (tx : Option (List MessageProjection)) : RepairState :=
  { s with txs := Function.update s.txs i tx }

/-- The read that run `i` copies from. -/
def versionRead (s : RepairState) (i : Nat) (id : Uuid) : Nat := ((s.reads i).map fun rd => rd.version id).getD 0

def commitTx (s : RepairState) (i : Nat) (rows : List MessageProjection) : RepairState :=
  { s.setTx i none with
    projections := overwriteAll rows s.projections
    shows := fun id => if id ∈ rows.map (·.id) then s.versionRead i id else s.shows id
    reached := fun id => if id ∈ rows.map (·.id) then max (s.reached id) (s.versionRead i id) else s.reached id }

/-- A state that the message was in after `k` changes would not replace a newer one. -/
def Fresh (s : RepairState) (id : Uuid) (k : Nat) : Prop := s.reached id ≤ k ∨ s.projections id = none

def changeSource (s : RepairState) (w : Mutation) (e : OutboxEvent) : RepairState :=
  { s with
    source := w.apply s.source
    history := Function.update s.history w.target (s.history w.target ++ [(w, e)]) }

/-- The consumer handles the event of the change with this number. -/
def deliver (s : RepairState) (id : Uuid) (k : Nat) (e : OutboxEvent) (a : Attempt) : RepairState :=
  let p := (handle a (some e.payload) s.projections).2
  { s with
    projections := p
    shows := Function.update s.shows id (if p id = s.projections id then s.shows id else k + 1)
    reached := Function.update s.reached id (max (s.reached id) (k + 1)) }

@[simp] theorem history_changeSource (s : RepairState) (w : Mutation) (e : OutboxEvent) :
    (s.changeSource w e).history w.target = s.history w.target ++ [(w, e)] := Function.update_self _ _ _

@[simp] theorem reached_deliver (s : RepairState) (id : Uuid) (k : Nat) (e : OutboxEvent) (a : Attempt) :
    (s.deliver id k e a).reached id = max (s.reached id) (k + 1) := Function.update_self _ _ _

theorem shows_deliver (s : RepairState) (id : Uuid) (k : Nat) (e : OutboxEvent) (a : Attempt) :
    (s.deliver id k e a).shows id =
      if (handle a (some e.payload) s.projections).2 id = s.projections id then s.shows id else k + 1 :=
  Function.update_self _ _ _

end RepairState

/-- Each call reads its own clock. A statement that fails may have been carried out or not. -/
inductive Exec (i : Nat) : (c : RepairCmd) → RepairState → RepairReply c → RepairState → Prop where
  | now {s : RepairState} (t : Int) : Exec i .now s t s
  | getMark {s : RepairState} : Exec i .getMark s (.ok s.mark) s
  | getMarkFailed {s : RepairState} (e : RedisError) : Exec i .getMark s (.error e) s
  | select {s : RepairState} {q : SourceQuery} {l : List SourceMessage} (hl : q.Returns s.source l) :
      Exec i (.select q) s (.ok l)
        { s with reads := Function.update s.reads i (some ⟨q, s.source, fun id => (s.history id).length⟩) }
  | selectFailed {s : RepairState} (q : SourceQuery) (e : RepoError) : Exec i (.select q) s (.error e) s
  | begin {s : RepairState} : Exec i .begin s (.ok ()) (s.setTx i (some []))
  | beginFailed {s : RepairState} (e : RepoError) : Exec i .begin s (.error e) s
  | getUserName {s : RepairState} (userId : Uuid) (name : Option String) : Exec i (.getUserName userId) s name s
  | upsert {s : RepairState} {rows : List MessageProjection} (row : MessageProjection) (htx : s.txs i = some rows)
      (hfit : row.authorName.length ≤ 256) : Exec i (.upsert row) s (.ok ()) (s.setTx i (some (rows ++ [row])))
  | upsertFailed {s : RepairState} (row : MessageProjection) (e : RepoError) : Exec i (.upsert row) s (.error e) s
  | commit {s : RepairState} {rows : List MessageProjection} (htx : s.txs i = some rows) :
      Exec i .commit s (.ok ()) (s.commitTx i rows)
  | commitFailed {s : RepairState} (e : RepoError) : Exec i .commit s (.error e) (s.setTx i none)
  | commitLost {s : RepairState} {rows : List MessageProjection} (e : RepoError) (htx : s.txs i = some rows) :
      Exec i .commit s (.error e) (s.commitTx i rows)
  | rollback {s : RepairState} : Exec i .rollback s () (s.setTx i none)
  | setMark {s : RepairState} (text : Option Int) : Exec i (.setMark text) s (.ok ()) { s with mark := some text }
  | setMarkNotDone {s : RepairState} (text : Option Int) : Exec i (.setMark text) s (.error .notDone) s
  | setMarkLost {s : RepairState} (text : Option Int) :
      Exec i (.setMark text) s (.error .replyLost) { s with mark := some text }

inductive RepairEvent where
  | write (w : Mutation) (e : OutboxEvent)
  | deliver (id : Uuid) (k : Nat) (a : Attempt)

/-- A transaction of the command service commits a change with its event; the row of a new message
has the time at which the transaction began, whenever that was. An event is delivered once, more often,
or not at all, and the consumer's database answers or not. -/
inductive Ambient : RepairState → RepairEvent → RepairState → Prop where
  | write {s : RepairState} {w : Mutation} {e : OutboxEvent} (henabled : w.Enabled s.source)
      (hcoupled : Coupled s.source w e) : Ambient s (.write w e) (s.changeSource w e)
  | deliver {s : RepairState} {id : Uuid} {k : Nat} {w : Mutation} {e : OutboxEvent} (a : Attempt)
      (hk : (s.history id)[k]? = some (w, e)) : Ambient s (.deliver id k a) (s.deliver id k e a)

def repairSemantics : Semantics RepairState RepairEvent RepairCmd RepairReply where
  exec := Exec
  env := Ambient

abbrev RepairPool := Pool RepairState RepairCmd RepairReply Unit

abbrev RepairLabel := Label RepairEvent RepairCmd RepairReply Unit

abbrev RepairStep (clock : Clock) : RepairPool → RepairLabel → RepairPool → Prop :=
  Step repairSemantics fun p => ∃ tool : Tool, p = tool.prog clock

section Overwrite

variable {rows : List MessageProjection} {p : Projections} {id : Uuid}

theorem overwriteAll_concat (rows : List MessageProjection) (row : MessageProjection) (p : Projections) :
    overwriteAll (rows ++ [row]) p = overwrite (overwriteAll rows p) row := by
  simp [overwriteAll]

/-- A row of the projection after the copies: one of them, or the old one where there is none. -/
theorem overwriteAll_cases (rows : List MessageProjection) (p : Projections) (id : Uuid) :
    (∃ row ∈ rows, row.id = id ∧ overwriteAll rows p id = some row) ∨
      id ∉ rows.map (·.id) ∧ overwriteAll rows p id = p id := by
  induction rows using List.reverseRecOn with
  | nil => exact .inr ⟨List.not_mem_nil, rfl⟩
  | append_singleton rows row ih =>
    rw [overwriteAll_concat]
    by_cases hid : id = row.id
    · subst hid
      exact .inl ⟨row, by simp, rfl, Function.update_self _ _ _⟩
    · have hold : overwrite (overwriteAll rows p) row id = overwriteAll rows p id := Function.update_of_ne hid _ _
      rw [hold]
      rcases ih with ⟨row', hrow', hrest⟩ | ⟨hnot, hsame⟩
      · exact .inl ⟨row', List.mem_append_left _ hrow', hrest⟩
      · refine .inr ⟨?_, hsame⟩
        rw [List.map_append, List.mem_append]
        rintro (hin | hin)
        · exact hnot hin
        · exact hid (List.mem_singleton.mp hin)

theorem overwriteAll_ne_none (h : p id ≠ none) : overwriteAll rows p id ≠ none := by
  rcases overwriteAll_cases rows p id with ⟨row, -, -, hrow⟩ | ⟨-, hsame⟩
  · rw [hrow]
    exact Option.some_ne_none row
  · rwa [hsame]

theorem overwriteAll_copied {row : MessageProjection} (h : row ∈ rows) : overwriteAll rows p row.id ≠ none := by
  rcases overwriteAll_cases rows p row.id with ⟨row', -, -, hrow⟩ | ⟨hnot, -⟩
  · rw [hrow]
    exact Option.some_ne_none row'
  · exact absurd (List.mem_map_of_mem h) hnot

end Overwrite

end Chinwag.Repair

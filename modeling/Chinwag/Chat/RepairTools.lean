import Chinwag.Chat.Projection
import Chinwag.Chat.Store
import Chinwag.Lib.Program
import Chinwag.Lib.Redis

/-!
# The tools that fill gaps of the projection

The gap-sync command, the backfill command and the scheduler's `syncGaps` read rows of
`chat_messages` and write them over those of the projection in one transaction. Each is a program of
its calls; instants are numbers of nanoseconds.
-/
namespace Chinwag.Repair

open Chat Program Redis Rfc3339

/-- A `chatMessage`: a row of `chat_messages` with its key. -/
structure SourceMessage where
  id : Uuid
  row : MessageRow
  deriving DecidableEq

/-- The `SELECT`s of the tools: of `syncGaps`, of gap-sync with and without a cursor, of backfill. -/
inductive SourceQuery where
  | since (t : Int)
  | after (createdAt : Int) (id : Uuid) (limit : Int)
  | first (limit : Int)
  | everything

namespace SourceQuery

/-- The `WHERE` clause. -/
def Matches (q : SourceQuery) (m : SourceMessage) : Prop :=
  match q with
  | .since t => t < m.row.createdAt
  | .after t id _ => t < m.row.createdAt ∨ t = m.row.createdAt ∧ id.toText < m.id.toText
  | .first _ => True
  | .everything => True

/-- The `ORDER BY` clause; backfill leaves out the id. -/
def Before (q : SourceQuery) (a b : SourceMessage) : Prop :=
  match q with
  | .everything => a.row.createdAt ≤ b.row.createdAt
  | _ => a.row.createdAt < b.row.createdAt ∨ a.row.createdAt = b.row.createdAt ∧ a.id.toText < b.id.toText

/-- The `LIMIT` clause, which refuses a negative number. -/
def Limited (q : SourceQuery) (all l : List SourceMessage) : Prop :=
  match q with
  | .after _ _ n => 0 ≤ n ∧ l = all.take n.toNat
  | .first n => 0 ≤ n ∧ l = all.take n.toNat
  | .since _ => l = all
  | .everything => l = all

/-- What the statement returns on this table. -/
def Returns (q : SourceQuery) (source : Messages) (l : List SourceMessage) : Prop :=
  ∃ all : List SourceMessage, all.Nodup ∧ all.Pairwise q.Before ∧ (∀ m, m ∈ all ↔ source m.id = some m.row ∧ q.Matches m) ∧
    q.Limited all l

end SourceQuery

/-- A write to Redis that failed, before it was carried out or after. -/
inductive WriteFailure where
  | notDone
  | replyLost

/-- The calls the tools make. `begin` stands for the transaction and its prepared statement, and
`getUserName` for the lookup with its cache, `none` for an error. The mark is the text of an instant, or
a text that is none. -/
inductive RepairCmd where
  | now
  | getMark
  | select (q : SourceQuery)
  | begin
  | getUserName (userId : Uuid)
  | upsert (row : MessageProjection)
  | commit
  | rollback
  | setMark (text : Option Int)

abbrev RepairReply : RepairCmd → Type
  | .now => Int
  | .getMark => Except RedisError (Option (Option Int))
  | .select _ => Except RepoError (List SourceMessage)
  | .begin => Except RepoError Unit
  | .getUserName _ => Option String
  | .upsert _ => Except RepoError Unit
  | .commit => Except RepoError Unit
  | .rollback => Unit
  | .setMark _ => Except WriteFailure Unit

abbrev RepairProg (α : Type) := Prog RepairCmd RepairReply α

open Prog (perform)

/-- How instants are presented as a `time.Time`, and which of them `MarshalText` can print. -/
structure Clock where
  present : Nat → Time
  printable : Int → Bool

/-- The nine columns that the tools write. -/
def copyOf (clock : Clock) (m : SourceMessage) (authorName : String) : MessageProjection where
  id := m.id
  roomId := m.row.roomId
  authorId := m.row.authorId
  authorName := authorName
  messageType := m.row.messageType
  content := m.row.content
  createdAt := clock.present m.row.createdAt
  updatedAt := m.row.updatedAt.map clock.present
  deletedAt := m.row.deletedAt.map clock.present

/-- The loop over the messages read. The commands give up where a name cannot be resolved (`strict`),
the scheduler goes on without one. Whether all were written. -/
def copyRows (clock : Clock) (strict : Bool) : List SourceMessage → RepairProg Bool
  | [] => return true
  | m :: rest => do
    let name ← perform (RepairCmd.getUserName m.row.authorId)
    if strict && name.isNone then return false
    else
      match ← perform (RepairCmd.upsert (copyOf clock m (name.getD ""))) with
      | .error _ => return false
      | .ok () => copyRows clock strict rest

/-- The transaction on the projection; whether it was committed. -/
def writeCopies (clock : Clock) (strict : Bool) (msgs : List SourceMessage) : RepairProg Bool := do
  match ← perform RepairCmd.begin with
  | .error _ => return false
  | .ok () =>
    match ← copyRows clock strict msgs with
    | false => do
      perform RepairCmd.rollback
      return false
    | true =>
      match ← perform RepairCmd.commit with
      | .error _ => return false
      | .ok () => return true

/-- The gap-sync command, given the decoded `-after-cursor`, if there is one. -/
def gapSync (clock : Clock) (after : Option (Int × Uuid)) (limit : Int) : RepairProg Unit := do
  let query := match after with
    | some (createdAt, id) => SourceQuery.after createdAt id limit
    | none => SourceQuery.first limit
  match ← perform (RepairCmd.select query) with
  | .error _ => return ()
  | .ok msgs =>
    if msgs = [] then return ()
    else
      let _ ← writeCopies clock true msgs
      return ()

/-- The backfill command. -/
def backfill (clock : Clock) : RepairProg Unit := do
  match ← perform (RepairCmd.select .everything) with
  | .error _ => return ()
  | .ok msgs =>
    let _ ← writeCopies clock true msgs
    return ()

/-- Five minutes. -/
def firstRunWindow : Int := 5 * 60 * 1000000000

/-- Where `syncGaps` begins to read; nowhere if Redis failed. -/
def lastSyncTime : RepairProg (Option Int) := do
  match ← perform RepairCmd.getMark with
  | .error _ => return none
  | .ok (some (some t)) => return some t
  | .ok _ => do
    let now ← perform RepairCmd.now
    return some (now - firstRunWindow)

/-- The mark is the clock after the copy, not the time of a message. -/
def updateMark (clock : Clock) : RepairProg Unit := do
  let now ← perform RepairCmd.now
  let _ ← perform (RepairCmd.setMark (if clock.printable now then some now else none))
  return ()

def syncGaps (clock : Clock) : RepairProg Unit := do
  match ← lastSyncTime with
  | none => return ()
  | some since =>
    match ← perform (RepairCmd.select (.since since)) with
    | .error _ => return ()
    | .ok msgs =>
      if msgs = [] then return ()
      else
        match ← writeCopies clock false msgs with
        | false => return ()
        | true => updateMark clock

inductive Tool where
  | gapSync (after : Option (Int × Uuid)) (limit : Int)
  | backfill
  | syncGaps

def Tool.prog (clock : Clock) : Tool → RepairProg Unit
  | .gapSync after limit => Repair.gapSync clock after limit
  | .backfill => Repair.backfill clock
  | .syncGaps => Repair.syncGaps clock

end Chinwag.Repair

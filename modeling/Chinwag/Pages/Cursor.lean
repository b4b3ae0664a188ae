import Chinwag.Lib.Instant
import Chinwag.Lib.Json
import Chinwag.Lib.Uuid

/-!
# Cursors of the listings

A cursor is the base64 of a JSON object with the creation time and the id of a row. The messages and the
rooms decode the id as a UUID, the users as any text.
-/
namespace Chinwag.Pages

open Rfc3339

/-- A cursor as it is sent: nothing, the base64 of some JSON, or any other text. -/
inductive CursorText where
  | empty
  | json (j : Json)
  | other

/-- `b, _ := json.Marshal(c)`: where a time cannot be printed, the text is empty. -/
def encodeCursor (createdAt : Time) (id : String) : CursorText :=
  match marshal createdAt with
  | none => .empty
  | some text => .json (.obj [("created_at", .str text), ("id", .str id)])

/-- `time.Time{}`. -/
def zeroTime : Time := ⟨1, 1, 1, 0, 0, 0, 0, 0, by decide⟩

def readTime : Json → Option Time
  | .str s => parse s
  | _ => none

def readUuid : Json → Option Uuid
  | .str s => Uuid.parse s
  | _ => none

/-- `uuid.Nil`. -/
theorem zeroUuid_canonical : Uuid.isCanonical "00000000-0000-0000-0000-000000000000".toList = true := by decide

def zeroUuid : Uuid := ⟨"00000000-0000-0000-0000-000000000000", zeroUuid_canonical⟩

/-- Decode a cursor whose id is read and defaults as given. -/
def decodeWith {α : Type} (readId : Json → Option α) (zeroId : α) : CursorText → Option (Time × α)
  | .json j => do
    let fields ← j.asStruct
    let createdAt ← Json.field readTime zeroTime "created_at" fields
    let id ← Json.field readId zeroId "id" fields
    return (createdAt, id)
  | _ => none

/-- `decodeCursor` of the messages, `decodeRoomCursor`. -/
def decodeCursor : CursorText → Option (Time × Uuid) := decodeWith readUuid zeroUuid

def decodeUserCursor : CursorText → Option (Time × String) := decodeWith Json.readString ""

section RoundTrip

variable {α : Type} {readId : Json → Option α} {zeroId : α}

theorem field_once {β : Type} {read : Json → Option β} {zero : β} {name : String} {fields : List (String × Json)}
    {s : String} {v : β} (h : Json.valuesOf name fields = [.str s]) (hv : read (.str s) = some v) :
    Json.field read zero name fields = some v := by
  simp [Json.field, h, Json.decodeOnto, hv]

theorem decodeWith_encode {driver : Driver} (hdriver : driver.Exact) (t : Instant) {s : String} {id : α}
    (hid : readId (.str s) = some id) :
    ∃ t', decodeWith readId zeroId (encodeCursor (driver.present t) s) = some (t', id) ∧ driver.store t' = t := by
  obtain ⟨text, htext⟩ := hdriver.printed t
  have hnames : Json.foldName "created_at" ≠ Json.foldName "id" := by decide
  have hcreated : Json.valuesOf "created_at" [("created_at", .str text), ("id", .str s)] = [.str text] := by
    rw [Json.valuesOf_cons, Json.valuesOf_cons, if_pos rfl, if_neg hnames.symm, Json.valuesOf_nil]
  have hvalue : Json.valuesOf "id" [("created_at", .str text), ("id", .str s)] = [.str s] := by
    rw [Json.valuesOf_cons, Json.valuesOf_cons, if_pos rfl, if_neg hnames, Json.valuesOf_nil]
  refine ⟨(driver.present t).printed, ?_, hdriver.stored t⟩
  rw [encodeCursor, htext]
  simp only [decodeWith, Json.asStruct_obj, Option.bind_eq_bind, Option.bind_some,
    field_once hcreated (show readTime (.str text) = _ from parse_marshal htext), field_once hvalue hid]
  rfl

theorem encodeCursor_ne_empty {driver : Driver} (hdriver : driver.Exact) (t : Instant) (s : String) :
    encodeCursor (driver.present t) s ≠ .empty := by
  obtain ⟨text, htext⟩ := hdriver.printed t
  rw [encodeCursor, htext]
  exact fun h => (nomatch h)

theorem decode_encode {driver : Driver} (hdriver : driver.Exact) (t : Instant) (id : Uuid) :
    ∃ t', decodeCursor (encodeCursor (driver.present t) id.toText) = some (t', id) ∧ driver.store t' = t :=
  decodeWith_encode hdriver t id.parse_text

theorem decodeUser_encode {driver : Driver} (hdriver : driver.Exact) (t : Instant) (id : String) :
    ∃ t', decodeUserCursor (encodeCursor (driver.present t) id) = some (t', id) ∧ driver.store t' = t :=
  decodeWith_encode hdriver t rfl

/-- The sort key of a row read is that of the row. -/
theorem key_present {β : Type} {driver : Driver} (hdriver : driver.Exact) (t : Instant) (id : β) :
    toLex (driver.store (driver.present t), id) = toLex (t, id) := by
  rw [hdriver.taken]

end RoundTrip

end Chinwag.Pages

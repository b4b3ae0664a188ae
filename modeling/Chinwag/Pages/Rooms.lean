import Mathlib.Data.String.Basic
import Chinwag.Pages.Messages

/-!
# The listing of rooms, and all listings that filter on the way

`ListRooms` has one filter. It, `ListByRoomId` and `AdminListMessages` keep what a client that follows
their cursors expects.
-/
namespace Chinwag.Pages

open Sql Keyset

/-- A row of `rooms`. -/
structure StoredRoom where
  id : Uuid
  name : String
  description : Option String
  maxMembers : Int
  ownerId : Uuid
  popAt : Option Instant
  poppedAt : Option Instant
  createdAt : Instant
  updatedAt : Instant
  deletedAt : Option Instant

/-- `domain.Room`. -/
structure Room where
  id : Uuid
  name : String
  description : Option String
  maxMembers : Int
  ownerId : Uuid
  popAt : Option Rfc3339.Time
  poppedAt : Option Rfc3339.Time
  createdAt : Rfc3339.Time
  updatedAt : Rfc3339.Time
  deletedAt : Option Rfc3339.Time

def roomColumns : List String :=
  ["id", "name", "description", "max_members", "owner_id", "pop_at", "popped_at", "created_at", "updated_at", "deleted_at"]

def roomSchema : Schema StoredRoom where
  table := "rooms"
  columns := roomColumns
  value r
    | "id" => uuidValue r.id
    | "name" => .text ⟨r.name⟩
    | "description" => (r.description.map fun d => Value.text ⟨d⟩).getD .null
    | "max_members" => .int r.maxMembers
    | "owner_id" => uuidValue r.ownerId
    | "pop_at" => timeValue r.popAt
    | "popped_at" => timeValue r.poppedAt
    | "created_at" => .time r.createdAt
    | "updated_at" => .time r.updatedAt
    | "deleted_at" => timeValue r.deletedAt
    | _ => .null

def StoredRoom.key (r : StoredRoom) : Text := ⟨r.id.toText⟩

def scanRoom (driver : Driver) (r : StoredRoom) : Room where
  id := r.id
  name := r.name
  description := r.description
  maxMembers := r.maxMembers
  ownerId := r.ownerId
  popAt := r.popAt.map driver.present
  poppedAt := r.poppedAt.map driver.present
  createdAt := driver.present r.createdAt
  updatedAt := driver.present r.updatedAt
  deletedAt := r.deletedAt.map driver.present

def roomCursor (room : Room) : CursorText := encodeCursor room.createdAt room.id.toText

/-- The `(created_at, id)` of a room. -/
def roomKey (driver : Driver) (room : Room) : Instant ×ₗ Text := toLex (driver.store room.createdAt, ⟨room.id.toText⟩)

def roomSelect : String :=
  "SELECT id, name, description, max_members, owner_id, pop_at, popped_at, created_at, updated_at, deleted_at\n\t          FROM rooms WHERE "

/-- The filter of `ListRooms`. -/
def roomWhere (search : String) : Where :=
  let w : Where := ⟨["deleted_at IS NULL"], []⟩
  if search ≠ "" then w.add "name ILIKE ?" [pattern search] else w

def roomPageArgs (driver : Driver) (search : String) (limit : Nat) (cursor : Option (Rfc3339.Time × Uuid)) : List Value :=
  pageArgs driver (roomWhere search) (cursor.map fun c => (c.1, c.2.toText)) limit

/-- `ListRooms`. -/
def listRooms [LinearOrder Text] (like : Matching) (driver : Driver) (search : String) (limit : Int)
    (cursor : CursorText) (rows : List StoredRoom) : Except ListError (List Room × Option CursorText) :=
  let limit := pageLimit limit
  let text := pageText roomSelect (roomWhere search)
  byCursor decodeCursor
    (listing like roomSchema rows (text false) (roomPageArgs driver search limit none) limit (scanRoom driver) roomCursor)
    (fun createdAt id => listing like roomSchema rows (text true)
      (roomPageArgs driver search limit (some (createdAt, id))) limit (scanRoom driver) roomCursor)
    cursor

section Statements

set_option maxRecDepth 20000 in
theorem parse_rooms (search later : Bool) :
    parse (rebind (roomSelect.toList ++ joinAnd ((["deleted_at IS NULL"] ++ given search "name ILIKE ?").map String.toList) ++
      (if later then laterTail else firstTail).toList)) =
    some ⟨roomColumns, "rooms", [.isNull "deleted_at"] ++ given search (.ilike "name" 1) ++
      given later (.before "created_at" "id" (search.toNat + 1) (search.toNat + 2)), "created_at", "id",
      search.toNat + 2 * later.toNat + 1⟩ := by
  obtain ⟨s, d, n, f, l, hs, hd, hn, hf, hl, h⟩ : ∃ s d n f l, roomSelect = String.ofList s ∧
      "deleted_at IS NULL" = String.ofList d ∧ "name ILIKE ?" = String.ofList n ∧ firstTail = String.ofList f ∧
      laterTail = String.ofList l ∧ ∀ search later : Bool,
        parse (rebind (s ++ joinAnd ([d] ++ given search n) ++ (if later then l else f))) =
        some ⟨roomColumns, "rooms", [.isNull "deleted_at"] ++ given search (.ilike "name" 1) ++
          given later (.before "created_at" "id" (search.toNat + 1) (search.toNat + 2)), "created_at", "id",
          search.toNat + 2 * later.toNat + 1⟩ :=
    ⟨_, _, _, _, _, rfl, rfl, rfl, rfl, rfl, by decide +kernel⟩
  rw [← h search later, hs, hd, hn, hf, hl]
  cases search <;> cases later <;> simp [given]

/-- A room that passes the filter. -/
def passesRooms (like : Matching) (search : String) (r : StoredRoom) : Bool :=
  r.deletedAt = none && (search = "" || like ⟨r.name⟩ ⟨"%" ++ search ++ "%"⟩)

def roomsConds (search : String) : List (Cond Value) :=
  .isNull "deleted_at" :: given (search ≠ "") (.ilike "name" (pattern search))

theorem text_roomWhere (search : String) :
    (roomWhere search).conds = ["deleted_at IS NULL"] ++ given (search ≠ "") "name ILIKE ?" := by
  by_cases hs : search = "" <;> simp [roomWhere, Where.add, given, hs]

theorem builds_rooms (driver : Driver) (search : String) (limit : Nat) :
    Builds driver roomSchema roomColumns (roomsConds search) limit Uuid.toText (pageText roomSelect (roomWhere search))
      (roomPageArgs driver search limit) where
  first := by
    rw [prepare, pageText, Where.text, text_roomWhere, parse_rooms]
    by_cases hs : search = "" <;> simp [hs, given, roomPageArgs, pageArgs, roomWhere, Where.add, roomsConds] <;> rfl
  later createdAt id := by
    rw [prepare, pageText, Where.text, text_roomWhere, parse_rooms]
    by_cases hs : search = "" <;> simp [hs, given, roomPageArgs, pageArgs, roomWhere, Where.add, roomsConds] <;> rfl

theorem known_rooms (search : String) : Known roomSchema roomColumns (roomsConds search) := by
  have hall : ∀ name ∈ roomColumns.filter (· ≠ "*") ++ ["deleted_at", "name"] ++ ["created_at", "id"],
      name ∈ roomSchema.columns := by decide
  intro name hname
  refine hall name ?_
  by_cases hs : search = "" <;> simp [roomsConds, given, hs, Cond.names] at hname ⊢ <;> tauto

end Statements

section Walks

variable {driver : Driver}

theorem keyed_room (hdriver : driver.Exact) :
    Keyed roomSchema (scanRoom driver) (roomKey driver) StoredRoom.createdAt StoredRoom.key where
  createdAt _ := rfl
  rowId _ := rfl
  keyed r := key_present hdriver r.createdAt _

theorem cursor_room (hdriver : driver.Exact) (r : StoredRoom) :
    roomCursor (scanRoom driver r) ≠ .empty ∧ ∃ createdAt id,
      decodeCursor (roomCursor (scanRoom driver r)) = some (createdAt, id) ∧ driver.store createdAt = r.createdAt ∧
        ⟨id.toText⟩ = r.key := by
  obtain ⟨t', hdecode, hstore⟩ := decode_encode hdriver r.createdAt r.id
  exact ⟨encodeCursor_ne_empty hdriver r.createdAt r.id.toText, t', r.id, hdecode, hstore, rfl⟩

variable [LinearOrder Text]

theorem selected_rooms (like : Matching) (search : String) (rows : List StoredRoom) :
    selected like roomSchema (roomsConds search) rows = rows.filter (passesRooms like search) := by
  refine List.filter_congr fun r _ => ?_
  have hlive : Cond.holds like (roomSchema.value r) (.isNull "deleted_at") = decide (r.deletedAt = none) := by
    show decide (timeValue r.deletedAt = .null) = _
    simp only [timeValue_eq_null]
  have hsearch : (given (decide (search ≠ "")) (Cond.ilike "name" (pattern search))).all
      (Cond.holds like (roomSchema.value r)) = (decide (search = "") || like ⟨r.name⟩ ⟨"%" ++ search ++ "%"⟩) := by
    by_cases hs : search = ""
    · simp [given, hs]
    · simp [given, hs, Cond.holds, roomSchema, pattern]
  simp only [roomsConds, List.all_cons, hlive, hsearch, passesRooms]

theorem losesNothing_rooms (hdriver : driver.Exact) (like : Matching) (search : String) (limit : Int) :
    LosesNothing (fun c (t : Rows StoredRoom.key) => listRooms like driver search limit c t.rows)
      (fun t => (t.rows.filter (passesRooms like search)).map (scanRoom driver)) (roomKey driver) := by
  have h := (builds_rooms driver search (pageLimit limit)).losesNothing like
    (listRooms like driver search limit) (keyed_room hdriver) (pageLimit_pos limit) (known_rooms search)
    (fun _ _ => rfl) (cursor_room hdriver)
  simpa only [selected_rooms] using h

/-- Whoever follows the cursors loses nothing, every placeholder is bound to its argument, and a cursor
gives back the instant and the id it was made of. -/
theorem keyset_pages (hdriver : driver.Exact) (like : Matching) :
    ((∀ roomId limit, LosesNothing (fun c (t : Rows StoredMessage.key) => listByRoomId like driver roomId limit c t.rows)
        (fun t => (t.rows.filter (inRoom roomId)).map (scanMessage driver)) (messageKey driver)) ∧
      (∀ roomID authorID search limit,
        LosesNothing (fun c (t : Rows StoredMessage.key) => adminListMessages like driver roomID authorID search limit c t.rows)
          (fun t => (t.rows.filter (passesAdmin like roomID authorID search)).map (scanMessage driver)) (messageKey driver)) ∧
      ∀ search limit, LosesNothing (fun c (t : Rows StoredRoom.key) => listRooms like driver search limit c t.rows)
        (fun t => (t.rows.filter (passesRooms like search)).map (scanRoom driver)) (roomKey driver)) ∧
    ((∀ roomId limit, Builds driver messageSchema messageColumns (roomConds roomId) limit Uuid.toText
        (fun later => (if later then roomLaterText else roomFirstText).toList) (roomArgs driver roomId limit)) ∧
      (∀ roomID authorID search limit, Builds driver messageSchema messageColumns (adminConds roomID authorID search) limit
        Uuid.toText (pageText adminSelect (adminWhere roomID authorID search)) (adminArgs driver roomID authorID search limit)) ∧
      ∀ search limit, Builds driver roomSchema roomColumns (roomsConds search) limit Uuid.toText
        (pageText roomSelect (roomWhere search)) (roomPageArgs driver search limit)) ∧
    ∀ t (id : Uuid), ∃ t', decodeCursor (encodeCursor (driver.present t) id.toText) = some (t', id) ∧ driver.store t' = t :=
  ⟨⟨losesNothing_room hdriver like, losesNothing_admin hdriver like, losesNothing_rooms hdriver like⟩,
    ⟨builds_room driver, builds_admin driver, builds_rooms driver⟩, decode_encode hdriver⟩

end Walks

/-- Texts ordered by code points, as in the collation `C`. -/
abbrev byCodePoint : LinearOrder Text := LinearOrder.lift' Text.chars fun ⟨_⟩ ⟨_⟩ h => congrArg Text.mk h

theorem keyset_pages_utc :
    @LosesNothing _ _ byCodePoint
      (fun c (t : Rows StoredRoom.key) => @listRooms byCodePoint (fun _ _ => true) utcDriver "den" 1 c t.rows)
      (fun t => (t.rows.filter (passesRooms (fun _ _ => true) "den")).map (scanRoom utcDriver)) (roomKey utcDriver) :=
  (@keyset_pages utcDriver byCodePoint exact_utcDriver fun _ _ => true).1.2.2 "den" 1

end Chinwag.Pages

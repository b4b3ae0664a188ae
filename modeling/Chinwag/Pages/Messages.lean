import Mathlib.Data.Fintype.Basic
import Chinwag.Chat.Projection
import Chinwag.Pages.Listing

/-!
# The listings of messages

`ListByRoomId` has one fixed text for the first page and one for the others, `AdminListMessages` puts
its text together from the filters that are given.
-/
namespace Chinwag.Pages

open Sql Keyset Chat

/-- A row of `message_projections`. -/
structure StoredMessage where
  id : Uuid
  roomId : Uuid
  authorId : Uuid
  authorName : String
  messageType : Int
  content : String
  createdAt : Instant
  updatedAt : Option Instant
  deletedAt : Option Instant

def uuidValue (id : Uuid) : Value := .text ⟨id.toText⟩

def timeValue (t : Option Instant) : Value := (t.map Value.time).getD .null

def messageColumns : List String :=
  ["id", "room_id", "author_id", "author_name", "message_type", "content", "created_at", "updated_at", "deleted_at"]

def messageSchema : Schema StoredMessage where
  table := "message_projections"
  columns := messageColumns
  value r
    | "id" => uuidValue r.id
    | "room_id" => uuidValue r.roomId
    | "author_id" => uuidValue r.authorId
    | "author_name" => .text ⟨r.authorName⟩
    | "message_type" => .int r.messageType
    | "content" => .text ⟨r.content⟩
    | "created_at" => .time r.createdAt
    | "updated_at" => timeValue r.updatedAt
    | "deleted_at" => timeValue r.deletedAt
    | _ => .null

def StoredMessage.key (r : StoredMessage) : Text := ⟨r.id.toText⟩

/-- The row as `domain.MessageProjection`. -/
def scanMessage (driver : Driver) (r : StoredMessage) : MessageProjection where
  id := r.id
  roomId := r.roomId
  authorId := r.authorId
  authorName := r.authorName
  messageType := r.messageType
  content := r.content
  createdAt := driver.present r.createdAt
  updatedAt := r.updatedAt.map driver.present
  deletedAt := r.deletedAt.map driver.present

def messageCursor (m : MessageProjection) : CursorText := encodeCursor m.createdAt m.id.toText

/-- The `(created_at, id)` of a message. -/
def messageKey (driver : Driver) (m : MessageProjection) : Instant ×ₗ Text := toLex (driver.store m.createdAt, ⟨m.id.toText⟩)

section Queries

variable [LinearOrder Text] (like : Matching) (driver : Driver)

def roomFirstText : String :=
  "SELECT id, room_id, author_id, author_name, message_type, content, created_at, updated_at, deleted_at\n\t\t\t FROM message_projections\n\t\t\t WHERE room_id = $1 AND deleted_at IS NULL\n\t\t\t ORDER BY created_at DESC, id DESC\n\t\t\t LIMIT $2"

def roomLaterText : String :=
  "SELECT id, room_id, author_id, author_name, message_type, content, created_at, updated_at, deleted_at\n\t\t\t FROM message_projections\n\t\t\t WHERE room_id = $1 AND deleted_at IS NULL\n\t\t\t   AND (created_at, id) < ($2, $3)\n\t\t\t ORDER BY created_at DESC, id DESC\n\t\t\t LIMIT $4"

def roomArgs (roomId : Uuid) (limit : Nat) : Option (Rfc3339.Time × Uuid) → List Value
  | none => [uuidValue roomId, .int (limit + 1)]
  | some (createdAt, id) => [uuidValue roomId, .time (driver.store createdAt), uuidValue id, .int (limit + 1)]

/-- `ListByRoomId`. -/
def listByRoomId (roomId : Uuid) (limit : Int) (cursorStr : CursorText) (rows : List StoredMessage) :
    Except ListError (List MessageProjection × Option CursorText) :=
  let limit := pageLimit limit
  byCursor decodeCursor
    (listing like messageSchema rows roomFirstText.toList (roomArgs driver roomId limit none) limit (scanMessage driver)
      messageCursor)
    (fun createdAt id => listing like messageSchema rows roomLaterText.toList
      (roomArgs driver roomId limit (some (createdAt, id))) limit (scanMessage driver) messageCursor)
    cursorStr

def adminSelect : String :=
  "SELECT id, room_id, author_id, author_name, message_type, content, created_at, updated_at, deleted_at\n\t          FROM message_projections WHERE "

/-- The filters of `AdminListMessages`. -/
def adminWhere (roomID authorID : Option Uuid) (search : String) : Where :=
  let w : Where := ⟨["deleted_at IS NULL"], []⟩
  let w := match roomID with
    | some id => w.add "room_id = ?" [uuidValue id]
    | none => w
  let w := match authorID with
    | some id => w.add "author_id = ?" [uuidValue id]
    | none => w
  if search ≠ "" then w.add "content ILIKE ?" [pattern search] else w

def adminArgs (roomID authorID : Option Uuid) (search : String) (limit : Nat) (cursor : Option (Rfc3339.Time × Uuid)) :
    List Value :=
  pageArgs driver (adminWhere roomID authorID search) (cursor.map fun c => (c.1, c.2.toText)) limit

/-- `AdminListMessages`. -/
def adminListMessages (roomID authorID : Option Uuid) (search : String) (limit : Int) (cursorStr : CursorText)
    (rows : List StoredMessage) : Except ListError (List MessageProjection × Option CursorText) :=
  let limit := pageLimit limit
  let text := pageText adminSelect (adminWhere roomID authorID search)
  byCursor decodeCursor
    (listing like messageSchema rows (text false) (adminArgs driver roomID authorID search limit none) limit
      (scanMessage driver) messageCursor)
    (fun createdAt id => listing like messageSchema rows (text true)
      (adminArgs driver roomID authorID search limit (some (createdAt, id))) limit (scanMessage driver) messageCursor)
    cursorStr

end Queries

section Statements

set_option maxRecDepth 20000 in
theorem parse_roomFirst : parse roomFirstText.toList =
    some ⟨messageColumns, "message_projections", [.equal "room_id" 1, .isNull "deleted_at"], "created_at", "id", 2⟩ :=
  parse_literal ⟨_, rfl, by decide +kernel⟩

set_option maxRecDepth 20000 in
theorem parse_roomLater : parse roomLaterText.toList =
    some ⟨messageColumns, "message_projections", [.equal "room_id" 1, .isNull "deleted_at", .before "created_at" "id" 2 3],
      "created_at", "id", 4⟩ :=
  parse_literal ⟨_, rfl, by decide +kernel⟩

set_option maxRecDepth 20000 in
/-- The placeholders are numbered in the order of the conditions. -/
theorem parse_admin (room author search later : Bool) :
    parse (rebind (adminSelect.toList ++ joinAnd ((["deleted_at IS NULL"] ++ given room "room_id = ?" ++
      given author "author_id = ?" ++ given search "content ILIKE ?").map String.toList) ++
      (if later then laterTail else firstTail).toList)) =
    some ⟨messageColumns, "message_projections", [.isNull "deleted_at"] ++ given room (.equal "room_id" 1) ++
      given author (.equal "author_id" (room.toNat + 1)) ++ given search (.ilike "content" (room.toNat + author.toNat + 1)) ++
      given later (.before "created_at" "id" (room.toNat + author.toNat + search.toNat + 1)
        (room.toNat + author.toNat + search.toNat + 2)), "created_at", "id",
      room.toNat + author.toNat + search.toNat + 2 * later.toNat + 1⟩ := by
  obtain ⟨s, d, r, a, c, f, l, hs, hd, hr, ha, hc, hf, hl, h⟩ : ∃ s d r a c f l, adminSelect = String.ofList s ∧
      "deleted_at IS NULL" = String.ofList d ∧ "room_id = ?" = String.ofList r ∧ "author_id = ?" = String.ofList a ∧
      "content ILIKE ?" = String.ofList c ∧ firstTail = String.ofList f ∧ laterTail = String.ofList l ∧
      ∀ room author search later : Bool,
        parse (rebind (s ++ joinAnd ([d] ++ given room r ++ given author a ++ given search c) ++ (if later then l else f))) =
        some ⟨messageColumns, "message_projections", [.isNull "deleted_at"] ++ given room (.equal "room_id" 1) ++
          given author (.equal "author_id" (room.toNat + 1)) ++
          given search (.ilike "content" (room.toNat + author.toNat + 1)) ++
          given later (.before "created_at" "id" (room.toNat + author.toNat + search.toNat + 1)
            (room.toNat + author.toNat + search.toNat + 2)), "created_at", "id",
          room.toNat + author.toNat + search.toNat + 2 * later.toNat + 1⟩ :=
    ⟨_, _, _, _, _, _, _, rfl, rfl, rfl, rfl, rfl, rfl, rfl, by decide +kernel⟩
  rw [← h room author search later, hs, hd, hr, ha, hc, hf, hl]
  cases room <;> cases author <;> cases search <;> cases later <;> simp [given]

/-- A message of the room that is not deleted. -/
def inRoom (roomId : Uuid) (r : StoredMessage) : Bool := r.roomId = roomId && r.deletedAt = none

def roomConds (roomId : Uuid) : List (Cond Value) := [.equal "room_id" (uuidValue roomId), .isNull "deleted_at"]

/-- A message that passes the filters given. -/
def passesAdmin (like : Matching) (roomID authorID : Option Uuid) (search : String) (r : StoredMessage) : Bool :=
  r.deletedAt = none && roomID.all (r.roomId = ·) && authorID.all (r.authorId = ·) &&
    (search = "" || like ⟨r.content⟩ ⟨"%" ++ search ++ "%"⟩)

def adminConds (roomID authorID : Option Uuid) (search : String) : List (Cond Value) :=
  .isNull "deleted_at" :: (roomID.map fun id => .equal "room_id" (uuidValue id)).toList ++
    (authorID.map fun id => .equal "author_id" (uuidValue id)).toList ++ given (search ≠ "") (.ilike "content" (pattern search))

theorem builds_room (driver : Driver) (roomId : Uuid) (limit : Nat) :
    Builds driver messageSchema messageColumns (roomConds roomId) limit Uuid.toText
      (fun later => (if later then roomLaterText else roomFirstText).toList) (roomArgs driver roomId limit) where
  first := by
    show prepare roomFirstText.toList _ = _
    rw [prepare, parse_roomFirst]
    rfl
  later createdAt id := by
    show prepare roomLaterText.toList _ = _
    rw [prepare, parse_roomLater]
    rfl

theorem text_adminWhere (roomID authorID : Option Uuid) (search : String) :
    (adminWhere roomID authorID search).conds = ["deleted_at IS NULL"] ++ given roomID.isSome "room_id = ?" ++
      given authorID.isSome "author_id = ?" ++ given (search ≠ "") "content ILIKE ?" := by
  cases roomID <;> cases authorID <;> by_cases hs : search = "" <;> simp [adminWhere, Where.add, given, hs]

theorem builds_admin (driver : Driver) (roomID authorID : Option Uuid) (search : String) (limit : Nat) :
    Builds driver messageSchema messageColumns (adminConds roomID authorID search) limit Uuid.toText
      (pageText adminSelect (adminWhere roomID authorID search)) (adminArgs driver roomID authorID search limit) where
  first := by
    rw [prepare, pageText, Where.text, text_adminWhere, parse_admin]
    cases roomID <;> cases authorID <;> by_cases hs : search = "" <;>
      simp [hs, given, adminArgs, pageArgs, adminWhere, Where.add, adminConds] <;> rfl
  later createdAt id := by
    rw [prepare, pageText, Where.text, text_adminWhere, parse_admin]
    cases roomID <;> cases authorID <;> by_cases hs : search = "" <;>
      simp [hs, given, adminArgs, pageArgs, adminWhere, Where.add, adminConds] <;> rfl

end Statements

section Walks

variable {driver : Driver}

theorem keyed_message (hdriver : driver.Exact) : Keyed messageSchema (scanMessage driver) (messageKey driver)
    StoredMessage.createdAt StoredMessage.key where
  createdAt _ := rfl
  rowId _ := rfl
  keyed r := key_present hdriver r.createdAt _

theorem cursor_message (hdriver : driver.Exact) (r : StoredMessage) :
    messageCursor (scanMessage driver r) ≠ .empty ∧ ∃ createdAt id,
      decodeCursor (messageCursor (scanMessage driver r)) = some (createdAt, id) ∧ driver.store createdAt = r.createdAt ∧
        ⟨id.toText⟩ = r.key := by
  obtain ⟨t', hdecode, hstore⟩ := decode_encode hdriver r.createdAt r.id
  exact ⟨encodeCursor_ne_empty hdriver r.createdAt r.id.toText, t', r.id, hdecode, hstore, rfl⟩

theorem uuidValue_inj {a b : Uuid} : uuidValue a = uuidValue b ↔ a = b := by
  simp [uuidValue, Uuid.toText]

theorem timeValue_eq_null {t : Option Instant} : timeValue t = .null ↔ t = none := by
  cases t <;> simp [timeValue]

theorem known_room (roomId : Uuid) : Known messageSchema messageColumns (roomConds roomId) := by
  show ∀ name ∈ ["id", "room_id", "author_id", "author_name", "message_type", "content", "created_at", "updated_at",
    "deleted_at", "room_id", "deleted_at", "created_at", "id"], name ∈ messageColumns
  decide

theorem known_admin (roomID authorID : Option Uuid) (search : String) :
    Known messageSchema messageColumns (adminConds roomID authorID search) := by
  have hall : ∀ name ∈ messageColumns.filter (· ≠ "*") ++ ["deleted_at", "room_id", "author_id", "content"] ++
      ["created_at", "id"], name ∈ messageSchema.columns := by decide
  intro name hname
  refine hall name ?_
  cases roomID <;> cases authorID <;> by_cases hs : search = "" <;>
    simp [adminConds, given, hs, Cond.names] at hname ⊢ <;> tauto

variable [LinearOrder Text]

theorem holds_uuid (like : Matching) {value : String → Value} {col : String} {v : Uuid} (h : value col = uuidValue v)
    (id : Uuid) : Cond.holds like value (.equal col (uuidValue id)) = decide (v = id) := by
  simp only [Cond.holds, h, uuidValue_inj]
  simp [uuidValue]

theorem holds_live {like : Matching} (r : StoredMessage) :
    Cond.holds like (messageSchema.value r) (.isNull "deleted_at") = decide (r.deletedAt = none) := by
  show decide (timeValue r.deletedAt = .null) = _
  simp only [timeValue_eq_null]

theorem selected_room (like : Matching) (roomId : Uuid) (rows : List StoredMessage) :
    selected like messageSchema (roomConds roomId) rows = rows.filter (inRoom roomId) := by
  refine List.filter_congr fun r _ => ?_
  have hroom := holds_uuid like (show messageSchema.value r "room_id" = uuidValue r.roomId from rfl) roomId
  simp only [roomConds, List.all_cons, List.all_nil, Bool.and_true, hroom, holds_live, inRoom]

theorem selected_admin (like : Matching) (roomID authorID : Option Uuid) (search : String) (rows : List StoredMessage) :
    selected like messageSchema (adminConds roomID authorID search) rows =
      rows.filter (passesAdmin like roomID authorID search) := by
  refine List.filter_congr fun r _ => ?_
  have hroom := holds_uuid like (show messageSchema.value r "room_id" = uuidValue r.roomId from rfl)
  have hauthor := holds_uuid like (show messageSchema.value r "author_id" = uuidValue r.authorId from rfl)
  have hsearch : (given (decide (search ≠ "")) (Cond.ilike "content" (pattern search))).all
      (Cond.holds like (messageSchema.value r)) = (decide (search = "") || like ⟨r.content⟩ ⟨"%" ++ search ++ "%"⟩) := by
    by_cases hs : search = ""
    · simp [given, hs]
    · simp [given, hs, Cond.holds, messageSchema, pattern]
  simp only [adminConds, List.all_append, List.all_cons, holds_live, hsearch, passesAdmin]
  cases roomID <;> cases authorID <;> simp [hroom, hauthor, Bool.and_assoc]

theorem losesNothing_room (hdriver : driver.Exact) (like : Matching) (roomId : Uuid) (limit : Int) :
    LosesNothing (fun c (t : Rows StoredMessage.key) => listByRoomId like driver roomId limit c t.rows)
      (fun t => (t.rows.filter (inRoom roomId)).map (scanMessage driver)) (messageKey driver) := by
  have h := (builds_room driver roomId (pageLimit limit)).losesNothing like (listByRoomId like driver roomId limit)
    (keyed_message hdriver) (pageLimit_pos limit) (known_room roomId) (fun _ _ => rfl) (cursor_message hdriver)
  simpa only [selected_room] using h

theorem losesNothing_admin (hdriver : driver.Exact) (like : Matching) (roomID authorID : Option Uuid) (search : String)
    (limit : Int) :
    LosesNothing (fun c (t : Rows StoredMessage.key) => adminListMessages like driver roomID authorID search limit c t.rows)
      (fun t => (t.rows.filter (passesAdmin like roomID authorID search)).map (scanMessage driver)) (messageKey driver) := by
  have h := (builds_admin driver roomID authorID search (pageLimit limit)).losesNothing like
    (adminListMessages like driver roomID authorID search limit) (keyed_message hdriver) (pageLimit_pos limit)
    (known_admin roomID authorID search) (fun _ _ => rfl) (cursor_message hdriver)
  simpa only [selected_admin] using h

end Walks

end Chinwag.Pages

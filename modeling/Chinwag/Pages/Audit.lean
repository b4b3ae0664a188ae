import Chinwag.Pages.Users

/-!
# The listing of the audit log

`List` writes a dollar before each placeholder of the cursor and of the limit, and `rebind` writes
another one. What is sent begins a quotation that is never ended.
-/
namespace Chinwag.Pages

open Sql Keyset

/-- A row of `admin_audit_log`. -/
structure StoredAudit where
  id : Uuid
  adminId : String
  action : String
  targetType : String
  targetId : String
  metadata : String
  createdAt : Instant

/-- `domain.AuditEvent`. -/
structure AuditEvent where
  id : String
  adminId : String
  action : String
  targetType : String
  targetId : String
  metadata : String
  createdAt : Rfc3339.Time

def auditSchema : Schema StoredAudit where
  table := "admin_audit_log"
  columns := ["id", "admin_id", "action", "target_type", "target_id", "metadata", "created_at"]
  value r
    | "id" => uuidValue r.id
    | "admin_id" => .text ⟨r.adminId⟩
    | "action" => .text ⟨r.action⟩
    | "target_type" => .text ⟨r.targetType⟩
    | "target_id" => .text ⟨r.targetId⟩
    | "metadata" => .text ⟨r.metadata⟩
    | "created_at" => .time r.createdAt
    | _ => .null

def StoredAudit.key (r : StoredAudit) : Text := ⟨r.id.toText⟩

def scanAudit (driver : Driver) (r : StoredAudit) : AuditEvent where
  id := r.id.toText
  adminId := r.adminId
  action := r.action
  targetType := r.targetType
  targetId := r.targetId
  metadata := r.metadata
  createdAt := driver.present r.createdAt

def auditCursor (ev : AuditEvent) : CursorText := encodeCursor ev.createdAt ev.id

/-- The `(created_at, id)` of an entry. -/
def auditKey (driver : Driver) (ev : AuditEvent) : Instant ×ₗ Text := toLex (driver.store ev.createdAt, ⟨ev.id⟩)

def auditSelect : String :=
  "SELECT id, admin_id, action, target_type, target_id, metadata, created_at\n\t          FROM admin_audit_log\n\t          WHERE "

/-- The filters of `List`. -/
def auditWhere (adminID action targetType : String) : Where :=
  let w : Where := ⟨["1=1"], []⟩
  let w := if adminID ≠ "" then w.add "admin_id = ?" [.text ⟨adminID⟩] else w
  let w := if action ≠ "" then w.add "action = ?" [.text ⟨action⟩] else w
  if targetType ≠ "" then w.add "target_type = ?" [.text ⟨targetType⟩] else w

def auditFirstTail : String := " ORDER BY created_at DESC, id DESC LIMIT $?"

def auditLaterTail : String :=
  " AND (created_at, id) < ($?, $?)\n\t\t          ORDER BY created_at DESC, id DESC LIMIT $?"

def auditText (w : Where) (later : Bool) : List Char :=
  rebind (auditSelect.toList ++ w.text ++ (if later then auditLaterTail else auditFirstTail).toList)

def auditArgs (driver : Driver) (adminID action targetType : String) (limit : Nat) (cursor : Option (Rfc3339.Time × String)) :
    List Value :=
  pageArgs driver (auditWhere adminID action targetType) cursor limit

/-- `AuditRepo.List`. -/
def listAudit [LinearOrder Text] (like : Matching) (driver : Driver) (adminID action targetType : String) (limit : Int)
    (cursor : CursorText) (rows : List StoredAudit) : Except ListError (List AuditEvent × Option CursorText) :=
  let limit := pageLimit limit
  let text := auditText (auditWhere adminID action targetType)
  byCursor decodeUserCursor
    (listing like auditSchema rows (text false) (auditArgs driver adminID action targetType limit none) limit
      (scanAudit driver) auditCursor)
    (fun createdAt id => listing like auditSchema rows (text true)
      (auditArgs driver adminID action targetType limit (some (createdAt, id))) limit (scanAudit driver) auditCursor)
    cursor

section Statements

set_option maxRecDepth 20000 in
theorem parse_audit (admin action target later : Bool) :
    parse (rebind (auditSelect.toList ++ joinAnd ((["1=1"] ++ given admin "admin_id = ?" ++ given action "action = ?" ++
      given target "target_type = ?").map String.toList) ++ (if later then auditLaterTail else auditFirstTail).toList)) =
    none := by
  obtain ⟨s, o, a, c, t, f, l, hs, ho, ha, hc, ht, hf, hl, h⟩ : ∃ s o a c t f l, auditSelect = String.ofList s ∧
      "1=1" = String.ofList o ∧ "admin_id = ?" = String.ofList a ∧ "action = ?" = String.ofList c ∧
      "target_type = ?" = String.ofList t ∧ auditFirstTail = String.ofList f ∧ auditLaterTail = String.ofList l ∧
      ∀ admin action target later : Bool, scan .code (rebind (s ++ joinAnd ([o] ++ given admin a ++ given action c ++
        given target t) ++ (if later then l else f))) = none :=
    ⟨_, _, _, _, _, _, _, rfl, rfl, rfl, rfl, rfl, rfl, rfl, by decide +kernel⟩
  rw [hs, ho, ha, hc, ht, hf, hl]
  refine parse_of_scan ((congrArg (scan .code) ?_).trans (h admin action target later))
  cases admin <;> cases action <;> cases target <;> cases later <;> simp [given]

theorem text_auditWhere (adminID action targetType : String) : (auditWhere adminID action targetType).conds = ["1=1"] ++
    given (adminID ≠ "") "admin_id = ?" ++ given (action ≠ "") "action = ?" ++
      given (targetType ≠ "") "target_type = ?" := by
  by_cases ha : adminID = "" <;> by_cases hc : action = "" <;> by_cases ht : targetType = "" <;>
    simp [auditWhere, Where.add, given, ha, hc, ht]

theorem parse_auditText (adminID action targetType : String) (later : Bool) :
    parse (auditText (auditWhere adminID action targetType) later) = none := by
  rw [auditText, Where.text, text_auditWhere, parse_audit]

end Statements

section Walks

variable [LinearOrder Text]

theorem listAudit_first (like : Matching) (driver : Driver) (adminID action targetType : String) (limit : Int)
    (rows : List StoredAudit) :
    listAudit like driver adminID action targetType limit .empty rows = .error (.database .malformed) := by
  simp only [listAudit, byCursor, listing, query, prepare, parse_auditText]

/-- What the conditions say of an entry. -/
def passesAudit (adminID action targetType : String) (r : StoredAudit) : Bool :=
  (adminID = "" || r.adminId = adminID) && (action = "" || r.action = action) &&
    (targetType = "" || r.targetType = targetType)

theorem not_walked (like : Matching) (driver : Driver) (adminID action targetType : String) (limit : Int)
    (t : Rows StoredAudit.key) :
    ¬ WalksAll (fun c (t : Rows StoredAudit.key) => listAudit like driver adminID action targetType limit c t.rows)
      (fun t => (t.rows.filter (passesAudit adminID action targetType)).map (scanAudit driver)) (auditKey driver) t := by
  have herror := listAudit_first like driver adminID action targetType limit t.rows
  exact not_walksAll (fun c (t : Rows StoredAudit.key) => listAudit like driver adminID action targetType limit c t.rows)
    herror

/-- No query is well formed, and no walk gets as far as its first page. -/
theorem audit_never_walks (like : Matching) (driver : Driver) (adminID action targetType : String) (limit : Int)
    (t : Rows StoredAudit.key) :
    (∀ later, parse (auditText (auditWhere adminID action targetType) later) = none) ∧
      ¬ WalksAll (fun c (t : Rows StoredAudit.key) => listAudit like driver adminID action targetType limit c t.rows)
        (fun t => (t.rows.filter (passesAudit adminID action targetType)).map (scanAudit driver)) (auditKey driver) t :=
  ⟨parse_auditText adminID action targetType, not_walked like driver adminID action targetType limit t⟩

end Walks

/-- An empty log cannot be listed either. -/
theorem empty_audit_fails : ¬ @WalksAll byCodePoint _ _
    (fun c (t : Rows StoredAudit.key) => @listAudit byCodePoint (fun _ _ => true) utcDriver "" "" "" 50 c t.rows)
    (fun t => (t.rows.filter (passesAudit "" "" "")).map (scanAudit utcDriver)) (auditKey utcDriver) ⟨[], List.nodup_nil⟩ :=
  @not_walked byCodePoint (fun _ _ => true) utcDriver "" "" "" 50 ⟨[], List.nodup_nil⟩

end Chinwag.Pages

import Chinwag.Pages.Rooms

/-!
# The listing of users

`ListUsers` numbers the placeholders of its conditions, and then those of the whole query, in which only
the cursor and the limit are left to be numbered. They begin with `$1` again.
-/
namespace Chinwag.Pages

open Sql Keyset

/-- A row of `users`; no statement leaves its times out. -/
structure StoredUser where
  id : String
  name : String
  email : String
  password : String
  role : String
  provider : String
  providerId : Option String
  createdAt : Instant
  updatedAt : Instant
  deletedAt : Option Instant

/-- `domain.User`. -/
structure User where
  id : String
  name : String
  email : String
  password : String
  role : String
  provider : String
  providerId : Option String
  createdAt : Rfc3339.Time
  updatedAt : Rfc3339.Time
  deletedAt : Option Rfc3339.Time

def userSchema : Schema StoredUser where
  table := "users"
  columns := ["id", "name", "email", "created_at", "deleted_at", "password", "updated_at", "role", "provider", "provider_id"]
  value r
    | "id" => .text ⟨r.id⟩
    | "name" => .text ⟨r.name⟩
    | "email" => .text ⟨r.email⟩
    | "created_at" => .time r.createdAt
    | "deleted_at" => timeValue r.deletedAt
    | "password" => .text ⟨r.password⟩
    | "updated_at" => .time r.updatedAt
    | "role" => .text ⟨r.role⟩
    | "provider" => .text ⟨r.provider⟩
    | "provider_id" => (r.providerId.map fun p => Value.text ⟨p⟩).getD .null
    | _ => .null

def StoredUser.key (r : StoredUser) : Text := ⟨r.id⟩

def scanUser (driver : Driver) (r : StoredUser) : User where
  id := r.id
  name := r.name
  email := r.email
  password := r.password
  role := r.role
  provider := r.provider
  providerId := r.providerId
  createdAt := driver.present r.createdAt
  updatedAt := driver.present r.updatedAt
  deletedAt := r.deletedAt.map driver.present

def userCursor (user : User) : CursorText := encodeCursor user.createdAt user.id

/-- The `(created_at, id)` of a user. -/
def userKey (driver : Driver) (user : User) : Instant ×ₗ Text := toLex (driver.store user.createdAt, ⟨user.id⟩)

def userSelect : String := "SELECT * FROM users WHERE "

/-- The filters of `ListUsers`. -/
def userWhere (role deleted search : String) : Where :=
  let w : Where := ⟨["1=1"], []⟩
  let w := match deleted with
    | "only" => w.add "deleted_at IS NOT NULL" []
    | "include" => w
    | _ => w.add "deleted_at IS NULL" []
  let w := if role ≠ "" then w.add "role = ?" [.text ⟨role⟩] else w
  if search ≠ "" then w.add "(name ILIKE ? OR email ILIKE ?)" [pattern search, pattern search] else w

/-- The conditions are numbered before the rest is added, and the whole is numbered again. -/
def userText (w : Where) (later : Bool) : List Char :=
  rebind (userSelect.toList ++ rebind w.text ++ (if later then laterTail else firstTail).toList)

def userArgs (driver : Driver) (role deleted search : String) (limit : Nat) (cursor : Option (Rfc3339.Time × String)) :
    List Value :=
  pageArgs driver (userWhere role deleted search) cursor limit

/-- `ListUsers`. -/
def listUsers [LinearOrder Text] (like : Matching) (driver : Driver) (role deleted search : String) (limit : Int)
    (cursor : CursorText) (rows : List StoredUser) : Except ListError (List User × Option CursorText) :=
  let limit := pageLimit limit
  let text := userText (userWhere role deleted search)
  byCursor decodeUserCursor
    (listing like userSchema rows (text false) (userArgs driver role deleted search limit none) limit (scanUser driver)
      userCursor)
    (fun createdAt id => listing like userSchema rows (text true)
      (userArgs driver role deleted search limit (some (createdAt, id))) limit (scanUser driver) userCursor)
    cursor

section Statements

/-- Which users the listing is about, deleted ones or not. -/
inductive Deleted where
  | only
  | include
  | exclude
  deriving DecidableEq

instance : Fintype Deleted := ⟨{.only, .include, .exclude}, fun d => by cases d <;> decide⟩

def Deleted.of : String → Deleted
  | "only" => .only
  | "include" => .include
  | _ => .exclude

/-- The condition on `deleted_at`, for any way to write the two. -/
def Deleted.cond {α : Type} (isNotNull isNull : α) : Deleted → List α
  | .only => [isNotNull]
  | .include => []
  | .exclude => [isNull]

/-- The statement that is built: the cursor and the limit are numbered from one. -/
def builtUsers (deleted : Deleted) (role search later : Bool) : Select Nat :=
  ⟨["*"], "users", [.same 1 1] ++ deleted.cond (.isNotNull "deleted_at") (.isNull "deleted_at") ++ given role (.equal "role" 1) ++
    given search (.either (.ilike "name" (role.toNat + 1)) (.ilike "email" (role.toNat + 2))) ++
    given later (.before "created_at" "id" 1 2), "created_at", "id", 2 * later.toNat + 1⟩

set_option maxRecDepth 20000 in
theorem parse_users (deleted : Deleted) (role search later : Bool) :
    parse (rebind (userSelect.toList ++ rebind (joinAnd ((["1=1"] ++
      deleted.cond "deleted_at IS NOT NULL" "deleted_at IS NULL" ++ given role "role = ?" ++
      given search "(name ILIKE ? OR email ILIKE ?)").map String.toList)) ++ (if later then laterTail else firstTail).toList)) =
    some (builtUsers deleted role search later) := by
  obtain ⟨s, o, n, d, r, a, f, l, hs, ho, hn, hd, hr, ha, hf, hl, h⟩ : ∃ s o n d r a f l, userSelect = String.ofList s ∧
      "1=1" = String.ofList o ∧ "deleted_at IS NOT NULL" = String.ofList n ∧ "deleted_at IS NULL" = String.ofList d ∧
      "role = ?" = String.ofList r ∧ "(name ILIKE ? OR email ILIKE ?)" = String.ofList a ∧ firstTail = String.ofList f ∧
      laterTail = String.ofList l ∧ ∀ (deleted : Deleted) (role search later : Bool),
        parse (rebind (s ++ rebind (joinAnd ([o] ++ deleted.cond n d ++ given role r ++ given search a)) ++
          (if later then l else f))) = some (builtUsers deleted role search later) :=
    ⟨_, _, _, _, _, _, _, _, rfl, rfl, rfl, rfl, rfl, rfl, rfl, rfl, by decide +kernel⟩
  rw [← h deleted role search later, hs, ho, hn, hd, hr, ha, hf, hl]
  cases deleted <;> cases role <;> cases search <;> cases later <;> simp [given, Deleted.cond]

theorem text_userWhere (role deleted search : String) : (userWhere role deleted search).conds = ["1=1"] ++
    (Deleted.of deleted).cond "deleted_at IS NOT NULL" "deleted_at IS NULL" ++ given (role ≠ "") "role = ?" ++
      given (search ≠ "") "(name ILIKE ? OR email ILIKE ?)" := by
  unfold userWhere Deleted.of
  split <;> by_cases hr : role = "" <;> by_cases hs : search = "" <;> simp [Where.add, given, Deleted.cond, hr, hs]

theorem length_userWhere (role deleted search : String) :
    (userWhere role deleted search).args.length = (decide (role ≠ "")).toNat + 2 * (decide (search ≠ "")).toNat := by
  unfold userWhere
  split <;> by_cases hr : role = "" <;> by_cases hs : search = "" <;> simp [Where.add, hr, hs]

theorem parse_userText (role deleted search : String) (later : Bool) :
    parse (userText (userWhere role deleted search) later) =
      some (builtUsers (.of deleted) (role ≠ "") (search ≠ "") later) := by
  rw [userText, Where.text, text_userWhere, parse_users]

/-- With a filter, the statement takes fewer arguments than there are. -/
theorem prepare_filtered (driver : Driver) {role search : String} (deleted : String) (limit : Nat)
    (h : ¬ (role = "" ∧ search = "")) :
    prepare (userText (userWhere role deleted search) false) (userArgs driver role deleted search limit none) =
      .error .arguments := by
  have hlen : (userArgs driver role deleted search limit none).length =
      (decide (role ≠ "")).toNat + 2 * (decide (search ≠ "")).toNat + 1 := by
    rw [userArgs, pageArgs, List.append_nil, List.length_append, length_userWhere, List.length_singleton]
  have hmax : (builtUsers (.of deleted) (role ≠ "") (search ≠ "") false).params.foldl max 0 ≠
      (userArgs driver role deleted search limit none).length := by
    rw [hlen]
    by_cases hr : role = ""
    · by_cases hs : search = ""
      · exact absurd ⟨hr, hs⟩ h
      · cases Deleted.of deleted <;> simp [hr, hs, builtUsers, given, Deleted.cond, Select.params, Cond.params]
    · by_cases hs : search = ""
      · cases Deleted.of deleted <;> simp [hr, hs, builtUsers, given, Deleted.cond, Select.params, Cond.params]
      · cases Deleted.of deleted <;> simp [hr, hs, builtUsers, given, Deleted.cond, Select.params, Cond.params]
  rw [prepare, parse_userText]
  exact if_neg hmax

/-- What the conditions say of a user. -/
def passesUsers (like : Matching) (role deleted search : String) (r : StoredUser) : Bool :=
  (match Deleted.of deleted with
    | .only => r.deletedAt ≠ none
    | .include => true
    | .exclude => r.deletedAt = none) &&
  (role = "" || r.role = role) &&
  (search = "" || like ⟨r.name⟩ ⟨"%" ++ search ++ "%"⟩ || like ⟨r.email⟩ ⟨"%" ++ search ++ "%"⟩)

def usersConds (role deleted search : String) : List (Cond Value) :=
  .same 1 1 :: (Deleted.of deleted).cond (.isNotNull "deleted_at") (.isNull "deleted_at") ++
    given (role ≠ "") (.equal "role" (.text ⟨role⟩)) ++
    given (search ≠ "") (.either (.ilike "name" (pattern search)) (.ilike "email" (pattern search)))

theorem args_unfiltered (deleted : String) : (userWhere "" deleted "").args = [] := by
  unfold userWhere
  split <;> simp [Where.add]

/-- Without the two filters only the cursor and the limit have placeholders. -/
theorem builds_unfiltered (driver : Driver) (deleted : String) (limit : Nat) :
    Builds driver userSchema ["*"] (usersConds "" deleted "") limit id (userText (userWhere "" deleted ""))
      (userArgs driver "" deleted "" limit) where
  first := by
    rw [prepare, parse_userText, userArgs, pageArgs, args_unfiltered]
    simp only [usersConds]
    cases Deleted.of deleted <;> rfl
  later createdAt id := by
    rw [prepare, parse_userText, userArgs, pageArgs, args_unfiltered]
    simp only [usersConds]
    cases Deleted.of deleted <;> rfl

theorem known_users (deleted : String) : Known userSchema ["*"] (usersConds "" deleted "") := by
  have hall : ∀ name ∈ ["deleted_at"] ++ ["created_at", "id"], name ∈ userSchema.columns := by decide
  intro name hname
  refine hall name ?_
  simp only [usersConds] at hname
  cases hd : Deleted.of deleted <;> simp [hd, given, Deleted.cond, Cond.names] at hname ⊢ <;> tauto

end Statements

section Walks

variable {driver : Driver}

theorem keyed_user (hdriver : driver.Exact) :
    Keyed userSchema (scanUser driver) (userKey driver) StoredUser.createdAt StoredUser.key where
  createdAt _ := rfl
  rowId _ := rfl
  keyed r := key_present hdriver r.createdAt _

theorem cursor_user (hdriver : driver.Exact) (r : StoredUser) :
    userCursor (scanUser driver r) ≠ .empty ∧ ∃ createdAt id,
      decodeUserCursor (userCursor (scanUser driver r)) = some (createdAt, id) ∧ driver.store createdAt = r.createdAt ∧
        ⟨id⟩ = r.key := by
  obtain ⟨t', hdecode, hstore⟩ := decodeUser_encode hdriver r.createdAt r.id
  exact ⟨encodeCursor_ne_empty hdriver r.createdAt r.id, t', r.id, hdecode, hstore, rfl⟩

variable [LinearOrder Text]

theorem selected_users (like : Matching) (deleted : String) (rows : List StoredUser) :
    selected like userSchema (usersConds "" deleted "") rows = rows.filter (passesUsers like "" deleted "") := by
  refine List.filter_congr fun r _ => ?_
  have hnull : Cond.holds like (userSchema.value r) (.isNull "deleted_at") = decide (r.deletedAt = none) := by
    show decide (timeValue r.deletedAt = .null) = _
    simp only [timeValue_eq_null]
  have hnotNull : Cond.holds like (userSchema.value r) (.isNotNull "deleted_at") = decide (r.deletedAt ≠ none) := by
    show decide (timeValue r.deletedAt ≠ .null) = _
    simp only [ne_eq, timeValue_eq_null]
  have hsame : Cond.holds like (userSchema.value r) (.same 1 1) = true := rfl
  simp only [usersConds, passesUsers, List.all_cons, List.all_append, hsame]
  cases Deleted.of deleted <;> simp [given, Deleted.cond, hnull, hnotNull]

/-- The walk over one table comes to its end with every matching row, from the newest to the oldest. -/
def WalksAll {μ τ : Type} (list : CursorText → τ → Except ListError (List μ × Option CursorText)) (matching : τ → List μ)
    (key : μ → Instant ×ₗ Text) (t : τ) : Prop :=
  ∃ pages, Walk (follow list) .empty (List.replicate pages.length t) pages ∧ pages.flatten = newest key none (matching t)

/-- No walk begins with an error. -/
theorem not_walksAll {μ τ : Type} (list : CursorText → τ → Except ListError (List μ × Option CursorText))
    {matching : τ → List μ} {key : μ → Instant ×ₗ Text} {t : τ} {e : ListError} (h : list .empty t = .error e) :
    ¬ WalksAll list matching key t := by
  rintro ⟨pages, hwalk, -⟩
  generalize hts : List.replicate pages.length t = ts at hwalk
  have hfollow : follow list .empty t = none := by
    rw [follow, h]
  cases hwalk with
  | last hfetch =>
    obtain rfl : _ = t := List.eq_of_mem_replicate (hts ▸ List.mem_cons_self)
    cases hfollow.symm.trans hfetch
  | next hfetch =>
    obtain rfl : _ = t := List.eq_of_mem_replicate (hts ▸ List.mem_cons_self)
    cases hfollow.symm.trans hfetch

theorem listUsers_filtered (driver : Driver) (like : Matching) {role search : String} (deleted : String) (limit : Int)
    (rows : List StoredUser) (h : ¬ (role = "" ∧ search = "")) :
    listUsers like driver role deleted search limit .empty rows = .error (.database .arguments) := by
  show listing like userSchema rows _ _ _ _ _ = _
  rw [listing, query, prepare_filtered driver deleted _ h]

theorem users_walk_iff (hdriver : driver.Exact) (like : Matching) (role deleted search : String) (limit : Int)
    (t : Rows StoredUser.key) :
    WalksAll (fun c (t : Rows StoredUser.key) => listUsers like driver role deleted search limit c t.rows)
        (fun t => (t.rows.filter (passesUsers like role deleted search)).map (scanUser driver)) (userKey driver) t ∧
      Builds driver userSchema ["*"] (usersConds role deleted search) (pageLimit limit) id
        (userText (userWhere role deleted search)) (userArgs driver role deleted search (pageLimit limit)) ↔
    role = "" ∧ search = "" := by
  constructor
  · rintro ⟨hwalk, -⟩
    by_contra hfilter
    have herror := listUsers_filtered driver like deleted limit t.rows hfilter
    exact not_walksAll (fun c (t : Rows StoredUser.key) => listUsers like driver role deleted search limit c t.rows)
      herror hwalk
  · rintro ⟨rfl, rfl⟩
    have hbuilds := builds_unfiltered driver deleted (pageLimit limit)
    have h := hbuilds.losesNothing like (listUsers like driver "" deleted "" limit) (keyed_user hdriver)
      (pageLimit_pos limit) (known_users deleted) (fun _ _ => rfl) (cursor_user hdriver)
    simp only [selected_users] at h
    exact ⟨h.ends t, hbuilds⟩

end Walks

section Sample

def sampleUser : StoredUser := ⟨"ada", "Ada", "ada@example.org", "", "ADMIN", "local", none, epoch, epoch, none⟩

def oneUser : Rows StoredUser.key := ⟨[sampleUser], List.nodup_singleton _⟩

end Sample

theorem users_walk_all :
    @WalksAll byCodePoint _ _
      (fun c (t : Rows StoredUser.key) => @listUsers byCodePoint (fun _ _ => true) utcDriver "" "include" "" 1 c t.rows)
      (fun t => (t.rows.filter (passesUsers (fun _ _ => true) "" "include" "")).map (scanUser utcDriver)) (userKey utcDriver)
      oneUser :=
  ((@users_walk_iff utcDriver byCodePoint exact_utcDriver (fun _ _ => true) "" "include" "" 1 oneUser).mpr ⟨rfl, rfl⟩).1

/-- The administrators cannot be listed. -/
theorem users_by_role_fail : ¬ @WalksAll byCodePoint _ _
    (fun c (t : Rows StoredUser.key) => @listUsers byCodePoint (fun _ _ => true) utcDriver "ADMIN" "" "" 1 c t.rows)
    (fun t => (t.rows.filter (passesUsers (fun _ _ => true) "ADMIN" "" "")).map (scanUser utcDriver)) (userKey utcDriver)
    oneUser :=
  @not_walksAll byCodePoint _ _
    (fun c (t : Rows StoredUser.key) => @listUsers byCodePoint (fun _ _ => true) utcDriver "ADMIN" "" "" 1 c t.rows) _ _ oneUser _
    (@listUsers_filtered byCodePoint utcDriver (fun _ _ => true) "ADMIN" "" "" 1 oneUser.rows (by decide))

end Chinwag.Pages

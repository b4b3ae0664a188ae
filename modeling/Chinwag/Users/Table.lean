import Mathlib.Data.List.Basic
import Mathlib.Data.List.Nodup

/-!
# The users table

One definition for each statement of the repository, over a table whose primary key and
unique email are part of its type. Rows are disabled, never removed.
-/
namespace Chinwag.Users

inductive Role where
  | USER
  | MANAGER
  | ADMIN
  deriving DecidableEq, Repr

structure User where
  id : String
  name : String
  email : String
  password : String
  role : Role
  provider : String
  providerID : Option String
  createdAt : Nat
  updatedAt : Nat
  deletedAt : Option Nat
  deriving DecidableEq, Repr

/-- What a failed statement reports. A `lost` one took effect, but its answer did not arrive. -/
inductive DbError where
  | noRows
  | uniqueViolation
  | unavailable
  | lost
  deriving DecidableEq, Repr

structure UserTable where
  rows : List User
  users_pkey : (rows.map User.id).Nodup
  users_email_key : (rows.map User.email).Nodup

namespace UserTable

variable (t : UserTable)

/-- `WHERE deleted_at IS NULL` and one more condition, read by the first match. -/
def selectActive (p : User → Bool) : Except DbError User :=
  match t.rows.find? fun u => p u && u.deletedAt.isNone with
  | none => .error .noRows
  | some u => .ok u

def getUser (id : String) : Except DbError User := t.selectActive fun u => u.id == id

def getUserByEmail (email : String) : Except DbError User := t.selectActive fun u => u.email == email

def getUserIncludingDeleted (id : String) : Except DbError User :=
  match t.rows.find? fun u => u.id == id with
  | none => .error .noRows
  | some u => .ok u

def isActiveAdmin (u : User) : Bool := u.role == .ADMIN && u.deletedAt.isNone

def countAdmins : Nat := t.rows.countP isActiveAdmin

/-- An `UPDATE`: what becomes of each row, as long as both keys stay unique. -/
def mapRows (f : User → User) (hid : ∀ u ∈ t.rows, ∀ v ∈ t.rows, (f u).id = (f v).id → u = v)
    (hemail : ∀ u ∈ t.rows, ∀ v ∈ t.rows, (f u).email = (f v).email → u = v) : UserTable where
  rows := t.rows.map f
  users_pkey := by
    rw [List.map_map]
    exact t.users_pkey.of_map.map_on hid
  users_email_key := by
    rw [List.map_map]
    exact t.users_pkey.of_map.map_on hemail

theorem eq_of_id {u v : User} (hu : u ∈ t.rows) (hv : v ∈ t.rows) (h : u.id = v.id) : u = v :=
  List.inj_on_of_nodup_map t.users_pkey hu hv h

theorem eq_of_email {u v : User} (hu : u ∈ t.rows) (hv : v ∈ t.rows) (h : u.email = v.email) : u = v :=
  List.inj_on_of_nodup_map t.users_email_key hu hv h

/-- An `UPDATE` of other columns than the two keys, with the number of rows it reports. -/
def update (p : User → Bool) (f : User → User) (hid : ∀ u, (f u).id = u.id)
    (hemail : ∀ u, (f u).email = u.email) : UserTable × Nat :=
  (t.mapRows (fun u => if p u then f u else u)
    (by
      intro u hu v hv h
      refine t.eq_of_id hu hv ?_
      have hkeep : ∀ w : User, (if p w then f w else w).id = w.id := by
        intro w
        split
        · exact hid w
        · rfl
      rwa [hkeep, hkeep] at h)
    (by
      intro u hu v hv h
      refine t.eq_of_email hu hv ?_
      have hkeep : ∀ w : User, (if p w then f w else w).email = w.email := by
        intro w
        split
        · exact hemail w
        · rfl
      rwa [hkeep, hkeep] at h), t.rows.countP p)

def insert (u : User) : Except DbError (UserTable × Nat) :=
  if h : ∀ v ∈ t.rows, v.id ≠ u.id ∧ v.email ≠ u.email then
    .ok (⟨t.rows ++ [u],
      by
        rw [List.map_append, List.nodup_append]
        refine ⟨t.users_pkey, List.nodup_singleton _, ?_⟩
        intro x hx y hy
        obtain ⟨v, hv, rfl⟩ := List.mem_map.mp hx
        obtain rfl := List.mem_singleton.mp hy
        exact (h v hv).1,
      by
        rw [List.map_append, List.nodup_append]
        refine ⟨t.users_email_key, List.nodup_singleton _, ?_⟩
        intro x hx y hy
        obtain ⟨v, hv, rfl⟩ := List.mem_map.mp hx
        obtain rfl := List.mem_singleton.mp hy
        exact (h v hv).2⟩, 1)
  else .error .uniqueViolation

/-- The new name, email and password of an active row; the email must be free. -/
def updateUser (user : User) (now : Nat) : Except DbError (UserTable × Nat) :=
  if h : (∃ u ∈ t.rows, u.id = user.id ∧ u.deletedAt = none) ∧
      ∃ v ∈ t.rows, v.id ≠ user.id ∧ v.email = user.email then .error .uniqueViolation
  else .ok (t.mapRows
    (fun u => if u.id = user.id ∧ u.deletedAt = none then
      { u with name := user.name, email := user.email, password := user.password, updatedAt := now }
      else u)
    (by
      intro u hu v hv huv
      refine t.eq_of_id hu hv ?_
      split at huv <;> split at huv <;> exact huv)
    (by
      intro u hu v hv huv
      split at huv
      · next hact =>
        split at huv
        · next hact' => exact t.eq_of_id hu hv (hact.1.trans hact'.1.symm)
        · by_contra hne
          have hother : v.id ≠ user.id := fun hid => hne (t.eq_of_id hu hv (hact.1.trans hid.symm))
          exact h ⟨⟨u, hu, hact⟩, v, hv, hother, huv.symm⟩
      · split at huv
        · next hact' =>
          by_contra hne
          have hother : u.id ≠ user.id := fun hid => hne (t.eq_of_id hu hv (hid.trans hact'.1.symm))
          exact h ⟨⟨v, hv, hact'⟩, u, hu, hother, huv⟩
        · exact t.eq_of_email hu hv huv),
    t.rows.countP fun u => u.id = user.id ∧ u.deletedAt = none)

def setRole (id : String) (role : Role) (now : Nat) : UserTable × Nat :=
  t.update (fun u => u.id == id) (fun u => { u with role := role, updatedAt := now })
    (fun _ => rfl) (fun _ => rfl)

def deleteUser (id : String) (now : Nat) : UserTable × Nat :=
  t.update (fun u => u.id == id) (fun u => { u with deletedAt := some now }) (fun _ => rfl) (fun _ => rfl)

def restoreUser (id : String) (now : Nat) : UserTable × Nat :=
  t.update (fun u => u.id == id) (fun u => { u with deletedAt := none, updatedAt := now })
    (fun _ => rfl) (fun _ => rfl)

/-- The columns an `INSERT` of the repository does not name take their defaults. -/
def newRow (user : User) (provider : String) (providerID : Option String) (now : Nat) : User :=
  ⟨user.id, user.name, user.email, user.password, .USER, provider, providerID, now, now, none⟩

def createUser (user : User) (now : Nat) : Except DbError (UserTable × Nat) :=
  t.insert (newRow user "local" none now)

/-- `ON CONFLICT (email) DO UPDATE`: the row keeps its id, password and role. -/
def createOAuthUser (user : User) (now : Nat) : Except DbError (UserTable × Nat) :=
  if ∃ u ∈ t.rows, u.email = user.email then
    .ok (t.update (fun u => u.email == user.email)
      (fun u => { u with
        name := user.name
        provider := user.provider
        providerID := user.providerID
        deletedAt := none
        updatedAt := now })
      (fun _ => rfl) (fun _ => rfl))
  else t.insert (newRow user user.provider user.providerID now)

end UserTable

end Chinwag.Users

import Chinwag.Users.Table

/-!
# What the statements do to the rows

Every later argument about the table goes by `Write.Effect`: which rows a statement
selects, what it makes of them, and where the rows of the new table come from.
-/
namespace Chinwag.Users

inductive Query where
  | getUser (id : String)
  | getUserIncludingDeleted (id : String)
  | getUserByEmail (email : String)
  | countAdmins

abbrev Query.Row : Query → Type
  | .countAdmins => Nat
  | _ => User

def UserTable.answer (t : UserTable) : (q : Query) → Except DbError q.Row
  | .getUser id => t.getUser id
  | .getUserIncludingDeleted id => t.getUserIncludingDeleted id
  | .getUserByEmail email => t.getUserByEmail email
  | .countAdmins => .ok t.countAdmins

inductive Write where
  | createUser (user : User)
  | createOAuthUser (user : User)
  | updateUser (user : User)
  | setRole (id : String) (role : Role)
  | deleteUser (id : String)
  | restoreUser (id : String)

namespace Write

/-- The new table and the number of rows affected. -/
def apply (now : Nat) (t : UserTable) : Write → Except DbError (UserTable × Nat)
  | .createUser user => t.createUser user now
  | .createOAuthUser user => t.createOAuthUser user now
  | .updateUser user => t.updateUser user now
  | .setRole id role => .ok (t.setRole id role now)
  | .deleteUser id => .ok (t.deleteUser id now)
  | .restoreUser id => .ok (t.restoreUser id now)

/-- The existing rows a statement writes to. -/
def selects : Write → User → Prop
  | .createUser _, _ => False
  | .createOAuthUser user, u => u.email = user.email
  | .updateUser user, u => u.id = user.id ∧ u.deletedAt = none
  | .setRole id _, u => u.id = id
  | .deleteUser id, u => u.id = id
  | .restoreUser id, u => u.id = id

instance decidableSelects : (w : Write) → (u : User) → Decidable (w.selects u)
  | .createUser _, _ => inferInstanceAs (Decidable False)
  | .createOAuthUser user, u => inferInstanceAs (Decidable (u.email = user.email))
  | .updateUser user, u => inferInstanceAs (Decidable (u.id = user.id ∧ u.deletedAt = none))
  | .setRole id _, u => inferInstanceAs (Decidable (u.id = id))
  | .deleteUser id, u => inferInstanceAs (Decidable (u.id = id))
  | .restoreUser id, u => inferInstanceAs (Decidable (u.id = id))

/-- What a statement makes of a row it selects. -/
def revise (now : Nat) : Write → User → User
  | .createUser _, u => u
  | .createOAuthUser user, u => { u with
      name := user.name
      provider := user.provider
      providerID := user.providerID
      deletedAt := none
      updatedAt := now }
  | .updateUser user, u =>
      { u with name := user.name, email := user.email, password := user.password, updatedAt := now }
  | .setRole _ role, u => { u with role := role, updatedAt := now }
  | .deleteUser _, u => { u with deletedAt := some now }
  | .restoreUser _, u => { u with deletedAt := none, updatedAt := now }

/-- The row a statement may insert. -/
def inserted (now : Nat) : Write → Option User
  | .createUser user => some (UserTable.newRow user "local" none now)
  | .createOAuthUser user => some (UserTable.newRow user user.provider user.providerID now)
  | _ => none

/-- The rows of a table after a statement. -/
structure Effect (w : Write) (now : Nat) (t t' : UserTable) : Prop where
  kept : ∀ u ∈ t.rows, ¬ w.selects u → u ∈ t'.rows
  revised : ∀ u ∈ t.rows, w.selects u → w.revise now u ∈ t'.rows
  origin : ∀ v ∈ t'.rows, (v ∈ t.rows ∧ ¬ w.selects v) ∨
    (∃ u ∈ t.rows, w.selects u ∧ v = w.revise now u) ∨
    (w.inserted now = some v ∧ ∀ u ∈ t.rows, u.id ≠ v.id ∧ u.email ≠ v.email)

variable {now : Nat} {t t' : UserTable} {n : Nat} {w : Write}

theorem Effect.of_map {f : User → User} (hrows : t'.rows = t.rows.map f)
    (hsel : ∀ u, w.selects u → f u = w.revise now u) (hout : ∀ u, ¬ w.selects u → f u = u) :
    Effect w now t t' where
  kept := by
    intro u hu hsel'
    rw [hrows]
    exact List.mem_map.mpr ⟨u, hu, hout u hsel'⟩
  revised := by
    intro u hu hsel'
    rw [hrows]
    exact List.mem_map.mpr ⟨u, hu, hsel u hsel'⟩
  origin := by
    intro v hv
    rw [hrows] at hv
    obtain ⟨u, hu, rfl⟩ := List.mem_map.mp hv
    by_cases h : w.selects u
    · exact Or.inr (Or.inl ⟨u, hu, h, hsel u h⟩)
    · left
      rw [hout u h]
      exact ⟨hu, h⟩

theorem Effect.of_update {p : User → Bool} {f : User → User} {hid : ∀ u, (f u).id = u.id}
    {hemail : ∀ u, (f u).email = u.email} (h : t.update p f hid hemail = (t', n))
    (hp : ∀ u, p u = true ↔ w.selects u) (hf : ∀ u, f u = w.revise now u) : Effect w now t t' := by
  have hrows : t'.rows = t.rows.map fun u => if p u then f u else u :=
    congrArg (fun r => r.1.rows) h.symm
  refine .of_map hrows ?_ ?_
  · intro u hu
    rw [if_pos ((hp u).mpr hu)]
    exact hf u
  · intro u hu
    exact if_neg fun h => hu ((hp u).mp h)

theorem Effect.of_insert {u : User} (h : t.insert u = .ok (t', n)) (hins : w.inserted now = some u)
    (hsel : ∀ v ∈ t.rows, ¬ w.selects v) : Effect w now t t' := by
  unfold UserTable.insert at h
  split at h
  · next hfree =>
    obtain rfl : _ = t' := congrArg Prod.fst (Except.ok.inj h)
    constructor
    · intro v hv _
      exact List.mem_append_left _ hv
    · intro v hv hs
      exact absurd hs (hsel v hv)
    · intro v hv
      cases List.mem_append.mp hv with
      | inl hold => exact Or.inl ⟨hold, hsel v hold⟩
      | inr hnew =>
        obtain rfl := List.mem_singleton.mp hnew
        exact Or.inr (Or.inr ⟨hins, hfree⟩)
  · cases h

/-- A statement that succeeds writes to the rows it selects and to no other. -/
theorem effect_of_apply (h : w.apply now t = .ok (t', n)) : Effect w now t t' := by
  cases w with
  | createUser user => exact .of_insert h rfl fun _ _ hs => hs
  | createOAuthUser user =>
    simp only [apply, UserTable.createOAuthUser] at h
    split at h
    · exact .of_update (Except.ok.inj h) (fun u => by simp [selects]) fun u => rfl
    · next hfree => exact .of_insert h rfl fun v hv hs => hfree ⟨v, hv, hs⟩
  | updateUser user =>
    simp only [apply, UserTable.updateUser] at h
    split at h
    · cases h
    · have hrows : t'.rows = _ := congrArg (fun r => r.1.rows) (Except.ok.inj h).symm
      exact .of_map hrows (fun u hu => if_pos hu) fun u hu => if_neg hu
  | setRole id role => exact .of_update (Except.ok.inj h) (fun u => by simp [selects]) fun u => rfl
  | deleteUser id => exact .of_update (Except.ok.inj h) (fun u => by simp [selects]) fun u => rfl
  | restoreUser id => exact .of_update (Except.ok.inj h) (fun u => by simp [selects]) fun u => rfl

theorem error_of_insert {u : User} {e : DbError} (h : t.insert u = .error e) : e = .uniqueViolation := by
  unfold UserTable.insert at h
  split at h
  · cases h
  · exact (Except.error.inj h).symm

/-- The only error of a statement itself is a violated key. -/
theorem error_of_apply {e : DbError} (h : w.apply now t = .error e) : e = .uniqueViolation := by
  cases w with
  | createUser user => exact error_of_insert h
  | createOAuthUser user =>
    simp only [apply, UserTable.createOAuthUser] at h
    split at h
    · cases h
    · exact error_of_insert h
  | updateUser user =>
    simp only [apply, UserTable.updateUser] at h
    split at h
    · exact (Except.error.inj h).symm
    · cases h
  | setRole => cases h
  | deleteUser => cases h
  | restoreUser => cases h

@[simp] theorem revise_id (u : User) : (w.revise now u).id = u.id := by
  cases w <;> rfl

/-- No statement takes a row out of the table. -/
theorem Effect.row (h : Effect w now t t') {u : User} (hu : u ∈ t.rows) :
    ∃ v ∈ t'.rows, v.id = u.id ∧ (v = u ∨ (w.selects u ∧ v = w.revise now u)) := by
  by_cases hs : w.selects u
  · exact ⟨_, h.revised u hu hs, revise_id u, Or.inr ⟨hs, rfl⟩⟩
  · exact ⟨u, h.kept u hu hs, rfl, Or.inl rfl⟩

end Write

namespace UserTable

variable {t : UserTable} {u : User} {id email : String}

theorem selectActive_ok {p : User → Bool} (h : t.selectActive p = .ok u) :
    u ∈ t.rows ∧ p u = true ∧ u.deletedAt = none := by
  unfold selectActive at h
  split at h
  · cases h
  · next v hv =>
    obtain rfl := Except.ok.inj h
    have hp := List.find?_some hv
    rw [Bool.and_eq_true, Option.isNone_iff_eq_none] at hp
    exact ⟨List.mem_of_find?_eq_some hv, hp⟩

theorem getUser_ok (h : t.getUser id = .ok u) : u ∈ t.rows ∧ u.id = id ∧ u.deletedAt = none := by
  obtain ⟨hu, hp, hact⟩ := selectActive_ok h
  exact ⟨hu, eq_of_beq hp, hact⟩

theorem getUserByEmail_ok (h : t.getUserByEmail email = .ok u) :
    u ∈ t.rows ∧ u.email = email ∧ u.deletedAt = none := by
  obtain ⟨hu, hp, hact⟩ := selectActive_ok h
  exact ⟨hu, eq_of_beq hp, hact⟩

end UserTable

end Chinwag.Users

import Chinwag.Users.Served

/-!
# The last administrator

Disabling and demoting are guarded by a count that is no part of the write; deleting a user
by its route is not guarded. A run keeps an administrator exactly when no such write hits
the only one, and a guarded write does not as long as what its guard read still holds.
-/
namespace Chinwag.Users

open Program Auth Transition UserTable

def HasAdmin (t : UserTable) : Prop := ∃ u ∈ t.rows, isActiveAdmin u = true

/-- The statement takes the seat of this administrator. -/
def Write.unseats : Write → User → Prop
  | .setRole id role, u => u.id = id ∧ role ≠ .ADMIN
  | .deleteUser id, u => u.id = id
  | _, _ => False

/-- The statement does not hit the only active administrator. -/
def LeavesAdmin (t : UserTable) (w : Write) : Prop :=
  ∃ u ∈ t.rows, isActiveAdmin u = true ∧ ¬ w.unseats u

/-- The operations that read and count before they write. -/
def Request.guarded : Request → Bool
  | .adminSetRole _ _ _ => true
  | .adminDisableUser _ _ => true
  | _ => false

/-- What the guard of thread `i` read of its target and counted still holds. -/
def StillHolds (s : UserState) (i : Nat) : Prop :=
  ∀ r, s.readings i = some r → (∀ u ∈ s.table.rows, u.id = r.target → u.role = r.role) ∧
    ∀ n, r.admins = some n → s.table.countAdmins = n

/-- The write of thread `i` does not hit the only administrator, or is a guarded one whose guard
still holds. -/
def SparesLastAdmin (s : UserState) (i : Nat) (w : Write) : Prop :=
  LeavesAdmin s.table w ∨ ∃ q, s.received i = some q ∧ q.guarded = true ∧ StillHolds s i

theorem isActiveAdmin_iff {u : User} : isActiveAdmin u = true ↔ u.role = .ADMIN ∧ u.deletedAt = none := by
  unfold isActiveAdmin
  rw [Bool.and_eq_true, beq_iff_eq, Option.isNone_iff_eq_none]

variable {t t' : UserTable} {w : Write}

/-- Of two administrators one has another id. -/
theorem exists_other_admin (h : 1 < t.countAdmins) (id : String) :
    ∃ u ∈ t.rows, isActiveAdmin u = true ∧ u.id ≠ id := by
  by_contra hnone
  have hall : ∀ x ∈ (t.rows.filter isActiveAdmin).map User.id, x = id := by
    intro x hx
    obtain ⟨u, hu, rfl⟩ := List.mem_map.mp hx
    obtain ⟨hu, hadmin⟩ := List.mem_filter.mp hu
    exact by_contra fun hne => hnone ⟨u, hu, hadmin, hne⟩
  have hnodup : ((t.rows.filter isActiveAdmin).map User.id).Nodup :=
    (List.filter_sublist.map User.id).nodup t.users_pkey
  rw [List.eq_replicate_of_mem hall, List.nodup_replicate, List.length_map] at hnodup
  have hcount : t.countAdmins = (t.rows.filter isActiveAdmin).length := List.countP_eq_length_filter
  omega

/-- Who is not unseated stays, with no less than before. -/
theorem Write.revise_admin {now : Nat} {u : User} (hadmin : isActiveAdmin u = true) (h : ¬ w.unseats u)
    (hsel : w.selects u) : isActiveAdmin (w.revise now u) = true := by
  obtain ⟨hrole, hact⟩ := isActiveAdmin_iff.mp hadmin
  rw [isActiveAdmin_iff]
  cases w with
  | createUser => exact ⟨hrole, hact⟩
  | createOAuthUser => exact ⟨hrole, rfl⟩
  | updateUser => exact ⟨hrole, hact⟩
  | setRole id role => exact ⟨by_contra fun hne => h ⟨hsel, hne⟩, hact⟩
  | deleteUser id => exact absurd hsel h
  | restoreUser => exact ⟨hrole, rfl⟩

theorem Write.not_admin_of_unseats (now : Nat) {u : User} (h : w.unseats u) :
    isActiveAdmin (w.revise now u) = false := by
  rw [Bool.eq_false_iff, ne_eq, isActiveAdmin_iff]
  rintro ⟨hrole, hact⟩
  cases w with
  | createUser => exact h
  | createOAuthUser => exact h
  | updateUser => exact h
  | setRole id role => exact h.2 hrole
  | deleteUser id => exact nomatch hact
  | restoreUser => exact h

/-- A statement that unseats somebody unseats whomever it selects, and inserts nobody. -/
theorem Write.unseats_of_selects (now : Nat) {u : User} (h : w.unseats u) :
    (∀ v, w.selects v ↔ w.unseats v) ∧ w.inserted now = none := by
  cases w with
  | createUser => exact h.elim
  | createOAuthUser => exact h.elim
  | updateUser => exact h.elim
  | setRole id role => exact ⟨fun v => ⟨fun hv => ⟨hv, h.2⟩, fun hv => hv.1⟩, rfl⟩
  | deleteUser id => exact ⟨fun _ => Iff.rfl, rfl⟩
  | restoreUser => exact h.elim

theorem hasAdmin_after_iff {now : Nat} (hadmin : HasAdmin t) (h : w.Effect now t t') :
    HasAdmin t' ↔ LeavesAdmin t w := by
  constructor
  · rintro ⟨v, hv, hadminv⟩
    obtain ⟨u, hu, hadminu⟩ := hadmin
    by_cases hunseats : w.unseats u
    · obtain ⟨hsel, hins⟩ := w.unseats_of_selects now hunseats
      obtain ⟨hold, hout⟩ | ⟨u', _, hsel', rfl⟩ | ⟨hnew, _⟩ := h.origin v hv
      · exact ⟨v, hold, hadminv, fun hv => hout ((hsel v).mpr hv)⟩
      · have hlost := w.not_admin_of_unseats now ((hsel u').mp hsel')
        rw [hadminv] at hlost
        cases hlost
      · rw [hins] at hnew
        cases hnew
    · exact ⟨u, hu, hadminu, hunseats⟩
  · rintro ⟨u, hu, hadminu, hstays⟩
    by_cases hsel : w.selects u
    · exact ⟨_, h.revised u hu hsel, w.revise_admin hadminu hstays hsel⟩
    · exact ⟨u, h.kept u hu hsel, hadminu⟩

variable {s : UserState} {i : Nat}

/-- The guards are sound: while what they read still holds, the write spares an administrator. -/
theorem leavesAdmin_of_stillHolds {q : Request} (hadmin : HasAdmin s.table) (h : Warranted s i q w)
    (hguarded : q.guarded = true) (hholds : StillHolds s i) : LeavesAdmin s.table w := by
  have hcleared : ∀ id, Cleared s i id → ∃ u ∈ s.table.rows, isActiveAdmin u = true ∧ u.id ≠ id := by
    rintro id ⟨r, hr, rfl, hrole | ⟨n, hn, hmany⟩⟩
    · obtain ⟨u, hu, hadminu⟩ := hadmin
      refine ⟨u, hu, hadminu, ?_⟩
      intro hid
      exact hrole (((hholds r hr).1 u hu hid).symm.trans (isActiveAdmin_iff.mp hadminu).1)
    · have hcount := (hholds r hr).2 n hn
      exact exists_other_admin (by omega) _
  cases h with
  | createUser => cases hguarded
  | google => cases hguarded
  | updateUser => cases hguarded
  | deleteUser => cases hguarded
  | adminCreateUser => cases hguarded
  | adminFirstRole => cases hguarded
  | adminUpdateUser => cases hguarded
  | adminSetRole hrole hguard =>
    cases hguard with
    | inl hadminRole =>
      obtain ⟨u, hu, hadminu⟩ := hadmin
      exact ⟨u, hu, hadminu, fun h => h.2 hadminRole⟩
    | inr hclear =>
      obtain ⟨u, hu, hadminu, hne⟩ := hcleared _ hclear
      exact ⟨u, hu, hadminu, fun h => hne h.1⟩
  | adminDisableUser hrole hclear =>
    obtain ⟨u, hu, hadminu, hne⟩ := hcleared _ hclear
    exact ⟨u, hu, hadminu, hne⟩
  | adminRestoreUser => cases hguarded

/-- What a step must not do: take the last administrator away. -/
def Spares (p : UserPool) (l : UserLabel) : Prop :=
  ∀ i w r, l = .cmd i (.write w) r → Took r → SparesLastAdmin p.shared i w

theorem hasAdmin_step_iff {p p' : UserPool} {l : UserLabel} (hg : UserGood p)
    (hadmin : HasAdmin p.shared.table) (h : UserStep p l p') : HasAdmin p'.shared.table ↔ Spares p l := by
  cases table_step h with
  | same htable hno =>
    rw [htable]
    refine ⟨fun _ i w r hl htook => absurd htook (hno i w r hl), fun _ => hadmin⟩
  | wrote i w r hl htook happly =>
    subst hl
    rw [hasAdmin_after_iff hadmin (Write.effect_of_apply happly)]
    constructor
    · intro hleaves i' w' r' hl' _
      cases hl'
      exact Or.inl hleaves
    · intro hspares
      obtain hleaves | ⟨q, hq, hguarded, hholds⟩ := hspares i w r rfl htook
      · exact hleaves
      · obtain ⟨q', hq', hwarranted⟩ := write_warranted hg h
        obtain rfl : q = q' := Option.some.inj (hq.symm.trans hq')
        exact leavesAdmin_of_stillHolds hadmin hwarranted hguarded hholds

variable {pool pool' : UserPool} {trace : List UserLabel}

/-- An administrator is left all along a run exactly if no statement that takes effect hits the last
one; for a guarded statement it is enough that what its guard read still holds. -/
theorem last_admin_kept_iff (h : UsersInit pool) (hadmin : HasAdmin pool.shared.table) :
    (∀ before after p, trace = before ++ after → Run UserStep pool before p →
      Run UserStep p after pool' → HasAdmin p.shared.table) ↔
    ∀ before i w r after p p', trace = before ++ .cmd i (.write w) r :: after →
      Run UserStep pool before p → UserStep p (.cmd i (.write w) r) p' → Run UserStep p' after pool' →
      Took r → SparesLastAdmin p.shared i w := by
  have hinv : ∀ p l p', UserGood p → UserStep p l p' → UserGood p' := fun _ _ _ => good_step
  have hgood : ∀ p l p', UserGood p → HasAdmin p.shared.table → UserStep p l p' →
      (HasAdmin p'.shared.table ↔ Spares p l) := fun _ _ _ => hasAdmin_step_iff
  rw [Run.always_good_iff hinv hgood (good_init h) hadmin]
  constructor
  · intro hall before i w r after p p' htrace hbefore hstep hafter htook
    exact hall before _ after p p' htrace hbefore hstep hafter i w r rfl htook
  · intro hall before l after p p' htrace hbefore hstep hafter i w r hl htook
    subst hl
    exact hall before i w r after p p' htrace hbefore hstep hafter htook

/-- `DELETE /user/:id` alone: whoever is authenticated deletes the user of the path. -/
theorem alone_deleteUser (claims : AccessClaims) (id : String) (s : UserState) :
    Alone (Exec i) Eq (serve (.deleteUser (.ok claims) id)) s .empty
      ((s.receive i (.deleteUser (.ok claims) id)).store (s.table.deleteUser id s.now).1) :=
  .call rfl (.receive _) (.call rfl (.write rfl) (.ret _ _))

section Sample

def rootUser : User := ⟨"root", "Root", "root@example.org", "", .ADMIN, "local", none, 0, 0, none⟩

def rootTable : UserTable := ⟨[rootUser], List.nodup_singleton _, List.nodup_singleton _⟩

/-- A table nobody has touched yet. -/
def restingState (t : UserTable) : UserState :=
  ⟨t, 1, [], UserState.activeIds t, fun _ => none, fun _ => none, fun _ => none⟩

theorem restingState_init (t : UserTable) : UsersInit ⟨restingState t, []⟩ :=
  ⟨rfl, rfl, rfl, fun _ => rfl, fun _ => rfl⟩

theorem rootTable_hasAdmin : HasAdmin rootTable := ⟨rootUser, List.mem_singleton_self _, rfl⟩

theorem rootTable_deleted : ¬ HasAdmin (rootTable.deleteUser "root" 1).1 := by
  rintro ⟨v, hv, hadmin⟩
  obtain rfl := List.mem_singleton.mp hv
  cases hadmin

/-- A user of no special role deletes the only administrator. -/
theorem root_deleted : ∃ trace pool', Run UserStep ⟨restingState rootTable, []⟩ trace pool' ∧
    ¬ HasAdmin pool'.shared.table := by
  have hserve : Serves (serve (.deleteUser (.ok ⟨"mallory", .USER, "jkt"⟩) "root")) := ⟨_, rfl⟩
  obtain ⟨trace, hrun⟩ : ∃ trace, Run UserStep ⟨restingState rootTable, []⟩ trace _ :=
    Alone.spawn_run [] hserve (alone_deleteUser _ _ _)
  exact ⟨trace, _, hrun, rootTable_deleted⟩

end Sample

theorem last_admin_lost : ∃ pool trace pool', UsersInit pool ∧ HasAdmin pool.shared.table ∧
    Run UserStep pool trace pool' ∧ ¬ HasAdmin pool'.shared.table := by
  obtain ⟨trace, pool', hrun, hlost⟩ := root_deleted
  exact ⟨_, trace, pool', restingState_init rootTable, rootTable_hasAdmin, hrun, hlost⟩

/-- The condition is the one that fails there. -/
theorem last_admin_kept_root : ∃ trace pool', Run UserStep ⟨restingState rootTable, []⟩ trace pool' ∧
    ¬ ∀ before i w r after p p', trace = before ++ .cmd i (.write w) r :: after →
      Run UserStep ⟨restingState rootTable, []⟩ before p → UserStep p (.cmd i (.write w) r) p' →
      Run UserStep p' after pool' → Took r → SparesLastAdmin p.shared i w := by
  obtain ⟨trace, pool', hrun, hlost⟩ := root_deleted
  refine ⟨trace, pool', hrun, ?_⟩
  intro hspares
  refine hlost ?_
  exact (last_admin_kept_iff (restingState_init rootTable) rootTable_hasAdmin).mpr hspares trace []
    pool' (List.append_nil _).symm hrun (.nil _)

end Chinwag.Users

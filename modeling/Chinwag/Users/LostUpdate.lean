import Chinwag.Users.System
import Chinwag.Rooms.LostUpdate

/-!
# Two updates of one user at once

An update of a user reads the row, may have a password hashed, and writes name, email and password.
The rule is the one for rooms.
-/
namespace Chinwag.Users

open Program Transition ReadModifyWrite

inductive UserColumn where
  | name
  | email
  | password

def User.columns (user : User) : Row fun _ : UserColumn => String
  | .name => user.name
  | .email => user.email
  | .password => user.password

/-- The new values of an update that has returned: the password is the hash it has come to. -/
def UpdateUserReq.patch (req : UpdateUserReq) (user : User) : Patch fun _ : UserColumn => String
  | .name => req.name
  | .email => req.email
  | .password => req.password.map fun _ => user.password

/-- No field is given by both requests. -/
structure UpdateUserReq.Disjoint (req req' : UpdateUserReq) : Prop where
  name : req.name = none ∨ req'.name = none
  email : req.email = none ∨ req'.email = none
  password : req.password = none ∨ req'.password = none

abbrev UserRun := List (Label Nat UserCmd UserReply (Result User))

/-- The row has the values that request `i` gives, its password as this request has had it hashed. -/
structure UpdateUserReq.In (req : UpdateUserReq) (i : Nat) (trace : UserRun) (user : User) : Prop where
  name : ∀ n, req.name = some n → user.name = n
  email : ∀ e, req.email = some e → user.email = e
  password : ∀ pw, req.password = some pw → .cmd i (.generateFromPassword pw) (some user.password) ∈ trace

def userAccess : UserCmd → Option Kind
  | .read _ => some .read
  | .write _ => some .write
  | _ => none

def userRow (id : String) (s : UserState) : Option (Row fun _ : UserColumn => String) :=
  (s.table.rows.find? fun u => u.id = id).map User.columns

def Failed {α : Type} (r : Result α) : Prop := ∃ e, r = .error e

section Table

variable {t t' : UserTable} {id : String} {user : User} {now n : Nat}

theorem find_row : t.rows.find? (fun u => u.id = id) = some user ↔ user ∈ t.rows ∧ user.id = id := by
  constructor
  · intro h
    have hid := List.find?_some h
    exact ⟨List.mem_of_find?_eq_some h, of_decide_eq_true hid⟩
  · rintro ⟨hmem, rfl⟩
    cases h : t.rows.find? fun u => u.id = user.id with
    | none =>
      have hnone := List.find?_eq_none.mp h user hmem
      simp at hnone
    | some v =>
      have hid := List.find?_some h
      rw [t.eq_of_id (List.mem_of_find?_eq_some h) hmem (of_decide_eq_true hid)]

/-- The statement of an update that has affected a row has written its columns. -/
theorem columns_updateUser {old : User} (h : (Write.updateUser user).apply now t = .ok (t', n + 1))
    (hold : old ∈ t.rows) (hid : old.id = user.id) :
    ∃ u ∈ t'.rows, u.id = user.id ∧ u.columns = user.columns := by
  have hactive : old.deletedAt = none := by
    by_contra hdeleted
    have hupdate : t.updateUser user now = .ok (t', n + 1) := h
    unfold UserTable.updateUser at hupdate
    split at hupdate
    · cases hupdate
    · have hcount := congrArg Prod.snd (Except.ok.inj hupdate)
      have hnone : t.rows.countP (fun u => u.id = user.id ∧ u.deletedAt = none) = 0 := by
        refine List.countP_eq_zero.mpr fun u hu hsel => ?_
        obtain ⟨huid, hact⟩ := of_decide_eq_true hsel
        obtain rfl := t.eq_of_id hu hold (huid.trans hid.symm)
        exact hdeleted hact
      rw [show (_ : Nat) = 0 from hnone] at hcount
      cases hcount
  have hrevised := (Write.effect_of_apply h).revised old hold ⟨hid, hactive⟩
  refine ⟨_, hrevised, hid, ?_⟩
  funext c
  cases c <;> rfl

end Table

/-- The row before a new password is hashed. -/
def UpdateUserReq.named (req : UpdateUserReq) (user : User) : User :=
  { user with name := req.name.getD user.name, email := req.email.getD user.email }

/-- What is left of an update while a password is hashed. -/
def afterHash (req : UpdateUserReq) (user : User) : Option String → UserProg (Result User)
  | none => .ret (.error .other)
  | some hash => repoUpdateUser { req.named user with password := hash }

def afterRead (req : UpdateUserReq) : Except DbError User → UserProg (Result User)
  | .error e => .ret (.error (.db e))
  | .ok user =>
    match req.password with
    | none => repoUpdateUser (req.named user)
    | some pw => .call (.generateFromPassword pw) (afterHash req user)

theorem updateUser_eq (id : String) (req : UpdateUserReq) :
    updateUser id req = .call (.read (.getUser id)) (afterRead req) := by
  refine congrArg (Prog.call (UserCmd.read (.getUser id))) (funext fun answer => ?_)
  cases answer with
  | error e => rfl
  | ok user =>
    unfold afterRead
    cases hpw : req.password with
    | none => rfl
    | some pw =>
      refine congrArg (Prog.call (UserCmd.generateFromPassword pw)) (funext fun hash => ?_)
      cases hash <;> rfl

/-- How far an update has come. -/
inductive Updating (id : String) (req : UpdateUserReq) :
    UserProg (Result User) → Phase (fun _ : UserColumn => String) → Prop where
  | start {p : UserProg (Result User)} (hp : p = updateUser id req) : Updating id req p .start
  | hashing {p : UserProg (Result User)} {user : User} {pw : String} (hid : user.id = id)
      (hpw : req.password = some pw)
      (hp : p = .call (.generateFromPassword pw) (afterHash req user)) : Updating id req p (.read user.columns)
  | writing {p : UserProg (Result User)} {user : User} (row : User) (hid : row.id = id)
      (hrow : row.columns = (req.patch row).on user.columns) (hp : p = repoUpdateUser row) :
      Updating id req p (.read user.columns)
  | done {p : UserProg (Result User)} {row : User} (hp : p = .ret (.ok row)) :
      Updating id req p (.done (req.patch row))

section Updates

variable {id : String} {req : UpdateUserReq} {i : Nat} {c : UserCmd} {next : UserReply c → UserProg (Result User)}
  {r : UserReply c} {s t : UserState} {user row : User}

theorem columns_named (hpw : req.password = none) :
    (req.named user).columns = (req.patch (req.named user)).on user.columns := by
  funext c
  cases c with
  | password => simp [UpdateUserReq.patch, UpdateUserReq.named, Patch.on, hpw, User.columns]
  | _ => rfl

theorem columns_hashed {pw : String} (hpw : req.password = some pw) (hash : String) :
    User.columns { req.named user with password := hash } =
      (req.patch { req.named user with password := hash }).on user.columns := by
  funext c
  cases c with
  | password => simp [UpdateUserReq.patch, Patch.on, hpw, User.columns]
  | _ => rfl

theorem moves_of_start (hp : .call c next = updateUser id req) (hexec : Exec i c s r t) :
    (∃ a, next r = .ret a ∧ Failed a) ∨ Moves (userRow id) (Updating id req) (next r) s t (userAccess c) .start := by
  rw [updateUser_eq] at hp
  cases hp
  cases hexec with
  | readFailed => exact .inl ⟨_, rfl, _, rfl⟩
  | outside h => exact h.elim
  | read =>
    show (∃ a, afterRead req (s.table.getUser id) = .ret a ∧ Failed a) ∨
      Moves (userRow id) (Updating id req) (afterRead req (s.table.getUser id)) s _ (some .read) .start
    cases hanswer : s.table.getUser id with
    | error e => exact .inl ⟨_, rfl, _, rfl⟩
    | ok user =>
      obtain ⟨hmem, hid, -⟩ := UserTable.getUser_ok hanswer
      have hrow : userRow id s = some user.columns := congrArg (Option.map User.columns) (find_row.mpr ⟨hmem, hid⟩)
      refine .inr (.read hrow ?_ rfl)
      unfold afterRead
      cases hpw : req.password with
      | none => exact .writing (req.named user) hid (columns_named hpw) rfl
      | some pw => exact .hashing hid hpw rfl

theorem moves_of_hashing {pw : String} (hid : user.id = id) (hpw : req.password = some pw)
    (hp : .call c next = (.call (.generateFromPassword pw) (afterHash req user) : UserProg (Result User)))
    (hexec : Exec i c s r t) :
    (∃ a, next r = .ret a ∧ Failed a) ∨
      Moves (userRow id) (Updating id req) (next r) s t (userAccess c) (.read user.columns) := by
  cases hp
  cases hexec with
  | outside h =>
    cases r with
    | none => exact .inl ⟨_, rfl, _, rfl⟩
    | some hash =>
      have hat : Updating id req (afterHash req user (some hash)) (.read user.columns) :=
        .writing { req.named user with password := hash } hid (columns_hashed hpw hash) rfl
      exact .inr (.silent hat rfl)

theorem moves_of_writing (hp : .call c next = repoUpdateUser row) (hid : row.id = id)
    (hcolumns : row.columns = (req.patch row).on user.columns) (hexec : Exec i c s r t)
    (hrow : (userRow id s).isSome = true) :
    (∃ a, next r = .ret a ∧ Failed a) ∨
      Moves (userRow id) (Updating id req) (next r) s t (userAccess c) (.read user.columns) := by
  cases hp
  cases hexec with
  | writeFailed => exact .inl ⟨_, rfl, _, rfl⟩
  | writeRefused => exact .inl ⟨_, rfl, _, rfl⟩
  | writeLost => exact .inl ⟨_, rfl, _, rfl⟩
  | outside h => exact h.elim
  | @write _ _ t n h =>
    cases n with
    | zero => exact .inl ⟨_, rfl, _, rfl⟩
    | succ n =>
      obtain ⟨old, hold⟩ := Option.isSome_iff_exists.mp (by rwa [userRow, Option.isSome_map] at hrow)
      obtain ⟨hmem, holdid⟩ := find_row.mp hold
      obtain ⟨u, hu, huid, hucolumns⟩ := columns_updateUser h hmem (holdid.trans hid.symm)
      refine .inr (.write (req.patch row) (.done rfl) ?_)
      rw [← hcolumns, ← hucolumns]
      exact congrArg (Option.map User.columns) (find_row.mpr ⟨hu, huid.trans hid⟩)

theorem userClients (id : String) (reqs : Nat → UpdateUserReq) :
    Clients userSemantics (userRow id) userAccess Failed fun i => Updating id (reqs i) := by
  constructor
  · rintro s elapsed t rfl
    rfl
  · intro i c next ph s r t hat hexec hrow
    cases hat with
    | start hp => exact moves_of_start hp hexec
    | hashing hid hpw hp => exact moves_of_hashing hid hpw hp hexec
    | writing row hid hcolumns hp => exact moves_of_writing hp hid hcolumns hexec hrow
    | done hp => cases hp

theorem did_repoUpdateUser {replies : List (Σ c, UserReply c)} {u : User}
    (h : Did (repoUpdateUser user) replies (.ok u)) : u = user ∧ ∃ n, replies = [⟨.write (.updateUser user), n⟩] := by
  obtain ⟨reply, rest, rfl, hrest⟩ := did_call h
  rcases reply with e | _ | n
  · cases (did_ret hrest).2
  · cases (did_ret hrest).2
  · obtain ⟨rfl, hu⟩ := did_ret hrest
    exact ⟨Except.ok.inj hu, _, rfl⟩

/-- The password of the user that an update returns is the only hash that it has had generated. -/
theorem generated_iff {replies : List (Σ c, UserReply c)} {u : User} {pw : String} (hpw : req.password = some pw)
    (h : Did (updateUser id req) replies (.ok u)) (hash : String) :
    ⟨.generateFromPassword pw, some hash⟩ ∈ replies ↔ hash = u.password := by
  rw [updateUser_eq] at h
  obtain ⟨reply, rest, rfl, hrest⟩ := did_call h
  cases reply with
  | error e => cases (did_ret hrest).2
  | ok user =>
    unfold afterRead at hrest
    rw [hpw] at hrest
    obtain ⟨reply, rest, rfl, hhash⟩ := did_call hrest
    cases reply with
    | none => cases (did_ret hhash).2
    | some generated =>
      obtain ⟨rfl, n, rfl⟩ := did_repoUpdateUser hhash
      simp

theorem in_columns {trace : UserRun} {u : User} (h : Did (updateUser id req) (repliesTo i trace) (.ok u)) :
    (req.patch u).In user.columns ↔ req.In i trace user := by
  have hhash : ∀ pw, req.password = some pw →
      (.cmd i (.generateFromPassword pw) (some user.password) ∈ trace ↔ user.password = u.password) := by
    intro pw hpw
    rw [← mem_repliesTo]
    exact generated_iff hpw h user.password
  constructor
  · intro hin
    refine ⟨hin .name, hin .email, fun pw hpw => (hhash pw hpw).mpr ?_⟩
    exact hin .password u.password (by rw [UpdateUserReq.patch, hpw]; rfl)
  · intro hin c v hv
    cases c with
    | name => exact hin.name v hv
    | email => exact hin.email v hv
    | password =>
      obtain ⟨pw, hpw, rfl⟩ := Option.map_eq_some_iff.mp hv
      exact (hhash pw hpw).mp (hin.password pw hpw)

theorem UpdateUserReq.Disjoint.patch {req' : UpdateUserReq} (h : req.Disjoint req') (u u' : User) :
    (req.patch u).Disjoint (req'.patch u') := by
  intro c
  cases c with
  | name => exact h.name
  | email => exact h.email
  | password => exact h.password.imp Option.map_eq_none_iff.mpr Option.map_eq_none_iff.mpr

/-- The patch of what an update has returned. -/
def returnedPatch (req : UpdateUserReq) : Result User → Patch fun _ : UserColumn => String
  | .ok user => req.patch user
  | .error _ => fun _ => none

theorem done_of_ret {a : Result User} {ph : Phase fun _ : UserColumn => String} (h : Updating id req (.ret a) ph) :
    ph = .done (returnedPatch req a) := by
  cases h with
  | start hp =>
    rw [updateUser_eq] at hp
    cases hp
  | hashing _ _ hp => cases hp
  | writing _ _ _ hp => cases hp
  | done hp =>
    cases hp
    rfl

theorem user_updates_kept {trace : UserRun} {req₀ req₁ : UpdateUserReq} {r₀ r₁ : User}
    (huser : user ∈ s.table.rows) (hid : user.id = id)
    (hrun : Run (SoleStep userSemantics) ⟨s, [updateUser id req₀, updateUser id req₁]⟩ trace
      ⟨t, [.ret (.ok r₀), .ret (.ok r₁)]⟩) (hdis : req₀.Disjoint req₁) :
    (∃ row ∈ t.table.rows, row.id = id ∧ req₀.In 0 trace row ∧ req₁.In 1 trace row) ↔
      Serial (accesses userAccess trace) ∨ (FirstWriter 0 (accesses userAccess trace) ∧ req₀.In 0 trace user) ∨
        (FirstWriter 1 (accesses userAccess trace) ∧ req₁.In 1 trace user) := by
  have hrow : userRow id s = some user.columns := congrArg (Option.map User.columns) (find_row.mpr ⟨huser, hid⟩)
  have hfail : ∀ r : User, ¬ Failed (.ok r : Result User) := fun _ ⟨_, h⟩ => (nomatch h)
  have hdid : ∀ j req r, [updateUser id req₀, updateUser id req₁][j]? = some (updateUser id req) →
      ([.ret (.ok r₀), .ret (.ok r₁)] : List (UserProg (Result User)))[j]? = some (.ret (.ok r)) →
      Did (updateUser id req) (repliesTo j trace) (.ok r) := by
    intro j req r hstart hend
    obtain ⟨q, hq, hfollows⟩ := Follows.of_run hrun hstart
    obtain rfl := Option.some.inj (hq.symm.trans hend)
    exact hfollows
  have h₀ := hdid 0 req₀ r₀ rfl rfl
  have h₁ := hdid 1 req₁ r₁ rfl rfl
  obtain ⟨w, hw, hiff⟩ := (userClients id fun i => if i = 0 then req₀ else req₁).kept_iff
    (fun i => returnedPatch (if i = 0 then req₀ else req₁)) (.start rfl) (.start rfl) hrow hrun (hfail r₀) (hfail r₁)
    (fun _ _ _ h => done_of_ret h) (hdis.patch r₀ r₁)
  obtain ⟨row, hfind, rfl⟩ := Option.map_eq_some_iff.mp hw
  obtain ⟨hmem, hrowid⟩ := find_row.mp hfind
  have hiff' : (req₀.patch r₀).In row.columns ∧ (req₁.patch r₁).In row.columns ↔
      Serial (accesses userAccess trace) ∨ (FirstWriter 0 (accesses userAccess trace) ∧ (req₀.patch r₀).In user.columns) ∨
        (FirstWriter 1 (accesses userAccess trace) ∧ (req₁.patch r₁).In user.columns) := hiff
  rw [in_columns h₀, in_columns h₁, in_columns h₀, in_columns h₁] at hiff'
  rw [← hiff']
  constructor
  · rintro ⟨u, hu, huid, hin⟩
    obtain rfl := t.table.eq_of_id hu hmem (huid.trans hrowid.symm)
    exact hin
  · intro hin
    exact ⟨row, hmem, hrowid, hin⟩

end Updates

/-- In a run of two updates of one room, or of one user, that give no field in common and both
succeed, the row ends with the values of both exactly if one update has read after the other has
written, or the row had the values of the first to write before. -/
theorem concurrent_updates_kept_iff {sᵣ tᵣ : Rooms.RoomState} {roomId : Uuid} {room room₀ room₁ : Rooms.Room}
    {roomReq₀ roomReq₁ : Rooms.UpdateRoomRequest}
    {roomTrace : List (Label Nat Rooms.RoomCmd Rooms.RoomReply (Rooms.Result Rooms.Room))}
    {s t : UserState} {id : String} {user user₀ user₁ : User} {req₀ req₁ : UpdateUserReq} {trace : UserRun}
    (hroom : sᵣ.tables.rooms.find roomId = some room)
    (hrooms : Run (SoleStep Rooms.roomSemantics)
      ⟨sᵣ, [Rooms.updateRoom roomId roomReq₀, Rooms.updateRoom roomId roomReq₁]⟩ roomTrace
      ⟨tᵣ, [.ret (.ok room₀), .ret (.ok room₁)]⟩)
    (hroomDis : roomReq₀.Disjoint roomReq₁) (huser : user ∈ s.table.rows) (hid : user.id = id)
    (husers : Run (SoleStep userSemantics) ⟨s, [updateUser id req₀, updateUser id req₁]⟩ trace
      ⟨t, [.ret (.ok user₀), .ret (.ok user₁)]⟩)
    (hdis : req₀.Disjoint req₁) :
    ((∃ row, tᵣ.tables.rooms.find roomId = some row ∧ roomReq₀.In row ∧ roomReq₁.In row) ↔
      Serial (accesses Rooms.roomAccess roomTrace) ∨
        (FirstWriter 0 (accesses Rooms.roomAccess roomTrace) ∧ roomReq₀.In room) ∨
        (FirstWriter 1 (accesses Rooms.roomAccess roomTrace) ∧ roomReq₁.In room)) ∧
    ((∃ row ∈ t.table.rows, row.id = id ∧ req₀.In 0 trace row ∧ req₁.In 1 trace row) ↔
      Serial (accesses userAccess trace) ∨ (FirstWriter 0 (accesses userAccess trace) ∧ req₀.In 0 trace user) ∨
        (FirstWriter 1 (accesses userAccess trace) ∧ req₁.In 1 trace user)) :=
  ⟨Rooms.room_updates_kept hroom hrooms hroomDis, user_updates_kept huser hid husers hdis⟩

section Sample

def annRow : User := ⟨"ann", "Ann", "ann@chinwag", "", .USER, "local", none, 0, 0, none⟩

def annTable : UserTable := ⟨[annRow], List.nodup_singleton _, List.nodup_singleton _⟩

def annState : UserState := ⟨annTable, 1, [], [], fun _ => none, fun _ => none, fun _ => none⟩

def rename : UpdateUserReq := ⟨some "Anna", none, none⟩

def readdress : UpdateUserReq := ⟨none, some "anna@chinwag", none⟩

theorem advance_read {i : Nat} {id : String} {req : UpdateUserReq} {s : UserState} {user : User}
    (huser : s.table.getUser id = .ok user) (hpw : req.password = none) :
    Advance (Exec i) (updateUser id req) s (repoUpdateUser (req.named user)) s := by
  rw [updateUser_eq]
  refine .call (.read (.getUser id)) ?_
  rw [show s.table.answer (.getUser id) = .ok user from huser]
  unfold afterRead
  rw [hpw]
  exact .stop _ _

theorem advance_write {i : Nat} {row : User} {s : UserState} {t : UserTable}
    (happly : (Write.updateUser row).apply s.now s.table = .ok (t, 1)) :
    Advance (Exec i) (repoUpdateUser row) s (.ret (.ok row)) (s.store t) :=
  .call (.write happly) (.stop _ _)

theorem updateUser_row {t : UserTable} {old : User} (row : User) (now : Nat) (hrows : t.rows = [old]) (hid : old.id = row.id)
    (hactive : old.deletedAt = none) : ∃ t', (Write.updateUser row).apply now t = .ok (t', 1) ∧ t'.rows =
      [{ old with name := row.name, email := row.email, password := row.password, updatedAt := now }] := by
  have hfree : ¬ ((∃ u ∈ t.rows, u.id = row.id ∧ u.deletedAt = none) ∧
      ∃ v ∈ t.rows, v.id ≠ row.id ∧ v.email = row.email) := by
    rintro ⟨-, v, hv, hne, -⟩
    rw [hrows, List.mem_singleton] at hv
    exact hne (hv ▸ hid)
  have hupdate : t.updateUser row now = .ok (_, t.rows.countP fun u => u.id = row.id ∧ u.deletedAt = none) :=
    dif_neg hfree
  have hcount : t.rows.countP (fun u => u.id = row.id ∧ u.deletedAt = none) = 1 := by
    simp [hrows, hid, hactive]
  rw [hcount] at hupdate
  refine ⟨_, hupdate, ?_⟩
  show t.rows.map _ = _
  simp [hrows, hid, hactive]

/-- Both updates read, then the one that renames the user writes, then the other. -/
theorem overlapping_updates : ∃ (trace : UserRun) (t : UserState) (r₀ r₁ row : User),
    Run (SoleStep userSemantics) ⟨annState, [updateUser "ann" rename, updateUser "ann" readdress]⟩ trace
      ⟨t, [.ret (.ok r₀), .ret (.ok r₁)]⟩ ∧ t.table.rows = [row] ∧ row.name = "Ann" := by
  have huser : annState.table.getUser "ann" = .ok annRow := rfl
  have hrows : annState.table.rows = [annRow] := rfl
  generalize annState = s at huser hrows
  obtain ⟨t₁, hwrite, hrows₁⟩ := updateUser_row (rename.named annRow) s.now hrows rfl rfl
  obtain ⟨t₂, hwrite', hrows₂⟩ := updateUser_row (readdress.named annRow) s.now hrows₁ rfl rfl
  obtain ⟨trace, hrun⟩ := run_overlapping (S := userSemantics) (advance_read huser rfl) (advance_read huser rfl)
    (advance_write hwrite) (advance_write (s := s.store t₁) hwrite')
  exact ⟨trace, _, _, _, _, hrun, hrows₂, rfl⟩

/-- In the runs where the second write comes from an old copy, nobody read after a write. -/
theorem concurrent_updates_overlap :
    (∃ (trace : List (Label Nat Rooms.RoomCmd Rooms.RoomReply (Rooms.Result Rooms.Room))),
      ¬ Serial (accesses Rooms.roomAccess trace) ∧ ∃ t r₀ r₁,
        Run (SoleStep Rooms.roomSemantics) ⟨Rooms.restingState (Rooms.sampleTables (Rooms.sampleRoom 16 none none) rfl),
          [Rooms.updateRoom Rooms.den Rooms.lair, Rooms.updateRoom Rooms.den Rooms.smaller]⟩ trace
          ⟨t, [.ret (.ok r₀), .ret (.ok r₁)]⟩) ∧
    ∃ (trace : UserRun), ¬ Serial (accesses userAccess trace) ∧ ∃ t r₀ r₁,
      Run (SoleStep userSemantics) ⟨annState, [updateUser "ann" rename, updateUser "ann" readdress]⟩ trace
        ⟨t, [.ret (.ok r₀), .ret (.ok r₁)]⟩ := by
  obtain ⟨roomTrace, tᵣ, room₀, room₁, hrooms, row, hfind, hname⟩ := Rooms.overlapping_rename
  obtain ⟨trace, t, user₀, user₁, userRow, husers, hrows, hname'⟩ := overlapping_updates
  have hmem : annRow ∈ annState.table.rows := List.mem_singleton_self _
  have hroom : (Rooms.restingState (Rooms.sampleTables (Rooms.sampleRoom 16 none none) rfl)).tables.rooms.find Rooms.den =
      some (Rooms.sampleRoom 16 none none) := rfl
  have hkept := concurrent_updates_kept_iff hroom hrooms Rooms.lair_disjoint hmem rfl husers
    ⟨.inr rfl, .inl rfl, .inl rfl⟩
  refine ⟨⟨roomTrace, fun hserial => ?_, tᵣ, room₀, room₁, hrooms⟩,
    ⟨trace, fun hserial => ?_, t, user₀, user₁, husers⟩⟩
  · obtain ⟨row', hfind', hlair, -⟩ := hkept.1.mpr (.inl hserial)
    obtain rfl := Option.some.inj (hfind.symm.trans hfind')
    exact Rooms.not_in_lair hname hlair
  · obtain ⟨row', hrow', -, hrename, -⟩ := hkept.2.mpr (.inl hserial)
    rw [hrows, List.mem_singleton] at hrow'
    subst hrow'
    exact absurd ((hrename.name "Anna" rfl).symm.trans hname') (by decide)

end Sample

end Chinwag.Users

import Chinwag.Users.GoogleIdentity

/-!
# Accounts made by an administrator

`AdminCreateUser` inserts the account in a transaction and then gives it its role in a statement of
its own. Between the two, and while their answers are on the way, the call can fail.
-/
namespace Chinwag.Users

open Program Auth Transition

variable {s t : UserState} {req : CreateAdminUserRequest} {i : Nat}

abbrev CreationPool := Pool UserState UserCmd UserReply (Result AdminUserResponse)

abbrev CreationLabel := Label Nat UserCmd UserReply (Result AdminUserResponse)

/-- A call of `AdminCreateUser`, with time passing as it likes. -/
abbrev CreationStep : CreationPool → CreationLabel → CreationPool → Prop := SoleStep userSemantics

variable {trace : List CreationLabel} {r : Result AdminUserResponse}

/-- The role a request asks for. -/
def requestedRole (req : CreateAdminUserRequest) : Option Role := validRole (if req.role = "" then "USER" else req.role)

/-- An error leaves the table alone; otherwise it has one more row, with the role of the request. -/
def AllOrNothing (req : CreateAdminUserRequest) (before after : List User) : Result AdminUserResponse → Prop
  | .error _ => after = before
  | .ok resp => ∃ u, after = before ++ [u] ∧ resp.id = u.id ∧ requestedRole req = some u.role

/-- The answers after which the row is there and the call fails. -/
inductive LeavesRow : CreationLabel → Prop where
  | lost (i : Nat) (user : User) : LeavesRow (.cmd i (.write (.createUser user)) (.error .lost))
  | unset (i : Nat) (id : String) (role : Role) (e : DbError) : LeavesRow (.cmd i (.write (.setRole id role)) (.error e))

theorem not_leavesRow_env {es : List Nat} {l : CreationLabel} (h : l ∈ es.map .env) : ¬ LeavesRow l := by
  obtain ⟨e, -, rfl⟩ := List.mem_map.mp h
  exact nofun

theorem not_leavesRow_refused {user : User} {e : DbError} (hne : e ≠ .lost) :
    ¬ LeavesRow (.cmd i (.write (.createUser user)) (.error e)) := by
  intro h
  cases h
  exact hne rfl

/-- What a statement does, by its answer. -/
theorem exec_write {w : Write} {reply : UserReply (.write w)} (h : Exec i (.write w) s reply t) :
    (∃ n, w.apply s.now s.table = .ok (t.table, n) ∧ (reply = .ok n ∨ reply = .error .lost)) ∨
      ∃ e, t.table = s.table ∧ reply = .error e ∧ e ≠ .lost := by
  cases h with
  | write happly => exact Or.inl ⟨_, happly, Or.inl rfl⟩
  | writeRefused happly =>
    obtain rfl := Write.error_of_apply happly
    exact Or.inr ⟨_, rfl, rfl, nofun⟩
  | writeFailed => exact Or.inr ⟨_, rfl, rfl, nofun⟩
  | writeLost happly => exact Or.inl ⟨_, happly, Or.inr rfl⟩
  | outside hno => exact hno.elim

/-- The insertion adds one row at the end. -/
theorem rows_createUser {table table' : UserTable} {user : User} {now n : Nat}
    (h : (Write.createUser user).apply now table = .ok (table', n)) :
    table'.rows = table.rows ++ [UserTable.newRow user "local" none now] ∧ ∀ v ∈ table.rows, v.id ≠ user.id := by
  have hinsert : table.insert (UserTable.newRow user "local" none now) = .ok (table', n) := h
  unfold UserTable.insert at hinsert
  split at hinsert
  · next hfree =>
    obtain rfl := congrArg Prod.fst (Except.ok.inj hinsert)
    exact ⟨rfl, fun v hv => (hfree v hv).1⟩
  · cases hinsert

/-- The role of the last row, whose id no other has. -/
theorem rows_setRole {table table' : UserTable} {old : List User} {u : User} {role : Role} {now n : Nat}
    (hrows : table.rows = old ++ [u]) (hfree : ∀ v ∈ old, v.id ≠ u.id)
    (h : (Write.setRole u.id role).apply now table = .ok (table', n)) :
    table'.rows = old ++ [{ u with role := role, updatedAt := now }] := by
  have hset : table.setRole u.id role now = (table', n) := Except.ok.inj h
  have hmap : table'.rows = table.rows.map fun v => if v.id == u.id then { v with role := role, updatedAt := now } else v :=
    congrArg (fun p => p.1.rows) hset.symm
  rw [hmap, hrows, List.map_append, List.map_singleton, if_pos (beq_self_eq_true u.id)]
  have hold : old.map (fun v => if v.id == u.id then { v with role := role, updatedAt := now } else v) = old := by
    conv_rhs => rw [← List.map_id old]
    refine List.map_congr_left fun v hv => ?_
    have hne : (v.id == u.id) = false := beq_eq_false_iff_ne.mpr (hfree v hv)
    rw [hne]
    rfl
  rw [hold]

/-- How a call may end, and whether one of its answers left a row behind. -/
inductive Ended (req : CreateAdminUserRequest) (trace : List CreationLabel) (before after : List User) :
    Result AdminUserResponse → Prop where
  | nothing {e : ServiceError} (hafter : after = before) (hclean : ∀ l ∈ trace, ¬ LeavesRow l) :
      Ended req trace before after (.error e)
  | created {resp : AdminUserResponse} {u : User} (hafter : after = before ++ [u]) (hid : resp.id = u.id)
      (hrole : requestedRole req = some u.role) (hclean : ∀ l ∈ trace, ¬ LeavesRow l) :
      Ended req trace before after (.ok resp)
  | halfway {e : ServiceError} {u : User} (hafter : after = before ++ [u]) {l : CreationLabel} (hl : l ∈ trace)
      (hleaves : LeavesRow l) : Ended req trace before after (.error e)

/-- The statement that sets the role ends the call. -/
theorem ended_setRole {resp : AdminUserResponse} {before : List User} {u : User} {role : Role}
    (hrows : s.table.rows = before ++ [u]) (hfree : ∀ v ∈ before, v.id ≠ u.id) (hid : resp.id = u.id)
    (hrole : requestedRole req = some role)
    (h : Run CreationStep ⟨s, [do
      match ← setRole u.id role with
      | .error e => return .error e
      | .ok () => return .ok resp]⟩ trace ⟨t, [.ret r]⟩) : Ended req trace before t.table.rows r := by
  obtain ⟨es, s₁, answer, s₂, after, rfl, hdrift, hset, h⟩ := sole_call h
  have hdrawn : s₁.table = s.table := table_elapsed hdrift
  have hrows₁ : s₁.table.rows = before ++ [u] := by rw [hdrawn, hrows]
  cases answer with
  | error e =>
    obtain ⟨rfl, es', rfl, hdrift'⟩ := sole_ret h
    have hleft : ∃ v, s₂.table.rows = before ++ [v] := by
      rcases exec_write hset with ⟨n, happly, -⟩ | ⟨e, hsame, -⟩
      · exact ⟨_, rows_setRole hrows₁ hfree happly⟩
      · exact ⟨u, by rw [hsame, hrows₁]⟩
    obtain ⟨v, hv⟩ := hleft
    rw [table_elapsed hdrift']
    exact .halfway hv (List.mem_append_right _ List.mem_cons_self) (.unset 0 u.id role e)
  | ok n =>
    obtain ⟨rfl, es', rfl, hdrift'⟩ := sole_ret h
    rcases exec_write hset with ⟨n', happly, -⟩ | ⟨e, -, heq, -⟩
    · rw [table_elapsed hdrift', rows_setRole hrows₁ hfree happly]
      refine .created rfl hid hrole fun l hl => ?_
      rcases List.mem_append.mp hl with hl | hl
      · exact not_leavesRow_env hl
      · rcases List.mem_cons.mp hl with rfl | hl
        · exact nofun
        · exact not_leavesRow_env hl
    · cases heq

/-- A label ahead of the rest that leaves no row, after time has passed. -/
theorem clean_append {es : List Nat} {l : CreationLabel} {after : List CreationLabel} (hl : ¬ LeavesRow l)
    (h : ∀ l ∈ after, ¬ LeavesRow l) : ∀ l' ∈ es.map .env ++ l :: after, ¬ LeavesRow l' := by
  intro l' hl'
  rcases List.mem_append.mp hl' with hl' | hl'
  · exact not_leavesRow_env hl'
  · rcases List.mem_cons.mp hl' with rfl | hl'
    · exact hl
    · exact h l' hl'

theorem Ended.cons {before after : List User} {es : List Nat} {l : CreationLabel} (hl : ¬ LeavesRow l)
    (h : Ended req trace before after r) : Ended req (es.map .env ++ l :: trace) before after r := by
  cases h with
  | nothing hafter hclean => exact .nothing hafter (clean_append hl hclean)
  | created hafter hid hrole hclean => exact .created hafter hid hrole (clean_append hl hclean)
  | halfway hafter hmem hleaves =>
    exact .halfway hafter (List.mem_append_right _ (List.mem_cons_of_mem _ hmem)) hleaves

theorem Ended.at_once {e : ServiceError} (h : Run CreationStep ⟨s, [.ret (.error e)]⟩ trace ⟨t, [.ret r]⟩) :
    Ended req trace s.table.rows t.table.rows r := by
  obtain ⟨rfl, es, rfl, hdrift⟩ := sole_ret h
  rw [table_elapsed hdrift]
  exact .nothing rfl fun l => not_leavesRow_env

/-- A call ends with nothing done, with the account made, or after an answer that left the row behind. -/
theorem ended_adminCreateUser (h : Run CreationStep ⟨s, [adminCreateUser req]⟩ trace ⟨t, [.ret r]⟩) :
    Ended req trace s.table.rows t.table.rows r := by
  unfold adminCreateUser at h
  cases hrole : requestedRole req with
  | none =>
    rw [show validRole (if req.role = "" then "USER" else req.role) = none from hrole] at h
    exact .at_once h
  | some role =>
    rw [show validRole (if req.role = "" then "USER" else req.role) = some role from hrole] at h
    obtain ⟨es₁, s₁, id, s₂, after₁, rfl, hdrift₁, hdraw, h⟩ := sole_call h
    have htable₁ : s₂.table = s.table := by
      have hkept : s₂.table = s₁.table := by
        cases hdraw with
        | newV7 => rfl
        | outside hno => exact hno.elim
      rw [hkept, table_elapsed hdrift₁]
    refine .cons nofun ?_
    rw [← htable₁]
    obtain ⟨es₂, s₃, hash, s₄, after₂, rfl, hdrift₂, hhash, h⟩ := sole_call h
    have htable₂ : s₄.table = s₂.table := by
      have hkept : s₄.table = s₃.table := by
        cases hhash
        rfl
      rw [hkept, table_elapsed hdrift₂]
    refine .cons nofun ?_
    rw [← htable₂]
    cases hash with
    | none => exact .at_once h
    | some hash =>
      obtain ⟨es₃, s₅, answer, s₆, after₃, rfl, hdrift₃, hwrite, h⟩ := sole_call h
      have hdrawn : s₅.table = s₄.table := table_elapsed hdrift₃
      rcases exec_write hwrite with ⟨n, happly, hanswer⟩ | ⟨e, hsame, hanswer, hne⟩
      · obtain ⟨hrows, hfree⟩ := rows_createUser happly
        rw [hdrawn] at hrows hfree
        rcases hanswer with rfl | rfl
        · refine .cons nofun ?_
          by_cases huser : role = .USER
          · subst huser
            obtain ⟨rfl, es₄, rfl, hdrift₄⟩ := sole_ret h
            rw [table_elapsed hdrift₄]
            exact .created hrows rfl hrole fun l => not_leavesRow_env
          · have hthen : Run CreationStep ⟨s₆, [if role = .USER then _ else do
                match ← setRole id role with
                | .error e => return .error e
                | .ok () => return .ok _]⟩ after₃ ⟨t, [.ret r]⟩ := h
            rw [if_neg huser] at hthen
            exact ended_setRole hrows hfree rfl hrole hthen
        · obtain ⟨rfl, es₄, rfl, hdrift₄⟩ := sole_ret h
          rw [table_elapsed hdrift₄]
          exact .halfway hrows (List.mem_append_right _ List.mem_cons_self) (.lost 0 _)
      · subst hanswer
        refine .cons (not_leavesRow_refused hne) ?_
        rw [← hdrawn, ← hsame]
        exact .at_once h

/-- A call is all or nothing exactly when no answer to it left a row behind. -/
theorem admin_creation_iff (h : Run CreationStep ⟨s, [adminCreateUser req]⟩ trace ⟨t, [.ret r]⟩) :
    AllOrNothing req s.table.rows t.table.rows r ↔ ∀ l ∈ trace, ¬ LeavesRow l := by
  have hended := ended_adminCreateUser h
  constructor
  · intro hall
    cases hended with
    | nothing _ hclean => exact hclean
    | created _ _ _ hclean => exact hclean
    | halfway hafter _ _ =>
      have hsame : t.table.rows = s.table.rows := hall
      have hgrown := congrArg List.length hafter
      rw [hsame, List.length_append, List.length_singleton] at hgrown
      omega
  · intro hclean
    cases hended with
    | nothing hafter _ => exact hafter
    | created hafter hid hrole _ => exact ⟨_, hafter, hid, hrole⟩
    | halfway _ hl hleaves => exact absurd hleaves (hclean _ hl)

section Sample

def managerRequest : CreateAdminUserRequest := ⟨"Mia", "mia@example.org", "secret", "MANAGER"⟩

def managerTable : UserTable :=
  ⟨[rootUser, ⟨"new", "Mia", "mia@example.org", "hash", .USER, "local", none, 1, 1, none⟩], by decide, by decide⟩

theorem manager_inserted : (Write.createUser ⟨"new", "Mia", "mia@example.org", "hash", .USER, "", none, 0, 0, none⟩).apply
    1 rootTable = .ok (managerTable, 1) := by
  have hfree : ∀ v ∈ rootTable.rows, v.id ≠ "new" ∧ v.email ≠ "mia@example.org" := by decide
  have hinsert : rootTable.insert ⟨"new", "Mia", "mia@example.org", "hash", .USER, "local", none, 1, 1, none⟩ =
      .ok (managerTable, 1) := by
    unfold UserTable.insert
    exact dif_pos hfree
  exact hinsert

/-- The call up to the statement that sets the role. -/
theorem alone_created {t : UserState} {r : Result AdminUserResponse}
    (h : Alone (Exec 0) Eq (do
      match ← setRole "new" .MANAGER with
      | .error e => return .error e
      | .ok () => return .ok ⟨"new", "Mia", "mia@example.org", .MANAGER, "", 0, 0, none⟩)
      (((restingState rootTable).draw "new").store managerTable) r t) :
    Alone (Exec 0) Eq (adminCreateUser managerRequest) (restingState rootTable) r t := by
  have hfree : ∀ u ∈ rootTable.rows, u.id ≠ "new" := by decide
  have hhash : Exec 0 (.generateFromPassword "secret") ((restingState rootTable).draw "new") (some "hash")
      ((restingState rootTable).draw "new") := .outside trivial
  have hcreate : Exec 0 (.write (.createUser ⟨"new", "Mia", "mia@example.org", "hash", .USER, "", none, 0, 0, none⟩))
      ((restingState rootTable).draw "new") (.ok 1) (((restingState rootTable).draw "new").store managerTable) :=
    .write manager_inserted
  exact .call rfl (.newV7 List.not_mem_nil hfree) (.call rfl hhash (.call rfl hcreate h))

end Sample

/-- The role of a new manager cannot be set: the call fails, the account stays, and no retry can make it. -/
theorem account_without_role : ∃ trace t,
    Run CreationStep ⟨restingState rootTable, [adminCreateUser managerRequest]⟩ trace
      ⟨t, [.ret (.error (.db .unavailable))]⟩ ∧
    ¬ AllOrNothing managerRequest rootTable.rows t.table.rows (.error (.db .unavailable)) ∧
    ∀ user now, user.email = managerRequest.email → (Write.createUser user).apply now t.table = .error .uniqueViolation := by
  have halone : Alone (Exec 0) Eq (adminCreateUser managerRequest) (restingState rootTable)
      (.error (.db .unavailable)) _ := alone_created (.call rfl (.writeFailed _) (.ret _ _))
  obtain ⟨trace, hrun⟩ : ∃ trace, Run CreationStep ⟨restingState rootTable, [adminCreateUser managerRequest]⟩ trace
      ⟨_, [.ret _]⟩ := Alone.run (S := userSemantics) (i := 0) halone rfl
  refine ⟨trace, _, hrun, ?_, ?_⟩
  · intro hsame
    have hlength := congrArg List.length (show managerTable.rows = rootTable.rows from hsame)
    exact absurd hlength (by decide)
  · intro user now hemail
    show managerTable.insert _ = _
    refine dif_neg fun hfree => ?_
    exact (hfree _ (List.mem_cons_of_mem _ List.mem_cons_self)).2 hemail.symm

/-- The same request where every statement goes through. -/
theorem admin_creation_iff_manager : ∃ trace t resp,
    Run CreationStep ⟨restingState rootTable, [adminCreateUser managerRequest]⟩ trace ⟨t, [.ret (.ok resp)]⟩ ∧
      ∀ l ∈ trace, ¬ LeavesRow l := by
  have hset : Exec 0 (.write (.setRole "new" .MANAGER)) (((restingState rootTable).draw "new").store managerTable) (.ok 1)
      ((((restingState rootTable).draw "new").store managerTable).store (managerTable.setRole "new" .MANAGER 1).1) :=
    .write rfl
  have halone : Alone (Exec 0) Eq (adminCreateUser managerRequest) (restingState rootTable) (.ok _) _ :=
    alone_created (.call rfl hset (.ret _ _))
  obtain ⟨trace, hrun⟩ : ∃ trace, Run CreationStep ⟨restingState rootTable, [adminCreateUser managerRequest]⟩ trace
      ⟨_, [.ret _]⟩ := Alone.run (S := userSemantics) (i := 0) halone rfl
  exact ⟨trace, _, _, hrun, (admin_creation_iff hrun).mp ⟨_, rfl, rfl, rfl⟩⟩

end Chinwag.Users

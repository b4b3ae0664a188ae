import Chinwag.Users.System

/-!
# What each request writes

Handler by handler: no statement is executed but those its request warrants, and tokens are
handed out only to accounts that have been active.
-/
namespace Chinwag.Users

open Program Auth Transition Dpop

variable {s t : UserState} {i : Nat} {q : Request}

/-- The request of the thread is known, whatever its answer. -/
def Serving (i : Nat) (q : Request) {α : Type} (_ : α) (s : UserState) : Prop := s.received i = some q

theorem exec_received {c : UserCmd} {reply : UserReply c} (h : Exec i c s reply t)
    (hc : ∀ r, c ≠ .receive r) : t.received i = s.received i := by
  cases h with
  | receive r => exact absurd rfl (hc r)
  | read r =>
    unfold UserState.note
    split <;> rfl
  | readFailed => rfl
  | write => rfl
  | writeRefused => rfl
  | writeFailed => rfl
  | writeLost => rfl
  | newV7 => rfl
  | fetchUserInfo => rfl
  | fetchFailed => rfl
  | outside => rfl

section Rules

variable {α : Type} {Q : α → UserState → Prop}

theorem safe_call {c : UserCmd} {next : UserReply c → UserProg α} (hq : s.received i = some q)
    (hc : ∀ r, c ≠ .receive r)
    (hw : ∀ w, c = .write w → ∀ t, Undisturbed i s t → Warranted t i q w)
    (hnext : ∀ reply t u, userContract.inv t → Undisturbed i s t → Exec i c t reply u →
      u.received i = some q → Safe userSemantics userContract i Q (next reply) u) :
    Safe userSemantics userContract i Q (.call c next) s := by
  intro t ht hrely
  have hreceived : t.received i = some q := hrely.received.trans hq
  refine ⟨fun w hcw => ⟨q, hreceived, hw w hcw t hrely⟩, ?_⟩
  intro reply u hexec _
  exact hnext reply t u ht hrely hexec ((exec_received hexec hc).trans hreceived)

/-- A query, by what it was answered. -/
theorem safe_lookup {query : Query} {next : Except DbError query.Row → UserProg α} (hq : s.received i = some q)
    (hnext : ∀ reply t u, userContract.inv t → Undisturbed i s t → Exec i (.read query) t reply u →
      u.received i = some q → Safe userSemantics userContract i Q (next reply) u) :
    Safe userSemantics userContract i Q (.call (.read query) next) s := by
  refine safe_call hq ?_ ?_ hnext
  · intro r h
    cases h
  · intro w h
    cases h

/-- A command that is no statement, and whose answer does not matter. -/
theorem safe_ask {c : UserCmd} {next : UserReply c → UserProg α} (hq : s.received i = some q)
    (hc : ∀ r, c ≠ .receive r) (hw : ∀ w, c ≠ .write w)
    (hnext : ∀ reply u, u.received i = some q → Safe userSemantics userContract i Q (next reply) u) :
    Safe userSemantics userContract i Q (.call c next) s :=
  safe_call hq hc (fun w h => absurd h (hw w)) fun reply _ u _ _ _ hu => hnext reply u hu

theorem safe_write {w : Write} {next : Except DbError Nat → UserProg α} (hq : s.received i = some q)
    (hw : ∀ t, Undisturbed i s t → Warranted t i q w)
    (hnext : ∀ reply u, u.received i = some q → Safe userSemantics userContract i Q (next reply) u) :
    Safe userSemantics userContract i Q (.call (.write w) next) s := by
  refine safe_call hq (fun r h => nomatch h) ?_ fun reply _ u _ _ _ hu => hnext reply u hu
  intro w' h
  obtain rfl := UserCmd.write.inj h
  exact hw

/-- A handler that only words the result of a service call hands out no tokens. -/
theorem safe_respond {β : Type} {ok : β → Response} (hok : ∀ b access refresh, ok b ≠ .tokens access refresh)
    {p : UserProg (Result β)} (hp : Safe userSemantics userContract i (Serving i q) p s) :
    Safe userSemantics userContract i (Admitted i) (do return respond ok (← p)) s := by
  refine hp.bind ?_
  intro r t _ access refresh htokens
  cases r with
  | error e => cases htokens
  | ok b => exact absurd htokens (hok b access refresh)

theorem safe_hash {password : String} {next : Option String → UserProg α} (hq : s.received i = some q)
    (hnext : ∀ hash u, u.received i = some q → Safe userSemantics userContract i Q (next hash) u) :
    Safe userSemantics userContract i Q (.call (.generateFromPassword password) next) s := by
  refine safe_ask hq ?_ ?_ hnext
  · intro r h
    cases h
  · intro w h
    cases h

end Rules

section Services

/-- A read whose answer is reported at once. -/
theorem safe_query {β : Type} {r : Query} {next : Except DbError r.Row → UserProg (Result β)}
    (hq : s.received i = some q) (hret : ∀ reply, ∃ a, next reply = .ret a) :
    Safe userSemantics userContract i (Serving i q) (.call (.read r) next) s := by
  refine safe_lookup hq fun reply _ u _ _ _ hu => ?_
  obtain ⟨a, ha⟩ := hret reply
  rw [ha]
  exact hu

/-- A statement whose result is reported at once. -/
theorem safe_statement {β : Type} {w : Write} {next : Except DbError Nat → UserProg (Result β)}
    (hq : s.received i = some q) (hw : ∀ t, Undisturbed i s t → Warranted t i q w)
    (hret : ∀ reply, ∃ a, next reply = .ret a) :
    Safe userSemantics userContract i (Serving i q) (.call (.write w) next) s := by
  refine safe_write hq hw ?_
  intro reply u hu
  obtain ⟨a, ha⟩ := hret reply
  rw [ha]
  exact hu

theorem safe_getUser (id : String) (hq : s.received i = some q) :
    Safe userSemantics userContract i (Serving i q) (getUser id) s :=
  safe_query hq fun reply => by cases reply <;> exact ⟨_, rfl⟩

theorem safe_getUserByEmail (email : String) (hq : s.received i = some q) :
    Safe userSemantics userContract i (Serving i q) (getUserByEmail email) s :=
  safe_query hq fun reply => by cases reply <;> exact ⟨_, rfl⟩

theorem safe_adminGetUser (id : String) (hq : s.received i = some q) :
    Safe userSemantics userContract i (Serving i q) (adminGetUser id) s :=
  safe_query hq fun reply => by cases reply <;> exact ⟨_, rfl⟩

theorem safe_deleteUser {id : String} (hq : s.received i = some q)
    (hw : ∀ t, Undisturbed i s t → Warranted t i q (.deleteUser id)) :
    Safe userSemantics userContract i (Serving i q) (deleteUser id) s :=
  safe_statement hq hw fun reply => by cases reply <;> exact ⟨_, rfl⟩

theorem safe_setRole {id : String} {role : Role} (hq : s.received i = some q)
    (hw : ∀ t, Undisturbed i s t → Warranted t i q (.setRole id role)) :
    Safe userSemantics userContract i (Serving i q) (setRole id role) s :=
  safe_statement hq hw fun reply => by cases reply <;> exact ⟨_, rfl⟩

theorem safe_createUser (req : CreateUserReq) (hq : s.received i = some q)
    (hw : ∀ user t, Warranted t i q (.createUser user)) :
    Safe userSemantics userContract i (Serving i q) (createUser req) s := by
  refine safe_ask hq (fun _ h => nomatch h) (fun _ h => nomatch h) ?_
  intro id u hu
  refine safe_hash hu ?_
  intro hash u hu
  cases hash with
  | none => exact hu
  | some hash =>
    refine safe_write hu (fun t _ => hw _ t) ?_
    intro reply u hu
    cases reply with
    | error e => exact hu
    | ok n => exact hu

theorem safe_repoUpdateUser {user : User} (hq : s.received i = some q)
    (hw : ∀ t, Warranted t i q (.updateUser user)) :
    Safe userSemantics userContract i (Serving i q) (repoUpdateUser user) s := by
  refine safe_write hq (fun t _ => hw t) ?_
  intro reply u hu
  match reply with
  | .error e => exact hu
  | .ok 0 => exact hu
  | .ok (n + 1) => exact hu

/-- The row updated is the one of the id asked for. -/
theorem safe_updateUser {id : String} (req : UpdateUserReq) (hq : s.received i = some q)
    (hw : ∀ user t, user.id = id → Warranted t i q (.updateUser user)) :
    Safe userSemantics userContract i (Serving i q) (updateUser id req) s := by
  refine safe_lookup hq ?_
  intro reply t u _ _ hexec hu
  cases reply with
  | error e => exact hu
  | ok user =>
    have hid : user.id = id := by
      generalize hreply : (Except.ok user : UserReply (.read (.getUser id))) = reply at hexec
      cases hexec with
      | read => exact (UserTable.getUser_ok hreply.symm).2.1
      | readFailed => cases hreply
      | outside h => exact h.elim
    dsimp only [Prog.bind]
    cases req.password with
    | none => exact safe_repoUpdateUser hu fun t => hw _ t hid
    | some password =>
      refine safe_hash hu ?_
      intro hash u hu
      cases hash with
      | none => exact hu
      | some hash => exact safe_repoUpdateUser hu fun t => hw _ t hid

theorem safe_adminCreateUser (req : CreateAdminUserRequest) (hq : s.received i = some q)
    (hcreate : ∀ user t, Warranted t i q (.createUser user))
    (hrole : ∀ id role t, Warranted t i q (.setRole id role)) :
    Safe userSemantics userContract i (Serving i q) (adminCreateUser req) s := by
  unfold adminCreateUser
  split
  · exact hq
  · refine (safe_createUser _ hq hcreate).bind ?_
    intro r t ht
    cases r with
    | error e => exact ht
    | ok u =>
      show Safe _ _ _ _ (if _ then _ else _) t
      split
      · exact ht
      · refine (safe_setRole ht fun t _ => hrole _ _ t).bind ?_
        intro r t ht
        cases r with
        | error e => exact ht
        | ok => exact ht

theorem safe_adminUpdateUser {id : String} (req : UpdateUserReq) (hq : s.received i = some q)
    (hw : ∀ user t, user.id = id → Warranted t i q (.updateUser user)) :
    Safe userSemantics userContract i (Serving i q) (adminUpdateUser id req) s := by
  refine (safe_updateUser req hq hw).bind ?_
  intro r t ht
  cases r with
  | error e => exact ht
  | ok u => exact ht

theorem Cleared.mono {id : String} (h : Undisturbed i s t) (hc : Cleared s i id) : Cleared t i id := by
  obtain ⟨r, hr, hrest⟩ := hc
  exact ⟨r, h.readings.trans hr, hrest⟩

/-- The target has been read as `role` by this thread, and nothing counted yet. -/
def HasRead (s : UserState) (i : Nat) (id : String) (role : Role) : Prop :=
  s.readings i = some ⟨id, role, none⟩

theorem HasRead.cleared {id : String} {role : Role} (h : HasRead s i id role) (hrole : role ≠ .ADMIN) :
    Cleared s i id :=
  ⟨_, h, rfl, Or.inl hrole⟩

theorem safe_readTarget {id : String} {f : User → UserProg (Result Unit)} (hq : s.received i = some q)
    (hf : ∀ current u, u.received i = some q → HasRead u i id current.role →
      Safe userSemantics userContract i (Serving i q) (f current) u) :
    Safe userSemantics userContract i (Serving i q)
      (.call (.read (.getUserIncludingDeleted id)) fun reply => match reply with
        | .error e => .ret (.error (.db e))
        | .ok current => f current) s := by
  refine safe_lookup hq ?_
  intro reply t u _ _ hexec hu
  cases reply with
  | error e => exact hu
  | ok current =>
    refine hf current u hu ?_
    generalize hreply : (Except.ok current : UserReply (.read (.getUserIncludingDeleted id))) = reply at hexec
    cases hexec with
    | read =>
      rw [← hreply]
      exact Function.update_self _ _ _
    | readFailed => cases hreply
    | outside h => exact h.elim

/-- Behind the guard the count of more than one is on record. -/
theorem safe_ensureOtherAdmin {id : String} {role : Role} {next : UserProg (Result Unit)}
    (hq : s.received i = some q) (hread : HasRead s i id role)
    (hnext : ∀ u, u.received i = some q → Cleared u i id →
      Safe userSemantics userContract i (Serving i q) next u) :
    Safe userSemantics userContract i (Serving i q) (ensureOtherAdmin next) s := by
  refine safe_lookup hq ?_
  intro reply t u _ hrely hexec hu
  cases reply with
  | error e => exact hu
  | ok n =>
    show Safe _ _ _ _ (if (n : Nat) ≤ 1 then _ else _) u
    split
    · exact hu
    · next hmany =>
      refine hnext u hu ?_
      generalize hreply : (Except.ok n : UserReply (.read .countAdmins)) = reply at hexec
      cases hexec with
      | read =>
        obtain rfl : n = t.table.countAdmins := Except.ok.inj hreply
        refine ⟨⟨id, role, some t.table.countAdmins⟩, ?_, rfl, Or.inr ⟨_, rfl, Nat.lt_of_not_le hmany⟩⟩
        show Function.update t.readings i ((t.readings i).map _) i = _
        rw [Function.update_self, hrely.readings.trans hread]
        rfl
      | readFailed => cases hreply
      | outside h => exact h.elim

theorem safe_adminSetRole {id actorID role : String} (hq : s.received i = some q)
    (hw : ∀ role t, role = .ADMIN ∨ Cleared t i id → Warranted t i q (.setRole id role)) :
    Safe userSemantics userContract i (Serving i q) (adminSetRole id actorID role) s := by
  unfold adminSetRole
  split
  · exact hq
  · next role _ =>
    split
    · exact hq
    · refine safe_readTarget hq ?_
      intro current u hu hread
      show Safe _ _ _ _ (if current.role = .ADMIN ∧ role ≠ .ADMIN then _ else _) u
      split
      · refine safe_ensureOtherAdmin hu hread ?_
        intro u hu hcleared
        exact safe_setRole hu fun t ht => hw _ t (Or.inr (hcleared.mono ht))
      · next hno =>
        refine safe_setRole hu fun t ht => hw _ t ?_
        by_cases hadmin : current.role = .ADMIN
        · exact Or.inl (by_contra fun hrole => hno ⟨hadmin, hrole⟩)
        · exact Or.inr ((hread.cleared hadmin).mono ht)

theorem safe_adminDisableUser {id : String} (hq : s.received i = some q)
    (hw : ∀ t, Cleared t i id → Warranted t i q (.deleteUser id)) :
    Safe userSemantics userContract i (Serving i q) (adminDisableUser id) s := by
  refine safe_readTarget hq ?_
  intro current u hu hread
  show Safe _ _ _ _ (if current.role = .ADMIN then _ else _) u
  split
  · refine safe_ensureOtherAdmin hu hread ?_
    intro u hu hcleared
    exact safe_deleteUser hu fun t ht => hw t (hcleared.mono ht)
  · next hrole => exact safe_deleteUser hu fun t ht => hw t ((hread.cleared hrole).mono ht)

theorem safe_adminRestoreUser {id : String} (hq : s.received i = some q)
    (hw : ∀ t, Warranted t i q (.restoreUser id)) :
    Safe userSemantics userContract i (Serving i q) (adminRestoreUser id) s := by
  refine safe_write hq (fun t _ => hw t) ?_
  intro reply u hu
  cases reply with
  | error e => exact hu
  | ok n => exact safe_adminGetUser id hu

end Services

end Chinwag.Users

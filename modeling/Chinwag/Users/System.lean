import Mathlib.Logic.Function.Basic
import Chinwag.Users.Handlers

/-!
# The auth service over one users table

Requests are served in any interleaving. Beside the table the state remembers, for the
statements to come, who sent which request, what a guard read, whose email Google vouched
for, and which accounts were active at some time.
-/
namespace Chinwag.Users

open Program Auth Transition

/-- What a guarded operation has read of its target, and the administrators it counted. -/
structure Reading where
  target : String
  role : Role
  admins : Option Nat

structure UserState where
  table : UserTable
  now : Nat
  drawn : List String
  activated : List String
  received : Nat → Option Request
  readings : Nat → Option Reading
  vouched : Nat → Option String

namespace UserState

variable (s : UserState) (i : Nat)

def receive (q : Request) : UserState := { s with received := Function.update s.received i (some q) }

def vouch (email : String) : UserState := { s with vouched := Function.update s.vouched i (some email) }

def draw (id : String) : UserState := { s with drawn := id :: s.drawn }

def read (reading : Option Reading) : UserState :=
  { s with readings := Function.update s.readings i reading }

def note : (q : Query) → Except DbError q.Row → UserState
  | .getUserIncludingDeleted id, .ok u => s.read i (some ⟨id, u.role, none⟩)
  | .countAdmins, .ok n => s.read i ((s.readings i).map fun r => { r with admins := some n })
  | _, _ => s

def activeIds (t : UserTable) : List String := (t.rows.filter fun u => u.deletedAt.isNone).map User.id

def store (t : UserTable) : UserState := { s with table := t, activated := activeIds t ++ s.activated }

end UserState

/-- What the calls of the refresh handler may answer, as far as accounts are concerned: the token
rotated and the token signed are those of the user asked for. -/
def RefreshAnswers (t : UserTable) : (c : RefreshCmd) → RefreshReply c → Prop
  | .rotateRefreshToken claims, reply => ∀ rot, reply = .ok rot →
      rot.userID = claims.subject ∧ rot.newToken.subject = claims.subject
  | .getUser id, reply => reply = t.getUser id ∨ reply = .error .unavailable
  | .newAccessToken userId role jkt, reply => ∀ token, reply = .ok token → token = ⟨userId, role, jkt⟩
  | _, _ => True

/-- What the calls outside the table may answer. -/
def OutsideAnswers (t : UserTable) : (c : UserCmd) → UserReply c → Prop
  | .generateFromPassword _, _ => True
  | .compareHashAndPassword _ _, _ => True
  | .signWithCNF userId role jkt, reply => ∀ token, reply = .ok token → token = ⟨userId, role, jkt⟩
  | .issueRefreshToken subject jkt, reply =>
      ∀ token, reply = .ok token → token.subject = subject ∧ token.jkt = jkt
  | .consumeState _, _ => True
  | .refresh c, reply => RefreshAnswers t c reply
  | _, _ => False

/-- Every call may fail. A drawn UUID is one never used before. -/
inductive Exec (i : Nat) : (c : UserCmd) → UserState → UserReply c → UserState → Prop where
  | receive {s : UserState} (q : Request) : Exec i (.receive q) s () (s.receive i q)
  | read {s : UserState} (q : Query) : Exec i (.read q) s (s.table.answer q) (s.note i q (s.table.answer q))
  | readFailed {s : UserState} (q : Query) : Exec i (.read q) s (.error .unavailable) s
  | write {s : UserState} {w : Write} {t : UserTable} {n : Nat} (h : w.apply s.now s.table = .ok (t, n)) :
      Exec i (.write w) s (.ok n) (s.store t)
  | writeRefused {s : UserState} {w : Write} {e : DbError} (h : w.apply s.now s.table = .error e) :
      Exec i (.write w) s (.error e) s
  | writeFailed {s : UserState} (w : Write) : Exec i (.write w) s (.error .unavailable) s
  | writeLost {s : UserState} {w : Write} {t : UserTable} {n : Nat} (h : w.apply s.now s.table = .ok (t, n)) :
      Exec i (.write w) s (.error .lost) (s.store t)
  | newV7 {s : UserState} {id : String} (fresh : id ∉ s.drawn) (free : ∀ u ∈ s.table.rows, u.id ≠ id) :
      Exec i .newV7 s id (s.draw id)
  | fetchUserInfo {s : UserState} (code : String) (info : GoogleUserInfo) :
      Exec i (.fetchUserInfo code) s (.ok info) (s.vouch i info.email)
  | fetchFailed {s : UserState} (code reason : String) : Exec i (.fetchUserInfo code) s (.error reason) s
  | outside {s : UserState} {c : UserCmd} {reply : UserReply c} (h : OutsideAnswers s.table c reply) :
      Exec i c s reply s

def userSemantics : Semantics UserState Nat UserCmd UserReply where
  exec := Exec
  env s elapsed t := t = { s with now := s.now + elapsed }

abbrev UserPool := Pool UserState UserCmd UserReply Response

abbrev UserLabel := Label Nat UserCmd UserReply Response

def Serves (p : UserProg Response) : Prop := ∃ q, p = serve q

abbrev UserStep : UserPool → UserLabel → UserPool → Prop := Step userSemantics Serves

/-- Any table, no request under way. -/
structure UsersInit (pool : UserPool) : Prop where
  threads : pool.threads = []
  drawn : pool.shared.drawn = []
  activated : pool.shared.activated = UserState.activeIds pool.shared.table
  received : ∀ i, pool.shared.received i = none
  vouched : ∀ i, pool.shared.vouched i = none

/-- What a guard has made sure of: the target was no administrator, or more than one was counted. -/
def Cleared (s : UserState) (i : Nat) (id : String) : Prop :=
  ∃ r, s.readings i = some r ∧ r.target = id ∧ (r.role ≠ .ADMIN ∨ ∃ n, r.admins = some n ∧ 1 < n)

/-- The statements each request comes to, and what has been checked before. -/
inductive Warranted (s : UserState) (i : Nat) : Request → Write → Prop where
  | createUser {body : Except String CreateUserReq} {user : User} :
      Warranted s i (.createUser body) (.createUser user)
  | google {code state errParam : String} {user : User} (h : s.vouched i = some user.email) :
      Warranted s i (.googleCallback code state errParam) (.createOAuthUser user)
  | updateUser {claims : AccessClaims} {id : String} {body : Except String UpdateUserReq} {user : User}
      (h : user.id = id) : Warranted s i (.updateUser (.ok claims) id body) (.updateUser user)
  | deleteUser {claims : AccessClaims} {id : String} :
      Warranted s i (.deleteUser (.ok claims) id) (.deleteUser id)
  | adminCreateUser {claims : AccessClaims} {body : Except String CreateAdminUserRequest} {user : User}
      (h : claims.role = .ADMIN) : Warranted s i (.adminCreateUser (.ok claims) body) (.createUser user)
  | adminFirstRole {claims : AccessClaims} {body : Except String CreateAdminUserRequest} {id : String}
      {role : Role} (h : claims.role = .ADMIN) :
      Warranted s i (.adminCreateUser (.ok claims) body) (.setRole id role)
  | adminUpdateUser {claims : AccessClaims} {id : String} {body : Except String UpdateUserReq} {user : User}
      (h : claims.role = .ADMIN) : Warranted s i (.adminUpdateUser (.ok claims) id body) (.updateUser user)
  | adminSetRole {claims : AccessClaims} {id : String} {body : Except String String} {role : Role}
      (h : claims.role = .ADMIN) (hguard : role = .ADMIN ∨ Cleared s i id) :
      Warranted s i (.adminSetRole (.ok claims) id body) (.setRole id role)
  | adminDisableUser {claims : AccessClaims} {id : String} (h : claims.role = .ADMIN)
      (hguard : Cleared s i id) : Warranted s i (.adminDisableUser (.ok claims) id) (.deleteUser id)
  | adminRestoreUser {claims : AccessClaims} {id : String} (h : claims.role = .ADMIN) :
      Warranted s i (.adminRestoreUser (.ok claims) id) (.restoreUser id)

/-- An account that was active at some time, or one made up by a Google login. -/
def Earned (s : UserState) (subject : String) : Prop := subject ∈ s.activated ∨ subject ∈ s.drawn

/-- Whoever is handed tokens has earned them. -/
def Admitted (_ : Nat) (response : Response) (s : UserState) : Prop :=
  ∀ access refresh, response = .tokens access refresh → Earned s access.subject ∧ Earned s refresh.subject

/-- Other requests leave what is remembered of thread `i`, and forget no account. -/
structure Undisturbed (i : Nat) (s t : UserState) : Prop where
  received : t.received i = s.received i
  readings : t.readings i = s.readings i
  vouched : t.vouched i = s.vouched i
  activated : ∀ id ∈ s.activated, id ∈ t.activated
  drawn : ∀ id ∈ s.drawn, id ∈ t.drawn

def userContract : Contract UserState UserCmd where
  inv s := ∀ u ∈ s.table.rows, u.deletedAt = none → u.id ∈ s.activated
  rely := Undisturbed
  guar i c s := ∀ w, c = .write w → ∃ q, s.received i = some q ∧ Warranted s i q w

theorem mem_activeIds {t : UserTable} {id : String} :
    id ∈ UserState.activeIds t ↔ ∃ u ∈ t.rows, u.deletedAt = none ∧ u.id = id := by
  unfold UserState.activeIds
  rw [List.mem_map]
  constructor
  · rintro ⟨u, hu, hid⟩
    obtain ⟨hu, hact⟩ := List.mem_filter.mp hu
    exact ⟨u, hu, Option.isNone_iff_eq_none.mp hact, hid⟩
  · rintro ⟨u, hu, hact, hid⟩
    exact ⟨u, List.mem_filter.mpr ⟨hu, Option.isNone_iff_eq_none.mpr hact⟩, hid⟩

variable {s t u : UserState} {i j : Nat}

theorem Undisturbed.refl (i : Nat) (s : UserState) : Undisturbed i s s :=
  ⟨rfl, rfl, rfl, fun _ h => h, fun _ h => h⟩

theorem Undisturbed.trans (h₁ : Undisturbed i s t) (h₂ : Undisturbed i t u) : Undisturbed i s u where
  received := h₂.received.trans h₁.received
  readings := h₂.readings.trans h₁.readings
  vouched := h₂.vouched.trans h₁.vouched
  activated id h := h₂.activated id (h₁.activated id h)
  drawn id h := h₂.drawn id (h₁.drawn id h)

theorem Earned.mono (h : Undisturbed i s t) {subject : String} (he : Earned s subject) :
    Earned t subject := by
  cases he with
  | inl ha => exact Or.inl (h.activated _ ha)
  | inr hd => exact Or.inr (h.drawn _ hd)

theorem undisturbed_store (i : Nat) (s : UserState) (t : UserTable) : Undisturbed i s (s.store t) :=
  ⟨rfl, rfl, rfl, fun _ h => List.mem_append_right _ h, fun _ h => h⟩

theorem undisturbed_note (hij : j ≠ i) (s : UserState) (q : Query) (answer : Except DbError q.Row) :
    Undisturbed j s (s.note i q answer) := by
  have hread : ∀ r, Undisturbed j s (s.read i r) := fun r =>
    ⟨rfl, Function.update_of_ne hij _ _, rfl, fun _ h => h, fun _ h => h⟩
  unfold UserState.note
  split
  · exact hread _
  · exact hread _
  · exact .refl j s

/-- Whether a reported result means that the statement took effect. -/
def Took : Except DbError Nat → Prop
  | .ok _ => True
  | .error e => e = .lost

/-- What a step does to the table: nothing, or one statement. -/
inductive TableStep (p : UserPool) (l : UserLabel) (p' : UserPool) : Prop where
  | same (htable : p'.shared.table = p.shared.table)
      (hno : ∀ i w r, l = .cmd i (.write w) r → ¬ Took r)
  | wrote (i : Nat) (w : Write) (r : Except DbError Nat) {n : Nat} (hl : l = .cmd i (.write w) r)
      (htook : Took r) (happly : w.apply p.shared.now p.shared.table = .ok (p'.shared.table, n))

/-- A command of one thread does not disturb another. -/
theorem exec_undisturbed {c : UserCmd} {reply : UserReply c} (hij : j ≠ i) (h : Exec i c s reply t) :
    Undisturbed j s t := by
  cases h with
  | receive q => exact ⟨Function.update_of_ne hij _ _, rfl, rfl, fun _ h => h, fun _ h => h⟩
  | read q => exact undisturbed_note hij s q _
  | readFailed => exact .refl j s
  | write => exact undisturbed_store j s _
  | writeRefused => exact .refl j s
  | writeFailed => exact .refl j s
  | writeLost => exact undisturbed_store j s _
  | newV7 => exact ⟨rfl, rfl, rfl, fun _ h => h, fun _ h => List.mem_cons_of_mem _ h⟩
  | fetchUserInfo => exact ⟨rfl, rfl, Function.update_of_ne hij _ _, fun _ h => h, fun _ h => h⟩
  | fetchFailed => exact .refl j s
  | outside => exact .refl j s

theorem note_table (s : UserState) (i : Nat) (q : Query) (answer : Except DbError q.Row) :
    (s.note i q answer).table = s.table ∧ (s.note i q answer).activated = s.activated := by
  unfold UserState.note
  split <;> exact ⟨rfl, rfl⟩

theorem table_step {p p' : UserPool} {l : UserLabel} (h : UserStep p l p') : TableStep p l p' := by
  cases h with
  | spawn => exact .same rfl fun _ _ _ h => nomatch h
  | @env e s he =>
    obtain rfl : s = { p.shared with now := p.shared.now + e } := he
    exact .same rfl fun _ _ _ h => nomatch h
  | @cmd i c next r s hi hexec =>
    cases hexec with
    | receive => exact .same rfl fun _ _ _ h => nomatch h
    | read q => exact .same (note_table _ _ _ _).1 fun _ _ _ h => nomatch h
    | readFailed => exact .same rfl fun _ _ _ h => nomatch h
    | write happly => exact .wrote i _ _ rfl trivial happly
    | @writeRefused _ _ e happly =>
      refine .same rfl ?_
      intro i' w' r' hl htook
      cases hl
      obtain rfl := Write.error_of_apply happly
      cases htook
    | writeFailed w =>
      refine .same rfl ?_
      intro i' w' r' hl htook
      cases hl
      cases htook
    | writeLost happly => exact .wrote i _ _ rfl rfl happly
    | newV7 => exact .same rfl fun _ _ _ h => nomatch h
    | fetchUserInfo => exact .same rfl fun _ _ _ h => nomatch h
    | fetchFailed => exact .same rfl fun _ _ _ h => nomatch h
    | outside h =>
      refine .same rfl ?_
      intro i' w' r' hl
      cases hl
      exact h.elim

theorem inv_store (s : UserState) (t : UserTable) : userContract.inv (s.store t) :=
  fun u hu hact => List.mem_append_left _ (mem_activeIds.mpr ⟨u, hu, hact, rfl⟩)

theorem exec_inv {c : UserCmd} {reply : UserReply c} (hs : userContract.inv s) (h : Exec i c s reply t) :
    userContract.inv t := by
  cases h with
  | receive => exact hs
  | read q =>
    intro u hu hact
    obtain ⟨htable, hactive⟩ := note_table s i q (s.table.answer q)
    rw [htable] at hu
    rw [hactive]
    exact hs u hu hact
  | readFailed => exact hs
  | write => exact inv_store s _
  | writeRefused => exact hs
  | writeFailed => exact hs
  | writeLost => exact inv_store s _
  | newV7 => exact hs
  | fetchUserInfo => exact hs
  | fetchFailed => exact hs
  | outside => exact hs

theorem userContract_sound : userContract.Sound userSemantics where
  rely_refl := .refl
  rely_trans _ _ _ _ := .trans
  env s e t hs he := by
    obtain rfl : t = { s with now := s.now + e } := he
    exact ⟨hs, fun i => ⟨rfl, rfl, rfl, fun _ h => h, fun _ h => h⟩⟩
  cmd i c s r t hs _ h := ⟨exec_inv hs h, fun _ hij => exec_undisturbed hij h⟩

end Chinwag.Users

import Chinwag.Users.LastAdmin

/-!
# Whose requests touch whose row

The middleware settles who is asking; that the id of the path is the caller's own is left
to the two private routes, which do not ask. All other routes keep to the accounts they
are entitled to.
-/
namespace Chinwag.Users

open Program Auth Transition

namespace Request

/-- The claims a request was authenticated with. -/
def claims : Request → Option AccessClaims
  | .whoAmI (.ok claims) => some claims
  | .updateUser (.ok claims) _ _ => some claims
  | .deleteUser (.ok claims) _ => some claims
  | .adminCreateUser (.ok claims) _ => some claims
  | .adminGetUser (.ok claims) _ => some claims
  | .adminUpdateUser (.ok claims) _ _ => some claims
  | .adminSetRole (.ok claims) _ _ => some claims
  | .adminDisableUser (.ok claims) _ => some claims
  | .adminRestoreUser (.ok claims) _ => some claims
  | _ => none

/-- `PUT /user/:id` and `DELETE /user/:id`, with the caller and the id. -/
def ownRoute : Request → Option (AccessClaims × String)
  | .updateUser (.ok claims) id _ => some (claims, id)
  | .deleteUser (.ok claims) id => some (claims, id)
  | _ => none

end Request

/-- Thread `i` serves the user of this row, an administrator, or somebody Google vouched for. -/
inductive MayWrite (s : UserState) (i : Nat) (u : User) : Prop where
  | own {q : Request} {claims : AccessClaims} (hq : s.received i = some q) (hc : q.claims = some claims)
      (h : claims.subject = u.id)
  | admin {q : Request} {claims : AccessClaims} (hq : s.received i = some q) (hc : q.claims = some claims)
      (h : claims.role = .ADMIN)
  | google (h : s.vouched i = some u.email)

/-- Every row is left as it was, in every field, or written to by one who may. -/
def Isolated (p : UserPool) (l : UserLabel) (p' : UserPool) : Prop :=
  ∀ u ∈ p.shared.table.rows, u ∈ p'.shared.table.rows ∨
    ∃ i w r, l = .cmd i (.write w) r ∧ MayWrite p.shared i u

/-- A write on one of the two routes that hits a row is made by its owner or an administrator. -/
def KeepsToOwn (s : UserState) (i : Nat) (w : Write) : Prop :=
  ∀ q claims id, s.received i = some q → q.ownRoute = some (claims, id) →
    (∃ u ∈ s.table.rows, w.selects u) → claims.subject = id ∨ claims.role = .ADMIN

variable {s : UserState} {i : Nat} {q : Request} {w : Write} {u : User}

/-- What a warranted statement selects, its request may write, the two routes apart. -/
theorem mayWrite_of_warranted (hq : s.received i = some q) (h : Warranted s i q w)
    (hown : KeepsToOwn s i w) (hu : u ∈ s.table.rows) (hsel : w.selects u) : MayWrite s i u := by
  have hroute : ∀ claims id, q.ownRoute = some (claims, id) → q.claims = some claims → u.id = id →
      MayWrite s i u := by
    intro claims id hr hc hid
    cases hown q claims id hq hr ⟨u, hu, hsel⟩ with
    | inl hsubject => exact .own hq hc (hsubject.trans hid.symm)
    | inr hrole => exact .admin hq hc hrole
  cases h with
  | createUser => exact hsel.elim
  | google hv =>
    refine .google ?_
    have hemail : u.email = _ := hsel
    rw [hemail]
    exact hv
  | updateUser hid => exact hroute _ _ rfl rfl (hsel.1.trans hid)
  | deleteUser => exact hroute _ _ rfl rfl hsel
  | adminCreateUser hrole => exact .admin hq rfl hrole
  | adminFirstRole hrole => exact .admin hq rfl hrole
  | adminUpdateUser hrole => exact .admin hq rfl hrole
  | adminSetRole hrole => exact .admin hq rfl hrole
  | adminDisableUser hrole => exact .admin hq rfl hrole
  | adminRestoreUser hrole => exact .admin hq rfl hrole

theorem isolated_step {p p' : UserPool} {l : UserLabel} (hg : UserGood p) (h : UserStep p l p')
    (hown : ∀ i w r, l = .cmd i (.write w) r → Took r → KeepsToOwn p.shared i w) : Isolated p l p' := by
  intro u hu
  cases table_step h with
  | same htable _ =>
    left
    rw [htable]
    exact hu
  | wrote i w r hl htook happly =>
    by_cases hsel : w.selects u
    · subst hl
      obtain ⟨q, hq, hwarranted⟩ := write_warranted hg h
      exact Or.inr ⟨i, w, r, rfl, mayWrite_of_warranted hq hwarranted (hown i w r rfl htook) hu hsel⟩
    · exact Or.inl ((Write.effect_of_apply happly).kept u hu hsel)

variable {pool pool' : UserPool} {trace : List UserLabel}

section Sample

def malloryClaims : AccessClaims := ⟨"mallory", .USER, "jkt"⟩

def malloryRequest : Request := .deleteUser (.ok malloryClaims) "root"

/-- The request of the intruder has arrived. -/
def malloryArrived : UserPool :=
  ⟨(restingState rootTable).receive 0 malloryRequest, [handle malloryRequest]⟩

def malloryServed : UserPool :=
  ⟨malloryArrived.shared.store (rootTable.deleteUser "root" 1).1, [.ret .empty]⟩

theorem mallory_arrives : Run UserStep ⟨restingState rootTable, []⟩
    [.spawn (serve malloryRequest), .cmd 0 (.receive malloryRequest) ()] malloryArrived := by
  have hspawn : UserStep ⟨restingState rootTable, []⟩ (.spawn (serve malloryRequest))
      ⟨restingState rootTable, [serve malloryRequest]⟩ := .spawn ⟨malloryRequest, rfl⟩
  have hreceive : UserStep ⟨restingState rootTable, [serve malloryRequest]⟩
      (.cmd 0 (.receive malloryRequest) ()) malloryArrived := Step.into rfl (Exec.receive _) rfl
  exact .cons hspawn (.cons hreceive (.nil _))

theorem mallory_deletes : UserStep malloryArrived (.cmd 0 (.write (.deleteUser "root")) (.ok 1))
    malloryServed := by
  have hi : malloryArrived.threads[0]? = some (handle malloryRequest) := rfl
  exact Step.into hi (Exec.write rfl) rfl

theorem mallory_intrudes :
    ¬ Isolated malloryArrived (.cmd 0 (.write (.deleteUser "root")) (.ok 1)) malloryServed := by
  intro h
  obtain hkept | ⟨i, w, r, hl, hmay⟩ := h rootUser (List.mem_singleton_self _)
  · cases List.mem_singleton.mp hkept
  · cases hl
    cases hmay with
    | own hq hc hown =>
      cases hq
      cases hc
      exact absurd hown (by decide)
    | admin hq hc hrole =>
      cases hq
      cases hc
      cases hrole
    | google hv => cases hv

end Sample

end Chinwag.Users

import Chinwag.Lib.StringKeys
import Chinwag.Auth.RefreshHandler
import Chinwag.Auth.Rotatable

/-!
# Refresh requests in progress

Any number of `Refresh` requests run over one Redis, its lock keys and the user table.
A Redis call either takes effect and is answered, or fails and has no effect. Accepted
rotations, and the requests that fail after one, are noted on the side.
-/
namespace Chinwag.Auth

open Users Redis StringKeys Program Transition

/-- The token library and the hash of the lock keys. -/
structure RefreshLib where
  text : RefreshTokenClaims → String
  read : String → Option RefreshTokenClaims
  hash : String → String

/-- A signed token is read back as the claims it was signed with, or refused. -/
def RefreshLib.Lawful (L : RefreshLib) : Prop := ∀ c c', L.read (L.text c) = some c' → c' = c

structure AcceptedRotation where
  thread : Nat
  old : RefreshTokenClaims
  new : RefreshTokenClaims

structure RefreshState where
  sessions : Sessions
  locks : Strings
  table : UserTable
  accepted : List AcceptedRotation
  abandoned : List Nat

namespace RefreshState

def setLocks (s : RefreshState) (locks : Strings) : RefreshState := { s with locks := locks }

/-- What a call of `RotateRefreshToken` leaves behind. -/
def rotated (s : RefreshState) (i : Nat) (claims : RefreshTokenClaims)
    (result : Except AuthError RotatedRefreshToken) (redis : Server) : RefreshState :=
  { s with
    sessions := ⟨redis, s.sessions.minted ++ rotatedTokens result⟩
    accepted := s.accepted ++ (rotatedTokens result).map fun new => ⟨i, claims, new⟩ }

/-- A step of the handler after the rotation: its failure ends the request. -/
def settle {ε α : Type} (s : RefreshState) (i : Nat) : Except ε α → RefreshState
  | .ok _ => s
  | .error _ => { s with abandoned := i :: s.abandoned }

def elapse (s : RefreshState) (ms : Nat) : RefreshState :=
  { s with sessions := ⟨s.sessions.redis.after ms, s.sessions.minted⟩, locks := s.locks.after ms }

/-- The rotations accepted for one request. -/
def acceptedBy (s : RefreshState) (i : Nat) : List AcceptedRotation :=
  s.accepted.filter fun x => x.thread == i

end RefreshState

def lockKey (L : RefreshLib) (cookie : String) : String := "refresh:lock:" ++ L.hash cookie

def lockTtl : Nat := 5000

variable (L : RefreshLib) (r : RefreshConfig)

inductive RefreshExec (i : Nat) : (c : RefreshCmd) → RefreshState → RefreshReply c → RefreshState → Prop where
  | validateProof {s : RefreshState} (v : Dpop.Verdict) : RefreshExec i .validateProof s v s
  | thumbprint {s : RefreshState} (key : Dpop.EcKey) (jkt : Option String) :
      RefreshExec i (.thumbprint key) s jkt s
  | readToken {s : RefreshState} {raw jkt : String} {c : RefreshTokenClaims} (h : L.read raw = some c)
      (hjkt : c.jkt = jkt) : RefreshExec i (.validateRefreshToken raw jkt) s (.ok c) s
  | refuseToken {s : RefreshState} (raw jkt : String) (e : AppError) :
      RefreshExec i (.validateRefreshToken raw jkt) s (.error e) s
  | acquireLock {s : RefreshState} (cookie : String) (u : Uuid) :
      RefreshExec i (.acquireLock cookie u) s (.ok (s.locks.setNX (lockKey L cookie) u.text lockTtl).1)
        (s.setLocks (s.locks.setNX (lockKey L cookie) u.text lockTtl).2)
  | lockFailed {s : RefreshState} (cookie : String) (u : Uuid) (e : RedisError) :
      RefreshExec i (.acquireLock cookie u) s (.error e) s
  | rotate {s : RefreshState} {key : Option String} {claims : RefreshTokenClaims} {newJti : Uuid}
      {now : Int} {result : Except AuthError RotatedRefreshToken} {redis : Server}
      (hfresh : FreshJti s.sessions newJti)
      (hrun : rotateRefreshToken r key claims newJti now s.sessions.redis = (result, redis)) :
      RefreshExec i (.rotateRefreshToken claims) s result (s.rotated i claims result redis)
  | rotateFailed {s : RefreshState} (claims : RefreshTokenClaims) (e : RedisError) :
      RefreshExec i (.rotateRefreshToken claims) s (.error (classifyDependencyError e)) s
  | getUser {s : RefreshState} (id : String) :
      RefreshExec i (.getUser id) s (s.table.getUser id) (s.settle i (s.table.getUser id))
  | getUserFailed {s : RefreshState} {id : String} (e : DbError) :
      RefreshExec i (.getUser id) s (.error e) (s.settle i (.error e : Except DbError User))
  | newAccessToken {s : RefreshState} {userId jkt : String} {role : Role}
      (result : Except ServiceError AccessClaims) :
      RefreshExec i (.newAccessToken userId role jkt) s result (s.settle i result)
  | releaseLock {s : RefreshState} (cookie : String) (u : Uuid) :
      RefreshExec i (.releaseLock cookie u) s (.ok ()) (s.setLocks (s.locks.compareDel (lockKey L cookie) u.text))
  | releaseFailed {s : RefreshState} (cookie : String) (u : Uuid) (e : RedisError) :
      RefreshExec i (.releaseLock cookie u) s (.error e) s
  | newV7 {s : RefreshState} (u : Uuid) : RefreshExec i .newV7 s u s

inductive RefreshEvent where
  | pass (ms : Nat)
  | users (table : UserTable)

/-- Time passes, and accounts come, change and go. -/
inductive RefreshEnv : RefreshState → RefreshEvent → RefreshState → Prop where
  | pass {s : RefreshState} (ms : Nat) : RefreshEnv s (.pass ms) (s.elapse ms)
  | users {s : RefreshState} (table : UserTable) : RefreshEnv s (.users table) { s with table := table }

def refreshSemantics : Semantics RefreshState RefreshEvent RefreshCmd RefreshReply where
  exec := RefreshExec L r
  env := RefreshEnv

abbrev RefreshPool := Pool RefreshState RefreshCmd RefreshReply Response

abbrev RefreshLabel := Label RefreshEvent RefreshCmd RefreshReply Response

/-- The requests already there go on; how new ones start is not said here. -/
abbrev RefreshStep : RefreshPool → RefreshLabel → RefreshPool → Prop :=
  Step (refreshSemantics L r) fun _ => False

/-- The refresh token a response hands out. -/
def Response.granted : Response → Option RefreshTokenClaims
  | .tokens _ new => some new
  | _ => none

/-- A failed call of those the handler makes once the rotation was accepted. -/
def FailsLate (i : Nat) : RefreshLabel → Prop
  | .cmd j (.getUser _) reply => i = j ∧ ∃ e : DbError, reply = .error e
  | .cmd j (.newAccessToken _ _ _) reply => i = j ∧ ∃ e : ServiceError, reply = .error e
  | _ => False

section Contract

structure RefreshInv (s : RefreshState) : Prop where
  sessions : SessionInv r s.sessions
  spent : ∀ x ∈ s.accepted, x.old ∈ s.sessions.minted ∧ Spent r s.sessions x.old.jti
  minted : ∀ x ∈ s.accepted, x.new ∈ s.sessions.minted
  distinct : (s.accepted.map AcceptedRotation.new).Nodup

/-- A request rotates the token it presented, and that once. -/
def RotatesOnce (presented : RefreshTokenClaims) (i : Nat) (s : RefreshState) : RefreshCmd → Prop
  | .rotateRefreshToken claims =>
    claims = presented ∧ claims ∈ s.sessions.minted ∧ s.acceptedBy i = []
  | _ => True

/-- What the other requests leave to request `i`. -/
structure LeftTo (i : Nat) (s t : RefreshState) : Prop where
  later : Later r s.sessions t.sessions
  acceptedBy : t.acceptedBy i = s.acceptedBy i
  abandoned : i ∈ t.abandoned ↔ i ∈ s.abandoned

def refreshContract (presented : Nat → RefreshTokenClaims) : Contract RefreshState RefreshCmd where
  inv := RefreshInv r
  rely := LeftTo r
  guar i c s := RotatesOnce (presented i) i s c

variable {L r} {s t : RefreshState} {i j : Nat}

theorem LeftTo.refl (i : Nat) (s : RefreshState) : LeftTo r i s s := ⟨.refl _, rfl, Iff.rfl⟩

theorem LeftTo.trans {u : RefreshState} (h₁ : LeftTo r i s t) (h₂ : LeftTo r i t u) : LeftTo r i s u :=
  ⟨h₁.later.trans h₂.later, h₂.acceptedBy.trans h₁.acceptedBy, h₂.abandoned.trans h₁.abandoned⟩

/-- The token of an accepted rotation is the one drawn for it. -/
theorem newToken_jti {key : Option String} {c : RefreshTokenClaims} {newJti : Uuid} {now : Int}
    {redis redis' : Server} {rot : RotatedRefreshToken}
    (h : rotateRefreshToken r key c newJti now redis = (.ok rot, redis')) : rot.newToken.jti = newJti := by
  cases key with
  | none => cases h
  | some kid =>
  unfold rotateRefreshToken at h
  cases hsign : signRefreshToken c.subject newJti c.sid c.jkt with
  | none =>
    rw [hsign] at h
    cases h
  | some token =>
    rw [hsign] at h
    obtain ⟨-, rfl⟩ := sign_eq_some hsign
    have hres := congrArg Prod.fst h
    simp only at hres
    unfold rotationResult at hres
    split at hres
    · cases hres
    · repeat' split at hres
      all_goals cases hres
      rfl
    · cases hres

theorem RefreshInv.congr (h : RefreshInv r s) (hsessions : t.sessions = s.sessions)
    (haccepted : t.accepted = s.accepted) : RefreshInv r t := by
  constructor
  · rw [hsessions]
    exact h.sessions
  · rw [hsessions, haccepted]
    exact h.spent
  · rw [hsessions, haccepted]
    exact h.minted
  · rw [haccepted]
    exact h.distinct

theorem RefreshInv.elapse (h : RefreshInv r s) (ms : Nat) : RefreshInv r (s.elapse ms) :=
  ⟨inv_after h.sessions ms, h.spent, h.minted, h.distinct⟩

theorem LeftTo.elapse (s : RefreshState) (ms : Nat) : LeftTo r i s (s.elapse ms) :=
  ⟨later_after s.sessions ms, rfl, Iff.rfl⟩

section Rotated

variable {claims : RefreshTokenClaims} {newJti : Uuid} {now : Int} {key : Option String}
  {result : Except AuthError RotatedRefreshToken} {redis : Server}

theorem acceptedBy_rotated_self : (s.rotated i claims result redis).acceptedBy i =
    s.acceptedBy i ++ (rotatedTokens result).map fun new => ⟨i, claims, new⟩ := by
  simp [RefreshState.acceptedBy, RefreshState.rotated, List.filter_map, Function.comp_def]

theorem acceptedBy_rotated_ne (h : j ≠ i) :
    (s.rotated i claims result redis).acceptedBy j = s.acceptedBy j := by
  simp [RefreshState.acceptedBy, RefreshState.rotated, List.filter_map, Function.comp_def, h.symm]

theorem RefreshInv.rotated (h : RefreshInv r s) (hc : claims ∈ s.sessions.minted)
    (hfresh : FreshJti s.sessions newJti)
    (hrun : rotateRefreshToken r key claims newJti now s.sessions.redis = (result, redis)) :
    RefreshInv r (s.rotated i claims result redis) ∧
      Later r s.sessions (s.rotated i claims result redis).sessions := by
  have heff := rotate_effect h.sessions hc hfresh hrun
  refine ⟨⟨heff.inv, ?_, ?_, ?_⟩, heff.later⟩
  · intro x hx
    cases List.mem_append.mp hx with
    | inl hx =>
      obtain ⟨hold, hspent⟩ := h.spent x hx
      exact ⟨heff.later.minted _ hold, heff.later.spent hold hspent⟩
    | inr hx =>
      obtain ⟨new, hnew, rfl⟩ := List.mem_map.mp hx
      cases result with
      | error e => cases hnew
      | ok rot => exact ⟨heff.later.minted _ hc, (heff.ok rot rfl).2.2⟩
  · intro x hx
    cases List.mem_append.mp hx with
    | inl hx => exact heff.later.minted _ (h.minted x hx)
    | inr hx =>
      obtain ⟨new, hnew, rfl⟩ := List.mem_map.mp hx
      exact List.mem_append_right _ hnew
  · cases result with
    | error e => simpa [RefreshState.rotated, rotatedTokens] using h.distinct
    | ok rot =>
      have hnew : rot.newToken ∉ s.accepted.map AcceptedRotation.new := by
        intro hmem
        obtain ⟨x, hx, heq⟩ := List.mem_map.mp hmem
        refine hfresh x.new (h.minted x hx) ?_
        rw [heq]
        exact newToken_jti hrun
      simp only [RefreshState.rotated, rotatedTokens, List.map_append, List.map_cons, List.map_nil]
      exact List.nodup_append_comm.mp (List.nodup_cons.mpr ⟨hnew, h.distinct⟩)

end Rotated

@[simp] theorem accepted_settle {ε α : Type} (result : Except ε α) :
    (s.settle i result).accepted = s.accepted := by
  cases result <;> rfl

@[simp] theorem sessions_settle {ε α : Type} (result : Except ε α) :
    (s.settle i result).sessions = s.sessions := by
  cases result <;> rfl

theorem leftTo_settle {ε α : Type} (h : j ≠ i) (result : Except ε α) :
    LeftTo r j s (s.settle i result) := by
  cases result with
  | ok a => exact .refl j s
  | error e =>
    refine ⟨.refl _, rfl, ?_⟩
    simp [RefreshState.settle, h]

theorem inv_settle {ε α : Type} (h : RefreshInv r s) (result : Except ε α) :
    RefreshInv r (s.settle i result) :=
  h.congr (sessions_settle result) (accepted_settle result)

theorem exec_keeps_refresh {c : RefreshCmd} {reply : RefreshReply c} {token : RefreshTokenClaims}
    (h : RefreshInv r s) (hc : RotatesOnce token i s c) (hexec : RefreshExec L r i c s reply t) :
    RefreshInv r t ∧ Later r s.sessions t.sessions ∧ ∀ j, j ≠ i → LeftTo r j s t := by
  have hsame : ∀ locks, RefreshInv r (s.setLocks locks) ∧ Later r s.sessions s.sessions ∧
      ∀ j, j ≠ i → LeftTo r j s (s.setLocks locks) :=
    fun locks => ⟨h.congr rfl rfl, .refl _, fun j _ => ⟨.refl _, rfl, Iff.rfl⟩⟩
  have hsettled : ∀ {ε α : Type} (result : Except ε α), RefreshInv r (s.settle i result) ∧
      Later r s.sessions (s.settle i result).sessions ∧ ∀ j, j ≠ i → LeftTo r j s (s.settle i result) := by
    intro ε α result
    refine ⟨inv_settle h result, ?_, fun j hj => leftTo_settle hj result⟩
    rw [sessions_settle]
    exact .refl _
  cases hexec with
  | acquireLock cookie u => exact hsame _
  | releaseLock cookie u => exact hsame _
  | rotate hfresh hrun =>
    obtain ⟨hinv, hlater⟩ := h.rotated (i := i) hc.2.1 hfresh hrun
    exact ⟨hinv, hlater, fun j hj => ⟨hlater, acceptedBy_rotated_ne hj, Iff.rfl⟩⟩
  | getUser id => exact hsettled _
  | getUserFailed e => exact hsettled _
  | newAccessToken result => exact hsettled _
  | _ => exact hsame s.locks

theorem env_keeps_refresh {e : RefreshEvent} (h : RefreshInv r s) (he : RefreshEnv s e t) :
    RefreshInv r t ∧ ∀ j, LeftTo r j s t := by
  cases he with
  | pass ms => exact ⟨h.elapse ms, fun j => .elapse s ms⟩
  | users table => exact ⟨h.congr rfl rfl, fun j => ⟨.refl _, rfl, Iff.rfl⟩⟩

theorem refreshContract_sound (presented : Nat → RefreshTokenClaims) :
    (refreshContract r presented).Sound (refreshSemantics L r) where
  rely_refl := LeftTo.refl
  rely_trans _ _ _ _ := LeftTo.trans
  env _ _ _ h he := env_keeps_refresh h he
  cmd _ _ _ _ _ h hc hexec := by
    obtain ⟨hinv, -, hleft⟩ := exec_keeps_refresh h hc hexec
    exact ⟨hinv, hleft⟩

end Contract

end Chinwag.Auth

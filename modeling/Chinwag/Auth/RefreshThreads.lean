import Chinwag.Auth.RefreshSystem

/-!
# One refresh request among others

A request rotates at most the token it presented, and at most once. Its response hands
out a token exactly where the rotation was accepted and nothing failed after it.
-/
namespace Chinwag.Auth

open Users Redis StringKeys Program Transition

variable {L : RefreshLib} {r : RefreshConfig} {presented : Nat → RefreshTokenClaims} {i : Nat}
  {s t : RefreshState}

/-- A request that has rotated nothing yet. -/
structure Waiting (token : RefreshTokenClaims) (i : Nat) (s : RefreshState) : Prop where
  minted : token ∈ s.sessions.minted
  acceptedBy : s.acceptedBy i = []
  abandoned : i ∉ s.abandoned

/-- A request whose rotation was accepted, and that may still hand out the new token. -/
structure Holding (token new : RefreshTokenClaims) (i : Nat) (s : RefreshState) : Prop where
  acceptedBy : s.acceptedBy i = [⟨i, token, new⟩]
  abandoned : i ∉ s.abandoned

/-- A request that lost the token it had rotated to. -/
structure Abandoned (token : RefreshTokenClaims) (i : Nat) (s : RefreshState) : Prop where
  acceptedBy : ∃ new, s.acceptedBy i = [⟨i, token, new⟩]
  abandoned : i ∈ s.abandoned

/-- What a response says about its request. -/
def Ended (presented : Nat → RefreshTokenClaims) (i : Nat) (response : Response) (s : RefreshState) : Prop :=
  match response.granted with
  | some new => Holding (presented i) new i s
  | none => (s.acceptedBy i = [] ∧ i ∉ s.abandoned) ∨ Abandoned (presented i) i s

theorem Waiting.left {token : RefreshTokenClaims} (h : Waiting token i s) (hl : LeftTo r i s t) :
    Waiting token i t :=
  ⟨hl.later.minted _ h.minted, hl.acceptedBy.trans h.acceptedBy, mt hl.abandoned.mp h.abandoned⟩

theorem Holding.left {token new : RefreshTokenClaims} (h : Holding token new i s) (hl : LeftTo r i s t) :
    Holding token new i t :=
  ⟨hl.acceptedBy.trans h.acceptedBy, mt hl.abandoned.mp h.abandoned⟩

theorem Abandoned.left {token : RefreshTokenClaims} (h : Abandoned token i s) (hl : LeftTo r i s t) :
    Abandoned token i t := by
  obtain ⟨new, hnew⟩ := h.acceptedBy
  exact ⟨⟨new, hl.acceptedBy.trans hnew⟩, hl.abandoned.mpr h.abandoned⟩

theorem Ended.left {response : Response} (h : Ended presented i response s) (hl : LeftTo r i s t) :
    Ended presented i response t := by
  unfold Ended at h ⊢
  cases hg : response.granted with
  | some new =>
    rw [hg] at h
    exact h.left hl
  | none =>
    rw [hg] at h
    cases h with
    | inl hw => exact Or.inl ⟨hl.acceptedBy.trans hw.1, mt hl.abandoned.mp hw.2⟩
    | inr ha => exact Or.inr (ha.left hl)

theorem stable_endedWith : (refreshContract r presented).Stable (Ended presented) :=
  fun _ _ _ _ h hl => h.left hl

/-- The commands that neither rotate nor can fail late. -/
def Plain : RefreshCmd → Prop
  | .rotateRefreshToken _ => False
  | .getUser _ => False
  | .newAccessToken _ _ _ => False
  | _ => True

theorem exec_plain {c : RefreshCmd} {reply : RefreshReply c} (hc : Plain c)
    (h : RefreshExec L r i c s reply t) : LeftTo r i s t := by
  cases h with
  | rotate => exact hc.elim
  | rotateFailed => exact hc.elim
  | getUser => exact hc.elim
  | getUserFailed => exact hc.elim
  | newAccessToken => exact hc.elim
  | acquireLock => exact ⟨.refl _, rfl, Iff.rfl⟩
  | releaseLock => exact ⟨.refl _, rfl, Iff.rfl⟩
  | _ => exact .refl i s

/-- After one of the last two calls: only its failure gives the new token up. -/
def Settled {ε α : Type} (token new : RefreshTokenClaims) (i : Nat) (s : RefreshState) : Except ε α → Prop
  | .ok _ => Holding token new i s
  | .error _ => Abandoned token i s

theorem Holding.settle {ε α : Type} {token new : RefreshTokenClaims} (h : Holding token new i s)
    (result : Except ε α) : Settled token new i (s.settle i result) result := by
  cases result with
  | ok a => exact h
  | error e => exact ⟨⟨new, h.acceptedBy⟩, List.mem_cons_self⟩

section Programs

abbrev RefreshSafe (L : RefreshLib) (r : RefreshConfig) (presented : Nat → RefreshTokenClaims) (i : Nat)
    {α : Type} (Q : α → RefreshState → Prop) (p : RefreshProg α) (s : RefreshState) : Prop :=
  Safe (refreshSemantics L r) (refreshContract r presented) i Q p s

variable {α : Type} {Q : α → RefreshState → Prop}

theorem safe_plain {P : RefreshState → Prop} (hP : ∀ s t, P s → LeftTo r i s t → P t) {c : RefreshCmd}
    {next : RefreshReply c → RefreshProg α} (hs : P s)
    (hn : ∀ reply t, P t → RefreshSafe L r presented i Q (next reply) t) (hc : Plain c) :
    RefreshSafe L r presented i Q (.call c next) s := by
  intro s₁ _ hl
  have hs₁ := hP s s₁ hs hl
  refine ⟨?_, ?_⟩
  · cases c <;> first | exact trivial | exact hc.elim
  · intro reply s₂ hexec _
    exact hn reply s₂ (hP s₁ s₂ hs₁ (exec_plain hc hexec))

theorem ended_none {response : Response} (hr : response.granted = none)
    (h : (s.acceptedBy i = [] ∧ i ∉ s.abandoned) ∨ Abandoned (presented i) i s) :
    Ended presented i response s := by
  unfold Ended
  rw [hr]
  exact h

theorem Waiting.ended {response : Response} (h : Waiting (presented i) i s) (hr : response.granted = none) :
    Ended presented i response s :=
  ended_none hr (Or.inl ⟨h.acceptedBy, h.abandoned⟩)

theorem safe_grant_refresh {rotated : RotatedRefreshToken} (jkt : String)
    (h : Holding (presented i) rotated.newToken i s) :
    RefreshSafe L r presented i (Ended presented i) (grant rotated jkt) s := by
  intro s₁ _ hl₁
  refine ⟨trivial, ?_⟩
  intro reply s₂ hexec _
  have h₂ : Settled (presented i) rotated.newToken i s₂ reply := by
    cases hexec with
    | getUser => exact (h.left hl₁).settle _
    | getUserFailed e => exact (h.left hl₁).settle (.error e : Except DbError User)
  cases reply with
  | error e => exact ended_none rfl (Or.inr h₂)
  | ok user =>
    intro s₃ _ hl₃
    refine ⟨trivial, ?_⟩
    intro reply s₄ hexec _
    have h₄ : Settled (presented i) rotated.newToken i s₄ reply := by
      cases hexec with
      | newAccessToken => exact (Holding.left h₂ hl₃).settle reply
    cases reply with
    | error e => exact ended_none rfl (Or.inr h₄)
    | ok token => exact h₄

theorem safe_rotateAndGrant_refresh (jkt : String) (h : Waiting (presented i) i s) :
    RefreshSafe L r presented i (Ended presented i) (rotateAndGrant (presented i) jkt) s := by
  intro s₁ _ hl₁
  have h₁ := h.left hl₁
  refine ⟨⟨rfl, h₁.minted, h₁.acceptedBy⟩, ?_⟩
  intro reply s₂ hexec hinv
  cases hexec with
  | rotateFailed claims e => exact h₁.ended rfl
  | rotate hfresh hrun =>
    have hown : ∀ redis, (s₁.rotated i (presented i) reply redis).acceptedBy i =
        (rotatedTokens reply).map fun new => ⟨i, presented i, new⟩ := by
      intro redis
      rw [acceptedBy_rotated_self, h₁.acceptedBy, List.nil_append]
    cases reply with
    | error e => exact ended_none rfl (Or.inl ⟨hown _, h₁.abandoned⟩)
    | ok rotated => exact safe_grant_refresh jkt ⟨hown _, h₁.abandoned⟩

theorem granted_dependencyError (e : RedisError) : (dependencyError e).granted = none := by
  cases e <;> rfl

theorem safe_lockedRefresh_refresh (cookie jkt : String) (h : Waiting (presented i) i s) :
    RefreshSafe L r presented i (Ended presented i) (lockedRefresh cookie (presented i) jkt) s := by
  refine safe_plain (fun _ _ => Waiting.left) h (fun lockToken t ht => ?_) trivial
  refine safe_plain (fun _ _ => Waiting.left) ht (fun reply t ht => ?_) trivial
  cases reply with
  | error e => exact ht.ended (granted_dependencyError e)
  | ok acquired =>
    cases acquired with
    | false => exact ht.ended rfl
    | true =>
      refine (safe_rotateAndGrant_refresh jkt ht).bind fun response u hu => ?_
      exact safe_plain (fun _ _ => Ended.left) hu (fun _ _ h => h) trivial

/-- A request that presents the token's own text, or one that is not read at all. -/
theorem safe_refresh_request {cookie : String} (hread : ∀ c, L.read cookie = some c → c = presented i)
    (h : Waiting (presented i) i s) :
    RefreshSafe L r presented i (Ended presented i) (refresh (some cookie)) s := by
  refine safe_plain (fun _ _ => Waiting.left) h (fun verdict t ht => ?_) trivial
  cases verdict with
  | unavailable e => exact ht.ended (granted_dependencyError e)
  | noIssuer => exact ht.ended rfl
  | rejected _ e => exact ht.ended rfl
  | accepted proof _ =>
    refine safe_plain (fun _ _ => Waiting.left) ht (fun thumbprint t ht => ?_) trivial
    cases thumbprint with
    | none => exact ht.ended rfl
    | some jkt =>
      intro s₁ _ hl
      have h₁ := ht.left hl
      refine ⟨trivial, ?_⟩
      intro reply s₂ hexec _
      cases hexec with
      | refuseToken raw jkt e =>
        show RefreshSafe L r presented i _ (if _ then _ else _) _
        split
        · exact h₁.ended rfl
        · exact h₁.ended rfl
      | readToken hc hjkt =>
        obtain rfl := hread _ hc
        exact safe_lockedRefresh_refresh cookie jkt h₁

end Programs

end Chinwag.Auth

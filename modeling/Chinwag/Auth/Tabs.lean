import Chinwag.Auth.FailedRefresh
import Chinwag.Auth.Reuse

/-!
# One browser, many tabs

All tabs of a browser share the refresh cookie. A request carries the cookie of the moment
it is sent, its response is applied when it arrives, and the server works on any number of
requests in between. A token is then taken for stolen only where two requests that carried
it were on their way at the same time, or where the first of them was answered with an error.
-/
namespace Chinwag.Auth

open Users Redis StringKeys Program Transition

/-- One `refreshAccessToken` of a tab, with the requests still unanswered when it was sent. -/
structure Request where
  tab : Nat
  token : RefreshTokenClaims
  outstanding : List Nat
  received : Bool

structure Browser where
  pool : RefreshPool
  jar : RefreshTokenClaims
  requests : List Request

namespace Browser

def inFlight (b : Browser) : List Nat :=
  (List.range b.requests.length).filter fun i => (b.requests[i]?).any fun q => !q.received

/-- A tab has at most one request on its way. -/
def mayRefresh (b : Browser) (tab : Nat) : Prop := ∀ q ∈ b.requests, q.tab = tab → q.received = true

def send (b : Browser) (L : RefreshLib) (tab : Nat) : Browser where
  pool := ⟨b.pool.shared, b.pool.threads ++ [refresh (some (L.text b.jar))]⟩
  jar := b.jar
  requests := b.requests ++ [⟨tab, b.jar, b.inFlight, false⟩]

/-- `Set-Cookie` comes with the responses that grant a token, and with no other. -/
def receive (b : Browser) (i : Nat) (q : Request) (response : Response) : Browser where
  pool := b.pool
  jar := response.granted.getD b.jar
  requests := b.requests.set i { q with received := true }

/-- The token request `i` carries. -/
def presented (b : Browser) (i : Nat) : RefreshTokenClaims := (b.requests[i]?.map Request.token).getD b.jar

end Browser

inductive BrowserLabel where
  | send (tab : Nat)
  | serve (l : RefreshLabel)
  | receive (i : Nat) (response : Response)

inductive BrowserStep (L : RefreshLib) (r : RefreshConfig) : Browser → BrowserLabel → Browser → Prop where
  | send {b : Browser} {tab : Nat} (h : b.mayRefresh tab) : BrowserStep L r b (.send tab) (b.send L tab)
  | serve {b : Browser} {l : RefreshLabel} {pool : RefreshPool} (h : RefreshStep L r b.pool l pool) :
      BrowserStep L r b (.serve l) { b with pool := pool }
  | receive {b : Browser} {i : Nat} {q : Request} {response : Response} (hq : b.requests[i]? = some q)
      (hr : q.received = false) (hi : b.pool.threads[i]? = some (.ret response)) :
      BrowserStep L r b (.receive i response) (b.receive i q response)

/-- A browser that is logged in and has sent no refresh yet. -/
structure BrowserInit (r : RefreshConfig) (b : Browser) : Prop where
  start : RefreshStart r b.pool.shared
  threads : b.pool.threads = []
  requests : b.requests = []
  minted : b.jar ∈ b.pool.shared.sessions.minted
  active : Active r b.pool.shared.sessions b.jar.jti

/-- The tokens the browser has carried, holds, or is about to be handed. -/
def Browser.Knows (b : Browser) (c : RefreshTokenClaims) : Prop :=
  c = b.jar ∨ (∃ q ∈ b.requests, q.token = c) ∨ ∃ x ∈ b.pool.shared.accepted, x.new = c

structure BrowserInv (L : RefreshLib) (r : RefreshConfig) (b : Browser) : Prop where
  good : RefreshGood L r b.presented b.pool
  length : b.pool.threads.length = b.requests.length
  unstarted : ∀ i, b.requests.length ≤ i → Unstarted i b.pool.shared
  minted : ∀ c, b.Knows c → c ∈ b.pool.shared.sessions.minted
  origin : ∀ x ∈ b.pool.shared.accepted, ∃ q, b.requests[x.thread]? = some q ∧ q.token = x.old
  once : ∀ x ∈ b.pool.shared.accepted, ∀ y ∈ b.pool.shared.accepted, x.thread = y.thread → x = y
  answered : ∀ (i : Nat) (q : Request), b.requests[i]? = some q → q.received = true →
    ∃ response, b.pool.threads[i]? = some (.ret response)
  overlap : ∀ (i k : Nat) (q q' : Request), b.requests[i]? = some q → b.requests[k]? = some q' → i < k →
    q.received = false → i ∈ q'.outstanding
  hidden : ∀ x ∈ b.pool.shared.accepted, ∀ q : Request, b.requests[x.thread]? = some q → q.received = false →
    b.jar ≠ x.new ∧ ∀ q' ∈ b.requests, q'.token ≠ x.new
  applied : ∀ x ∈ b.pool.shared.accepted, ∀ q : Request, b.requests[x.thread]? = some q → q.received = true →
    x.thread ∉ b.pool.shared.abandoned → b.jar ≠ x.old
  sentAfter : ∀ x ∈ b.pool.shared.accepted, ∀ (k : Nat) (q : Request), b.requests[k]? = some q → x.thread < k →
    x.thread ∉ q.outstanding → x.thread ∉ b.pool.shared.abandoned → q.token ≠ x.old
  traced : ∀ c, b.Knows c → Consumed r b.pool.shared.sessions.redis c.jti →
    ∃ x ∈ b.pool.shared.accepted, x.old = c

variable {L : RefreshLib} {r : RefreshConfig} {b b' : Browser}

theorem mem_inFlight {i : Nat} {q : Request} (h : b.requests[i]? = some q) :
    i ∈ b.inFlight ↔ q.received = false := by
  have hlt : i < b.requests.length := (List.getElem?_eq_some_iff.mp h).1
  rw [Browser.inFlight, List.mem_filter, h]
  simp [hlt]

theorem presented_of {i : Nat} {q : Request} (h : b.requests[i]? = some q) : b.presented i = q.token := by
  simp [Browser.presented, h]

/-- The requests that exist decide which tokens the contract speaks of. -/
theorem refreshGood_congr {presented presented' : Nat → RefreshTokenClaims} {pool : RefreshPool}
    (hg : RefreshGood L r presented pool) (h : ∀ i < pool.threads.length, presented' i = presented i) :
    RefreshGood L r presented' pool := by
  refine ⟨hg.shared, fun i p hi => ?_⟩
  have hsame := h i (List.getElem?_eq_some_iff.mp hi).1
  have hsafe : Safe (refreshSemantics L r) (refreshContract r presented') i (Ended presented i) p pool.shared := by
    refine Safe.trade (K := refreshContract r presented) ?_ ?_ ?_ (hg.safe i p hi)
    · exact fun _ h => h
    · exact fun _ _ h => h
    intro c s hguar
    show RotatesOnce (presented' i) i s c
    rw [hsame]
    exact hguar
  refine hsafe.mono fun response s hended => ?_
  unfold Ended at hended ⊢
  rw [hsame]
  exact hended

theorem browserInv_init (h : BrowserInit r b) : BrowserInv L r b := by
  have hnone : ∀ x, x ∉ b.pool.shared.accepted := by
    intro x hx
    rw [h.start.accepted] at hx
    cases hx
  have hrequest : ∀ (i : Nat) (q : Request), b.requests[i]? ≠ some q := by
    intro i q hq
    rw [h.requests] at hq
    cases hq
  have hknows : ∀ c, b.Knows c → c = b.jar := by
    rintro c (rfl | ⟨q, hq, -⟩ | ⟨x, hx, -⟩)
    · rfl
    · rw [h.requests] at hq
      cases hq
    · exact absurd hx (hnone x)
  constructor
  · refine ⟨h.start.inv, fun i p hi => ?_⟩
    rw [h.threads] at hi
    cases hi
  · rw [h.threads, h.requests]
    rfl
  · intro i _
    refine ⟨?_, ?_⟩
    · rw [RefreshState.acceptedBy, h.start.accepted]
      rfl
    · rw [h.start.abandoned]
      exact List.not_mem_nil
  · intro c hc
    rw [hknows c hc]
    exact h.minted
  · exact fun x hx => absurd hx (hnone x)
  · exact fun x hx => absurd hx (hnone x)
  · exact fun i q hq => absurd hq (hrequest i q)
  · exact fun i _ q _ hq => absurd hq (hrequest i q)
  · exact fun x hx => absurd hx (hnone x)
  · exact fun x hx => absurd hx (hnone x)
  · exact fun x hx => absurd hx (hnone x)
  · intro c hc hconsumed
    rw [hknows c hc] at hconsumed
    obtain ⟨f, y, hd, hs⟩ := h.active
    obtain ⟨g, z, hd', hs'⟩ := hconsumed
    cases hd.symm.trans hd'
    rw [hs] at hs'
    simp at hs'

section Send

/-- Requests that were there keep their place when another one is sent. -/
theorem requests_send {tab i : Nat} {q : Request} (h : (b.send L tab).requests[i]? = some q) :
    b.requests[i]? = some q ∨ i = b.requests.length ∧ q = ⟨tab, b.jar, b.inFlight, false⟩ := by
  rcases Nat.lt_trichotomy i b.requests.length with hlt | rfl | hgt
  · rw [Browser.send, List.getElem?_append_left hlt] at h
    exact Or.inl h
  · rw [Browser.send, List.getElem?_concat_length] at h
    exact Or.inr ⟨rfl, (Option.some.inj h).symm⟩
  · have hlt := (List.getElem?_eq_some_iff.mp h).1
    simp only [Browser.send, List.length_append, List.length_singleton] at hlt
    omega

theorem presented_send {tab i : Nat} (h : i < b.requests.length) :
    (b.send L tab).presented i = b.presented i := by
  simp only [Browser.presented, Browser.send, List.getElem?_append_left h]

theorem requests_sent {tab i : Nat} {q : Request} (h : b.requests[i]? = some q) :
    (b.send L tab).requests[i]? = some q := by
  rw [Browser.send, List.getElem?_append_left (List.getElem?_eq_some_iff.mp h).1]
  exact h

theorem good_send (hL : L.Lawful) (h : BrowserInv L r b) (tab : Nat) :
    RefreshGood L r (b.send L tab).presented (b.send L tab).pool := by
  have hold : RefreshGood L r (b.send L tab).presented b.pool := by
    refine refreshGood_congr h.good fun i hi => presented_send ?_
    rw [← h.length]
    exact hi
  have hnew : (b.send L tab).presented b.pool.threads.length = b.jar := by
    have hlast : (b.send L tab).requests[b.requests.length]? = some ⟨tab, b.jar, b.inFlight, false⟩ :=
      List.getElem?_concat_length
    rw [h.length]
    exact presented_of hlast
  have hstep : Step (refreshSemantics L r) (· = refresh (some (L.text b.jar))) b.pool
      (.spawn (refresh (some (L.text b.jar)))) (b.send L tab).pool := .spawn rfl
  refine hold.step_spawn (refreshContract_sound _) stable_endedWith ?_ hstep
  rintro _ rfl
  have hidle := h.unstarted b.pool.threads.length (Nat.le_of_eq h.length.symm)
  refine safe_refresh_request ?_ ⟨?_, hidle.1, hidle.2⟩
  · intro c hc
    rw [hnew]
    exact hL _ _ hc
  · rw [hnew]
    exact h.minted _ (Or.inl rfl)

theorem browserInv_send (hL : L.Lawful) (h : BrowserInv L r b) (tab : Nat) : BrowserInv L r (b.send L tab) := by
  have hknows : ∀ c, (b.send L tab).Knows c → b.Knows c := by
    rintro c (rfl | ⟨q, hq, rfl⟩ | hx)
    · exact Or.inl rfl
    · cases List.mem_append.mp hq with
      | inl hq => exact Or.inr (Or.inl ⟨q, hq, rfl⟩)
      | inr hq => exact Or.inl (by rw [List.mem_singleton.mp hq])
    · exact Or.inr (Or.inr hx)
  -- a request that rotated something was there before
  have hthere : ∀ x ∈ b.pool.shared.accepted, ∀ q, (b.send L tab).requests[x.thread]? = some q →
      b.requests[x.thread]? = some q := by
    intro x hx q hq
    obtain ⟨q₀, hq₀, -⟩ := h.origin x hx
    rw [requests_sent hq₀] at hq
    exact hq₀.trans hq
  constructor
  · exact good_send hL h tab
  · simp [Browser.send, h.length]
  · intro i hi
    simp only [Browser.send, List.length_append, List.length_singleton] at hi
    exact h.unstarted i (by omega)
  · exact fun c hc => h.minted c (hknows c hc)
  · intro x hx
    obtain ⟨q, hq, hold⟩ := h.origin x hx
    exact ⟨q, requests_sent hq, hold⟩
  · exact h.once
  · intro i q hq hr
    rcases requests_send hq with hq | ⟨-, rfl⟩
    · obtain ⟨response, hi⟩ := h.answered i q hq hr
      exact ⟨response, (List.getElem?_append_left (List.getElem?_eq_some_iff.mp hi).1).trans hi⟩
    · cases hr
  · intro i k q q' hq hq' hik hr
    rcases requests_send hq' with hq' | ⟨rfl, rfl⟩
    · have hlt := (List.getElem?_eq_some_iff.mp hq').1
      rcases requests_send hq with hq | ⟨rfl, -⟩
      · exact h.overlap i k q q' hq hq' hik hr
      · omega
    · rcases requests_send hq with hq | ⟨rfl, -⟩
      · exact (mem_inFlight hq).mpr hr
      · omega
  · intro x hx q hq hr
    obtain ⟨hjar, hcarried⟩ := h.hidden x hx q (hthere x hx q hq) hr
    refine ⟨hjar, fun q' hq' => ?_⟩
    cases List.mem_append.mp hq' with
    | inl hq' => exact hcarried q' hq'
    | inr hq' =>
      rw [List.mem_singleton.mp hq']
      exact hjar
  · exact fun x hx q hq => h.applied x hx q (hthere x hx q hq)
  · intro x hx k q hq hlt hout habandoned
    rcases requests_send hq with hq | ⟨rfl, rfl⟩
    · exact h.sentAfter x hx k q hq hlt hout habandoned
    · obtain ⟨q₀, hq₀, -⟩ := h.origin x hx
      have hreceived : q₀.received = true := by
        by_contra hne
        exact hout ((mem_inFlight hq₀).mpr (Bool.eq_false_iff.mpr hne))
      exact h.applied x hx q₀ hq₀ hreceived habandoned
  · exact fun c hc => h.traced c (hknows c hc)

end Send

section Receive

variable {i : Nat} {q : Request} {response : Response}

/-- A response that grants a token comes from the request that rotated to it. -/
theorem granted_accepted (h : BrowserInv L r b) (hi : b.pool.threads[i]? = some (.ret response))
    {new : RefreshTokenClaims} (hg : response.granted = some new) :
    ⟨i, b.presented i, new⟩ ∈ b.pool.shared.accepted := by
  have hended : Ended b.presented i response b.pool.shared := h.good.safe i _ hi
  unfold Ended at hended
  rw [hg] at hended
  have hmem : (⟨i, b.presented i, new⟩ : AcceptedRotation) ∈ b.pool.shared.acceptedBy i := by
    rw [hended.acceptedBy]
    exact List.mem_singleton_self _
  exact (List.mem_filter.mp hmem).1

/-- A response without a token, of a request that rotated all the same, gave the token up. -/
theorem abandoned_of_ungranted (h : BrowserInv L r b) (hi : b.pool.threads[i]? = some (.ret response))
    (hg : response.granted = none) {x : AcceptedRotation} (hx : x ∈ b.pool.shared.accepted)
    (hthread : x.thread = i) : i ∈ b.pool.shared.abandoned := by
  have hended : Ended b.presented i response b.pool.shared := h.good.safe i _ hi
  unfold Ended at hended
  rw [hg] at hended
  rcases hended with ⟨hnone, -⟩ | hab
  · have hmem : x ∈ b.pool.shared.acceptedBy i := List.mem_filter.mpr ⟨hx, beq_iff_eq.mpr hthread⟩
    rw [hnone] at hmem
    cases hmem
  · exact hab.abandoned

theorem requests_receive {k : Nat} {q' : Request} (h : (b.receive i q response).requests[k]? = some q')
    (hq : b.requests[i]? = some q) : ∃ q₀, b.requests[k]? = some q₀ ∧ q'.token = q₀.token ∧
      q'.outstanding = q₀.outstanding ∧ (q'.received = false → q₀.received = false ∧ k ≠ i) ∧
      (k ≠ i → q' = q₀) := by
  by_cases hk : k = i
  · subst hk
    rw [Browser.receive, List.getElem?_set_self (List.getElem?_eq_some_iff.mp hq).1] at h
    cases h
    exact ⟨q, hq, rfl, rfl, fun h => (nomatch h), fun h => absurd rfl h⟩
  · rw [Browser.receive, List.getElem?_set_ne (Ne.symm hk)] at h
    exact ⟨q', h, rfl, rfl, fun hr => ⟨hr, hk⟩, fun _ => rfl⟩

theorem requests_received (response : Response) {k : Nat} {q₀ : Request} (h : b.requests[k]? = some q₀) (hq : b.requests[i]? = some q) :
    ∃ q', (b.receive i q response).requests[k]? = some q' ∧ q'.token = q₀.token := by
  by_cases hk : k = i
  · subst hk
    cases hq.symm.trans h
    exact ⟨_, List.getElem?_set_self (List.getElem?_eq_some_iff.mp hq).1, rfl⟩
  · exact ⟨q₀, (List.getElem?_set_ne (Ne.symm hk)).trans h, rfl⟩

theorem knows_receive (h : BrowserInv L r b) (hq : b.requests[i]? = some q)
    (hi : b.pool.threads[i]? = some (.ret response)) {c : RefreshTokenClaims}
    (hc : (b.receive i q response).Knows c) : b.Knows c := by
  rcases hc with rfl | ⟨q', hq', rfl⟩ | hx
  · cases hg : response.granted with
    | none => exact Or.inl (by rw [Browser.receive, hg]; rfl)
    | some new =>
      refine Or.inr (Or.inr ⟨_, granted_accepted h hi hg, ?_⟩)
      rw [Browser.receive, hg]
      rfl
  · obtain ⟨k, hk⟩ := List.getElem?_of_mem hq'
    obtain ⟨q₀, hq₀, htoken, -⟩ := requests_receive hk hq
    exact Or.inr (Or.inl ⟨q₀, List.mem_of_getElem? hq₀, htoken.symm⟩)
  · exact Or.inr (Or.inr hx)

theorem accepted_eq (h : RefreshInv r b.pool.shared) {x y : AcceptedRotation} (hx : x ∈ b.pool.shared.accepted)
    (hy : y ∈ b.pool.shared.accepted) (he : x.new = y.new) : x = y :=
  List.inj_on_of_nodup_map h.distinct hx hy he

/-- The token a request holds back is neither in the jar after another response, nor the
one that was rotated to get it. -/
theorem jar_receive_ne (h : BrowserInv L r b) (hi : b.pool.threads[i]? = some (.ret response))
    {c : RefreshTokenClaims} (hjar : b.jar ≠ c)
    (hnew : ∀ new, response.granted = some new → ⟨i, b.presented i, new⟩ ∈ b.pool.shared.accepted → new ≠ c) :
    (b.receive i q response).jar ≠ c := by
  rw [Browser.receive]
  cases hg : response.granted with
  | none => exact hjar
  | some new => exact hnew new hg (granted_accepted h hi hg)

theorem browserInv_receive (h : BrowserInv L r b) (hq : b.requests[i]? = some q) (hr : q.received = false)
    (hi : b.pool.threads[i]? = some (.ret response)) : BrowserInv L r (b.receive i q response) := by
  constructor
  · refine refreshGood_congr h.good fun k hk => ?_
    have hlt : k < b.requests.length := by
      rw [← h.length]
      exact hk
    obtain ⟨q', hq', htoken⟩ := requests_received response (List.getElem?_eq_getElem hlt) hq
    rw [presented_of hq', presented_of (List.getElem?_eq_getElem hlt), htoken]
  · rw [Browser.receive, List.length_set]
    exact h.length
  · intro k hk
    rw [Browser.receive, List.length_set] at hk
    exact h.unstarted k hk
  · exact fun c hc => h.minted c (knows_receive h hq hi hc)
  · intro x hx
    obtain ⟨q₀, hq₀, hold⟩ := h.origin x hx
    obtain ⟨q', hq', htoken⟩ := requests_received response hq₀ hq
    exact ⟨q', hq', htoken.trans hold⟩
  · exact h.once
  · intro k q' hq' hreceived
    obtain ⟨q₀, hq₀, -, -, -, hsame⟩ := requests_receive hq' hq
    by_cases hk : k = i
    · exact ⟨response, hk ▸ hi⟩
    · obtain rfl := hsame hk
      exact h.answered k q' hq₀ hreceived
  · intro j k q₁ q₂ hq₁ hq₂ hjk hpending
    obtain ⟨p₁, hp₁, -, -, hunreceived, -⟩ := requests_receive hq₁ hq
    obtain ⟨p₂, hp₂, -, hout, -⟩ := requests_receive hq₂ hq
    rw [hout]
    exact h.overlap j k p₁ p₂ hp₁ hp₂ hjk (hunreceived hpending).1
  · intro x hx q' hq' hpending
    obtain ⟨q₀, hq₀, -, -, hunreceived, -⟩ := requests_receive hq' hq
    obtain ⟨hpend₀, hne⟩ := hunreceived hpending
    obtain ⟨hjar, hcarried⟩ := h.hidden x hx q₀ hq₀ hpend₀
    refine ⟨jar_receive_ne h hi hjar fun new _ hy he => hne ?_, fun q₁ hq₁ => ?_⟩
    · exact congrArg AcceptedRotation.thread (accepted_eq h.good.shared hx hy he.symm)
    · obtain ⟨k, hk⟩ := List.getElem?_of_mem hq₁
      obtain ⟨q₂, hq₂, htoken, -⟩ := requests_receive hk hq
      rw [htoken]
      exact hcarried q₂ (List.mem_of_getElem? hq₂)
  · intro x hx q' hq' hreceived habandoned
    obtain ⟨q₀, hq₀, hold⟩ := h.origin x hx
    -- no request has carried a token that is still held back
    have hfresh : ∀ new, ⟨i, b.presented i, new⟩ ∈ b.pool.shared.accepted → new ≠ x.old := by
      intro new hy he
      refine (h.hidden _ hy q hq hr).2 q₀ (List.mem_of_getElem? hq₀) ?_
      rw [hold, he]
    by_cases hthread : x.thread = i
    · cases hg : response.granted with
      | none =>
        refine absurd ?_ habandoned
        rw [hthread]
        show i ∈ b.pool.shared.abandoned
        exact abandoned_of_ungranted h hi hg hx hthread
      | some new =>
        rw [Browser.receive, hg]
        exact hfresh new (granted_accepted h hi hg)
    · obtain ⟨q₁, hq₁, -, -, -, hsame⟩ := requests_receive hq' hq
      obtain rfl := hsame hthread
      exact jar_receive_ne h hi (h.applied x hx q' hq₁ hreceived habandoned) fun new _ => hfresh new
  · intro x hx k q' hq' hlt hout habandoned
    obtain ⟨q₀, hq₀, htoken, houtstanding, -⟩ := requests_receive hq' hq
    rw [htoken]
    exact h.sentAfter x hx k q₀ hq₀ hlt (houtstanding ▸ hout) habandoned
  · exact fun c hc => h.traced c (knows_receive h hq hi hc)

end Receive

section Serve

variable {pool : RefreshPool} {l : RefreshLabel}

/-- A rotation noted by a step is the one its label names, and its token is new. -/
theorem accepted_new (h : RefreshStep L r b.pool l pool) {x : AcceptedRotation}
    (hx : x ∈ pool.shared.accepted) (hold : x ∉ b.pool.shared.accepted) :
    (∃ rot next, l = .cmd x.thread (.rotateRefreshToken x.old) (.ok rot) ∧ rot.newToken = x.new ∧
      b.pool.threads[x.thread]? = some (.call (.rotateRefreshToken x.old) next)) ∧
    FreshJti b.pool.shared.sessions x.new.jti := by
  cases h with
  | spawn hp => exact hp.elim
  | env he => cases he <;> exact absurd hx hold
  | cmd hi hexec =>
    cases hexec with
    | @rotate _ key claims newJti now result redis hfresh hrun =>
      rcases List.mem_append.mp hx with hx | hx
      · exact absurd hx hold
      · obtain ⟨new, hnew, rfl⟩ := List.mem_map.mp hx
        cases result with
        | error e => cases hnew
        | ok rot =>
          obtain rfl := List.mem_singleton.mp hnew
          refine ⟨⟨rot, _, rfl, rfl, hi⟩, ?_⟩
          rw [newToken_jti hrun]
          exact hfresh
    | getUser id => exact absurd (accepted_settle (s := b.pool.shared) _ ▸ hx) hold
    | newAccessToken result => exact absurd (accepted_settle (s := b.pool.shared) _ ▸ hx) hold
    | _ => exact absurd hx hold

/-- A token is consumed by the step that accepts its rotation, and by no other. -/
theorem consumed_step (hg : RefreshGood L r b.presented b.pool) (h : RefreshStep L r b.pool l pool) {u : Uuid}
    (hu : Consumed r pool.shared.sessions.redis u) :
    Consumed r b.pool.shared.sessions.redis u ∨
      ∃ x ∈ pool.shared.accepted, x.old ∈ b.pool.shared.sessions.minted ∧ u = x.old.jti := by
  cases h with
  | spawn hp => exact hp.elim
  | env he => cases he <;> exact Or.inl hu
  | cmd hi hexec =>
    have hguar := hg.guar (refreshContract_sound _) hi
    cases hexec with
    | @rotate _ key claims newJti now result redis hfresh hrun =>
      rcases consumed_rotate hg.shared.sessions hguar.2.1 hfresh hrun hu with hu | ⟨rfl, rot, rfl⟩
      · exact Or.inl hu
      · exact Or.inr ⟨_, List.mem_append_right _ (List.mem_singleton_self _), hguar.2.1, rfl⟩
    | getUser id => exact Or.inl (sessions_settle (s := b.pool.shared) _ ▸ hu)
    | newAccessToken result => exact Or.inl (sessions_settle (s := b.pool.shared) _ ▸ hu)
    | _ => exact Or.inl hu

/-- A request with a command left has not been answered. -/
theorem pending_of_call (h : BrowserInv L r b) {i : Nat} {q : Request} (hq : b.requests[i]? = some q)
    {c : RefreshCmd} {next : RefreshReply c → RefreshProg Response}
    (hi : b.pool.threads[i]? = some (.call c next)) : q.received = false := by
  by_contra hne
  obtain ⟨response, hret⟩ := h.answered i q hq (Bool.of_not_eq_false hne)
  cases hi.symm.trans hret

theorem request_of_call (h : BrowserInv L r b) {i : Nat} {p : RefreshProg Response}
    (hi : b.pool.threads[i]? = some p) : ∃ q, b.requests[i]? = some q := by
  have hlt := (List.getElem?_eq_some_iff.mp hi).1
  rw [h.length] at hlt
  exact ⟨_, List.getElem?_eq_getElem hlt⟩

theorem browserInv_serve (h : BrowserInv L r b) (hstep : RefreshStep L r b.pool l pool) :
    BrowserInv L r { b with pool := pool } := by
  have hgood := refreshGood_step h.good hstep
  have hlater := (later_refresh h.good hstep).minted
  obtain ⟨hlength, hreturned⟩ := threads_step hstep
  have hkept : ∀ i, i ∉ pool.shared.abandoned → i ∉ b.pool.shared.abandoned :=
    fun i => mt fun hi => (abandoned_step hstep).mpr (Or.inl hi)
  -- what is new about a rotation this step has accepted
  have hnew : ∀ x ∈ pool.shared.accepted, x ∉ b.pool.shared.accepted →
      (∃ q, b.requests[x.thread]? = some q ∧ q.token = x.old ∧ q.received = false) ∧
      b.pool.shared.acceptedBy x.thread = [] ∧
      FreshJti b.pool.shared.sessions x.new.jti := by
    intro x hx hold
    obtain ⟨⟨rot, next, -, -, hi⟩, hfresh⟩ := accepted_new hstep hx hold
    obtain ⟨q, hq⟩ := request_of_call h hi
    have hguar := h.good.guar (refreshContract_sound _) hi
    exact ⟨⟨q, hq, ((presented_of hq).symm.trans hguar.1.symm), pending_of_call h hq hi⟩, hguar.2.2, hfresh⟩
  have hknows : ∀ c, ({ b with pool := pool } : Browser).Knows c → b.Knows c ∨
      ∃ x ∈ pool.shared.accepted, x ∉ b.pool.shared.accepted ∧ x.new = c := by
    rintro c (hc | hc | ⟨x, hx, rfl⟩)
    · exact Or.inl (Or.inl hc)
    · exact Or.inl (Or.inr (Or.inl hc))
    · by_cases hold : x ∈ b.pool.shared.accepted
      · exact Or.inl (Or.inr (Or.inr ⟨x, hold, rfl⟩))
      · exact Or.inr ⟨x, hx, hold, rfl⟩
  have hminted : ∀ c, ({ b with pool := pool } : Browser).Knows c → c ∈ pool.shared.sessions.minted := by
    intro c hc
    rcases hknows c hc with hc | ⟨x, hx, -, rfl⟩
    · exact hlater c (h.minted c hc)
    · exact hgood.shared.minted x hx
  constructor
  · exact hgood
  · exact hlength.trans h.length
  · intro i hi
    refine h.good.unmarked (refreshContract_sound _) (fun _ _ _ => Unstarted.left) hstep ?_ i ?_
    · intro j hj
      rw [h.length] at hj
      exact h.unstarted j hj
    · rw [hlength, h.length]
      exact hi
  · exact hminted
  · intro x hx
    by_cases hold : x ∈ b.pool.shared.accepted
    · exact h.origin x hold
    · obtain ⟨⟨q, hq, htoken, -⟩, -⟩ := hnew x hx hold
      exact ⟨q, hq, htoken⟩
  · have hlone : ∀ x ∈ pool.shared.accepted, x ∉ b.pool.shared.accepted → ∀ y ∈ b.pool.shared.accepted,
        y.thread ≠ x.thread := by
      intro x hx hold y hy he
      have hmem : y ∈ b.pool.shared.acceptedBy x.thread := List.mem_filter.mpr ⟨hy, beq_iff_eq.mpr he⟩
      rw [(hnew x hx hold).2.1] at hmem
      cases hmem
    intro x hx y hy he
    by_cases hxold : x ∈ b.pool.shared.accepted
    · by_cases hyold : y ∈ b.pool.shared.accepted
      · exact h.once x hxold y hyold he
      · exact absurd he (hlone y hy hyold x hxold)
    · by_cases hyold : y ∈ b.pool.shared.accepted
      · exact absurd he.symm (hlone x hx hxold y hyold)
      · obtain ⟨⟨rot, _, hl, hrot, -⟩, -⟩ := accepted_new hstep hx hxold
        obtain ⟨⟨rot', _, hl', hrot', -⟩, -⟩ := accepted_new hstep hy hyold
        refine accepted_eq (b := ⟨pool, b.jar, b.requests⟩) hgood.shared hx hy ?_
        obtain ⟨i, old, new⟩ := x
        obtain ⟨j, old', new'⟩ := y
        cases hl.symm.trans hl'
        exact hrot.symm.trans hrot'
  · intro i q hq hr
    obtain ⟨response, hi⟩ := h.answered i q hq hr
    exact ⟨response, hreturned i response hi⟩
  · exact h.overlap
  · intro x hx q hq hr
    by_cases hold : x ∈ b.pool.shared.accepted
    · exact h.hidden x hold q hq hr
    · have hfresh := (hnew x hx hold).2.2
      have hne : ∀ c ∈ b.pool.shared.sessions.minted, c ≠ x.new := by
        rintro c hc rfl
        exact hfresh _ hc rfl
      exact ⟨hne _ (h.minted _ (Or.inl rfl)), fun q' hq' => hne _ (h.minted _ (Or.inr (Or.inl ⟨q', hq', rfl⟩)))⟩
  · intro x hx q hq hr habandoned
    by_cases hold : x ∈ b.pool.shared.accepted
    · exact h.applied x hold q hq hr (hkept _ habandoned)
    · obtain ⟨⟨q', hq', -, hpending⟩, -⟩ := hnew x hx hold
      cases hq.symm.trans hq'
      rw [hr] at hpending
      cases hpending
  · intro x hx k q hq hlt hout habandoned
    by_cases hold : x ∈ b.pool.shared.accepted
    · exact h.sentAfter x hold k q hq hlt hout (hkept _ habandoned)
    · obtain ⟨⟨q', hq', -, hpending⟩, -⟩ := hnew x hx hold
      exact absurd (h.overlap x.thread k q' q hq' hq hlt hpending) hout
  · intro c hc hconsumed
    rcases consumed_step h.good hstep hconsumed with hbefore | ⟨x, hx, hxm, hjti⟩
    · rcases hknows c hc with hc | ⟨x, hx, hold, rfl⟩
      · obtain ⟨x, hx, hold⟩ := h.traced c hc hbefore
        exact ⟨x, (accepted_step hstep).subset hx, hold⟩
      · -- the record of a fresh token did not exist
        obtain ⟨f, t, hd, -⟩ := hbefore
        rw [h.good.shared.sessions.token_fresh (hnew x hx hold).2.2] at hd
        cases hd
    · exact ⟨x, hx, (hgood.shared.sessions.jti_inj c (hminted c hc) x.old (hlater _ hxm) hjti).symm⟩

end Serve

theorem browserInv_step (hL : L.Lawful) (h : BrowserInv L r b) {l : BrowserLabel}
    (hstep : BrowserStep L r b l b') : BrowserInv L r b' := by
  cases hstep with
  | @send tab _ => exact browserInv_send hL h tab
  | serve hserve => exact browserInv_serve h hserve
  | receive hq hr hi => exact browserInv_receive h hq hr hi

theorem browserInv_run (hL : L.Lawful) (h : BrowserInv L r b) {trace : List BrowserLabel}
    (hrun : Run (BrowserStep L r) b trace b') : BrowserInv L r b' :=
  hrun.invariant (fun _ _ _ h hs => browserInv_step hL h hs) h

/-- The rotations noted in a run are those its labels name. -/
theorem accepted_run {trace : List BrowserLabel} (hrun : Run (BrowserStep L r) b trace b') {x : AcceptedRotation}
    (hx : x ∈ b'.pool.shared.accepted) : x ∈ b.pool.shared.accepted ∨
      ∃ rot, .serve (.cmd x.thread (.rotateRefreshToken x.old) (.ok rot)) ∈ trace := by
  induction hrun with
  | nil => exact Or.inl hx
  | @cons b₀ b₁ _ l trace hstep _ ih =>
    rcases ih hx with hx | ⟨rot, hmem⟩
    · by_cases hold : x ∈ b₀.pool.shared.accepted
      · exact Or.inl hold
      · refine Or.inr ?_
        cases hstep with
        | send => exact absurd hx hold
        | receive => exact absurd hx hold
        | serve hserve =>
          obtain ⟨⟨rot, _, rfl, -⟩, -⟩ := accepted_new hserve hx hold
          exact ⟨rot, List.mem_cons_self⟩
    · exact Or.inr ⟨rot, List.mem_cons_of_mem _ hmem⟩

/-- So are the requests that failed after their rotation. -/
theorem abandoned_served {trace : List BrowserLabel} (hrun : Run (BrowserStep L r) b trace b') {i : Nat}
    (hi : i ∈ b'.pool.shared.abandoned) : i ∈ b.pool.shared.abandoned ∨
      ∃ l, .serve l ∈ trace ∧ FailsLate i l := by
  induction hrun with
  | nil => exact Or.inl hi
  | cons hstep _ ih =>
    rcases ih hi with hi | ⟨l, hmem, hl⟩
    · cases hstep with
      | send => exact Or.inl hi
      | receive => exact Or.inl hi
      | serve hserve =>
        rcases (abandoned_step hserve).mp hi with hi | hl
        · exact Or.inl hi
        · exact Or.inr ⟨_, List.mem_cons_self, hl⟩
    · exact Or.inr ⟨l, List.mem_cons_of_mem _ hmem, hl⟩

/-- One of the two requests was sent while the other one was still unanswered. -/
def Overlap (b : Browser) (i k : Nat) : Prop :=
  ∃ q q', b.requests[i]? = some q ∧ b.requests[k]? = some q' ∧ (i ∈ q'.outstanding ∨ k ∈ q.outstanding)

/-- A token of the browser is taken for stolen only where another request that carried it had
rotated it, on its way at the same time, or failing once the rotation was accepted. -/
theorem reuse_needs_overlap (hL : L.Lawful) (hinit : BrowserInit r b) {before after : List BrowserLabel}
    {trace : List BrowserLabel} {k : Nat} {c : RefreshTokenClaims} (hrun : Run (BrowserStep L r) b trace b')
    (htrace : trace = before ++ .serve (.cmd k (.rotateRefreshToken c) (.error .refreshTokenReused)) :: after) :
    ∃ t, Run (BrowserStep L r) b before t ∧ t.presented k = c ∧ ∃ j, j ≠ k ∧ t.presented j = c ∧
      (∃ rot, .serve (.cmd j (.rotateRefreshToken c) (.ok rot)) ∈ before) ∧
      (Overlap t j k ∨ ∃ l, .serve l ∈ before ∧ FailsLate j l) := by
  subst htrace
  obtain ⟨t, t', hbefore, hstep, -⟩ := hrun.at_label
  have h := browserInv_run hL (browserInv_init hinit) hbefore
  refine ⟨t, hbefore, ?_⟩
  cases hstep with
  | serve hserve =>
    cases hserve with
    | cmd hi hexec =>
      obtain ⟨rfl, hc, hnone⟩ := h.good.guar (refreshContract_sound _) hi
      obtain ⟨qk, hqk⟩ := request_of_call h hi
      have hpending := pending_of_call h hqk hi
      have hpresented := presented_of hqk
      have hconsumed : Consumed r t.pool.shared.sessions.redis (t.presented k).jti := by
        generalize hreply : (Except.error .refreshTokenReused : Except AuthError RotatedRefreshToken) = reply at hexec
        cases hexec with
        | rotateFailed claims e =>
          have he := Except.error.inj hreply
          cases e <;> cases he
        | rotate hfresh hrot =>
          subst hreply
          exact consumed_of_reused h.good.shared.sessions hc hfresh hrot
      have hknown : t.Knows (t.presented k) := Or.inr (Or.inl ⟨qk, List.mem_of_getElem? hqk, hpresented.symm⟩)
      obtain ⟨x, hx, hold⟩ := h.traced _ hknown hconsumed
      obtain ⟨qj, hqj, htoken⟩ := h.origin x hx
      have hother : x.thread ≠ k := by
        intro he
        have hmem : x ∈ t.pool.shared.acceptedBy k := List.mem_filter.mpr ⟨hx, beq_iff_eq.mpr he⟩
        rw [hnone] at hmem
        cases hmem
      have hrotated : ∃ rot, .serve (.cmd x.thread (.rotateRefreshToken (t.presented k)) (.ok rot)) ∈ before := by
        have hnamed := (accepted_run hbefore hx).resolve_left fun hstart => by
          rw [hinit.start.accepted] at hstart
          cases hstart
        rw [hold] at hnamed
        exact hnamed
      refine ⟨rfl, x.thread, hother, (presented_of hqj).trans (htoken.trans hold), hrotated, ?_⟩
      rcases Nat.lt_or_gt_of_ne hother with hlt | hgt
      · by_cases hout : x.thread ∈ qk.outstanding
        · exact Or.inl ⟨qj, qk, hqj, hqk, Or.inl hout⟩
        · -- sent after the other's response, with a token that response did not replace
          refine Or.inr ((abandoned_served hbefore ?_).resolve_left fun hstart => ?_)
          · by_contra habandoned
            exact h.sentAfter x hx k qk hqk hlt hout habandoned (hpresented.symm.trans hold.symm)
          · rw [hinit.start.abandoned] at hstart
            cases hstart
      · exact Or.inl ⟨qj, qk, hqj, hqk, Or.inr (h.overlap k x.thread qk qj hqk hqj hgt hpending)⟩

theorem serve_run {trace : List RefreshLabel} {pool pool' : RefreshPool} (jar : RefreshTokenClaims)
    (requests : List Request) (h : Run (RefreshStep L r) pool trace pool') :
    Run (BrowserStep L r) ⟨pool, jar, requests⟩ (trace.map .serve) ⟨pool', jar, requests⟩ := by
  induction h with
  | nil => exact .nil _
  | cons hstep _ ih => exact .cons (.serve hstep) ih

section Sample

def sampleBrowser : Browser := ⟨⟨sampleStore, []⟩, sampleToken, []⟩

theorem sampleBrowser_init : BrowserInit sampleConfig sampleBrowser where
  start := sampleStore_start
  threads := rfl
  requests := rfl
  minted := List.mem_singleton_self _
  active := by
    obtain ⟨f, hd, hs⟩ := sampleToken_active
    exact ⟨f, _, hd, hs⟩

theorem sampleLib_lawful : sampleLib.Lawful := by
  intro c c' h
  simp only [sampleLib] at h
  by_cases hfirst : c = sampleToken
  · rw [if_pos hfirst] at h
    rw [hfirst]
    exact (Option.some.inj h).symm
  · rw [if_neg hfirst] at h
    by_cases hsecond : c = sampleToken'
    · rw [if_pos hsecond] at h
      rw [hsecond]
      exact (Option.some.inj h).symm
    · rw [if_neg hsecond] at h
      cases h

/-- A lock given back is free. -/
theorem unlocked_free (s : RefreshState) (cookie : String) (u : Uuid) :
    ((s.locked L cookie u).unlocked L cookie u).locks.get (lockKey L cookie) = none := by
  show (((s.locks.set (lockKey L cookie) u.text lockTtl).compareDel (lockKey L cookie) u.text).get _) = none
  rw [Strings.compareDel, if_pos (Strings.get_set_self _ _ _ _), Strings.get, Strings.del, Strings.data_write_self]
  rfl

/-- The two requests, sent with the same cookie by two tabs. -/
def bothSent : Browser := (sampleBrowser.send sampleLib 0).send sampleLib 1

theorem bothSent_run : Run (BrowserStep sampleLib sampleConfig) sampleBrowser [.send 0, .send 1] bothSent := by
  refine .cons (.send fun q hq => (nomatch hq)) (.single (.send ?_))
  intro q hq htab
  obtain rfl := List.mem_singleton.mp hq
  cases htab

def sampleRotation : RotatedRefreshToken := ⟨sampleToken', sampleJti', sampleSid.text, "alice"⟩

/-- After the first request was served, from its lock to the release of it. -/
def firstServed (redis : Server) : RefreshState :=
  ((sampleStore.locked sampleLib "first" sampleJti).rotated 0 sampleToken (.ok sampleRotation) redis).unlocked
    sampleLib "first" sampleJti

theorem first_request {redis : Server} (hrot : rotateRefreshToken sampleConfig (some "kid") sampleToken sampleJti' 0
    sampleLogin.redis = (.ok sampleRotation, redis)) :
    ∃ trace response, Run (RefreshStep sampleLib sampleConfig) bothSent.pool trace
      ⟨firstServed redis, [.ret response, refresh (some "first")]⟩ := by
  have hwork : Alone (RefreshExec sampleLib sampleConfig 0) Eq (rotateAndGrant sampleToken sampleToken.jkt)
      (sampleStore.locked sampleLib "first" sampleJti) (.tokens ⟨"alice", .USER, "jkt"⟩ sampleToken')
      ((sampleStore.locked sampleLib "first" sampleJti).rotated 0 sampleToken (.ok sampleRotation) redis) :=
    .call rfl (.rotate sampleLogin_fresh hrot) <| .call rfl (.getUser "alice") <|
      .call rfl (.newAccessToken (.ok ⟨"alice", .USER, "jkt"⟩)) (.ret _ _)
  have halone := alone_refresh sampleJti (rfl : sampleLib.read "first" = some sampleToken) rfl hwork
  obtain ⟨trace, hrun⟩ : ∃ trace, Run (RefreshStep sampleLib sampleConfig) bothSent.pool trace
      ⟨firstServed redis, [.ret _, refresh (some "first")]⟩ :=
    Alone.run (S := refreshSemantics sampleLib sampleConfig) (i := 0) halone rfl
  exact ⟨trace, _, hrun⟩

theorem second_request {redis redis' : Server} (response : Response)
    (hagain : rotateRefreshToken sampleConfig (some "kid") sampleToken sampleSid 0 redis =
      (.error .refreshTokenReused, redis')) :
    ∃ trace pool, Run (RefreshStep sampleLib sampleConfig)
      ⟨firstServed redis, [.ret response, refresh (some "first")]⟩
      (trace ++ [.cmd 1 (.rotateRefreshToken sampleToken) (.error .refreshTokenReused)]) pool ∧
      pool.shared.sessions = ⟨redis', sampleLogin.minted ++ [sampleToken'] ++ []⟩ := by
  have hread : sampleLib.read "first" = some sampleToken := rfl
  have hfree : (firstServed redis).locks.get (lockKey sampleLib "first") = none :=
    unlocked_free sampleStore "first" sampleJti
  obtain ⟨trace, hrun⟩ : ∃ trace, Run (RefreshStep sampleLib sampleConfig)
      ⟨firstServed redis, [.ret response, refresh (some "first")]⟩ trace
      ⟨(firstServed redis).locked sampleLib "first" sampleJti',
        [.ret response, underLock "first" sampleToken sampleJti']⟩ :=
    Advance.run (S := refreshSemantics sampleLib sampleConfig) (i := 1) (advance_refresh sampleJti' hread hfree) rfl
  have hfresh : FreshJti ((firstServed redis).locked sampleLib "first" sampleJti').sessions sampleSid := by
    intro c hc
    rcases List.mem_pair.mp hc with rfl | rfl <;> decide
  have hexec : RefreshExec sampleLib sampleConfig 1 (.rotateRefreshToken sampleToken)
      ((firstServed redis).locked sampleLib "first" sampleJti') (.error .refreshTokenReused) _ :=
    .rotate hfresh hagain
  have hstep : RefreshStep sampleLib sampleConfig ⟨(firstServed redis).locked sampleLib "first" sampleJti',
      [.ret response, underLock "first" sampleToken sampleJti']⟩ _ _ := Step.cmd (i := 1) rfl hexec
  exact ⟨trace, _, hrun.append (.single hstep), rfl⟩

theorem second_tab_run : ∃ trace t, Run (BrowserStep sampleLib sampleConfig) sampleBrowser
      (trace ++ [.serve (.cmd 1 (.rotateRefreshToken sampleToken) (.error .refreshTokenReused))]) t ∧
    Revoked sampleConfig t.pool.shared.sessions sampleToken.sid.text := by
  obtain ⟨cur, lin, members, created, ha⟩ := sampleLogin_accepts
  have hinv := sampleLogin_good.shared
  have hmem : sampleToken ∈ sampleLogin.minted ++ [sampleToken'] :=
    List.mem_append_left _ (List.mem_singleton_self _)
  obtain ⟨redis', hagain⟩ := replay_detected hinv ha sampleLogin_fresh "kid" sampleSid 0
  obtain ⟨served, response, hserved⟩ := first_request (rotate_fresh hinv ha sampleLogin_fresh "kid" 0)
  obtain ⟨waited, pool, hwaited, hpool⟩ := second_request response hagain
  have hrun := bothSent_run.append (serve_run bothSent.jar bothSent.requests (hserved.append hwaited))
  have hfresh : ∀ redis, FreshJti ⟨redis, sampleLogin.minted ++ [sampleToken']⟩ sampleSid := by
    intro redis c hc
    rcases List.mem_pair.mp hc with rfl | rfl <;> decide
  have heff := rotate_effect (inv_rotated hinv ha sampleLogin_fresh) hmem (hfresh _) hagain
  refine ⟨[.send 0, .send 1] ++ (served ++ waited).map .serve, ⟨pool, bothSent.jar, bothSent.requests⟩,
    ?_, ?_⟩
  · rw [← List.append_assoc, List.map_append, ← List.append_assoc] at hrun
    exact hrun
  · show Revoked sampleConfig pool.shared.sessions _
    rw [hpool]
    exact heff.reused rfl

end Sample

/-- The second of two tabs is served right after the first one, whose answer is on its way. -/
theorem reuse_of_second_tab : ∃ trace t, BrowserInit sampleConfig sampleBrowser ∧
    Run (BrowserStep sampleLib sampleConfig) sampleBrowser
      (trace ++ [.serve (.cmd 1 (.rotateRefreshToken sampleToken) (.error .refreshTokenReused))]) t ∧
    Revoked sampleConfig t.pool.shared.sessions sampleToken.sid.text := by
  obtain ⟨trace, t, hrun, hrevoked⟩ := second_tab_run
  exact ⟨trace, t, sampleBrowser_init, hrun, hrevoked⟩

theorem reuse_needs_overlap_tabs : ∃ before t, Run (BrowserStep sampleLib sampleConfig) sampleBrowser before t ∧
    ∃ j, j ≠ 1 ∧ (∃ rot, .serve (.cmd j (.rotateRefreshToken sampleToken) (.ok rot)) ∈ before) ∧
      (Overlap t j 1 ∨ ∃ l, .serve l ∈ before ∧ FailsLate j l) := by
  obtain ⟨before, b, hrun, -⟩ := second_tab_run
  obtain ⟨t, hbefore, -, j, hj, -, hrotated, hoverlap⟩ :=
    reuse_needs_overlap sampleLib_lawful sampleBrowser_init hrun rfl
  exact ⟨before, t, hbefore, j, hj, hrotated, hoverlap⟩

end Chinwag.Auth

import Chinwag.Dpop.Client
import Chinwag.Lib.Slots

/-!
# The nonce handshake ends

A challenge hands the client a nonce that is in Redis and in no other proof, the gate keeps every
other request of the client back, and so the retry finds it there.
-/
namespace Chinwag.Handshake

open Dpop Program Slots StringKeys Transition

variable {lib : Libraries} {r i : Nat}

section Client

/-- How far the client is: nothing was sent, a challenge came, or there is nothing to retry. -/
inductive Progress where
  | fresh
  | challenged (nonce : String)
  | ended

/-- What a request may come to, if a retry is never challenged again. -/
inductive Fetched : Progress → Except String Response → Progress → Prop where
  | failed (p : Progress) (e : String) : Fetched p (.error e) .ended
  | answered (p : Progress) {res : Response} (h : isUseNonceResponse res = false) : Fetched p (.ok res) .ended
  | challenged {res : Response} {nonce : String} (h : isUseNonceResponse res = true)
      (hnonce : res.nonce = some nonce) (hne : nonce ≠ "") : Fetched .fresh (.ok res) (.challenged nonce)

def clientExec (lib : Libraries) : (c : ClientCmd) → Progress → ClientReply c → Progress → Prop
  | .readNonce, s, _, t => t = s
  | .setDPoPNonce _, s, _, t => t = s
  | .createDPoPProof _ _ nonce, s, reply, t =>
    t = s ∧ ∀ raw, reply = .ok raw → nonceOf lib raw = some (nonce.getD "")
  | .fetch _ _, s, reply, t => Fetched s reply t

def clientSemantics (lib : Libraries) : Semantics Progress Empty ClientCmd ClientReply where
  exec _ := clientExec lib
  env _ e _ := nomatch e

/-- A request is the first one, or answers the challenge. -/
def maySend (lib : Libraries) (raw : String) (s : Progress) : Prop :=
  s = .fresh ∨ ∃ nonce, s = .challenged nonce ∧ nonceOf lib raw = some nonce ∧ nonce ≠ ""

def clientContract (lib : Libraries) : Contract Progress ClientCmd where
  inv _ := True
  rely _ s t := t = s
  guar _ c s := match c with
    | .fetch _ raw => maySend lib raw s
    | _ => True

/-- `doFetch` gives no challenge back. -/
def Unchallenged (result : Except String Response) (_ : Progress) : Prop :=
  ∀ res, result = .ok res → isUseNonceResponse res = false

abbrev ClientSafe (lib : Libraries) (p : ClientProg (Except String Response)) (s : Progress) : Prop :=
  Safe (clientSemantics lib) (clientContract lib) 0 Unchallenged p s

variable {c : FetchCall}

theorem safe_capture (res : Response) (s : Progress) :
    Safe (clientSemantics lib) (clientContract lib) 0 (fun nonce t => nonce = res.nonce ∧ t = s)
      (captureDPoPNonce res) s := by
  unfold captureDPoPNonce
  split
  · rename_i hnone
    exact ⟨hnone.symm, rfl⟩
  · rename_i nonce hsome
    split
    · exact ⟨hsome.symm, rfl⟩
    · intro s₁ _ hrely
      refine ⟨trivial, fun _ s₂ hexec _ => ?_⟩
      exact ⟨hsome.symm, hexec.trans hrely⟩

theorem safe_fetchWithProof {nonce : Option String} {s : Progress}
    (hs : s = .fresh ∨ ∃ n, s = .challenged n ∧ nonce = some n ∧ n ≠ "") :
    Safe (clientSemantics lib) (clientContract lib) 0
      (fun result t => (∃ e, result = .error e) ∨ Fetched s result t) (fetchWithProof c nonce) s := by
  rintro s₁ _ rfl
  refine ⟨trivial, fun reply s₂ hexec _ => ?_⟩
  obtain ⟨rfl, hraw⟩ := hexec
  cases reply with
  | error e => exact .inl ⟨e, rfl⟩
  | ok raw =>
    rintro s₃ _ rfl
    constructor
    · rcases hs with hfresh | ⟨n, hn, rfl, hne⟩
      · exact .inl hfresh
      · exact .inr ⟨n, hn, hraw raw rfl, hne⟩
    · intro result s₄ hfetched _
      exact .inr hfetched

theorem retryLoop_done {res : Response} (h : isUseNonceResponse res = false) (left : Nat) (nonce : Option String) :
    retryLoop c left res nonce = .ret (.ok res) := by
  cases left with
  | zero => rfl
  | succ left =>
    unfold retryLoop
    rw [h]
    rfl

/-- One retry is enough. -/
theorem safe_retryLoop {res : Response} {nonce : String} (h : isUseNonceResponse res = true) (hne : nonce ≠ "")
    (left : Nat) : ClientSafe lib (retryLoop c (left + 1) res (some nonce)) (.challenged nonce) := by
  rw [retryLoop, if_pos h]
  simp only [if_neg hne]
  refine (safe_fetchWithProof (.inr ⟨nonce, rfl, rfl, hne⟩)).bind fun result t hfetched => ?_
  cases result with
  | error e => exact fun res heq => nomatch heq
  | ok res' =>
    rcases hfetched with ⟨e, heq⟩ | hfetched
    · cases heq
    · cases hfetched with
      | answered _ hdone =>
        refine (safe_capture res' .ended).bind fun captured t' _ => ?_
        rw [retryLoop_done hdone]
        intro res'' heq
        cases heq
        exact hdone

theorem safe_gatedFetch (c : FetchCall) : ClientSafe lib (gatedFetch c) .fresh := by
  rintro s₁ _ rfl
  refine ⟨trivial, fun stored s₂ hexec _ => ?_⟩
  obtain rfl : s₂ = .fresh := hexec
  refine (safe_fetchWithProof (.inl rfl)).bind fun result t hfetched => ?_
  cases result with
  | error e => exact fun res heq => nomatch heq
  | ok res =>
    rcases hfetched with ⟨e, heq⟩ | hfetched
    · cases heq
    · refine (safe_capture res t).bind fun captured t' hcaptured => ?_
      obtain ⟨rfl, rfl⟩ := hcaptured
      cases hfetched with
      | answered _ hdone =>
        rw [retryLoop_done hdone]
        intro res' heq
        cases heq
        exact hdone
      | challenged h hnonce hne =>
        rw [hnonce]
        exact safe_retryLoop h hne 1

end Client

section Services

/-- Redis would find the nonce, and it stands in no proof but that of request `r`. -/
def Traffic.keptFor (lib : Libraries) (r : Nat) (nonce : String) (s : Traffic) : Prop :=
  s.live nonce ∧ ∀ j, s.presents lib j = some nonce → j = r

/-- Redis would find the nonce, and it stands in no proof at all. -/
def Traffic.free (lib : Libraries) (nonce : String) (s : Traffic) : Prop :=
  s.live nonce ∧ ∀ j, s.presents lib j ≠ some nonce

variable {s t : Traffic} {kept : Option String}

theorem presents_congr (lib : Libraries) (h : t.arrived = s.arrived) (j : Nat) : t.presents lib j = s.presents lib j := by
  unfold Traffic.presents
  rw [h]

theorem get_of_data {s t : Strings} {key : String} (hnow : t.now = s.now) (hdata : t.data key = s.data key) :
    t.get key = s.get key := by
  unfold Strings.get
  rw [hnow, hdata]

theorem live_consume (s : Strings) {key other : String} (hne : other ≠ key) :
    (s.consume key).2.get other = s.get other := by
  unfold Strings.consume
  cases s.get key with
  | none => rfl
  | some value => exact get_of_data rfl (Strings.data_write_ne s hne none)

theorem live_setNX (s : Strings) {key other : String} (hne : other ≠ key) (value : String) (ttl : Nat) :
    (s.setNX key value ttl).2.get other = s.get other := by
  have hdata := Strings.data_setNX_ne s hne value ttl
  have hnow : (s.setNX key value ttl).2.now = s.now := by
    unfold Strings.setNX
    cases s.get key <;> rfl
  exact get_of_data hnow hdata

/-- A command takes no nonce out of Redis but the one it consumes. -/
theorem Answers.live {c : DpopCmd} {reply : DpopReply c} (h : Answers lib r c s reply t) {nonce : String}
    (hlive : s.live nonce) (hother : c ≠ .consumeNonce nonce) : t.live nonce := by
  have hexec := h.exec
  unfold Traffic.live at hlive ⊢
  have hconsumed : ∀ m, c = .consumeNonce m → nonceKey nonce ≠ nonceKey m := by
    rintro m rfl hkey
    exact hother (by rw [nonceKey_injective hkey])
  have hissued : ∀ m, (s.redis.issueNonce m).keys.get (nonceKey nonce) ≠ none := by
    intro m
    by_cases heq : nonce = m
    · rw [heq, DpopState.issueNonce, Strings.get_set_self]
      exact Option.some_ne_none _
    · have hkey : nonceKey nonce ≠ nonceKey m := fun hk => heq (nonceKey_injective hk)
      have hsame : (s.redis.issueNonce m).keys.get (nonceKey nonce) = s.redis.keys.get (nonceKey nonce) :=
        get_of_data rfl (Strings.data_write_ne s.redis.keys hkey _)
      rwa [hsame]
  generalize t.redis = redis at hexec
  cases hexec with
  | now => exact hlive
  | consumeNonce m => rwa [DpopState.consumeNonce, live_consume s.redis.keys (hconsumed m rfl)]
  | consumeFailed => exact hlive
  | consumeLost m e => rwa [DpopState.loseNonce, live_consume s.redis.keys (hconsumed m rfl)]
  | reserveJti jti ttl => rwa [DpopState.reserveJti, live_setNX s.redis.keys (nonceKey_ne_jtiKey nonce jti)]
  | reserveFailed => exact hlive
  | reserveLost jti ttl e => rwa [DpopState.reserveJti, live_setNX s.redis.keys (nonceKey_ne_jtiKey nonce jti)]
  | issueNonce => exact hissued _
  | issueFailed => exact hlive
  | issueLost => exact hissued _

/-- While a request is handled, the nonce kept for it stays there. -/
def servicesContract (lib : Libraries) (kept : Option String) : Contract Traffic DpopCmd where
  inv _ := True
  rely r s t := ∀ nonce, kept = some nonce → s.keptFor lib r nonce → t.keptFor lib r nonce
  guar _ _ _ := True

abbrev ServiceSafe {α : Type} (lib : Libraries) (kept : Option String) (r : Nat) (Q : α → Traffic → Prop)
    (p : DpopProg α) (s : Traffic) : Prop :=
  Safe (servicesSemantics lib) (servicesContract lib kept) r Q p s

/-- No request is challenged for which a nonce was kept, and a challenge comes with a nonce to go on with. -/
def Challenges (lib : Libraries) (kept : Option String) (v : Verdict) (s : Traffic) : Prop :=
  ∀ nonce e, v = .rejected nonce e → e.code = errorUseNonce →
    kept = none ∧ nonce ≠ "" ∧ s.free lib nonce

def Answered (lib : Libraries) (kept : Option String) (o : Outcome) (s : Traffic) : Prop :=
  isUseNonceResponse o.response = true →
    kept = none ∧ ¬ o.passed ∧ ∃ nonce, o.response.nonce = some nonce ∧ nonce ≠ "" ∧ s.free lib nonce

theorem safe_anyReply {α : Type} {Q : α → Traffic → Prop} {c : DpopCmd} {next : DpopReply c → DpopProg α}
    (hnext : ∀ reply t, ServiceSafe lib kept r Q (next reply) t) (s : Traffic) :
    ServiceSafe lib kept r Q (.call c next) s :=
  fun _ _ _ => ⟨trivial, fun reply t _ _ => hnext reply t⟩

theorem safe_rejected {v : Validator} (hissues : v.issuesNonces = true) {e : DpopError}
    (he : e.code = errorUseNonce → kept = none) (s : Traffic) :
    ServiceSafe lib kept r (Challenges lib kept) (reject v e) s := by
  unfold reject issueOrEmpty
  rw [if_pos hissues]
  intro s₁ _ _
  refine ⟨trivial, fun reply t hexec _ => ?_⟩
  obtain ⟨nonce, rfl, hne, hunseen⟩ := hexec.drawn reply rfl
  rintro n e' heq hcode
  obtain ⟨rfl, rfl⟩ := Verdict.rejected.inj heq
  refine ⟨he hcode, hne, ?_, fun j => ?_⟩
  · have hredis := hexec.exec
    generalize hreply : (Except.ok nonce : DpopReply .issueNonce) = reply at hredis
    unfold Traffic.live
    generalize t.redis = redis at hredis
    cases hredis with
    | issueNonce fresh =>
      cases hreply
      rw [DpopState.issueNonce, Strings.get_set_self]
      exact Option.some_ne_none _
    | issueFailed => cases hreply
    | issueLost => cases hreply
  · rw [presents_congr lib hexec.arrived]
    exact hunseen j

theorem safe_accepted (v : Validator) (proof : Proof) (s : Traffic) :
    ServiceSafe lib kept r (Challenges lib kept) (accept v proof) s := by
  unfold accept
  split
  · refine safe_anyReply (fun reply t => ?_) s
    cases reply with
    | ok nonce => exact fun _ _ heq => nomatch heq
    | error e => exact fun _ _ heq => nomatch heq
  · exact fun _ _ heq => nomatch heq

/-- The nonce that was kept is found. -/
theorem consumed_kept {nonce : String} (hlive : s.live nonce)
    (h : Answers lib r (.consumeNonce nonce) s (.ok false) t) : False := by
  have hexec := h.exec
  generalize hreply : (Except.ok false : DpopReply (.consumeNonce nonce)) = reply at hexec
  generalize t.redis = redis at hexec
  cases hexec with
  | consumeNonce =>
    have hfound := Except.ok.inj hreply
    unfold Traffic.live at hlive
    cases hget : s.redis.keys.get (nonceKey nonce) with
    | none => exact hlive hget
    | some value =>
      rw [DpopState.consumeNonce, Strings.consume, hget] at hfound
      cases hfound
  | consumeFailed => cases hreply
  | consumeLost => cases hreply

theorem safe_spent {v : Validator} (hissues : v.issuesNonces = true) {proof : Proof}
    (hkept : ∀ nonce, kept = some nonce → proof.claims.nonce = nonce ∧ nonce ≠ "" ∧ s.keptFor lib r nonce) :
    ServiceSafe lib kept r (Challenges lib kept) (spend v proof) s := by
  have hnone : (∀ nonce, kept ≠ some nonce) → kept = none := fun h => Option.eq_none_iff_forall_ne_some.mpr h
  unfold spend
  split
  · rename_i hempty
    refine safe_rejected hissues (fun _ => hnone fun nonce hk => ?_) s
    obtain ⟨hclaim, hne, -⟩ := hkept nonce hk
    exact hne (hclaim.symm.trans hempty)
  · intro s₁ _ hrely
    refine ⟨trivial, fun reply t hexec _ => ?_⟩
    match reply, hexec with
    | .error e, _ => exact fun _ _ heq => nomatch heq
    | .ok false, hexec =>
      refine safe_rejected hissues (fun _ => hnone fun nonce hk => ?_) t
      obtain ⟨hclaim, -, hmine⟩ := hkept nonce hk
      have hlive : s₁.live proof.claims.nonce := hclaim ▸ (hrely nonce hk hmine).1
      exact consumed_kept hlive hexec
    | .ok true, _ =>
      refine safe_anyReply (fun reply t => ?_) t
      match reply with
      | .error e => exact fun _ _ heq => nomatch heq
      | .ok false => exact safe_rejected hissues (fun hcode => absurd hcode (by decide)) t
      | .ok true => exact safe_accepted v proof t

theorem parseProof_empty (lib : Libraries) : ∃ e, parseProof lib "" = .error e := by
  have hsplit : splitDots "" = [""] := rfl
  unfold parseProof
  rw [hsplit]
  exact ⟨_, rfl⟩

theorem safe_validated {v : Validator} (hissues : v.issuesNonces = true) {req : Request}
    (hkept : ∀ nonce, kept = some nonce → nonceOf lib req.dpop = some nonce ∧ nonce ≠ "" ∧ s.keptFor lib r nonce) :
    ServiceSafe lib kept r (Challenges lib kept) (validate lib v req) s := by
  have hon : v.setDefaults.issuesNonces = true := hissues
  have hcode : errorInvalidProof ≠ errorUseNonce := by decide
  have hinvalid : ∀ text t, ServiceSafe lib kept r (Challenges lib kept)
      (reject v.setDefaults ⟨errorInvalidProof, 400, text⟩) t := fun text t =>
    safe_rejected hon (fun heq => absurd heq hcode) t
  unfold validate validateWith
  split
  · rename_i hempty
    refine safe_rejected hon (fun _ => Option.eq_none_iff_forall_ne_some.mpr fun nonce hk => ?_) s
    obtain ⟨e, he⟩ := parseProof_empty lib
    have hread := (hkept nonce hk).1
    rw [nonceOf, hempty, he] at hread
    cases hread
  · split
    · exact hinvalid _ s
    · rename_i proof hparse
      intro s₁ _ hrely
      refine ⟨trivial, fun now t hexec _ => ?_⟩
      have hmine : ∀ nonce, kept = some nonce → proof.claims.nonce = nonce ∧ nonce ≠ "" ∧ t.keptFor lib r nonce := by
        intro nonce hk
        obtain ⟨hread, hne, hmine⟩ := hkept nonce hk
        rw [nonceOf, hparse] at hread
        obtain ⟨hlive, halone⟩ := hrely nonce hk hmine
        refine ⟨Option.some.inj hread, hne, hexec.live hlive nofun, fun j => ?_⟩
        rw [presents_congr lib hexec.arrived]
        exact halone j
      show Safe _ _ _ _ (checkProof lib v.setDefaults req proof now) t
      unfold checkProof
      split
      · exact hinvalid _ t
      · split
        · exact hinvalid _ t
        · split
          · exact safe_spent hon hmine
          · exact safe_accepted _ proof t

/-- A service challenges no request for which a nonce was kept. -/
theorem safe_handles {req : Request} {p : DpopProg Outcome} (h : Handles lib req p)
    (hkept : ∀ nonce, kept = some nonce → nonceOf lib req.dpop = some nonce ∧ nonce ≠ "" ∧ s.keptFor lib r nonce) :
    ServiceSafe lib kept r (Answered lib kept) p s := by
  cases h with
  | refused refusal =>
    intro huse
    rw [refusal.not_useNonce] at huse
    cases huse
  | served v route hissues =>
    refine (safe_validated hissues hkept).bind fun verdict t hverdict => ?_
    intro huse
    obtain ⟨nonce, e, rfl, hcode, hheader⟩ := Route.useNonce huse
    obtain ⟨hnone, hne, hfree⟩ := hverdict nonce e rfl hcode
    refine ⟨hnone, ?_, nonce, ?_, hne, hfree⟩
    · rintro ⟨proof, next, heq⟩
      cases heq
    · rw [hheader, nonceHeader, if_neg hne]

/-- A request consumes the nonce in its own proof only. -/
def ownNonce (lib : Libraries) (req : Request) (c : DpopCmd) : Prop :=
  ∀ nonce, c = .consumeNonce nonce → nonceOf lib req.dpop = some nonce

theorem only_reject (req : Request) (v : Validator) (e : DpopError) : Only (ownNonce lib req) (reject v e) := by
  unfold reject issueOrEmpty
  split
  · refine ⟨fun _ heq => (nomatch heq), fun reply => ?_⟩
    cases reply <;> trivial
  · trivial

theorem only_accept (req : Request) (v : Validator) (proof : Proof) : Only (ownNonce lib req) (accept v proof) := by
  unfold accept
  split
  · refine ⟨fun _ heq => (nomatch heq), fun reply => ?_⟩
    cases reply <;> trivial
  · trivial

theorem only_handles {req : Request} {p : DpopProg Outcome} (h : Handles lib req p) : Only (ownNonce lib req) p := by
  cases h with
  | refused refusal => trivial
  | served v route hissues =>
    refine Only.bind ?_ fun verdict => trivial
    unfold validate validateWith
    split
    · exact only_reject req _ _
    · split
      · exact only_reject req _ _
      · rename_i proof hparse
        refine ⟨fun _ heq => (nomatch heq), fun now => ?_⟩
        show Only _ (checkProof lib v.setDefaults req proof now)
        unfold checkProof
        split
        · exact only_reject req _ _
        · split
          · exact only_reject req _ _
          · split
            · unfold spend
              split
              · exact only_reject req _ _
              · refine ⟨fun nonce heq => ?_, fun reply => ?_⟩
                · cases heq
                  rw [nonceOf, hparse]
                · match reply with
                  | .error e => trivial
                  | .ok false => exact only_reject req _ _
                  | .ok true =>
                    refine ⟨fun _ heq => (nomatch heq), fun reply => ?_⟩
                    match reply with
                    | .error e => trivial
                    | .ok false => exact only_reject req _ _
                    | .ok true => exact only_accept req _ proof
            · exact only_accept req _ proof

end Services

section Tasks

/-- The request was answered without a valid proof. -/
def Refused (services : Services) (r : Nat) : Prop :=
  ∃ o, services.threads[r]? = some (.ret o) ∧ ¬ o.passed

/-- The answer to the last request of the task was a challenge with this nonce. -/
def ChallengedWith (services : Services) (task : Task) (nonce : String) : Prop :=
  ∃ r o, task.attempts.getLast? = some r ∧ services.threads[r]? = some (.ret o) ∧
    isUseNonceResponse o.response = true ∧ o.response.nonce = some nonce ∧ ¬ o.passed

def Linked (lib : Libraries) (services : Services) (task : Task) : Progress → Prop
  | .fresh => task.attempts = []
  | .challenged nonce =>
    ¬ task.settled → ChallengedWith services task nonce ∧ services.shared.free lib nonce
  | .ended => True

/-- The nonce that a request in flight has to itself. -/
def Progress.kept : Progress → Option String
  | .challenged nonce => some nonce
  | .fresh => none
  | .ended => none

structure Awaits (lib : Libraries) (services : Services) (task : Task) (r : Nat)
    (next : Except String Response → ClientProg (Except String Response)) (s : Progress) : Prop where
  last : task.attempts.getLast? = some r
  notEnded : s ≠ .ended
  next : ∀ reply t, Fetched s reply t → ClientSafe lib (next reply) t
  kept : ∀ nonce, s.kept = some nonce → services.shared.presents lib r = some nonce ∧ 1 < task.attempts.length
  thread : ∃ q, services.threads[r]? = some q ∧
    ServiceSafe lib s.kept r (Answered lib s.kept) q services.shared

def StageOk (lib : Libraries) (services : Services) (task : Task) : Prop :=
  match task.stage with
  | .queued _ => task.attempts = []
  | .running p => ∃ s, ClientSafe lib p s ∧ Linked lib services task s
  | .awaiting r next => ∃ s, Awaits lib services task r next s

/-- All requests of a task but the last were refused. -/
structure TaskOk (lib : Libraries) (services : Services) (task : Task) : Prop where
  refused : ∀ r ∈ task.attempts.dropLast, Refused services r
  stage : StageOk lib services task

/-- A thread that did not move, where what it counts on was left alone. -/
theorem safe_unmoved {kept : Option String} {q : DpopProg Outcome} {s t : Traffic}
    (h : ServiceSafe lib kept r (Answered lib kept) q s)
    (hkept : ∀ nonce, kept = some nonce → s.keptFor lib r nonce → t.keptFor lib r nonce)
    (hfree : ∀ o nonce, q = .ret o → isUseNonceResponse o.response = true → o.response.nonce = some nonce →
      s.free lib nonce → t.free lib nonce) : ServiceSafe lib kept r (Answered lib kept) q t := by
  cases q with
  | ret o =>
    intro huse
    obtain ⟨hnone, hpassed, nonce, hnonce, hne, hs⟩ := h huse
    exact ⟨hnone, hpassed, nonce, hnonce, hne, hfree o nonce rfl huse hnonce hs⟩
  | call c next =>
    intro u hu hrely
    exact h u hu fun nonce hk hs => hrely nonce hk (hkept nonce hk hs)

/-- The answers that were given stay. -/
def AnswersStay (services services' : Services) : Prop :=
  ∀ (j : Nat) (o : Outcome), services.threads[j]? = some (.ret o) → services'.threads[j]? = some (.ret o)

variable {services services' : Services} {task : Task}

theorem Refused.keep (h : Refused services r) (hret : AnswersStay services services') : Refused services' r := by
  obtain ⟨o, hr, hpassed⟩ := h
  exact ⟨o, hret r o hr, hpassed⟩

/-- The services went on; what a task counts on was left alone. -/
theorem TaskOk.keep (h : TaskOk lib services task)
    (hret : AnswersStay services services')
    (hpresents : ∀ j, services'.shared.presents lib j = services.shared.presents lib j)
    (hfree : ∀ nonce, ¬ task.settled → ChallengedWith services task nonce →
      services.shared.free lib nonce → services'.shared.free lib nonce)
    (hthread : ∀ j next s, task.stage = .awaiting j next → Awaits lib services task j next s →
      ∃ q, services'.threads[j]? = some q ∧ ServiceSafe lib s.kept j (Answered lib s.kept) q services'.shared) :
    TaskOk lib services' task where
  refused j hj := (h.refused j hj).keep hret
  stage := by
    have hstage := h.stage
    unfold StageOk at hstage ⊢
    split at hstage
    · exact hstage
    · rename_i p hp
      obtain ⟨s, hsafe, hlinked⟩ := hstage
      refine ⟨s, hsafe, ?_⟩
      cases s with
      | fresh => exact hlinked
      | ended => trivial
      | challenged nonce =>
        intro hunsettled
        obtain ⟨hwith, hs⟩ := hlinked hunsettled
        refine ⟨?_, hfree nonce hunsettled hwith hs⟩
        obtain ⟨j, o, hlast, hj, hrest⟩ := hwith
        exact ⟨j, o, hlast, hret j o hj, hrest⟩
    · rename_i j next hj
      obtain ⟨s, hawaits⟩ := hstage
      refine ⟨s, hawaits.last, hawaits.notEnded, hawaits.next, fun nonce hk => ?_, hthread j next s hj hawaits⟩
      rw [hpresents]
      exact hawaits.kept nonce hk

/-- A task that has settled or not begun counts on nothing but the answers it had. -/
theorem TaskOk.keep_idle (h : TaskOk lib services task)
    (hidle : task.settled ∨ ∃ c, task.stage = .queued c) (hret : AnswersStay services services') :
    TaskOk lib services' task where
  refused j hj := (h.refused j hj).keep hret
  stage := by
    have hstage := h.stage
    unfold StageOk at hstage ⊢
    rcases hidle with hsettled | ⟨c, hc⟩
    · obtain ⟨res, hres⟩ := id hsettled
      simp only [hres] at hstage ⊢
      obtain ⟨s, hsafe, hlinked⟩ := hstage
      refine ⟨s, hsafe, ?_⟩
      cases s with
      | fresh => exact hlinked
      | ended => trivial
      | challenged nonce => exact fun hunsettled => absurd hsettled hunsettled
    · simp only [hc] at hstage ⊢
      exact hstage

end Tasks

section Worlds

def Task.begun (task : Task) : Prop := ∀ c, task.stage ≠ .queued c

/-- What each request may still consume. -/
def OwnNonces (lib : Libraries) (services : Services) : Prop :=
  ∀ (r : Nat) (q : DpopProg Outcome) (req : Request), services.threads[r]? = some q →
    services.shared.arrived[r]? = some req → Only (ownNonce lib req) q

/-- A task begins only when all before it have settled, and only a settled one opens its gate. -/
structure Turns (tasks : List Task) : Prop where
  turn : ∀ (i j : Nat) (task before : Task), tasks[i]? = some task → task.begun → j < i → tasks[j]? = some before →
    before.settled
  gate : ∀ (i : Nat) (task : Task), tasks[i]? = some task → task.gate = true → task.settled

/-- Every task is where its answers put it. -/
structure WorldInv (lib : Libraries) (w : World) : Prop where
  arrived : w.services.shared.arrived.length = w.services.threads.length
  own : OwnNonces lib w.services
  tasks : ∀ (i : Nat) (task : Task), w.tasks[i]? = some task → TaskOk lib w.services task
  turns : Turns w.tasks

variable {w w' : World} {task task' : Task}

theorem Turns.set {tasks : List Task} (h : Turns tasks) (hi : tasks[i]? = some task)
    (hsettled : task.settled → task'.settled) (hgate : task'.gate = true → task'.settled)
    (hbegun : task'.begun → task.begun ∨ ∀ (j : Nat) (before : Task), j < i → tasks[j]? = some before →
      before.settled) : Turns (tasks.set i task') where
  turn := by
    intro j k other before hj hother hk hbefore
    have hall : ∀ b, tasks[k]? = some b → b.settled := by
      intro b hb
      rcases slot_set hj with ⟨rfl, rfl⟩ | ⟨-, hold⟩
      · rcases hbegun hother with hmoved | hfirst
        · exact h.turn j k task b hi hmoved hk hb
        · exact hfirst k b hk hb
      · exact h.turn j k other b hold hother hk hb
    rcases slot_set hbefore with ⟨rfl, rfl⟩ | ⟨-, hold⟩
    · exact hsettled (hall task hi)
    · exact hall before hold
  gate := by
    intro j other hj hopen
    rcases slot_set hj with ⟨-, rfl⟩ | ⟨-, hold⟩
    · exact hgate hopen
    · exact h.gate j other hold hopen

/-- A task that has begun and is not settled goes on. -/
theorem Turns.move {tasks : List Task} (h : Turns tasks) (hi : tasks[i]? = some task) (hopen : ¬ task.settled)
    (hbegun : task.begun) (hgate : task'.gate = task.gate) : Turns (tasks.set i task') := by
  have hclosed : task'.gate = true → task'.settled := fun hg => absurd (h.gate i task hi (hgate ▸ hg)) hopen
  exact h.set hi (fun hs => absurd hs hopen) hclosed fun _ => .inl hbegun

/-- One task moves and the services do not. -/
theorem WorldInv.setTask (h : WorldInv lib w) (hok : TaskOk lib w.services task')
    (hturns : Turns (w.tasks.set i task')) (nonce : Option String) :
    WorldInv lib { w.setTask i task' with dpopNonce := nonce } where
  arrived := h.arrived
  own := h.own
  tasks := by
    intro j other hj
    rcases slot_set hj with ⟨-, rfl⟩ | ⟨-, hold⟩
    · exact hok
    · exact h.tasks j other hold
  turns := hturns

/-- A task that is not settled goes on. -/
theorem WorldInv.moveTask (h : WorldInv lib w) (hi : w.tasks[i]? = some task) (hopen : ¬ task.settled)
    (hbegun : task.begun) {stage : Stage} (hok : TaskOk lib w.services { task with stage := stage })
    (nonce : Option String) :
    WorldInv lib { w.setTask i { task with stage := stage } with dpopNonce := nonce } :=
  h.setTask hok (h.turns.move hi hopen hbegun rfl) nonce

/-- The services move and the tasks do not. -/
theorem WorldInv.setServices (h : WorldInv lib w) {services : Services}
    (hlength : services.shared.arrived.length = services.threads.length)
    (hown : OwnNonces lib services)
    (htasks : ∀ (i : Nat) (task : Task), w.tasks[i]? = some task → TaskOk lib services task) :
    WorldInv lib { w with services := services } :=
  ⟨hlength, hown, htasks, h.turns⟩

theorem running_not_settled {c : ClientCmd} {next : ClientReply c → ClientProg (Except String Response)}
    (h : task.stage = .running (.call c next)) : ¬ task.settled ∧ task.begun := by
  constructor
  · rintro ⟨res, hres⟩
    rw [h] at hres
    cases hres
  · intro call hq
    rw [h] at hq
    cases hq

theorem awaiting_not_settled {next : Except String Response → ClientProg (Except String Response)}
    (h : task.stage = .awaiting r next) : ¬ task.settled ∧ task.begun := by
  constructor
  · rintro ⟨res, hres⟩
    rw [h] at hres
    cases hres
  · intro call hq
    rw [h] at hq
    cases hq

theorem TaskOk.running {services : Services} {p : ClientProg (Except String Response)} (h : TaskOk lib services task)
    (hp : task.stage = .running p) : ∃ s, ClientSafe lib p s ∧ Linked lib services task s := by
  have hstage := h.stage
  unfold StageOk at hstage
  rw [hp] at hstage
  exact hstage

theorem TaskOk.awaiting {services : Services} {next : Except String Response → ClientProg (Except String Response)}
    (h : TaskOk lib services task) (hp : task.stage = .awaiting r next) : ∃ s, Awaits lib services task r next s := by
  have hstage := h.stage
  unfold StageOk at hstage
  rw [hp] at hstage
  exact hstage

theorem Linked.restage {services : Services} {s : Progress} (h : Linked lib services task s)
    (hopen : ¬ task.settled) (stage : Stage) : Linked lib services { task with stage := stage } s := by
  cases s with
  | fresh => exact h
  | ended => trivial
  | challenged nonce => exact fun _ => h hopen

/-- The task gets the reply to a command other than a request. -/
theorem WorldInv.clientReply (h : WorldInv lib w) (hi : w.tasks[i]? = some task) {c : ClientCmd}
    {next : ClientReply c → ClientProg (Except String Response)} (hstage : task.stage = .running (.call c next))
    {reply : ClientReply c} (hexec : ∀ s, clientExec lib c s reply s) (nonce : Option String) :
    WorldInv lib { w.setTask i { task with stage := .running (next reply) } with dpopNonce := nonce } := by
  obtain ⟨hopen, hbegun⟩ := running_not_settled hstage
  have htask := h.tasks i task hi
  obtain ⟨s, hsafe, hlinked⟩ := htask.running hstage
  have hok : TaskOk lib w.services { task with stage := .running (next reply) } :=
    ⟨htask.refused, s, (hsafe s trivial rfl).2 reply s (hexec s) trivial, hlinked.restage hopen _⟩
  exact h.moveTask hi hopen hbegun hok nonce

/-- The task gets an answer, or gives up on one. -/
theorem WorldInv.fetched (h : WorldInv lib w) (hi : w.tasks[i]? = some task)
    {next : Except String Response → ClientProg (Except String Response)} (hstage : task.stage = .awaiting r next)
    {reply : Except String Response}
    (hreply : ∀ s, Awaits lib w.services task r next s → ∃ t, Fetched s reply t ∧
      Linked lib w.services { task with stage := .running (next reply) } t) :
    WorldInv lib (w.setTask i { task with stage := .running (next reply) }) := by
  obtain ⟨hopen, hbegun⟩ := awaiting_not_settled hstage
  have htask := h.tasks i task hi
  obtain ⟨s, hawaits⟩ := htask.awaiting hstage
  obtain ⟨t, hfetched, hlinked⟩ := hreply s hawaits
  have hok : TaskOk lib w.services { task with stage := .running (next reply) } :=
    ⟨htask.refused, t, hawaits.next reply t hfetched, hlinked⟩
  exact h.moveTask hi hopen hbegun hok w.dpopNonce

/-- A command of one request leaves what the other tasks and requests count on. -/
theorem WorldInv.serve (h : WorldInv lib w) {c : DpopCmd} {next : DpopReply c → DpopProg Outcome}
    {reply : DpopReply c} {t : Traffic} (hr : w.services.threads[r]? = some (.call c next))
    (hexec : Answers lib r c w.services.shared reply t) :
    WorldInv lib { w with services := ⟨t, w.services.threads.set r (next reply)⟩ } := by
  have hlt := (List.getElem?_eq_some_iff.mp hr).1
  obtain ⟨req, hreq⟩ : ∃ req, w.services.shared.arrived[r]? = some req := by
    rw [← h.arrived] at hlt
    exact ⟨_, List.getElem?_eq_getElem hlt⟩
  obtain ⟨howned, hnext⟩ := h.own r _ req hr hreq
  have hpresents := presents_congr lib hexec.arrived
  have hmine : ∀ nonce, c = .consumeNonce nonce → w.services.shared.presents lib r = some nonce := by
    intro nonce hc
    rw [Traffic.presents, hreq]
    exact howned nonce hc
  have hlive : ∀ nonce, w.services.shared.presents lib r ≠ some nonce → w.services.shared.live nonce → t.live nonce :=
    fun nonce hne hl => hexec.live hl fun hc => hne (hmine nonce hc)
  have hfree : ∀ nonce, w.services.shared.free lib nonce → t.free lib nonce := by
    rintro nonce ⟨hl, hnone⟩
    refine ⟨hlive nonce (hnone r) hl, fun j => ?_⟩
    rw [hpresents]
    exact hnone j
  refine h.setServices ?_ ?_ ?_
  · rw [List.length_set, hexec.arrived]
    exact h.arrived
  · intro j q req' hj hreq'
    rw [hexec.arrived] at hreq'
    by_cases heq : r = j
    · subst heq
      obtain rfl := Option.some.inj ((List.getElem?_set_self hlt).symm.trans hj)
      obtain rfl := Option.some.inj (hreq.symm.trans hreq')
      exact hnext reply
    · exact h.own j q req' ((List.getElem?_set_ne heq).symm.trans hj) hreq'
  · intro i task hi
    refine (h.tasks i task hi).keep ?_ hpresents (fun nonce _ _ hs => hfree nonce hs) ?_
    · intro j o hj
      have hne : r ≠ j := by
        rintro rfl
        cases hr.symm.trans hj
      exact (List.getElem?_set_ne hne).trans hj
    · intro j next' s _ hawaits
      obtain ⟨q, hq, hsafe⟩ := hawaits.thread
      by_cases heq : r = j
      · subst heq
        obtain rfl := Option.some.inj (hr.symm.trans hq)
        refine ⟨next reply, List.getElem?_set_self hlt, ?_⟩
        exact (hsafe w.services.shared trivial fun _ _ hs => hs).2 reply t hexec trivial
      · refine ⟨q, (List.getElem?_set_ne heq).trans hq, safe_unmoved hsafe ?_ fun o nonce _ _ _ hs => hfree nonce hs⟩
        rintro nonce - ⟨hl, halone⟩
        refine ⟨hlive nonce (fun hpres => heq (halone r hpres)) hl, fun k hk => ?_⟩
        rw [hpresents] at hk
        exact halone k hk

/-- The others leave the nonce of a challenge alone. -/
theorem WorldInv.others (h : WorldInv lib w) {redis : DpopState} (ho : Others lib w redis) :
    WorldInv lib
      { w with services := ⟨{ w.services.shared with redis := redis }, w.services.threads⟩ } := by
  refine h.setServices h.arrived h.own fun i task hi => ?_
  have hmem := List.mem_of_getElem? hi
  have hfree : ∀ nonce, ¬ task.settled → ChallengedWith w.services task nonce →
      w.services.shared.free lib nonce →
      Traffic.free lib nonce { w.services.shared with redis := redis } := by
    rintro nonce hopen ⟨r, o, hlast, hr, huse, hnonce, -⟩ ⟨hl, hnone⟩
    have hchallenged : w.challenged lib nonce :=
      ⟨task, hmem, hopen, r, hlast, .inl ⟨o, hr, huse, hnonce⟩⟩
    exact ⟨ho.challenged nonce hchallenged hl, hnone⟩
  refine (h.tasks i task hi).keep (fun j o hj => hj) (fun j => rfl) hfree ?_
  intro j next s hstage hawaits
  have hopen := (awaiting_not_settled hstage).1
  obtain ⟨q, hq, hsafe⟩ := hawaits.thread
  refine ⟨q, hq, ?_⟩
  cases q with
  | ret o =>
    intro huse
    obtain ⟨hnone, hpassed, nonce, hnonce, hne, hs⟩ := hsafe huse
    exact ⟨hnone, hpassed, nonce, hnonce, hne, hfree nonce hopen ⟨j, o, hawaits.last, hq, huse, hnonce, hpassed⟩ hs⟩
  | call c next' =>
    refine safe_unmoved hsafe ?_ fun _ _ heq => nomatch heq
    rintro nonce hk ⟨hl, halone⟩
    obtain ⟨hpres, hlong⟩ := hawaits.kept nonce hk
    have hchallenged : w.challenged lib nonce := ⟨task, hmem, hopen, j, hawaits.last, .inr ⟨hlong, hpres⟩⟩
    exact ⟨ho.challenged nonce hchallenged hl, halone⟩

/-- While a task runs, the ones before it have settled and the ones after it have not begun. -/
theorem WorldInv.idle (h : WorldInv lib w) (hi : w.tasks[i]? = some task) (hbegun : task.begun)
    (hopen : ¬ task.settled) {j : Nat} {other : Task} (hj : w.tasks[j]? = some other) (hne : i ≠ j) :
    other.settled ∨ ∃ c, other.stage = .queued c := by
  rcases Nat.lt_or_gt_of_ne hne with hlt | hgt
  · right
    by_contra hnone
    have hother : other.begun := fun c hc => hnone ⟨c, hc⟩
    exact hopen (h.turns.turn j i other task hj hother hlt hi)
  · exact .inl (h.turns.turn i j task other hi hbegun hgt hj)

/-- Nothing was sent yet or the last answer was a challenge, so no request so far had a valid proof. -/
theorem TaskOk.all_refused {services : Services} (h : TaskOk lib services task) {s : Progress}
    (hlinked : Linked lib services task s) (hopen : ¬ task.settled) (hs : s ≠ .ended) :
    ∀ j ∈ task.attempts, Refused services j := by
  intro j hj
  cases s with
  | ended => exact absurd rfl hs
  | fresh =>
    have hnil : task.attempts = [] := hlinked
    rw [hnil] at hj
    cases hj
  | challenged nonce =>
    obtain ⟨⟨k, o, hlast, hk, -, -, hpassed⟩, -⟩ := hlinked hopen
    obtain ⟨init, hinit⟩ := List.getLast?_eq_some_iff.mp hlast
    rw [hinit] at hj
    rcases List.mem_append.mp hj with hj | hj
    · exact h.refused j (by rw [hinit, List.dropLast_concat]; exact hj)
    · obtain rfl := List.mem_singleton.mp hj
      exact ⟨o, hk, hpassed⟩

section Arrival

variable {services : Services} {req : Request} {p : DpopProg Outcome}

theorem arrive_stay : AnswersStay services (arrive services req p) := by
  intro j o hj
  exact (List.getElem?_append_left (List.getElem?_eq_some_iff.mp hj).1).trans hj

theorem arrive_presents_new (h : services.shared.arrived.length = services.threads.length) :
    (arrive services req p).shared.presents lib services.threads.length = nonceOf lib req.dpop := by
  unfold Traffic.presents arrive
  rw [← h, List.getElem?_concat_length, Option.bind_some]

theorem arrive_presents_old (h : services.shared.arrived.length = services.threads.length) {j : Nat}
    (hj : j ≠ services.threads.length) :
    (arrive services req p).shared.presents lib j = services.shared.presents lib j := by
  unfold Traffic.presents arrive
  congr 1
  rcases Nat.lt_or_gt_of_ne hj with hlt | hgt
  · exact List.getElem?_append_left (h ▸ hlt)
  · have hshort : services.shared.arrived.length ≤ j := by omega
    have hlong : (services.shared.arrived ++ [req]).length ≤ j := by
      rw [List.length_append, List.length_singleton]
      omega
    exact (List.getElem?_eq_none hlong).trans (List.getElem?_eq_none hshort).symm

theorem arrive_own (h : OwnNonces lib services) (hlength : services.shared.arrived.length = services.threads.length)
    (hp : Only (ownNonce lib req) p) : OwnNonces lib (arrive services req p) := by
  intro j q req' hj hreq'
  by_cases heq : j = services.threads.length
  · subst heq
    obtain rfl := Option.some.inj (List.getElem?_concat_length.symm.trans hj)
    have hlast : (services.shared.arrived ++ [req])[services.threads.length]? = some req := by
      rw [← hlength]
      exact List.getElem?_concat_length
    obtain rfl := Option.some.inj (hlast.symm.trans hreq')
    exact hp
  · have hlt : j < services.threads.length := by
      have hbound := (List.getElem?_eq_some_iff.mp hj).1
      rw [arrive, List.length_append, List.length_singleton] at hbound
      omega
    have hq : services.threads[j]? = some q := (List.getElem?_append_left hlt).symm.trans hj
    have hr : services.shared.arrived[j]? = some req' :=
      (List.getElem?_append_left (hlength ▸ hlt)).symm.trans hreq'
    exact h j q req' hq hr

/-- A nonce in no proof so far is kept for the request that arrives with it. -/
theorem arrive_kept (h : services.shared.arrived.length = services.threads.length) {nonce : String}
    (hfree : services.shared.free lib nonce) :
    (arrive services req p).shared.keptFor lib services.threads.length nonce := by
  refine ⟨hfree.1, fun j hj => ?_⟩
  by_contra hother
  rw [arrive_presents_old h hother] at hj
  exact hfree.2 j hj

end Arrival

theorem WorldInv.send (h : WorldInv lib w) (hi : w.tasks[i]? = some task) {c : FetchCall} {raw : String}
    {next : Except String Response → ClientProg (Except String Response)}
    (hstage : task.stage = .running (.call (.fetch c raw) next)) {req : Request} {p : DpopProg Outcome}
    (hdpop : req.dpop = raw) (hp : Handles lib req p) :
    WorldInv lib
      { w.setTask i ⟨.awaiting w.services.threads.length next, task.gate,
          task.attempts ++ [w.services.threads.length]⟩ with services := arrive w.services req p } := by
  obtain ⟨hopen, hbegun⟩ := running_not_settled hstage
  have htask := h.tasks i task hi
  obtain ⟨s, hsafe, hlinked⟩ := htask.running hstage
  obtain ⟨hmay, hcontinue⟩ := hsafe s trivial rfl
  have hnotEnded : s ≠ .ended := by
    rintro rfl
    rcases hmay with hfresh | ⟨n, hn, -⟩
    · cases hfresh
    · cases hn
  have hkept : ∀ nonce, s.kept = some nonce → nonceOf lib raw = some nonce ∧ nonce ≠ "" ∧
      w.services.shared.free lib nonce ∧ task.attempts ≠ [] := by
    intro nonce hk
    cases s with
    | fresh => cases hk
    | ended => cases hk
    | challenged m =>
      obtain rfl := Option.some.inj hk
      rcases hmay with hfresh | ⟨n, hn, hraw, hne⟩
      · cases hfresh
      · obtain rfl := Progress.challenged.inj hn
        obtain ⟨⟨j, o, hlast, -⟩, hfree⟩ := hlinked hopen
        refine ⟨hraw, hne, hfree, fun hnil => ?_⟩
        rw [hnil] at hlast
        cases hlast
  have hawaits : Awaits lib (arrive w.services req p)
      ⟨.awaiting w.services.threads.length next, task.gate, task.attempts ++ [w.services.threads.length]⟩
      w.services.threads.length next s := by
    refine ⟨List.getLast?_concat, hnotEnded, fun reply t hfetched => hcontinue reply t hfetched trivial, ?_, ?_⟩
    · intro nonce hk
      obtain ⟨hraw, -, -, hne⟩ := hkept nonce hk
      refine ⟨(arrive_presents_new h.arrived).trans (hdpop ▸ hraw), ?_⟩
      have hpos := List.length_pos_iff.mpr hne
      rw [List.length_append, List.length_singleton]
      omega
    · refine ⟨p, List.getElem?_concat_length, safe_handles hp fun nonce hk => ?_⟩
      obtain ⟨hraw, hne, hfree, -⟩ := hkept nonce hk
      exact ⟨hdpop ▸ hraw, hne, arrive_kept h.arrived hfree⟩
  constructor
  · rw [arrive, List.length_append, List.length_append, h.arrived]
    rfl
  · exact arrive_own h.own h.arrived (only_handles hp)
  · intro j other hj
    rcases slot_set hj with ⟨-, rfl⟩ | ⟨hne, hother⟩
    · refine ⟨fun k hk => ?_, s, hawaits⟩
      rw [List.dropLast_concat] at hk
      exact (htask.all_refused hlinked hopen hnotEnded k hk).keep arrive_stay
    · exact (h.tasks j other hother).keep_idle (h.idle hi hbegun hopen hother hne.symm) arrive_stay
  · exact h.turns.move hi hopen hbegun rfl

theorem WorldInv.step (h : WorldInv lib w) {e : Event} (hstep : WorldStep lib w e w') : WorldInv lib w' := by
  cases hstep with
  | call c =>
    refine ⟨h.arrived, h.own, fun j task hj => ?_, fun j k task before hj hbegun hk hbefore => ?_,
      fun j task hj hgate => ?_⟩
    · rcases slot_concat hj with hold | ⟨-, rfl⟩
      · exact h.tasks j task hold
      · exact ⟨fun _ hmem => absurd hmem List.not_mem_nil, rfl⟩
    · rcases slot_concat hj with hold | ⟨-, rfl⟩
      · have hlt := (List.getElem?_eq_some_iff.mp hold).1
        rcases slot_concat hbefore with hb | ⟨rfl, -⟩
        · exact h.turns.turn j k task before hold hbegun hk hb
        · omega
      · exact absurd rfl (hbegun c)
    · rcases slot_concat hj with hold | ⟨-, rfl⟩
      · exact h.turns.gate j task hold hgate
      · cases hgate
  | @start i task c hi hstage hgate =>
    have htask := h.tasks i task hi
    have hnone : task.attempts = [] := by
      have hqueued := htask.stage
      unfold StageOk at hqueued
      rw [hstage] at hqueued
      exact hqueued
    have hclosed : task.gate ≠ true := by
      intro hopen
      obtain ⟨res, hres⟩ := h.turns.gate i task hi hopen
      rw [hstage] at hres
      cases hres
    have hfirst : ∀ (j : Nat) (before : Task), j < i → w.tasks[j]? = some before → before.settled := by
      intro j before hj hbefore
      obtain ⟨k, rfl⟩ : ∃ k, i = k + 1 := Nat.exists_eq_succ_of_ne_zero (by omega)
      have hlt := (List.getElem?_eq_some_iff.mp hi).1
      have hprevious : w.tasks[k]? = some w.tasks[k] := List.getElem?_eq_getElem (by omega)
      have hsettled := h.turns.gate k _ hprevious (hgate k _ rfl hprevious)
      rcases Nat.lt_or_ge j k with hlt' | hge
      · obtain ⟨res, hres⟩ := hsettled
        refine h.turns.turn k j _ before hprevious (fun c hc => ?_) hlt' hbefore
        rw [hres] at hc
        cases hc
      · obtain rfl : j = k := by omega
        rw [Option.some.inj (hbefore.symm.trans hprevious)]
        exact hsettled
    have hok : TaskOk lib w.services { task with stage := .running (gatedFetch c) } :=
      ⟨htask.refused, .fresh, safe_gatedFetch c, hnone⟩
    refine h.setTask hok (h.turns.set hi ?_ (fun hg => absurd hg hclosed) fun _ => .inr hfirst) w.dpopNonce
    rintro ⟨res, hres⟩
    rw [hstage] at hres
    cases hres
  | readNonce hi hstage => exact h.clientReply hi hstage (fun _ => rfl) w.dpopNonce
  | setNonce hi hstage => exact h.clientReply hi hstage (fun _ => rfl) _
  | prove hi hstage hraw =>
    refine h.clientReply hi hstage (fun _ => ⟨rfl, fun raw heq => ?_⟩) w.dpopNonce
    rw [← Except.ok.inj heq]
    exact hraw
  | proofFailed e hi hstage =>
    refine h.clientReply hi hstage (fun _ => ⟨rfl, fun raw heq => ?_⟩) w.dpopNonce
    cases heq
  | send hi hstage hdpop hp => exact h.send hi hstage hdpop hp
  | serve hstep =>
    cases hstep with
    | cmd hr hexec => exact h.serve hr hexec
    | spawn hp => exact hp.elim
    | @env e s he => exact nomatch e
  | @answer i r task o next hi hstage hr =>
    refine h.fetched hi hstage fun s hawaits => ?_
    cases huse : isUseNonceResponse o.response with
    | false => exact ⟨.ended, .answered s huse, trivial⟩
    | true =>
      obtain ⟨q, hq, hsafe⟩ := hawaits.thread
      obtain rfl := Option.some.inj (hr.symm.trans hq)
      obtain ⟨hnone, hpassed, nonce, hnonce, hne, hfree⟩ := hsafe huse
      obtain rfl : s = .fresh := by
        cases s with
        | fresh => rfl
        | challenged m => cases hnone
        | ended => exact absurd rfl hawaits.notEnded
      exact ⟨.challenged nonce, .challenged huse hnonce hne, fun _ =>
        ⟨⟨r, o, hawaits.last, hr, huse, hnonce, hpassed⟩, hfree⟩⟩
  | lost e hi hstage => exact h.fetched hi hstage fun s _ => ⟨.ended, .failed s e, trivial⟩
  | unavailable hi hstage => exact h.fetched hi hstage fun s _ => ⟨.ended, .answered s rfl, trivial⟩
  | @settle i task hi hdone =>
    have htask := h.tasks i task hi
    have hok : TaskOk lib w.services { task with gate := true } := by
      obtain ⟨res, hres⟩ := id hdone
      obtain ⟨s, hsafe, hlinked⟩ := htask.running hres
      refine ⟨htask.refused, ?_⟩
      unfold StageOk
      simp only [hres]
      refine ⟨s, hsafe, ?_⟩
      cases s with
      | fresh => exact hlinked
      | ended => trivial
      | challenged nonce => exact fun hopen => absurd ⟨res, rfl⟩ hopen
    have hbegun : task.begun := by
      obtain ⟨res, hres⟩ := hdone
      intro c hc
      rw [hres] at hc
      cases hc
    exact h.setTask hok (h.turns.set hi (fun _ => hdone) (fun _ => hdone) fun _ => .inl hbegun) w.dpopNonce
  | others ho => exact h.others ho

end Worlds

/-- No call and no request yet; the client may have kept any nonce. -/
structure WorldInit (w : World) : Prop where
  tasks : w.tasks = []
  arrived : w.services.shared.arrived = []
  threads : w.services.threads = []

/-- No call of `doFetch` gives a challenge back, of its attempts at most one has a valid proof, and
at most one request is on its way. -/
structure Converges (w : World) : Prop where
  answered : ∀ (i : Nat) (task : Task) (res : Response), w.tasks[i]? = some task →
    task.stage = .running (.ret (.ok res)) → isUseNonceResponse res = false
  once : ∀ (i : Nat) (task : Task) (a b r r' : Nat) (o o' : Outcome), w.tasks[i]? = some task →
    task.attempts[a]? = some r → task.attempts[b]? = some r' → w.services.threads[r]? = some (.ret o) →
    w.services.threads[r']? = some (.ret o') → o.passed → o'.passed → a = b
  single : ∀ (i j r r' : Nat) (task task' : Task) next next', w.tasks[i]? = some task → w.tasks[j]? = some task' →
    task.stage = .awaiting r next → task'.stage = .awaiting r' next' → i = j

/-- Only the last attempt of a task can have a valid proof. -/
theorem TaskOk.passed_last {services : Services} {task : Task} (h : TaskOk lib services task) {a r : Nat} {o : Outcome}
    (ha : task.attempts[a]? = some r) (hr : services.threads[r]? = some (.ret o)) (hpassed : o.passed) :
    a + 1 = task.attempts.length := by
  have hlt := (List.getElem?_eq_some_iff.mp ha).1
  by_contra hne
  have hinit : task.attempts.dropLast[a]? = some r := by
    rw [List.getElem?_dropLast, if_pos (by omega)]
    exact ha
  obtain ⟨o', hr', hrefused⟩ := h.refused r (List.mem_of_getElem? hinit)
  obtain rfl := Prog.ret.inj (Option.some.inj (hr.symm.trans hr'))
  exact hrefused hpassed

section Sample

def sampleCall : FetchCall := ⟨"/api/whoami", "GET", [], none⟩

/-- The nonce of the sample proof is stored, and nothing was sent yet. -/
def sampleWorld : World := ⟨some sampleNonce, [], ⟨⟨sampleState, []⟩, []⟩⟩

/-- One call has sent its first request, another waits for its turn. -/
theorem sampleWorld_sent : ∃ w' trace, Run (WorldStep sampleLibraries) sampleWorld trace w' ∧
    ∃ next, w'.tasks = [⟨.awaiting 0 next, false, [0]⟩, ⟨.queued sampleCall, false, []⟩] := by
  have hraw : nonceOf sampleLibraries sampleRaw = some ((some sampleNonce).getD "") := by
    rw [nonceOf, parseProof_sampleRaw]
    rfl
  have hroute : Handles sampleLibraries sampleRequest
      (serve sampleLibraries sampleValidator (.protectedRoute (.handled 200)) sampleRequest) :=
    .served sampleValidator _ rfl
  refine ⟨_, _, .cons (.call _ sampleCall) (.cons (.call _ sampleCall) (.cons (.start (i := 0) rfl rfl ?_)
    (.cons (.readNonce (i := 0) rfl rfl) (.cons (.prove (i := 0) rfl rfl hraw)
      (.cons (.send (i := 0) rfl rfl rfl hroute) (.nil _)))))), _, rfl⟩
  exact fun j before heq => nomatch heq

end Sample

end Chinwag.Handshake

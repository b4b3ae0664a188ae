import Chinwag.Lib.StringKeys
import Chinwag.Dpop.Validator

/-!
# One use of a nonce and of a proof

All services validate against one Redis. A nonce key is written once, when the nonce is
drawn, so whoever deletes it is the only one ever to do so.
-/
namespace Chinwag.Dpop

open Program Redis StringKeys Transition

def nonceKey (nonce : String) : String := "dpop:nonce:" ++ nonce

def jtiKey (jti : String) : String := "dpop:jti:" ++ jti

/-- The five minutes an issued nonce lives, in milliseconds. -/
def dpopNonceTTL : Nat := 5 * 60 * 1000

/-- Redis, the nonces drawn so far, and which call was told that it deleted which nonce. -/
structure DpopState where
  keys : Strings
  issued : List String
  consumed : List (Nat × String)

namespace DpopState

/-- `ConsumeNonce` as call `i` has it answered. -/
def consumeNonce (s : DpopState) (i : Nat) (nonce : String) : Bool × DpopState :=
  let (found, keys) := s.keys.consume (nonceKey nonce)
  (found, { s with keys := keys, consumed := if found then (i, nonce) :: s.consumed else s.consumed })

def reserveJti (s : DpopState) (jti : String) (ttl : Int) : Bool × DpopState :=
  let (free, keys) := s.keys.setNX (jtiKey jti) "1" (ttl / 1000000).toNat
  (free, { s with keys := keys })

def issueNonce (s : DpopState) (nonce : String) : DpopState :=
  { s with keys := s.keys.set (nonceKey nonce) "1" dpopNonceTTL, issued := nonce :: s.issued }

/-- The script ran, but nobody was told. -/
def loseNonce (s : DpopState) (nonce : String) : DpopState :=
  { s with keys := (s.keys.consume (nonceKey nonce)).2 }

end DpopState

/-- Each call reads its own clock. A nonce is drawn that never was before. A call that fails may
have been carried out or not. -/
inductive Exec (i : Nat) : (c : DpopCmd) → DpopState → DpopReply c → DpopState → Prop where
  | now {s : DpopState} (t : Int) : Exec i .now s t s
  | consumeNonce {s : DpopState} (nonce : String) :
      Exec i (.consumeNonce nonce) s (.ok (s.consumeNonce i nonce).1) (s.consumeNonce i nonce).2
  | consumeFailed {s : DpopState} (nonce : String) (e : RedisError) :
      Exec i (.consumeNonce nonce) s (.error e) s
  | consumeLost {s : DpopState} (nonce : String) (e : RedisError) :
      Exec i (.consumeNonce nonce) s (.error e) (s.loseNonce nonce)
  | reserveJti {s : DpopState} (jti : String) (ttl : Int) :
      Exec i (.reserveJti jti ttl) s (.ok (s.reserveJti jti ttl).1) (s.reserveJti jti ttl).2
  | reserveFailed {s : DpopState} (jti : String) (ttl : Int) (e : RedisError) :
      Exec i (.reserveJti jti ttl) s (.error e) s
  | reserveLost {s : DpopState} (jti : String) (ttl : Int) (e : RedisError) :
      Exec i (.reserveJti jti ttl) s (.error e) (s.reserveJti jti ttl).2
  | issueNonce {s : DpopState} {nonce : String} (fresh : nonce ∉ s.issued) :
      Exec i .issueNonce s (.ok nonce) (s.issueNonce nonce)
  | issueFailed {s : DpopState} (e : RedisError) : Exec i .issueNonce s (.error e) s
  | issueLost {s : DpopState} {nonce : String} (e : RedisError) (fresh : nonce ∉ s.issued) :
      Exec i .issueNonce s (.error e) (s.issueNonce nonce)

/-- Time passes, and other keys come and go; of the nonce keys some may go. -/
def Ambient (s t : DpopState) : Prop :=
  ∃ keys : Strings, t = { s with keys := keys } ∧ s.keys.now ≤ keys.now ∧
    ∀ nonce, keys.data (nonceKey nonce) = s.keys.data (nonceKey nonce) ∨
      keys.data (nonceKey nonce) = none

def dpopSemantics : Semantics DpopState Unit DpopCmd DpopReply where
  exec := Exec
  env s _ t := Ambient s t

/-- A validation by any of the services: of any request, with any limits, over the nonce store. -/
def Validates (lib : Libraries) (p : DpopProg Verdict) : Prop :=
  ∃ v r, v.nonceStore = true ∧ p = validate lib v r

abbrev DpopPool := Pool DpopState DpopCmd DpopReply Verdict

abbrev DpopLabel := Label Unit DpopCmd DpopReply Verdict

abbrev DpopStep (lib : Libraries) : DpopPool → DpopLabel → DpopPool → Prop :=
  Step dpopSemantics (Validates lib)

/-- Nobody is validating; the nonces that Redis holds were issued before. -/
structure DpopInit (pool : DpopPool) : Prop where
  issued : ∀ nonce, pool.shared.keys.data (nonceKey nonce) ≠ none → nonce ∈ pool.shared.issued
  consumed : pool.shared.consumed = []
  threads : pool.threads = []

/-- A nonce that Redis holds was issued and not consumed; no nonce was consumed twice. -/
structure NonceInv (s : DpopState) : Prop where
  held : ∀ nonce, s.keys.data (nonceKey nonce) ≠ none →
    nonce ∈ s.issued ∧ ∀ i, (i, nonce) ∉ s.consumed
  issued : ∀ p ∈ s.consumed, p.2 ∈ s.issued
  once : (s.consumed.map Prod.snd).Nodup

theorem nonceKey_injective : Function.Injective nonceKey := by
  intro a b h
  have hlist := congrArg String.toList h
  simp only [nonceKey, String.toList_append, List.append_cancel_left_eq] at hlist
  exact String.toList_injective hlist

theorem nonceKey_ne_jtiKey (nonce jti : String) : nonceKey nonce ≠ jtiKey jti := by
  intro h
  have hlist := congrArg String.toList h
  simp [nonceKey, jtiKey] at hlist

variable {s t : DpopState} {i : Nat}

theorem NonceInv.keys (h : NonceInv s) {keys : Strings}
    (hkeys : ∀ nonce, keys.data (nonceKey nonce) = s.keys.data (nonceKey nonce) ∨
      keys.data (nonceKey nonce) = none) : NonceInv { s with keys := keys } where
  held := by
    intro nonce hne
    cases hkeys nonce with
    | inl hsame =>
      have hheld : s.keys.data (nonceKey nonce) ≠ none := hsame ▸ hne
      exact h.held nonce hheld
    | inr hgone => exact absurd hgone hne
  issued := h.issued
  once := h.once

theorem NonceInv.consumeNonce (h : NonceInv s) (i : Nat) (nonce : String) :
    NonceInv (s.consumeNonce i nonce).2 := by
  have hkeys := h.keys fun n => s.keys.data_consume (nonceKey nonce) (nonceKey n)
  unfold DpopState.consumeNonce
  cases hfound : (s.keys.consume (nonceKey nonce)).1 with
  | false => simpa [hfound] using hkeys
  | true =>
    obtain ⟨hdata, hdel⟩ := Strings.consume_true hfound
    obtain ⟨hissued, hfree⟩ := h.held nonce hdata
    simp only [hfound, if_true]
    constructor
    · intro n hn
      have hne : n ≠ nonce := by
        rintro rfl
        exact hn (by rw [hdel]; exact Strings.data_write_self _ _ _)
      obtain ⟨hin, hout⟩ := hkeys.held n hn
      refine ⟨hin, ?_⟩
      intro j hj
      cases List.mem_cons.mp hj with
      | inl heq => exact hne (Prod.ext_iff.mp heq).2
      | inr hj => exact hout j hj
    · intro p hp
      cases List.mem_cons.mp hp with
      | inl heq =>
        subst heq
        exact hissued
      | inr hp => exact h.issued p hp
    · rw [List.map_cons, List.nodup_cons]
      refine ⟨?_, h.once⟩
      intro hin
      obtain ⟨⟨j, n⟩, hp, hsnd⟩ := List.mem_map.mp hin
      obtain rfl : n = nonce := hsnd
      exact hfree j hp

theorem NonceInv.reserveJti (h : NonceInv s) (jti : String) (ttl : Int) :
    NonceInv (s.reserveJti jti ttl).2 := by
  refine h.keys fun nonce => Or.inl ?_
  exact s.keys.data_setNX_ne (nonceKey_ne_jtiKey nonce jti) _ _

theorem NonceInv.issueNonce (h : NonceInv s) {nonce : String} (hfresh : nonce ∉ s.issued) :
    NonceInv (s.issueNonce nonce) where
  held := by
    intro n hn
    by_cases heq : n = nonce
    · subst heq
      exact ⟨List.mem_cons_self, fun i hi => hfresh (h.issued _ hi)⟩
    · have hold : s.keys.data (nonceKey n) ≠ none := by
        have hne : nonceKey n ≠ nonceKey nonce := fun hk => heq (nonceKey_injective hk)
        rwa [← Strings.data_write_ne s.keys hne]
      exact ⟨List.mem_cons_of_mem _ (h.held n hold).1, (h.held n hold).2⟩
  issued := fun p hp => List.mem_cons_of_mem _ (h.issued p hp)
  once := h.once

/-- Every call keeps the invariant, and nothing that was consumed is forgotten. -/
theorem exec_keeps {c : DpopCmd} {reply : DpopReply c} (h : NonceInv s) (hexec : Exec i c s reply t) :
    NonceInv t ∧ ∀ p ∈ s.consumed, p ∈ t.consumed := by
  cases hexec with
  | now => exact ⟨h, fun _ hp => hp⟩
  | consumeNonce nonce =>
    refine ⟨h.consumeNonce i nonce, ?_⟩
    intro p hp
    show p ∈ if (s.keys.consume (nonceKey nonce)).1 then (i, nonce) :: s.consumed else s.consumed
    split
    · exact List.mem_cons_of_mem _ hp
    · exact hp
  | consumeFailed => exact ⟨h, fun _ hp => hp⟩
  | consumeLost nonce e => exact ⟨h.keys fun n => s.keys.data_consume _ _, fun _ hp => hp⟩
  | reserveJti jti ttl => exact ⟨h.reserveJti jti ttl, fun _ hp => hp⟩
  | reserveFailed => exact ⟨h, fun _ hp => hp⟩
  | reserveLost jti ttl e => exact ⟨h.reserveJti jti ttl, fun _ hp => hp⟩
  | issueNonce hfresh => exact ⟨h.issueNonce hfresh, fun _ hp => hp⟩
  | issueFailed => exact ⟨h, fun _ hp => hp⟩
  | issueLost e hfresh => exact ⟨h.issueNonce hfresh, fun _ hp => hp⟩

/-- Other validations only add to what was consumed. -/
def dpopContract : Contract DpopState DpopCmd where
  inv := NonceInv
  rely _ s t := ∀ p ∈ s.consumed, p ∈ t.consumed
  guar _ _ _ := True

theorem dpopContract_sound : dpopContract.Sound dpopSemantics where
  rely_refl _ _ := fun _ hp => hp
  rely_trans _ _ _ _ h₁ h₂ := fun p hp => h₂ p (h₁ p hp)
  env s _ t h hamb := by
    obtain ⟨keys, rfl, -, hkeys⟩ := hamb
    exact ⟨h.keys hkeys, fun _ _ hp => hp⟩
  cmd i c s reply t h _ hexec := ⟨(exec_keeps h hexec).1, fun _ _ => (exec_keeps h hexec).2⟩

/-- Whoever accepts a proof has consumed its nonce. -/
def Spent (lib : Libraries) (i : Nat) (v : Verdict) (s : DpopState) : Prop :=
  match v with
  | .accepted proof _ => parseProof lib proof.raw = .ok proof ∧ (i, proof.claims.nonce) ∈ s.consumed
  | _ => True

section Programs

variable {lib : Libraries}

/-- A command whose answer does not matter to what is proved of the rest. -/
theorem safe_call {α : Type} {Q : α → DpopState → Prop} {c : DpopCmd} {next : DpopReply c → DpopProg α}
    (hnext : ∀ reply t, Safe dpopSemantics dpopContract i Q (next reply) t) (s : DpopState) :
    Safe dpopSemantics dpopContract i Q (.call c next) s :=
  fun _ _ _ => ⟨trivial, fun reply t _ _ => hnext reply t⟩

theorem safe_reject (v : Validator) (e : DpopError) (s : DpopState) :
    Safe dpopSemantics dpopContract i (Spent lib i) (reject v e) s := by
  unfold reject issueOrEmpty
  split
  · refine safe_call (fun reply t => ?_) s
    cases reply with
    | ok nonce => exact trivial
    | error e => exact trivial
  · exact trivial

theorem safe_accept (v : Validator) {proof : Proof} (hparse : parseProof lib proof.raw = .ok proof)
    (hspent : (i, proof.claims.nonce) ∈ s.consumed) :
    Safe dpopSemantics dpopContract i (Spent lib i) (accept v proof) s := by
  unfold accept
  split
  · intro s₁ h₁ hrely
    refine ⟨trivial, ?_⟩
    intro reply t hexec _
    cases reply with
    | ok nonce => exact ⟨hparse, (exec_keeps h₁ hexec).2 _ (hrely _ hspent)⟩
    | error e => exact trivial
  · exact trivial

/-- Whoever is told that the nonce was there is the one who deleted it. -/
theorem consumed_of_ok {nonce : String} (hexec : Exec i (.consumeNonce nonce) s (.ok true) t) :
    (i, nonce) ∈ t.consumed := by
  generalize hreply : (Except.ok true : DpopReply (.consumeNonce nonce)) = reply at hexec
  cases hexec with
  | consumeNonce =>
    have hfound : (s.keys.consume (nonceKey nonce)).1 = true := (Except.ok.inj hreply).symm
    show (i, nonce) ∈ if (s.keys.consume (nonceKey nonce)).1 then (i, nonce) :: s.consumed else s.consumed
    rw [if_pos hfound]
    exact List.mem_cons_self
  | consumeFailed => cases hreply
  | consumeLost => cases hreply

theorem safe_spend (v : Validator) {proof : Proof} (hparse : parseProof lib proof.raw = .ok proof)
    (s : DpopState) : Safe dpopSemantics dpopContract i (Spent lib i) (spend v proof) s := by
  unfold spend
  split
  · exact safe_reject v _ s
  · intro s₁ _ _
    refine ⟨trivial, ?_⟩
    intro reply t hexec _
    match reply, hexec with
    | .error e, _ => exact trivial
    | .ok false, _ => exact safe_reject v _ t
    | .ok true, hexec =>
      have hspent := consumed_of_ok hexec
      intro s₂ h₂ hrely
      refine ⟨trivial, ?_⟩
      intro reply u hexec' _
      match reply, hexec' with
      | .error e, _ => exact trivial
      | .ok false, _ => exact safe_reject v _ u
      | .ok true, hexec' =>
        exact safe_accept v hparse ((exec_keeps h₂ hexec').2 _ (hrely _ hspent))

theorem ok_of_bind {α β : Type} {x : Except String α} {f : α → Except String β} {b : β}
    (h : (x >>= f) = .ok b) : ∃ a, x = .ok a ∧ f a = .ok b := by
  cases x with
  | error e => cases h
  | ok a => exact ⟨a, rfl, h⟩

/-- A parsed proof keeps the text it was parsed from. -/
theorem parseProof_raw {raw : String} {proof : Proof} (h : parseProof lib raw = .ok proof) :
    proof.raw = raw := by
  unfold parseProof at h
  split at h
  · obtain ⟨_, -, h⟩ := ok_of_bind h
    obtain ⟨_, -, h⟩ := ok_of_bind h
    obtain ⟨hdr, -, h⟩ := ok_of_bind h
    split at h
    · cases h
    · split at h
      · cases h
      · split at h
        · cases h
        · obtain ⟨_, -, h⟩ := ok_of_bind h
          obtain ⟨_, -, h⟩ := ok_of_bind h
          cases h
          rfl
  · cases h

theorem safe_checkProof {v : Validator} (hstore : v.nonceStore = true) (r : Request) {proof : Proof}
    (hparse : parseProof lib proof.raw = .ok proof) (now : Int) (s : DpopState) :
    Safe dpopSemantics dpopContract i (Spent lib i) (checkProof lib v r proof now) s := by
  unfold checkProof
  rw [if_pos hstore]
  split
  · exact safe_reject _ _ s
  · split
    · exact safe_reject _ _ s
    · exact safe_spend _ hparse s

theorem safe_validate {v : Validator} (hstore : v.nonceStore = true) (r : Request) (s : DpopState) :
    Safe dpopSemantics dpopContract i (Spent lib i) (validate lib v r) s := by
  unfold validate validateWith
  split
  · exact safe_reject _ _ s
  · split
    · exact safe_reject _ _ s
    · rename_i proof hparse
      have hraw : parseProof lib proof.raw = .ok proof := by rw [parseProof_raw hparse, hparse]
      have hon : v.setDefaults.nonceStore = true := hstore
      exact safe_call (fun now t => safe_checkProof hon r hraw now t) s

end Programs

section Runs

variable {lib : Libraries} {pool pool' : DpopPool} {trace : List DpopLabel}

abbrev DpopGood (lib : Libraries) (pool : DpopPool) : Prop :=
  Good dpopSemantics dpopContract (Spent lib) pool

theorem good_init (h : DpopInit pool) : DpopGood lib pool where
  shared :=
    { held := by
        intro nonce hne
        refine ⟨h.issued nonce hne, ?_⟩
        intro i hi
        rw [h.consumed] at hi
        cases hi
      issued := by simp [h.consumed]
      once := by simp [h.consumed] }
  safe := by
    intro i p hp
    rw [h.threads] at hp
    cases hp

theorem good_run (hg : DpopGood lib pool) (h : Run (DpopStep lib) pool trace pool') :
    DpopGood lib pool' := by
  refine h.invariant ?_ hg
  intro p l p' hp hs
  refine hp.step dpopContract_sound ?_ ?_ hs
  · intro i v s t hq hrely
    cases v with
    | accepted proof nonce => exact ⟨hq.1, hrely _ hq.2⟩
    | rejected => trivial
    | noIssuer => trivial
    | unavailable => trivial
  · rintro i _ s ⟨v, r, hstore, rfl⟩ _
    exact safe_validate hstore r s

/-- The call ended with this proof accepted. -/
def Accepted (pool : DpopPool) (i : Nat) (proof : Proof) : Prop :=
  ∃ nonce, pool.threads[i]? = some (.ret (.accepted proof nonce))

/-- Of all calls so far, at most one accepted a proof with a given nonce, and at most one a given
proof; the nonce had been issued. -/
structure OneTimeUse (pool : DpopPool) : Prop where
  issued : ∀ i proof, Accepted pool i proof → proof.claims.nonce ∈ pool.shared.issued
  nonce : ∀ i j proof proof', Accepted pool i proof → Accepted pool j proof' →
    proof.claims.nonce = proof'.claims.nonce → i = j
  proof : ∀ i j proof proof', Accepted pool i proof → Accepted pool j proof' →
    proof.raw = proof'.raw → i = j

theorem consumer_unique {s : DpopState} (h : NonceInv s) {i j : Nat} {nonce : String}
    (hi : (i, nonce) ∈ s.consumed) (hj : (j, nonce) ∈ s.consumed) : i = j := by
  have hpair := List.inj_on_of_nodup_map h.once hi hj rfl
  exact (Prod.ext_iff.mp hpair).1

/-- Whatever expired meanwhile, no nonce and no proof is accepted twice by any service. -/
theorem dpop_one_time_use (h : DpopInit pool) (hrun : Run (DpopStep lib) pool trace pool') :
    OneTimeUse pool' := by
  have hg : DpopGood lib pool' := good_run (good_init h) hrun
  have hspent : ∀ i proof, Accepted pool' i proof → parseProof lib proof.raw = .ok proof ∧
      (i, proof.claims.nonce) ∈ pool'.shared.consumed := by
    rintro i proof ⟨nonce, hi⟩
    exact hg.safe i _ hi
  constructor
  · intro i proof hi
    exact hg.shared.issued _ (hspent i proof hi).2
  · intro i j proof proof' hi hj hsame
    have hspent' := (hspent j proof' hj).2
    rw [← hsame] at hspent'
    exact consumer_unique hg.shared (hspent i proof hi).2 hspent'
  · intro i j proof proof' hi hj hraw
    have hparse := (hspent i proof hi).1
    rw [hraw, (hspent j proof' hj).1] at hparse
    obtain rfl : proof' = proof := Except.ok.inj hparse
    exact consumer_unique hg.shared (hspent i proof' hi).2 (hspent j proof' hj).2

end Runs

theorem splitDots_three {a b c : String} (ha : '.' ∉ a.toList) (hb : '.' ∉ b.toList)
    (hc : '.' ∉ c.toList) : splitDots (a ++ "." ++ b ++ "." ++ c) = [a, b, c] := by
  have hlist : (a ++ "." ++ b ++ "." ++ c).toList = a.toList ++ '.' :: (b.toList ++ '.' :: c.toList) := by
    simp
  rw [splitDots, hlist, List.splitOn_append_cons_self_of_not_mem ha,
    List.splitOn_append_cons_self_of_not_mem hb, List.splitOn_eq_singleton hc]
  simp

theorem parseProof_of_parts {lib : Libraries} {raw header payload signature headerJSON payloadJSON : String}
    {hdr : ProofHeader} {jwk : Json} {key : EcKey} {claims : ProofClaims}
    (hsplit : splitDots raw = [header, payload, signature])
    (hheader : lib.decodeString header = .ok headerJSON)
    (hpayload : lib.decodeString payload = .ok payloadJSON)
    (hdr_ok : unmarshalInto lib ProofHeader.decode headerJSON = .ok hdr) (htyp : hdr.typ = "dpop+jwt")
    (halg : hdr.alg = "ES256") (hjwk : hdr.jwk = some jwk) (hkey : parsePublicKey lib jwk = .ok key)
    (hclaims : unmarshalInto lib ProofClaims.decode payloadJSON = .ok claims) :
    parseProof lib raw = .ok ⟨raw, hdr, claims, key⟩ := by
  unfold parseProof
  rw [hsplit]
  simp only [hheader, hpayload, hdr_ok, wrap, bind, Except.bind, htyp, halg, hjwk, hkey, hclaims]
  rfl

/-- A validation that meets no obstacle, run with nothing in between. -/
theorem alone_accepted (now : Int) {lib : Libraries} {v : Validator} {r : Request} {proof : Proof}
    {nonce : String} {i : Nat} {s s₁ s₂ s₃ : DpopState} (hraw : r.dpop ≠ "")
    (hparse : parseProof lib r.dpop = .ok proof)
    (hclaims : proof.validate r.method r.htu now v.setDefaults.proofMaxAge v.setDefaults.futureSkew = .ok ())
    (hverify : lib.verify proof.raw proof.key = true) (hstore : v.nonceStore = true)
    (hissues : v.issuesNonces = true) (hnonce : proof.claims.nonce ≠ "")
    (hconsume : Exec i (.consumeNonce proof.claims.nonce) s (.ok true) s₁)
    (hreserve : Exec i (.reserveJti proof.claims.jti v.setDefaults.jtiTTL) s₁ (.ok true) s₂)
    (hissue : Exec i .issueNonce s₂ (.ok nonce) s₃) :
    Alone (Exec i) Eq (validate lib v r) s (.accepted proof nonce) s₃ := by
  have hon : v.setDefaults.nonceStore = true := hstore
  have hissuer : v.setDefaults.issuesNonces = true := hissues
  unfold validate validateWith
  rw [if_neg hraw, hparse]
  refine .call rfl (.now now) ?_
  show Alone _ _ (checkProof lib v.setDefaults r proof now) _ _ _
  unfold checkProof
  rw [hclaims, hverify, if_pos hon]
  show Alone _ _ (spend v.setDefaults proof) _ _ _
  unfold spend
  rw [if_neg hnonce]
  refine .call rfl hconsume (.call rfl hreserve ?_)
  show Alone _ _ (accept v.setDefaults proof) _ _ _
  unfold accept
  rw [if_pos hissuer]
  exact .call rfl hissue (.ret _ _)

section Sample

/-- The header, the claims and the signature of a proof for `GET http://localhost/whoami`. -/
def sampleHeader : String :=
  "eyJ0eXAiOiJkcG9wK2p3dCIsImFsZyI6IkVTMjU2Iiwian" ++ "drIjp7Imt0eSI6IkVDIiwiY3J2IjoiUC0yNTYiLCJ4Ijoi" ++
    "RkxpaXlWWW04V1RqaHdPOWwyc2dEZ1pRVUQ1TGNCN0w4cC" ++ "1XcV9lRzB4OCIsInkiOiJtNWVQWjdIcVNDYzI1anVZeEVW" ++
    "MFdsSVJOYjlHalcwTUZvNzJha0ZqOUc4In19"

def samplePayload : String :=
  "eyJqdGkiOiIwMTg5MGE1ZC1hYzk2LTc3NGItYmNjZS1iMz" ++ "AyMDk5YTgwNjAiLCJodG0iOiJHRVQiLCJodHUiOiJodHRw" ++
    "Oi8vbG9jYWxob3N0L3dob2FtaSIsImlhdCI6MTcwMDAwMD" ++ "AwMCwibm9uY2UiOiIwMTg5MGE1ZC1hYzk2LTc3NGItYmNj" ++
    "ZS1iMzAyMDk5YTgwNjEifQ"

def sampleSignature : String :=
  "jdDLkfeDMox2y9vcMQbkQ140zXY1p0fxNfRFfo7PGmz2zu" ++ "KXnRh7v-nUIg44KjXxhXNHD6zOiREELa6Zk7Riyg"

def sampleRaw : String := sampleHeader ++ "." ++ samplePayload ++ "." ++ sampleSignature

def sampleJwk : Json :=
  .obj [("kty", .str "EC"), ("crv", .str "P-256"), ("x", .str "FLiiyVYm8WTjhwO9l2sgDgZQUD5LcB7L8p-Wq_eG0x8"),
    ("y", .str "m5ePZ7HqSCc25juYxEV0WlIRNb9GjW0MFo72akFj9G8")]

def sampleKey : EcKey :=
  ⟨true, 9372480342514887934870238206278543536461331173809889539786675672709239067423,
    70376275182526577586400019767757557714117150090485545153602164974997211444335⟩

def sampleNonce : String := "01890a5d-ac96-774b-bcce-b302099a8061"

def sampleClaims : ProofClaims :=
  ⟨"01890a5d-ac96-774b-bcce-b302099a8060", "GET", "http://localhost/whoami", 1700000000, sampleNonce⟩

def sampleProof : Proof := ⟨sampleRaw, ⟨"dpop+jwt", "ES256", some sampleJwk⟩, sampleClaims, sampleKey⟩

/-- The libraries on the texts of this proof; any other text is no base64 to them. -/
def sampleLibraries : Libraries where
  decodeString text :=
    if text = sampleHeader then .ok "header"
    else if text = samplePayload then .ok "payload"
    else .error "illegal base64 data at input byte 0"
  unmarshal text :=
    if text = "header" then
      .ok (.obj [("typ", .str "dpop+jwt"), ("alg", .str "ES256"), ("jwk", sampleJwk)])
    else .ok (.obj [("jti", .str sampleClaims.jti), ("htm", .str "GET"),
      ("htu", .str "http://localhost/whoami"), ("iat", .int 1700000000), ("nonce", .str sampleNonce)])
  mismatch := "json: cannot unmarshal"
  parseKey _ := .ok sampleKey
  isOnCurve _ := true
  verify raw _ := raw == sampleRaw

theorem splitDots_sampleRaw : splitDots sampleRaw = [sampleHeader, samplePayload, sampleSignature] := by
  have hheader : '.' ∉ sampleHeader.toList := by
    unfold sampleHeader
    simp only [-String.reduceAppend, String.toList_append]
    decide +kernel
  have hpayload : '.' ∉ samplePayload.toList := by
    unfold samplePayload
    simp only [-String.reduceAppend, String.toList_append]
    decide +kernel
  have hsignature : '.' ∉ sampleSignature.toList := by
    unfold sampleSignature
    simp only [-String.reduceAppend, String.toList_append]
    decide +kernel
  exact splitDots_three hheader hpayload hsignature

theorem parseProof_sampleRaw : parseProof sampleLibraries sampleRaw = .ok sampleProof := by
  have hne : samplePayload ≠ sampleHeader := by
    unfold samplePayload sampleHeader
    decide +kernel
  have hheader : sampleLibraries.decodeString sampleHeader = .ok "header" := by
    simp [sampleLibraries]
  have hpayload : sampleLibraries.decodeString samplePayload = .ok "payload" := by
    simp [sampleLibraries, hne]
  exact parseProof_of_parts splitDots_sampleRaw hheader hpayload rfl rfl rfl rfl rfl rfl

def sampleValidator : Validator := ⟨true, true, 0, 0, 0⟩

def sampleRequest : Request := ⟨"GET", sampleRaw, "", "", "", false, "localhost", "/whoami"⟩

/-- The nonce of the proof was issued and nothing else happened. -/
def sampleState : DpopState :=
  (⟨⟨fun _ => none, 0⟩, [], []⟩ : DpopState).issueNonce sampleNonce

theorem sampleState_init : DpopInit ⟨sampleState, []⟩ where
  issued := by
    intro nonce hne
    by_cases h : nonce = sampleNonce
    · rw [h]
      exact List.mem_cons_self
    · refine absurd ?_ hne
      exact Strings.data_write_ne _ (fun hk => h (nonceKey_injective hk)) _
  consumed := rfl
  threads := rfl

/-- After its nonce was deleted and its identifier reserved. -/
def sampleSpent : DpopState :=
  ((sampleState.consumeNonce 0 sampleNonce).2.reserveJti sampleClaims.jti
    sampleValidator.setDefaults.jtiTTL).2

def sampleNextNonce : String := "01890a5d-ac96-774b-bcce-b302099a8062"

/-- The proof is accepted a second after it was made, by a call of its own. -/
theorem sampleProof_accepted : Alone (Exec 0) Eq
    (validate sampleLibraries sampleValidator sampleRequest) sampleState
    (.accepted sampleProof sampleNextNonce) (sampleSpent.issueNonce sampleNextNonce) := by
  have hget : sampleState.keys.get (nonceKey sampleNonce) = some "1" := Strings.get_set_self _ _ _ _
  have hfound : (sampleState.consumeNonce 0 sampleNonce).1 = true := by
    rw [DpopState.consumeNonce, Strings.consume, hget]
  have hconsume := @Exec.consumeNonce 0 sampleState sampleNonce
  rw [hfound] at hconsume
  have hverify : sampleLibraries.verify sampleProof.raw sampleProof.key = true := by
    simp [sampleLibraries, sampleProof]
  have hraw : sampleRequest.dpop ≠ "" := by
    simp [sampleRequest, sampleRaw]
  have hfresh : sampleNextNonce ∉ sampleSpent.issued := by
    show sampleNextNonce ∉ [sampleNonce]
    simp [sampleNextNonce, sampleNonce]
  exact alone_accepted (1700000001 * second) hraw parseProof_sampleRaw rfl hverify
    rfl rfl (by decide) hconsume (.reserveJti _ _) (.issueNonce hfresh)

end Sample

theorem dpop_one_time_use_accepted : ∃ pool' : DpopPool, Accepted pool' 0 sampleProof ∧ OneTimeUse pool' := by
  obtain ⟨trace, hrun⟩ : ∃ trace, Run (DpopStep sampleLibraries) ⟨sampleState, []⟩ trace
      ⟨sampleSpent.issueNonce sampleNextNonce, [] ++ [.ret (.accepted sampleProof sampleNextNonce)]⟩ :=
    Alone.spawn_run [] ⟨sampleValidator, sampleRequest, rfl, rfl⟩ sampleProof_accepted
  exact ⟨_, ⟨_, rfl⟩, dpop_one_time_use sampleState_init hrun⟩

end Chinwag.Dpop

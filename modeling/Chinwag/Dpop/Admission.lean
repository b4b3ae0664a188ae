import Mathlib.Data.Fintype.EquivFin
import Chinwag.Dpop.Handshake
import Chinwag.Dpop.ProofText

/-!
# Who is let through

What `Validate` asks of a request, in one list, and what it does to Redis where all of it holds. A
proof the client has just made over the nonce it was given last meets the list, so a client goes
from answer to answer without ever being challenged.
-/
namespace Chinwag.Dpop

open Base64 Program Redis StringKeys
open Gateway (normalizeHtu)
open UrlPath (Bytes bytes)
open Prog (perform)

/-- The commands of validation `i`, with its clock at `now`. A nonce that is drawn is a text. -/
structure ExecAt (now : Int) (i : Nat) (c : DpopCmd) (s : DpopState) (reply : DpopReply c) (t : DpopState) : Prop where
  exec : Exec i c s reply t
  clock : ∀ read, (⟨c, reply⟩ : Σ c, DpopReply c) = ⟨.now, read⟩ → read = now
  drawn : ∀ nonce, (⟨c, reply⟩ : Σ c, DpopReply c) = ⟨.issueNonce, .ok nonce⟩ → nonce ≠ ""

/-- Everything that is asked of a request with this proof. -/
structure Admissible (lib : Libraries) (v : Validator) (r : Request) (now : Int) (s : DpopState) (proof : Proof) :
    Prop where
  parsed : parseProof lib r.dpop = .ok proof
  signed : lib.verify proof.raw proof.key = true
  jti : proof.claims.jti ≠ ""
  iat : proof.claims.iat ≠ 0
  htm : Json.foldName proof.claims.htm = Json.foldName r.method
  htu : proof.claims.htu = r.htu
  early : proof.claims.iat * second ≤ now + v.setDefaults.futureSkew
  late : now - proof.claims.iat * second ≤ v.setDefaults.proofMaxAge
  nonce : proof.claims.nonce ≠ ""
  held : s.keys.get (nonceKey proof.claims.nonce) ≠ none
  unused : s.keys.get (jtiKey proof.claims.jti) = none

def failed : (c : DpopCmd) → DpopReply c → Bool
  | .consumeNonce _, .error _ => true
  | .reserveJti _ _, .error _ => true
  | .issueNonce, .error _ => true
  | _, _ => false

/-- Redis answers. -/
def Answered (now : Int) (i : Nat) (c : DpopCmd) (s : DpopState) (reply : DpopReply c) (t : DpopState) : Prop :=
  ExecAt now i c s reply t ∧ failed c reply = false

/-- Whatever else happens, nobody takes the nonce or the identifier of this proof. -/
def Spares (claims : ProofClaims) (s t : DpopState) : Prop :=
  (s.keys.get (nonceKey claims.nonce) ≠ none → t.keys.get (nonceKey claims.nonce) ≠ none) ∧
    (s.keys.get (jtiKey claims.jti) = none → t.keys.get (jtiKey claims.jti) = none)

/-- Redis after the proof was spent, with a nonce to go on with. -/
def DpopState.spend (s : DpopState) (i : Nat) (v : Validator) (proof : Proof) (nonce : String) : DpopState :=
  (((s.consumeNonce i proof.claims.nonce).2.reserveJti proof.claims.jti v.setDefaults.jtiTTL).2).issueNonce nonce

theorem htu_ne_empty (r : Request) : r.htu ≠ "" := by
  have hcolon : "://".toList ≠ [] := by decide
  intro h
  have hnil := congrArg String.toList h
  simp only [Request.htu, String.toList_append, String.toList_empty, List.append_eq_nil_iff] at hnil
  exact hcolon hnil.1.1.1.2

theorem validate_ok_iff {p : Proof} {method htu : String} {now maxAge futureSkew : Int} (hhtu : htu ≠ "") :
    p.validate method htu now maxAge futureSkew = .ok () ↔
      p.claims.jti ≠ "" ∧ p.claims.iat ≠ 0 ∧ Json.foldName p.claims.htm = Json.foldName method ∧
        p.claims.htu = htu ∧ p.claims.iat * second ≤ now + futureSkew ∧ now - p.claims.iat * second ≤ maxAge := by
  unfold Proof.validate
  constructor
  · intro h
    split_ifs at h with hjti hiat hhtm hsame hearly hlate
    rw [not_or, not_not] at hsame
    exact ⟨hjti, hiat, not_not.mp hhtm, hsame.2, not_lt.mp hearly, not_lt.mp hlate⟩
  · rintro ⟨hjti, hiat, hhtm, rfl, hearly, hlate⟩
    rw [if_neg hjti, if_neg hiat, if_neg (not_not_intro hhtm), if_neg (by simp [hhtu]), if_neg (not_lt.mpr hearly),
      if_neg (not_lt.mpr hlate)]
    rfl

section Answers

variable {lib : Libraries} {v : Validator} {r : Request} {i : Nat} {now : Int} {s t u : DpopState} {proof : Proof}
  {nonce : String}

theorem reject_rejects {answer : (c : DpopCmd) → DpopState → DpopReply c → DpopState → Prop} {e : DpopError}
    {verdict : Verdict} (h : Alone answer Eq (reject v e) s verdict t) : ∃ nonce, verdict = .rejected nonce e := by
  unfold reject at h
  obtain ⟨nonce, m, -, hret⟩ := Alone.of_bind h
  obtain ⟨rfl, -⟩ := hret.of_ret
  exact ⟨nonce, rfl⟩

theorem consume_ok (h : Exec i (.consumeNonce nonce) s (.ok true) t) :
    s.keys.get (nonceKey nonce) ≠ none ∧ t = (s.consumeNonce i nonce).2 := by
  generalize hreply : (Except.ok true : DpopReply (.consumeNonce nonce)) = reply at h
  cases h with
  | consumeNonce =>
    have hfound : (s.consumeNonce i nonce).1 = true := (Except.ok.inj hreply).symm
    refine ⟨fun hnone => ?_, rfl⟩
    rw [DpopState.consumeNonce, Strings.consume, hnone] at hfound
    cases hfound
  | consumeFailed => cases hreply
  | consumeLost => cases hreply

theorem reserve_ok {jti : String} {ttl : Int} (h : Exec i (.reserveJti jti ttl) s (.ok true) t) :
    s.keys.get (jtiKey jti) = none ∧ t = (s.reserveJti jti ttl).2 := by
  generalize hreply : (Except.ok true : DpopReply (.reserveJti jti ttl)) = reply at h
  cases h with
  | reserveJti =>
    have hfree : (s.reserveJti jti ttl).1 = true := (Except.ok.inj hreply).symm
    refine ⟨?_, rfl⟩
    unfold DpopState.reserveJti Strings.setNX at hfree
    cases hget : s.keys.get (jtiKey jti) with
    | none => rfl
    | some value =>
      rw [hget] at hfree
      cases hfree
  | reserveFailed => cases hreply
  | reserveLost => cases hreply

theorem issue_ok (h : Exec i .issueNonce s (.ok nonce) t) : nonce ∉ s.issued ∧ t = s.issueNonce nonce := by
  generalize hreply : (Except.ok nonce : DpopReply .issueNonce) = reply at h
  cases h with
  | issueNonce hfresh =>
    obtain rfl := Except.ok.inj hreply
    exact ⟨hfresh, rfl⟩
  | issueFailed => cases hreply
  | issueLost => cases hreply

/-- A validation that accepts has found its nonce, its identifier unused, and a nonce to hand out. -/
theorem spend_accepts (hissues : v.issuesNonces = true) {accepted : Proof}
    (h : Alone (ExecAt now i) Eq (spend v.setDefaults proof) s (.accepted accepted nonce) t) :
    proof.claims.nonce ≠ "" ∧ s.keys.get (nonceKey proof.claims.nonce) ≠ none ∧
      s.keys.get (jtiKey proof.claims.jti) = none ∧ accepted = proof ∧ (nonce ≠ "" ∧ nonce ∉ s.issued) ∧
        t = s.spend i v proof nonce := by
  unfold spend at h
  split at h
  · obtain ⟨n, heq⟩ := reject_rejects h
    cases heq
  · rename_i hne
    cases h with
    | @call _ _ _ _ _ _ reply _ hd ha hn =>
      obtain rfl := hd
      rcases reply with e | _ | _
      · exact nomatch hn.of_ret.1
      · obtain ⟨n, heq⟩ := reject_rejects hn
        cases heq
      · obtain ⟨hheld, rfl⟩ := consume_ok ha.exec
        cases hn with
        | @call _ _ _ _ _ _ reply _ hd ha hn =>
          obtain rfl := hd
          rcases reply with e | _ | _
          · exact nomatch hn.of_ret.1
          · obtain ⟨n, heq⟩ := reject_rejects hn
            cases heq
          · obtain ⟨hunused, rfl⟩ := reserve_ok ha.exec
            rw [DpopState.consumeNonce, Handshake.live_consume s.keys (nonceKey_ne_jtiKey _ _).symm] at hunused
            have hissuer : v.setDefaults.issuesNonces = true := hissues
            change Alone _ _ (accept v.setDefaults proof) _ _ _ at hn
            unfold accept at hn
            rw [if_pos hissuer] at hn
            cases hn with
            | @call _ _ _ _ _ _ reply _ hd ha hn =>
              obtain rfl := hd
              rcases reply with e | fresh
              · exact nomatch hn.of_ret.1
              · obtain ⟨hverdict, rfl⟩ := hn.of_ret
                obtain ⟨rfl, rfl⟩ := Verdict.accepted.inj hverdict
                obtain ⟨hfresh, rfl⟩ := issue_ok ha.exec
                exact ⟨hne, hheld, hunused, rfl, ⟨ha.drawn _ rfl, hfresh⟩, rfl⟩

theorem consumeNonce_held (hheld : s.keys.get (nonceKey nonce) ≠ none) : (s.consumeNonce i nonce).1 = true := by
  obtain ⟨value, hvalue⟩ := Option.ne_none_iff_exists'.mp hheld
  rw [DpopState.consumeNonce, Strings.consume, hvalue]

theorem reserveJti_unused {jti : String} {ttl : Int} (hunused : s.keys.get (jtiKey jti) = none) :
    (s.reserveJti jti ttl).1 = true := by
  unfold DpopState.reserveJti Strings.setNX
  rw [hunused]

theorem consume_held (hheld : s.keys.get (nonceKey nonce) ≠ none) :
    Exec i (.consumeNonce nonce) s (.ok true) (s.consumeNonce i nonce).2 := by
  have hexec := @Exec.consumeNonce i s nonce
  rwa [consumeNonce_held hheld] at hexec

theorem reserve_unused {jti : String} (ttl : Int) (hunused : s.keys.get (jtiKey jti) = none) :
    Exec i (.reserveJti jti ttl) s (.ok true) (s.reserveJti jti ttl).2 := by
  have hexec := @Exec.reserveJti i s jti ttl
  rwa [reserveJti_unused hunused] at hexec

/-- What Redis answers where it answers. -/
theorem consume_answered {reply : Except RedisError Bool} (hheld : s.keys.get (nonceKey nonce) ≠ none)
    (h : Answered now i (.consumeNonce nonce) s reply t) : reply = .ok true ∧ t = (s.consumeNonce i nonce).2 := by
  obtain ⟨⟨hexec, -, -⟩, hanswered⟩ := h
  cases hexec with
  | consumeNonce => exact ⟨congrArg Except.ok (consumeNonce_held hheld), rfl⟩
  | consumeFailed => cases hanswered
  | consumeLost => cases hanswered

theorem reserve_answered {jti : String} {ttl : Int} {reply : Except RedisError Bool}
    (hunused : s.keys.get (jtiKey jti) = none) (h : Answered now i (.reserveJti jti ttl) s reply t) :
    reply = .ok true ∧ t = (s.reserveJti jti ttl).2 := by
  obtain ⟨⟨hexec, -, -⟩, hanswered⟩ := h
  cases hexec with
  | reserveJti => exact ⟨congrArg Except.ok (reserveJti_unused hunused), rfl⟩
  | reserveFailed => cases hanswered
  | reserveLost => cases hanswered

theorem issue_answered {reply : Except RedisError String} (h : Answered now i .issueNonce s reply t) :
    ∃ nonce, reply = .ok nonce ∧ nonce ≠ "" ∧ t.keys.get (nonceKey nonce) ≠ none := by
  obtain ⟨⟨hexec, -, hdrawn⟩, hanswered⟩ := h
  cases hexec with
  | issueNonce hfresh =>
    refine ⟨_, rfl, hdrawn _ rfl, ?_⟩
    rw [DpopState.issueNonce, Strings.get_set_self]
    exact Option.some_ne_none _
  | issueFailed => cases hanswered
  | issueLost => cases hanswered

theorem Admissible.dpop_ne (h : Admissible lib v r now s proof) : r.dpop ≠ "" := by
  intro hempty
  have hparsed := h.parsed
  rw [hempty] at hparsed
  cases hparsed

/-- The way through where the list is met. -/
theorem admitted_run (hstore : v.nonceStore = true) (hissues : v.issuesNonces = true)
    (hadmissible : Admissible lib v r now s proof) (hne : nonce ≠ "") (hfresh : nonce ∉ s.issued)
    {drift : DpopState → DpopState → Prop} (hdrift : ∀ s, drift s s) :
    Alone (Answered now i) drift (validate lib v r) s (.accepted proof nonce) (s.spend i v proof nonce) := by
  have hon : v.setDefaults.nonceStore = true := hstore
  have hissuer : v.setDefaults.issuesNonces = true := hissues
  have hraw := hadmissible.dpop_ne
  have hclaims := (validate_ok_iff (htu_ne_empty r)).mpr ⟨hadmissible.jti, hadmissible.iat, hadmissible.htm,
    hadmissible.htu, hadmissible.early, hadmissible.late⟩
  have hunused := hadmissible.unused
  rw [← Handshake.live_consume s.keys (nonceKey_ne_jtiKey proof.claims.nonce proof.claims.jti).symm] at hunused
  unfold validate validateWith
  rw [if_neg hraw, hadmissible.parsed]
  refine .call (hdrift _) ⟨⟨.now now, fun read heq => ?_, nofun⟩, rfl⟩ ?_
  · cases heq
    rfl
  show Alone _ _ (checkProof lib v.setDefaults r proof now) _ _ _
  unfold checkProof
  rw [hclaims, hadmissible.signed, if_pos hon]
  show Alone _ _ (spend v.setDefaults proof) _ _ _
  unfold spend
  rw [if_neg hadmissible.nonce]
  refine .call (hdrift _) ⟨⟨consume_held hadmissible.held, nofun, nofun⟩, rfl⟩ ?_
  refine .call (hdrift _) ⟨⟨reserve_unused _ hunused, nofun, nofun⟩, rfl⟩ ?_
  show Alone _ _ (accept v.setDefaults proof) _ _ _
  unfold accept
  rw [if_pos hissuer]
  refine .call (hdrift _) ⟨⟨.issueNonce hfresh, nofun, fun drawn heq => ?_⟩, rfl⟩ (.ret _ _)
  cases heq
  exact hne

/-- `Validate` lets in exactly the requests that meet the list, and leaves their nonce and their
identifier used up. -/
theorem validate_accepts_iff (hstore : v.nonceStore = true) (hissues : v.issuesNonces = true) :
    Alone (ExecAt now i) Eq (validate lib v r) s (.accepted proof nonce) t ↔
      Admissible lib v r now s proof ∧ (nonce ≠ "" ∧ nonce ∉ s.issued) ∧ t = s.spend i v proof nonce := by
  have hon : v.setDefaults.nonceStore = true := hstore
  constructor
  · intro h
    unfold validate validateWith at h
    split at h
    · obtain ⟨n, heq⟩ := reject_rejects h
      cases heq
    · split at h
      · obtain ⟨n, heq⟩ := reject_rejects h
        cases heq
      · rename_i read hparsed
        cases h with
        | @call _ _ _ _ _ _ clock _ hd ha hn =>
          obtain rfl := hd
          obtain rfl := ha.clock clock rfl
          obtain ⟨hexec, -, -⟩ := ha
          cases hexec
          change Alone _ _ (checkProof lib v.setDefaults r read clock) _ _ _ at hn
          unfold checkProof at hn
          split at hn
          · obtain ⟨n, heq⟩ := reject_rejects hn
            cases heq
          · rename_i hclaims
            obtain ⟨hjti, hiat, hhtm, hhtu, hearly, hlate⟩ := (validate_ok_iff (htu_ne_empty r)).mp hclaims
            split at hn
            · obtain ⟨n, heq⟩ := reject_rejects hn
              cases heq
            · rename_i hsigned
              obtain ⟨hne, hheld, hunused, rfl, hfresh, rfl⟩ := spend_accepts hissues hn
              exact ⟨⟨hparsed, not_not.mp hsigned, hjti, hiat, hhtm, hhtu, hearly, hlate, hne, hheld, hunused⟩,
                hfresh, rfl⟩
  · rintro ⟨hadmissible, ⟨hne, hfresh⟩, rfl⟩
    exact (admitted_run hstore hissues hadmissible hne hfresh fun _ => rfl).mono fun _ _ _ _ h => h.1

/-- Where the list is met nothing but Redis can fail, whatever the others do in between. -/
theorem accepted_of_admissible (hstore : v.nonceStore = true) (hissues : v.issuesNonces = true)
    (hadmissible : Admissible lib v r now s proof) {verdict : Verdict}
    (h : Alone (Answered now i) (Spares proof.claims) (validate lib v r) s verdict t) :
    ∃ nonce, verdict = .accepted proof nonce ∧ nonce ≠ "" ∧ t.keys.get (nonceKey nonce) ≠ none := by
  have hon : v.setDefaults.nonceStore = true := hstore
  have hissuer : v.setDefaults.issuesNonces = true := hissues
  have hraw := hadmissible.dpop_ne
  have hclaims := (validate_ok_iff (htu_ne_empty r)).mpr ⟨hadmissible.jti, hadmissible.iat, hadmissible.htm,
    hadmissible.htu, hadmissible.early, hadmissible.late⟩
  unfold validate validateWith at h
  rw [if_neg hraw, hadmissible.parsed] at h
  cases h with
  | @call _ _ _ s₁ _ _ clock _ hd ha hn =>
    obtain rfl := ha.1.clock clock rfl
    have hheld := hd.1 hadmissible.held
    have hunused := hd.2 hadmissible.unused
    obtain ⟨⟨hexec, -, -⟩, -⟩ := ha
    cases hexec
    change Alone _ _ (checkProof lib v.setDefaults r proof clock) _ _ _ at hn
    unfold checkProof at hn
    rw [hclaims, hadmissible.signed, if_pos hon] at hn
    change Alone _ _ (spend v.setDefaults proof) _ _ _ at hn
    unfold spend at hn
    rw [if_neg hadmissible.nonce] at hn
    cases hn with
    | @call _ _ _ s₂ s₃ _ reply _ hd ha hn =>
      have hheld := hd.1 hheld
      have hunused := hd.2 hunused
      obtain ⟨rfl, rfl⟩ := consume_answered hheld ha
      rw [← Handshake.live_consume s₂.keys (nonceKey_ne_jtiKey proof.claims.nonce proof.claims.jti).symm] at hunused
      cases hn with
      | @call _ _ _ s₃ s₄ _ reply _ hd ha hn =>
        obtain ⟨rfl, rfl⟩ := reserve_answered (hd.2 hunused) ha
        change Alone _ _ (accept v.setDefaults proof) _ _ _ at hn
        unfold accept at hn
        rw [if_pos hissuer] at hn
        cases hn with
        | @call _ _ _ _ _ _ reply _ hd ha hn =>
          obtain ⟨fresh, rfl, hlive⟩ := issue_answered ha
          obtain ⟨rfl, rfl⟩ := hn.of_ret
          exact ⟨fresh, rfl, hlive⟩

end Answers

/-! ### From answer to answer -/

/-- A request of the client and the service it reaches, whose clock stands at `now`. -/
structure Turn where
  browser : Browser
  method : String
  url : Bytes
  request : Request
  validator : Validator
  now : Int

def Turn.options (turn : Turn) (nonce : String) : ProofOptions := ⟨turn.method, turn.url, some nonce⟩

section Talking

variable (lib : Libraries) (sha256 : ByteArray → List Octet) (key : StoredKey)

/-- The request carries a proof over this nonce, and the two sides agree on address, method and time. -/
structure Turn.Sound (turn : Turn) (nonce : String) : Prop where
  sent : turn.request.dpop = (createDPoPProof sha256 key turn.browser (turn.options nonce)).proof
  usual : Usual key turn.browser
  jti : turn.browser.randomUUID ≠ ""
  iat : turn.browser.now ≠ 0
  htm : Json.foldName turn.method.toUpper = Json.foldName turn.request.method
  htu : asText (normalizeHtu turn.url (turn.browser.readURL turn.url)) = turn.request.htu
  early : turn.browser.now * second ≤ turn.now + turn.validator.setDefaults.futureSkew
  late : turn.now - turn.browser.now * second ≤ turn.validator.setDefaults.proofMaxAge
  stores : turn.validator.nonceStore = true
  issues : turn.validator.issuesNonces = true

/-- A text the private key signed verifies under the public key. -/
def Signs : Prop :=
  ∀ input : String, lib.verify (input ++ "." ++ base64url (key.sign (utf8 input))) key.point.key = true

/-- `captureDPoPNonce`: what the client holds after an answer. -/
def captured (nonce : String) : Verdict → String
  | .accepted _ fresh => if fresh = "" then nonce else fresh
  | .rejected fresh _ => if fresh = "" then nonce else fresh
  | .noIssuer => nonce
  | .unavailable _ => nonce

/-- The client's requests one after the other, each over the nonce it was given last. Between and
during them others come and go, but for its nonce and the identifiers it draws. -/
inductive Talk : String → DpopState → List Turn → List Verdict → Prop where
  | nil (nonce : String) (s : DpopState) : Talk nonce s [] []
  | cons {nonce : String} {s s₁ t : DpopState} {turn : Turn} {turns : List Turn} {verdict : Verdict}
      {verdicts : List Verdict} {i : Nat} (hsound : turn.Sound sha256 key nonce)
      (hbetween : Spares (createdClaims turn.browser (turn.options nonce)) s s₁)
      (hunused : s₁.keys.get (jtiKey turn.browser.randomUUID) = none)
      (hrun : Alone (Answered turn.now i) (Spares (createdClaims turn.browser (turn.options nonce)))
        (validate lib turn.validator turn.request) s₁ verdict t)
      (hrest : Talk (captured nonce verdict) t turns verdicts) :
      Talk nonce s (turn :: turns) (verdict :: verdicts)

/-- The proof of a turn was accepted, and names the client's own key. -/
def LetIn (isPrint : Char → Bool) (turn : Turn) (verdict : Verdict) : Prop :=
  ∃ nonce proof fresh, verdict = .accepted proof fresh ∧
    proof = createdProof sha256 key turn.browser (turn.options nonce) ∧
    thumbprint sha256 isPrint proof.key = .ok (computeJkt sha256 key.publicJwk)

end Talking

section Talks

variable {lib : Libraries} {sha256 : ByteArray → List Octet} {key : StoredKey} {turn : Turn} {nonce : String}
  {s : DpopState}

theorem Turn.Sound.admissible (h : turn.Sound sha256 key nonce) (htokens : ReadsTokens lib) (hkeys : ReadsKeys lib)
    (hsigns : Signs lib key) (hne : nonce ≠ "") (hheld : s.keys.get (nonceKey nonce) ≠ none)
    (hunused : s.keys.get (jtiKey turn.browser.randomUUID) = none) :
    Admissible lib turn.validator turn.request turn.now s
      (createdProof sha256 key turn.browser (turn.options nonce)) where
  parsed := by
    rw [h.sent]
    exact (parseProof_created_iff sha256 htokens hkeys).mpr ⟨h.usual, rfl⟩
  signed := hsigns _
  jti := h.jti
  iat := h.iat
  htm := h.htm
  htu := h.htu
  early := h.early
  late := h.late
  nonce := hne
  held := hheld
  unused := hunused

end Talks

section Sample

def trusting : Libraries := goLibraries fun _ _ => true

def sampleHash (_ : ByteArray) : List Octet := sampleDigest

def sampleTurn : Turn where
  browser := sampleBrowser
  method := "get"
  url := bytes "https://chat.local/rooms"
  request := ⟨"GET", (createDPoPProof sampleHash sampleStoredKey sampleBrowser
    ⟨"get", bytes "https://chat.local/rooms", some sampleNonce⟩).proof, "https", "chat.local", "", false, "room:8082",
    "/rooms"⟩
  validator := sampleValidator
  now := 1760000002 * second

theorem sampleTurn_sound : sampleTurn.Sound sampleHash sampleStoredKey sampleNonce where
  sent := rfl
  usual := ⟨by decide +kernel, by decide +kernel, by decide +kernel⟩
  jti := by decide +kernel
  iat := by decide +kernel
  htm := by decide +kernel
  htu := by decide +kernel
  early := by decide +kernel
  late := by decide +kernel
  stores := rfl
  issues := rfl

theorem sampleState_held : sampleState.keys.get (nonceKey sampleNonce) ≠ none := by
  have hget : sampleState.keys.get (nonceKey sampleNonce) = some "1" := Strings.get_set_self _ _ _ _
  rw [hget]
  exact Option.some_ne_none _

theorem sampleState_unused (jti : String) : sampleState.keys.get (jtiKey jti) = none := by
  have hdata : sampleState.keys.data (jtiKey jti) = none :=
    Strings.data_write_ne _ (nonceKey_ne_jtiKey sampleNonce jti).symm _
  rw [Strings.get, hdata]
  rfl

theorem sampleTurn_admissible : Admissible trusting sampleValidator sampleTurn.request sampleTurn.now sampleState
    (createdProof sampleHash sampleStoredKey sampleTurn.browser (sampleTurn.options sampleNonce)) :=
  sampleTurn_sound.admissible (readsTokens_goLibraries _) (readsKeys_goLibraries _) (fun _ => rfl) (by decide +kernel)
    sampleState_held (sampleState_unused _)

theorem sampleNextNonce_fresh : sampleNextNonce ≠ "" ∧ sampleNextNonce ∉ sampleState.issued :=
  ⟨by decide +kernel, by decide +kernel⟩

theorem sampleTurn_accepted : Alone (ExecAt sampleTurn.now 0) Eq (validate trusting sampleValidator sampleTurn.request)
    sampleState (.accepted (createdProof sampleHash sampleStoredKey sampleTurn.browser (sampleTurn.options sampleNonce))
      sampleNextNonce)
    (sampleState.spend 0 sampleValidator
      (createdProof sampleHash sampleStoredKey sampleTurn.browser (sampleTurn.options sampleNonce)) sampleNextNonce) :=
  (validate_accepts_iff rfl rfl).mpr ⟨sampleTurn_admissible, sampleNextNonce_fresh, rfl⟩

end Sample

end Chinwag.Dpop

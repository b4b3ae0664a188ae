import Mathlib.Data.Set.Card
import Chinwag.Dpop.Admission

/-!
# The middleware of the protected routes

Whoever reaches a handler has shown a proof of the key its token is bound to, made for this method
and this address, and used up by nobody else. So a token without the key is worth nothing, and the
proofs somebody recorded are worth at most what they were made for, once.
-/
namespace Chinwag.Dpop

open Base64 Program Redis Transition
open Handshake (errorInvalidBinding)
open Prog (perform)

/-- `Claims`, as far as they are read; `CNF` may be missing, and its `Jkt` empty. -/
structure VerifiedClaims where
  subject : String
  role : String
  cnf : Option String

/-- A request, and its `Authorization` header. -/
structure AuthRequest where
  authorization : String
  request : Request

/-- What is not in the repository: the libraries of proofs, the hash, and the texts of two errors. -/
structure Deps where
  lib : Libraries
  sha256 : ByteArray → List Octet
  isPrint : Char → Bool
  errUnauthorized : String
  redisText : RedisError → String

/-- A group of routes: what its JWKS makes of a token now, its validator, and the roles it asks for. -/
structure Group where
  parseWithClaims : String → Option VerifiedClaims
  validator : Option Validator
  roles : Option (List String)

/-- A status and the texts of the answer, or the handler that is called, and for what. -/
inductive Answer where
  | unauthorized (error : String)
  | dpopError (nonce : String) (e : DpopError)
  | forbidden (nonce : String)
  | handled (nonce : String) (g : Group) (r : AuthRequest) (claims : VerifiedClaims)

/-- `strings.SplitN(s, " ", 2)`, where there is a blank. -/
def cutBlank (s : String) : Option (String × String) :=
  let scheme := s.toList.takeWhile (· ≠ ' ')
  match s.toList.dropWhile (· ≠ ' ') with
  | [] => none
  | _ :: rest => some (String.ofList scheme, String.ofList rest)

def parseAuthorization (errUnauthorized : String) (authHeader : String) : Except String String :=
  if authHeader = "" then .error errUnauthorized
  else
    match cutBlank authHeader with
    | none => .error errUnauthorized
    | some (scheme, token) =>
      if scheme.toLower ≠ "bearer" ∧ scheme.toLower ≠ "dpop" then .error errUnauthorized else .ok token

section Handlers

variable (deps : Deps)

def unavailableText (message : String) : DpopError :=
  ⟨errorInvalidProof, 500, "DPoP validation unavailable: " ++ message⟩

/-- `verifyDPoP`: the nonce for the response, and what is wrong. -/
def verifyDPoP (claims : VerifiedClaims) (v : Validator) (r : Request) : DpopProg (String × Option DpopError) :=
  match claims.cnf with
  | none => return ("", some ⟨errorInvalidBinding, 401, "access token is not bound to a DPoP key"⟩)
  | some jkt =>
    if jkt = "" then return ("", some ⟨errorInvalidBinding, 401, "access token is not bound to a DPoP key"⟩)
    else do
      match ← validate deps.lib v r with
      | .rejected nonce e => return (nonce, some e)
      | .noIssuer => return ("", some (unavailableText "no nonce issuer configured"))
      | .unavailable e => return ("", some (unavailableText (deps.redisText e)))
      | .accepted proof nonce =>
        match thumbprint deps.sha256 deps.isPrint proof.key with
        | .error _ => return (nonce, some ⟨errorInvalidProof, 400, "failed to derive DPoP key thumbprint"⟩)
        | .ok own =>
          if own ≠ jkt then
            return (nonce, some ⟨errorInvalidBinding, 401, "DPoP key does not match the bound access token"⟩)
          else return (nonce, none)

/-- `RequireRole`, on the claims the middleware has stored. -/
def requireRole (g : Group) (nonce : String) (r : AuthRequest) (claims : VerifiedClaims) : Answer :=
  match g.roles with
  | none => .handled nonce g r claims
  | some roles => if claims.role ∈ roles then .handled nonce g r claims else .forbidden nonce

/-- `respondDPoPError`, or what stands behind the middleware. -/
def respond (g : Group) (r : AuthRequest) (claims : VerifiedClaims) : String × Option DpopError → Answer
  | (nonce, some e) => .dpopError nonce e
  | (nonce, none) => requireRole g nonce r claims

/-- `NewMiddleware`, and the role check behind it. -/
def newMiddleware (g : Group) (r : AuthRequest) : DpopProg Answer :=
  match parseAuthorization deps.errUnauthorized r.authorization with
  | .error e => return .unauthorized e
  | .ok token =>
    match g.parseWithClaims token with
    | none => return .unauthorized "invalid or expired token"
    | some claims =>
      match g.validator with
      | none => return requireRole g "" r claims
      | some v => do
        let result ← verifyDPoP deps claims v r.request
        return respond g r claims result

end Handlers

/-! ### What an accepted proof says -/

/-- The proof in the request was made for its method and address, and its signature verifies. -/
structure Made (lib : Libraries) (r : Request) (proof : Proof) : Prop where
  parsed : parseProof lib r.dpop = .ok proof
  signed : lib.verify r.dpop proof.key = true
  htm : Json.foldName proof.claims.htm = Json.foldName r.method
  htu : proof.claims.htu = r.htu

section Programs

variable {lib : Libraries} {v : Validator} {r : Request} {i : Nat} {s : DpopState}

theorem returns_reject {Q : Verdict → Prop} {e : DpopError} (h : ∀ nonce, Q (.rejected nonce e)) :
    Returns Q (reject v e) := by
  unfold reject issueOrEmpty
  split
  · intro reply
    cases reply with
    | ok nonce => exact h nonce
    | error _ => exact h ""
  · exact h ""

def AcceptsMade (lib : Libraries) (r : Request) (verdict : Verdict) : Prop :=
  ∀ proof nonce, verdict = .accepted proof nonce → Made lib r proof

theorem returns_accept {proof : Proof} (h : Made lib r proof) : Returns (AcceptsMade lib r) (accept v proof) := by
  unfold accept
  split
  · intro reply
    cases reply with
    | ok nonce =>
      intro _ _ heq
      cases heq
      exact h
    | error e => exact nofun
  · exact nofun

theorem returns_spend {proof : Proof} (h : Made lib r proof) : Returns (AcceptsMade lib r) (spend v proof) := by
  unfold spend
  split
  · exact returns_reject fun _ => nofun
  · intro reply
    match reply with
    | .error e => exact nofun
    | .ok false => exact returns_reject fun _ => nofun
    | .ok true =>
      intro reply
      match reply with
      | .error e => exact nofun
      | .ok false => exact returns_reject fun _ => nofun
      | .ok true => exact returns_accept h

theorem returns_validate (lib : Libraries) (v : Validator) (r : Request) :
    Returns (AcceptsMade lib r) (validate lib v r) := by
  unfold validate validateWith
  split
  · exact returns_reject fun _ => nofun
  · split
    · exact returns_reject fun _ => nofun
    · rename_i proof hparsed
      intro now
      show Returns _ (checkProof lib v.setDefaults r proof now)
      unfold checkProof
      split
      · exact returns_reject fun _ => nofun
      · rename_i hclaims
        obtain ⟨-, -, hhtm, hhtu, -, -⟩ := (validate_ok_iff (htu_ne_empty r)).mp hclaims
        split
        · exact returns_reject fun _ => nofun
        · rename_i hsigned
          rw [not_not, parseProof_raw hparsed] at hsigned
          have hmade : Made lib r proof := ⟨hparsed, hsigned, hhtm, hhtu⟩
          split
          · exact returns_spend hmade
          · exact returns_accept hmade

/-- Whoever is accepted has consumed the nonce of the proof in the request. -/
def Consumed (lib : Libraries) (r : Request) (i : Nat) (verdict : Verdict) (s : DpopState) : Prop :=
  ∀ proof nonce, verdict = .accepted proof nonce → Made lib r proof ∧ (i, proof.claims.nonce) ∈ s.consumed

theorem safe_consumed (hstore : v.nonceStore = true) (s : DpopState) :
    Safe dpopSemantics dpopContract i (Consumed lib r i) (validate lib v r) s := by
  refine ((safe_validate hstore r s).returns (returns_validate lib v r)).mono fun verdict t h => ?_
  rintro proof nonce rfl
  exact ⟨h.2 proof nonce rfl, h.1.2⟩

end Programs

section Protection

variable {deps : Deps} {v : Validator} {g : Group} {r : AuthRequest} {i : Nat} {s : DpopState}

/-- The proof names the key the token is bound to, and its nonce was consumed by this request alone. -/
structure Vouched (deps : Deps) (r : Request) (claims : VerifiedClaims) (i : Nat) (s : DpopState) (proof : Proof) :
    Prop where
  made : Made deps.lib r proof
  bound : ∃ jkt, claims.cnf = some jkt ∧ thumbprint deps.sha256 deps.isPrint proof.key = .ok jkt
  consumed : (i, proof.claims.nonce) ∈ s.consumed

theorem safe_verifyDPoP (hstore : v.nonceStore = true) (claims : VerifiedClaims) (r : Request) (s : DpopState) :
    Safe dpopSemantics dpopContract i
      (fun result t => result.2 = none → ∃ proof, Vouched deps r claims i t proof) (verifyDPoP deps claims v r) s := by
  unfold verifyDPoP
  split
  · exact nofun
  · rename_i jkt hcnf
    split
    · exact nofun
    · refine (safe_consumed hstore s).bind fun verdict t hconsumed => ?_
      cases verdict with
      | rejected nonce e => exact nofun
      | noIssuer => exact nofun
      | unavailable e => exact nofun
      | accepted proof nonce =>
        obtain ⟨hmade, hspent⟩ := hconsumed proof nonce rfl
        dsimp only
        split
        · exact nofun
        · rename_i own hown
          split
          · exact nofun
          · rename_i hsame
            rw [not_not] at hsame
            exact fun _ => ⟨proof, hmade, ⟨jkt, hcnf, by rw [hown, hsame]⟩, hspent⟩

/-- The token of the request is one the group takes, and its role one the group asks for. -/
structure Entitled (deps : Deps) (g : Group) (r : AuthRequest) (claims : VerifiedClaims) : Prop where
  token : ∃ token, parseAuthorization deps.errUnauthorized r.authorization = .ok token ∧
    g.parseWithClaims token = some claims
  role : ∀ roles, g.roles = some roles → claims.role ∈ roles

/-- Whoever is handled is entitled, and vouched for by a proof. -/
def Protected (deps : Deps) (i : Nat) (answer : Answer) (s : DpopState) : Prop :=
  ∀ nonce g r claims, answer = .handled nonce g r claims →
    Entitled deps g r claims ∧ ∃ proof, Vouched deps r.request claims i s proof

theorem requireRole_handled {nonce nonce' : String} {claims claims' : VerifiedClaims} {g' : Group} {r' : AuthRequest}
    (h : requireRole g nonce r claims = .handled nonce' g' r' claims') :
    g' = g ∧ r' = r ∧ claims' = claims ∧ ∀ roles, g.roles = some roles → claims.role ∈ roles := by
  unfold requireRole at h
  split at h
  · rename_i hnone
    cases h
    exact ⟨rfl, rfl, rfl, fun roles hroles => by rw [hnone] at hroles; cases hroles⟩
  · rename_i roles hsome
    split at h
    · rename_i hrole
      cases h
      refine ⟨rfl, rfl, rfl, fun roles' hroles => ?_⟩
      rw [hsome] at hroles
      cases hroles
      exact hrole
    · cases h

theorem respond_handled {result : String × Option DpopError} {nonce : String} {claims claims' : VerifiedClaims} {g' : Group}
    {r' : AuthRequest} (h : respond g r claims result = .handled nonce g' r' claims') :
    result.2 = none ∧ g' = g ∧ r' = r ∧ claims' = claims ∧ ∀ roles, g.roles = some roles → claims.role ∈ roles := by
  obtain ⟨fresh, derr⟩ := result
  cases derr with
  | some e => cases h
  | none => exact ⟨rfl, requireRole_handled h⟩

theorem safe_newMiddleware (hv : g.validator = some v) (hstore : v.nonceStore = true) (r : AuthRequest) (s : DpopState) :
    Safe dpopSemantics dpopContract i (Protected deps i) (newMiddleware deps g r) s := by
  unfold newMiddleware
  split
  · exact nofun
  · rename_i token htoken
    split
    · exact nofun
    · rename_i claims hclaims
      rw [hv]
      refine (safe_verifyDPoP hstore claims r.request s).bind fun result t hresult => ?_
      intro nonce g' r' claims' heq
      obtain ⟨hnone, rfl, rfl, rfl, hrole⟩ := respond_handled heq
      exact ⟨⟨⟨token, htoken, hclaims⟩, hrole⟩, hresult hnone⟩

end Protection

/-! ### All services together -/

/-- What a request that brought a proof came to, at a protected route or where tokens are issued. -/
inductive Ending where
  | guarded (answer : Answer)
  | issuing (verdict : Verdict)

/-- A request begins to be handled by some service; every validator has the nonce store. -/
inductive Calls (deps : Deps) : DpopProg Ending → Prop where
  | guarded {g : Group} {v : Validator} (r : AuthRequest) (hv : g.validator = some v) (hstore : v.nonceStore = true) :
      Calls deps (newMiddleware deps g r >>= fun answer => .ret (.guarded answer))
  | issuing {v : Validator} (r : Request) (hstore : v.nonceStore = true) :
      Calls deps (validate deps.lib v r >>= fun verdict => .ret (.issuing verdict))

abbrev AuthPool := Pool DpopState DpopCmd DpopReply Ending

abbrev AuthLabel := Label Unit DpopCmd DpopReply Ending

abbrev AuthStep (deps : Deps) : AuthPool → AuthLabel → AuthPool → Prop := Step dpopSemantics (Calls deps)

/-- The handler behind the middleware was called for this request, with these claims. -/
def Handled (pool : AuthPool) (i : Nat) (g : Group) (r : AuthRequest) (claims : VerifiedClaims) : Prop :=
  ∃ nonce, pool.threads[i]? = some (.ret (.guarded (.handled nonce g r claims)))

/-- The text of the proof that request `i` was let through with. -/
def Uses (pool : AuthPool) (i : Nat) (raw : String) : Prop :=
  (∃ g r claims, Handled pool i g r claims ∧ r.request.dpop = raw) ∨
    ∃ proof nonce, pool.threads[i]? = some (.ret (.issuing (.accepted proof nonce))) ∧ proof.raw = raw

/-- The segments a proof is read from, and what is read from them. -/
theorem parseProof_parts {lib : Libraries} {raw : String} {proof : Proof} (h : parseProof lib raw = .ok proof) :
    ∃ header payload signature payloadJSON jwk, splitDots raw = [header, payload, signature] ∧
      lib.decodeString payload = .ok payloadJSON ∧
      unmarshalInto lib ProofClaims.decode payloadJSON = .ok proof.claims ∧ parsePublicKey lib jwk = .ok proof.key := by
  unfold parseProof at h
  split at h
  · rename_i header payload signature hsplit
    obtain ⟨_, -, h⟩ := ok_of_bind h
    obtain ⟨payloadJSON, hpayload, h⟩ := ok_of_bind h
    obtain ⟨hdr, -, h⟩ := ok_of_bind h
    split at h
    · cases h
    · split at h
      · cases h
      · split at h
        · cases h
        · rename_i jwk _
          obtain ⟨key, hkey, h⟩ := ok_of_bind h
          obtain ⟨claims, hclaims, h⟩ := ok_of_bind h
          cases h
          exact ⟨header, payload, signature, payloadJSON, jwk, hsplit, ok_of_wrap hpayload, ok_of_wrap hclaims,
            ok_of_wrap hkey⟩
  · cases h

/-- What the signature of a proof is over: its header and its payload. -/
def signedParts (raw : String) : List String := (splitDots raw).take 2

/-- Proofs that sign the same make the same claims, whatever their signatures are. -/
theorem claims_of_signedParts {lib : Libraries} {raw raw' : String} {proof proof' : Proof}
    (h : parseProof lib raw = .ok proof) (h' : parseProof lib raw' = .ok proof')
    (hsame : signedParts raw = signedParts raw') : proof.claims = proof'.claims := by
  obtain ⟨header, payload, signature, payloadJSON, -, hsplit, hpayload, hclaims, -⟩ := parseProof_parts h
  obtain ⟨header', payload', signature', payloadJSON', -, hsplit', hpayload', hclaims', -⟩ := parseProof_parts h'
  have hparts : [header, payload] = [header', payload'] := by
    rw [signedParts, signedParts, hsplit, hsplit'] at hsame
    exact hsame
  obtain ⟨-, rfl⟩ : header = header' ∧ payload = payload' := by simpa using hparts
  obtain rfl : payloadJSON = payloadJSON' := Except.ok.inj (hpayload.symm.trans hpayload')
  exact Except.ok.inj (hclaims.symm.trans hclaims')

def Kept (deps : Deps) (i : Nat) : Ending → DpopState → Prop
  | .guarded answer, s => Protected deps i answer s
  | .issuing verdict, s => ∃ r, Consumed deps.lib r i verdict s

section Runs

variable {deps : Deps} {pool pool' : AuthPool} {trace : List AuthLabel}

theorem stable_kept (deps : Deps) : dpopContract.Stable (Kept deps) := by
  intro i ending s t hkept hrely
  cases ending with
  | guarded answer =>
    intro nonce g r claims heq
    obtain ⟨hentitled, proof, hmade, hbound, hspent⟩ := hkept nonce g r claims heq
    exact ⟨hentitled, proof, hmade, hbound, hrely _ hspent⟩
  | issuing verdict =>
    obtain ⟨r, hconsumed⟩ := hkept
    refine ⟨r, fun proof nonce heq => ?_⟩
    obtain ⟨hmade, hspent⟩ := hconsumed proof nonce heq
    exact ⟨hmade, hrely _ hspent⟩

theorem safe_calls {i : Nat} {p : DpopProg Ending} (hp : Calls deps p) (s : DpopState) :
    Safe dpopSemantics dpopContract i (Kept deps i) p s := by
  cases hp with
  | guarded r hv hstore => exact (safe_newMiddleware hv hstore r s).bind fun answer t h => h
  | issuing r hstore => exact (safe_consumed hstore s).bind fun verdict t h => ⟨r, h⟩

theorem good_calls (h : DpopInit ⟨pool.shared, []⟩) (hthreads : pool.threads = [])
    (hrun : Run (AuthStep deps) pool trace pool') : Good dpopSemantics dpopContract (Kept deps) pool' := by
  have hstart : Good dpopSemantics dpopContract (Kept deps) pool := by
    refine ⟨(@good_init deps.lib ⟨pool.shared, []⟩ h).shared, fun i p hi => ?_⟩
    rw [hthreads] at hi
    cases hi
  refine hrun.invariant (fun p l p' hp hs => ?_) hstart
  exact hp.step dpopContract_sound (stable_kept deps) (fun i q s hq _ => safe_calls hq s) hs

/-- Whoever was let through with a text has consumed the nonce in it. -/
theorem uses_consumed (hg : Good dpopSemantics dpopContract (Kept deps) pool) {i : Nat} {raw : String}
    (h : Uses pool i raw) :
    ∃ proof, parseProof deps.lib raw = .ok proof ∧ (i, proof.claims.nonce) ∈ pool.shared.consumed := by
  rcases h with ⟨g, r, claims, ⟨nonce, hi⟩, rfl⟩ | ⟨proof, nonce, hi, rfl⟩
  · obtain ⟨-, proof, hmade, -, hspent⟩ := hg.safe i _ hi nonce g r claims rfl
    exact ⟨proof, hmade.parsed, hspent⟩
  · obtain ⟨r, hconsumed⟩ := hg.safe i _ hi
    obtain ⟨hmade, hspent⟩ := hconsumed proof nonce rfl
    have hraw := parseProof_raw hmade.parsed
    exact ⟨proof, by rw [hraw]; exact hmade.parsed, hspent⟩

theorem uses_once (hg : Good dpopSemantics dpopContract (Kept deps) pool) {i j : Nat} {raw raw' : String}
    (hi : Uses pool i raw) (hj : Uses pool j raw') (hsame : signedParts raw = signedParts raw') : i = j := by
  obtain ⟨proof, hparsed, hspent⟩ := uses_consumed hg hi
  obtain ⟨proof', hparsed', hspent'⟩ := uses_consumed hg hj
  rw [claims_of_signedParts hparsed hparsed' hsame] at hspent
  exact consumer_unique hg.shared hspent hspent'

/-- What holds of the tokens bound to `jkt`, where the owner of its key has signed these. -/
structure SenderConstrained (deps : Deps) (jkt : String) (made : List (List String)) (pool : AuthPool) : Prop where
  entitled : ∀ i g r claims, Handled pool i g r claims → Entitled deps g r claims ∧ ∃ jkt, claims.cnf = some jkt
  shown : ∀ i g r claims, Handled pool i g r claims → claims.cnf = some jkt →
    signedParts r.request.dpop ∈ made ∧ ∃ proof, parseProof deps.lib r.request.dpop = .ok proof ∧
      Json.foldName proof.claims.htm = Json.foldName r.request.method ∧ proof.claims.htu = r.request.htu
  once : ∀ i j raw raw', Uses pool i raw → Uses pool j raw' → signedParts raw = signedParts raw' → i = j
  bounded : {i | ∃ g r claims, Handled pool i g r claims ∧ claims.cnf = some jkt}.ncard ≤ made.length

/-- Over every run of all services: a handler is reached with a bound token only on a proof the owner
of the key signed, for that method and address, and what was signed serves one request at most. -/
theorem sender_constrained (h : DpopInit ⟨pool.shared, []⟩) (hthreads : pool.threads = [])
    (hrun : Run (AuthStep deps) pool trace pool') {key : EcKey} {jkt : String} {made : List (List String)}
    (hbinds : ∀ raw proof, parseProof deps.lib raw = .ok proof →
      thumbprint deps.sha256 deps.isPrint proof.key = .ok jkt → proof.key = key)
    (hunforged : ∀ raw, deps.lib.verify raw key = true → signedParts raw ∈ made) :
    SenderConstrained deps jkt made pool' := by
  have hg := good_calls h hthreads hrun
  have hvouched : ∀ i g r claims, Handled pool' i g r claims →
      Entitled deps g r claims ∧ ∃ proof, Vouched deps r.request claims i pool'.shared proof := by
    rintro i g r claims ⟨nonce, hi⟩
    exact hg.safe i _ hi nonce g r claims rfl
  have hmade : ∀ i g r claims, Handled pool' i g r claims → claims.cnf = some jkt →
      signedParts r.request.dpop ∈ made ∧ ∃ proof, Made deps.lib r.request proof := by
    intro i g r claims hi hcnf
    obtain ⟨-, proof, hproof, ⟨own, hown, hthumb⟩, -⟩ := hvouched i g r claims hi
    rw [hcnf] at hown
    obtain rfl := Option.some.inj hown
    have hsigned := hproof.signed
    rw [hbinds _ proof hproof.parsed hthumb] at hsigned
    exact ⟨hunforged _ hsigned, proof, hproof⟩
  refine ⟨fun i g r claims hi => ?_, fun i g r claims hi hcnf => ?_, ?_, ?_⟩
  · obtain ⟨hentitled, proof, -, ⟨own, hown, -⟩, -⟩ := hvouched i g r claims hi
    exact ⟨hentitled, own, hown⟩
  · obtain ⟨hmem, proof, hproof⟩ := hmade i g r claims hi hcnf
    exact ⟨hmem, proof, hproof.parsed, hproof.htm, hproof.htu⟩
  · intro i j raw raw' hi hj hsame
    exact uses_once hg hi hj hsame
  · -- each handled request is charged to what its proof signs
    have hcharge : ∀ i ∈ {i | ∃ g r claims, Handled pool' i g r claims ∧ claims.cnf = some jkt},
        ∃ raw, signedParts raw ∈ made ∧ Uses pool' i raw := by
      rintro i ⟨g, r, claims, hi, hcnf⟩
      exact ⟨r.request.dpop, (hmade i g r claims hi hcnf).1, .inl ⟨g, r, claims, hi, rfl⟩⟩
    choose! charged hmem huses using hcharge
    calc Set.ncard {i | ∃ g r claims, Handled pool' i g r claims ∧ claims.cnf = some jkt}
        ≤ Set.ncard (made.toFinset : Set (List String)) := by
          refine Set.ncard_le_ncard_of_injOn (fun i => signedParts (charged i)) (fun i hi => ?_)
            (fun i hi j hj heq => ?_)
          · exact List.mem_toFinset.mpr (hmem i hi)
          · exact uses_once hg (huses i hi) (huses j hj) heq
      _ = made.toFinset.card := Set.ncard_coe_finset _
      _ ≤ made.length := List.toFinset_card_le made

end Runs

section Sample

def sampleDeps : Deps where
  lib := sampleLibraries
  sha256 _ := sampleDigest
  isPrint _ := false
  errUnauthorized := "code=401, message=Unauthorized"
  redisText _ := "i/o timeout"

def sampleJkt : String := rawUrl sampleDigest

def sampleAccess : VerifiedClaims := ⟨"7f1c9a52-6d3f-4f0b-9a55-0d1c2f6b8e11", "USER", some sampleJkt⟩

def sampleGroup : Group := ⟨fun _ => some sampleAccess, some sampleValidator, none⟩

def sampleAuthRequest : AuthRequest := ⟨"DPoP token", sampleRequest⟩

theorem sampleJkt_ne : sampleJkt ≠ "" := by
  decide +kernel

theorem sample_thumbprint : thumbprint sampleDeps.sha256 sampleDeps.isPrint sampleProof.key = .ok sampleJkt := rfl

/-- The request is handled when it is served with nothing in between. -/
theorem sample_handled_run : Alone (Exec 0) Eq (newMiddleware sampleDeps sampleGroup sampleAuthRequest) sampleState
    (.handled sampleNextNonce sampleGroup sampleAuthRequest sampleAccess) (sampleSpent.issueNonce sampleNextNonce) := by
  have htoken : parseAuthorization sampleDeps.errUnauthorized sampleAuthRequest.authorization = .ok "token" := by
    decide +kernel
  have hverify : Alone (Exec 0) Eq (verifyDPoP sampleDeps sampleAccess sampleValidator sampleAuthRequest.request)
      sampleState (sampleNextNonce, none) (sampleSpent.issueNonce sampleNextNonce) := by
    unfold verifyDPoP
    simp only [sampleAccess]
    rw [if_neg sampleJkt_ne]
    refine sampleProof_accepted.bind ?_
    simp only [sample_thumbprint]
    rw [if_neg (not_not_intro rfl)]
    exact .ret _ _
  unfold newMiddleware
  rw [htoken]
  exact hverify.bind (.ret _ _)

theorem sample_call : Alone (Exec 0) Eq
    (newMiddleware sampleDeps sampleGroup sampleAuthRequest >>= fun answer => .ret (Ending.guarded answer)) sampleState
    (.guarded (.handled sampleNextNonce sampleGroup sampleAuthRequest sampleAccess))
    (sampleSpent.issueNonce sampleNextNonce) :=
  sample_handled_run.bind (.ret _ _)

theorem sample_sender_constrained : ∃ pool' : AuthPool, Handled pool' 0 sampleGroup sampleAuthRequest sampleAccess ∧
    SenderConstrained sampleDeps sampleJkt [signedParts sampleRaw] pool' := by
  obtain ⟨trace, hrun⟩ : ∃ trace, Run (AuthStep sampleDeps) ⟨sampleState, []⟩ trace
      ⟨sampleSpent.issueNonce sampleNextNonce,
        [] ++ [.ret (.guarded (.handled sampleNextNonce sampleGroup sampleAuthRequest sampleAccess))]⟩ :=
    Alone.spawn_run [] (@Calls.guarded sampleDeps sampleGroup sampleValidator sampleAuthRequest rfl rfl) sample_call
  have hkey : ∀ raw proof, parseProof sampleLibraries raw = .ok proof → proof.key = sampleKey := by
    intro raw proof h
    obtain ⟨-, -, -, -, jwk, -, -, -, hjwk⟩ := parseProof_parts h
    exact (Except.ok.inj (parsePublicKey_ok.mp hjwk).1).symm
  refine ⟨_, ⟨sampleNextNonce, rfl⟩, sender_constrained sampleState_init rfl hrun
    (fun raw proof hparsed _ => hkey raw proof hparsed) fun raw hraw => ?_⟩
  obtain rfl : raw = sampleRaw := eq_of_beq hraw
  exact List.mem_singleton_self _

end Sample

end Chinwag.Dpop

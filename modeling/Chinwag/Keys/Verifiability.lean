import Chinwag.Keys.ActiveKeys
import Chinwag.Keys.Survival

/-!
# Live access tokens stay verifiable

A rotated key stays published, so a token outlives the rotation of its key. What takes a key out
of the published set is an expiry, or an instance that stores a set it read earlier than the one
in its memory. A run without either serves, to every call, a set for every live token.
-/
namespace Chinwag.Keys

open Program Transition
open Users (DbError)

variable {L : KeyLib} {s : KeyState L} {i n : Nat}

/-- An access token that was signed with the active key and has not expired. -/
def Live (now : Nat) (x : Issued L) : Prop :=
  x.type = .Access ∧ x.current = true ∧ ∀ exp, x.token.claims.exp = some exp → unix now < exp

/-- The expiry of call `i` hits no key that a live token was signed with. -/
def SparesLive (s : KeyState L) (i : Nat) (kt : KeyType) : Prop :=
  ∀ x ∈ s.issued, Live s.now x → ∀ k ∈ s.table.rows, x.token.kid = some k.kid → k.status = .Active →
    k.type = kt → k.kid ∉ s.scans i

/-- The set in the memory of instance `n` was read no earlier than the one call `i` made, as far as
the keys of live tokens go. -/
def UpToDate (s : KeyState L) (i n : Nat) : Prop :=
  ∀ x ∈ s.issued, Live s.now x → ∀ kid, x.token.kid = some kid → kid ∈ s.loaded i → kid ∈ s.sources n

/-- What a step must not do: expire the key of a live token, or return a set that was overtaken. -/
def Considerate (p : KeyPool L) (l : KeyLabel L) : Prop :=
  (∀ i kt r, l = .cmd i (.expire kt) r → Took r → SparesLive p.shared i kt) ∧
    ∀ i n set, l = .cmd i (.serve n) set → UpToDate p.shared i n

/-- The set verifies, until they expire, the live tokens signed before call `i` began, and all others
whose key was there when it read the table. -/
def VerifiesLive (s : KeyState L) (i : Nat) (set : JwkSet L) : Prop :=
  ∀ x ∈ s.issued, Live s.now x →
    (x ∈ s.started i ∨ ∃ kid, x.token.kid = some kid ∧ kid ∈ s.loaded i) →
    ∀ clock, (∀ exp, x.token.claims.exp = some exp → unix clock < exp) →
      parseWithClaims x.token (keyFunc set.getKey) clock = .ok x.token.claims

/-- No key of a live token has expired. -/
def NoneExpired (s : KeyState L) : Prop :=
  ∀ x ∈ s.issued, Live s.now x → ∀ k ∈ s.table.rows, x.token.kid = some k.kid → k.status ≠ .Expired

theorem Live.earlier {now now' : Nat} {x : Issued L} (h : Live now' x) (hnow : now ≤ now') : Live now x :=
  ⟨h.1, h.2.1, fun exp hexp => Nat.lt_of_le_of_lt (unix_mono hnow) (h.2.2 exp hexp)⟩

theorem row_setStatus {p : SigningKeyEntity → Bool} {status : KeyStatus} {t : KeyTable}
    {l : SigningKeyEntity} (h : l ∈ (t.setStatus p status).rows) :
    l ∈ t.rows ∨ ∃ k ∈ t.rows, p k = true ∧ l = { k with status := status } := by
  obtain ⟨k, hk, rfl⟩ := mem_setStatus.mp h
  cases hp : p k with
  | false => exact Or.inl hk
  | true => exact Or.inr ⟨k, hk, hp, rfl⟩

/-- A commit expires nothing. -/
theorem expired_applyTx {a b : KeyTable} {tx : Tx} {l : SigningKeyEntity} (h : a.applyTx tx = .ok b)
    (hins : ∀ row, tx.inserted = some row → row.status = .Active) (hl : l ∈ b.rows)
    (hexp : l.status = .Expired) : l ∈ a.rows := by
  have hold : l ∈ (a.setStatus (fun k => k.status == .Active && tx.deactivated.contains k.kid)
      .Inactive).rows → l ∈ a.rows := by
    intro hmem
    obtain hstay | ⟨k, -, -, rfl⟩ := row_setStatus hmem
    · exact hstay
    · cases hexp
  unfold KeyTable.applyTx at h
  split at h
  · obtain rfl := Except.ok.inj h
    exact hold hl
  · next row hrow =>
    obtain ⟨hb, -⟩ := rows_insert h
    rw [hb] at hl
    cases List.mem_append.mp hl with
    | inl hmem => exact hold hmem
    | inr hnew =>
      obtain rfl := List.mem_singleton.mp hnew
      rw [hins _ hrow] at hexp
      cases hexp

section Steps

/-- A token signed just now with the active key has a key that has not expired. -/
theorem NoneExpired.sign (h : NoneExpired s) (kt : KeyType) (tok : Token L) :
    NoneExpired (s.noteIssued kt tok) := by
  intro x hx hlive k hk hkid
  cases List.mem_cons.mp hx with
  | inr hold => exact h x hold hlive k hk hkid
  | inl hnew =>
    subst hnew
    have hcurrent : s.isCurrent kt tok = true := hlive.2.1
    obtain ⟨l, hl, hlkid⟩ := List.any_eq_true.mp hcurrent
    obtain ⟨hl, hact, -⟩ := mem_activeKeys.mp hl
    have hsame : some l.kid = some k.kid := (eq_of_beq hlkid).trans hkid
    obtain rfl : l = k := s.table.eq_of_kid hl hk (Option.some.inj hsame)
    rw [hact]
    decide

theorem NoneExpired.commit (hs : KeyInv s) (h : NoneExpired s) {tx : Tx} {t : KeyTable}
    (htx : s.txs i = some tx) (ht : s.table.applyTx tx = .ok t) :
    NoneExpired ((s.setTable t).setTx i none) := by
  intro x hx hlive k hk hkid hexp
  have hins : ∀ row, tx.inserted = some row → row.status = .Active :=
    fun row hrow => (hs.inserted i tx row htx hrow).2.1
  exact h x hx hlive k (expired_applyTx ht hins hk hexp) hkid hexp

theorem NoneExpired.expire (h : NoneExpired s) {kt : KeyType} (hspares : SparesLive s i kt) :
    NoneExpired (s.setTable (s.table.expireKeys kt (s.scans i))) := by
  intro x hx hlive k hk hkid hexp
  obtain hold | ⟨l, hl, hsel, rfl⟩ := row_setStatus hk
  · exact h x hx hlive k hold hkid hexp
  · have hact : l.status = .Active := active_of_and hsel
    simp only [Bool.and_eq_true, beq_iff_eq, List.contains_iff_mem] at hsel
    exact hspares x hx hlive l hl hkid hact hsel.2.1 hsel.2.2

variable {p p' : KeyPool L} {l : KeyLabel L}

theorem noneExpired_step (hg : KeyGood p) (h : NoneExpired p.shared) (hstep : KeyStep p l p')
    (hl : Considerate p l) : NoneExpired p'.shared := by
  cases hstep with
  | spawn => exact h
  | @env e s he =>
    cases e with
    | elapse d =>
      obtain rfl : s = { p.shared with now := p.shared.now + d } := he
      exact fun x hx hlive => h x hx (hlive.earlier (Nat.le_add_right _ _))
    | disconnect i =>
      obtain rfl : s = p.shared.setTx i none := he
      exact h
  | @cmd i c next r s hi hexec =>
    cases hexec with
    | sign kt tok => exact h.sign kt tok
    | commit htx ht => exact h.commit hg.good.shared htx ht
    | commitLost htx ht => exact h.commit hg.good.shared htx ht
    | expire => exact h.expire (hl.1 i _ _ rfl trivial)
    | expireLost => exact h.expire (hl.1 i _ _ rfl rfl)
    | _ => exact h

/-- The checks of a resource service, for a token whose key the set has. -/
theorem parseWithClaims_ok {set : JwkSet L} {tok : Token L} {kid : String} {e : Jwk L.PublicKey}
    {clock : Nat} (halg : tok.alg = "ES256") (hkid : tok.kid = some kid) (he : set.lookupKeyID kid = some e)
    (hverifies : L.verifies e.key tok.signer = true)
    (hclock : ∀ exp, tok.claims.exp = some exp → unix clock < exp) :
    parseWithClaims tok (keyFunc set.getKey) clock = .ok tok.claims := by
  have hkey : keyFunc set.getKey tok = .ok e.key := by
    unfold keyFunc
    rw [halg, if_neg (by decide), hkid]
    show set.getKey kid = .ok e.key
    unfold JwkSet.getKey
    rw [he]
  have hlive : ¬ tok.claims.exp.any (· ≤ unix clock) = true := by
    rw [Option.any_eq_true]
    rintro ⟨exp, hexp, hle⟩
    have hlt := hclock exp hexp
    have hle := of_decide_eq_true hle
    omega
  unfold parseWithClaims
  rw [hkey]
  show (if L.verifies e.key tok.signer = false then _ else _) = _
  rw [if_neg (by rw [hverifies]; decide), if_neg hlive]

theorem SignedBy.access_token {k : SigningKeyEntity} {now : Nat} {tok : Token L}
    (h : SignedBy k now .Access tok) :
    tok.alg = "ES256" ∧ L.decodePrivateKey k.privateKey = .ok tok.signer := by
  cases h with
  | access hkey => exact ⟨rfl, hkey⟩

/-- What is served to a call that caught up verifies all live tokens. -/
theorem verifiesLive_serve (hL : L.Lawful) (hs : KeyInv s) (hcaught : CaughtUp s i) (hnone : NoneExpired s)
    (hup : UpToDate s i n) : VerifiesLive s i (s.memory n).set := by
  intro x hx hlive hknown clock hclock
  obtain ⟨k, hk, htype, hsigned⟩ := hs.issued x hx
  have hkid : x.token.kid = some k.kid := hsigned.kid
  have hloaded : k.kid ∈ s.loaded i := by
    cases hknown with
    | inl hstarted => exact hcaught x hstarted k.kid hkid
    | inr hread =>
      obtain ⟨kid, hxkid, hkid'⟩ := hread
      obtain rfl : k.kid = kid := Option.some.inj (hkid.symm.trans hxkid)
      exact hkid'
  have hentry := hs.covers n k hk (hup x hx hlive k.kid hkid hloaded) (htype.trans hlive.1)
    (hnone x hx hlive k hk hkid)
  obtain ⟨e, he, hpub⟩ := (hs.stems n).lookup hk hentry
  rw [hlive.1] at hsigned
  obtain ⟨halg, hkey⟩ := hsigned.access_token
  exact parseWithClaims_ok halg hkid he ((hs.rows k hk).verifies hL hkey hpub) hclock

theorem serve_set {set : JwkSet L} (h : KeyStep p (.cmd i (.serve n) set) p') :
    set = (p.shared.memory n).set := by
  cases h with
  | cmd hi hexec =>
    cases hexec with
    | serve => rfl
    | failed h => exact h.elim

theorem serve_caughtUp (hg : KeyGood p) {set : JwkSet L} (h : KeyStep p (.cmd i (.serve n) set) p') :
    CaughtUp p.shared i := by
  cases h with
  | cmd hi _ => exact hg.good.guar keyContract_sound hi

end Steps

variable {pool pool' : KeyPool L} {trace : List (KeyLabel L)}

/-- In a run of considerate steps every set that `GetJwkSet` returns verifies all live tokens. -/
theorem live_tokens_verify (hL : L.Lawful) (hinit : KeysInit pool)
    (hall : ∀ before l after p p', trace = before ++ l :: after → Run KeyStep pool before p →
      KeyStep p l p' → Run KeyStep p' after pool' → Considerate p l) :
    ∀ before i n set after p p', trace = before ++ .cmd i (.serve n) set :: after →
      Run KeyStep pool before p → KeyStep p (.cmd i (.serve n) set) p' → Run KeyStep p' after pool' →
      VerifiesLive p.shared i set := by
  intro before i n set after p p' htrace hbefore hstep hafter
  have hinv : ∀ (q : KeyPool L) l q', KeyGood q → KeyStep q l q' → KeyGood q' := fun _ _ _ => good_step
  have hgood : ∀ (q : KeyPool L) l q', KeyGood q → NoneExpired q.shared → KeyStep q l q' →
      Considerate q l → NoneExpired q'.shared := fun _ _ _ => noneExpired_step
  have hnone : NoneExpired p.shared := by
    refine hbefore.good hinv hgood (good_init hinit) ?_ ?_
    · intro x hx
      rw [hinit.issued] at hx
      cases hx
    · intro b l b' q q' hsplit hb hs hb'
      refine hall b l (b' ++ .cmd i (.serve n) set :: after) q q' ?_ hb hs (hb'.append (.cons hstep hafter))
      rw [htrace, hsplit, List.append_assoc]
      rfl
  have hg := good_run hinit hbefore
  have hup := (hall before _ after p p' htrace hbefore hstep hafter).2 i n set rfl
  rw [serve_set hstep]
  exact verifiesLive_serve hL hg.good.shared (serve_caughtUp hg hstep) hnone hup

section Sample

/-- A moment after the access key should have been rotated. -/
def overdue : Nat := 24 * hour + 1

/-- The commands that decide nothing here. -/
def Unremarkable : KeyCmd L → Prop
  | .expire _ => False
  | .serve _ => False
  | _ => True

/-- A token is signed with the active access key, with nothing happening in between. -/
theorem advance_newAccessToken {i : Nat} {s : KeyState textLib} {kid : String} {expiredAt : Nat}
    (hk : sampleKey kid .Access expiredAt ∈ s.table.activeKeys .Access) :
    Advance (fun c s r t => Exec i c s r t ∧ Unremarkable c) (serve (.newAccessToken "alice" "USER" "jkt")) s
      (.ret ()) ((s.arrive i).noteIssued .Access (signWithCNF "alice" "USER" kid kid "jkt" s.now s.now)) :=
  .call ⟨.arrive _, trivial⟩ <| .call ⟨.getActiveKey hk, trivial⟩ <| .call ⟨.now, trivial⟩ <|
    .call ⟨.now, trivial⟩ <| .call ⟨.sign _ _, trivial⟩ <| .stop _ _

/-- The run of that call on a database nobody has called yet. -/
theorem signing_run (now : Nat) : ∃ trace, Run KeyStep ⟨restingKeys twoKeys now, []⟩ trace
    ⟨((restingKeys twoKeys now).arrive 0).noteIssued .Access
      (signWithCNF "alice" "USER" "a" "a" "jkt" now now), [.ret ()]⟩ ∧
    ∀ l ∈ trace, ∀ i c r, l = .cmd i c r → Unremarkable c := by
  have hsign : Serves (serve (L := textLib) (.newAccessToken "alice" "USER" "jkt")) :=
    ⟨.newAccessToken "alice" "USER" "jkt", trivial, rfl⟩
  have hkey : sampleKey "a" .Access (24 * hour) ∈ twoKeys.activeKeys .Access := by decide
  obtain ⟨trace, hrun, hlabels⟩ := Advance.run_allowed (S := keySemantics textLib) (i := 0)
    (fun _ _ _ _ h => h) (advance_newAccessToken (s := restingKeys twoKeys now) hkey)
    (rfl : [serve (L := textLib) (.newAccessToken "alice" "USER" "jkt")][0]? = _)
  refine ⟨_, .cons (.spawn hsign) hrun, ?_⟩
  intro l hl i c r heq
  subst heq
  cases List.mem_cons.mp hl with
  | inl h => cases h
  | inr h =>
    obtain ⟨c', r', hcmd, hc⟩ := hlabels _ h
    cases hcmd
    exact hc

def overdueToken : Token textLib := signWithCNF "alice" "USER" "a" "a" "jkt" overdue overdue

def tokenSigned : KeyState textLib :=
  ((restingKeys twoKeys overdue).arrive 0).noteIssued .Access overdueToken

def freshPriv : textLib.PrivateKey := "fresh"

/-- The replacement of the overdue key. -/
def freshKey : SigningKeyEntity := newKey firstUuid .Access "public fresh" "fresh" overdue

def replacedKeys : KeyTable :=
  ⟨[{ sampleKey "a" .Access (24 * hour) with status := .Expired }, sampleKey "r" .Refresh (48 * hour), freshKey],
    by decide⟩

theorem replaced :
    (twoKeys.expireKeys .Access ["a"]).applyTx ⟨some .Access, [], some freshKey⟩ = .ok replacedKeys := rfl

/-- `GetJwkSet` finds the access key overdue and replaces it. -/
theorem advance_overdue : ∃ q p, Advance (Exec 1) (serve (.getJwkSet 0)) tokenSigned (.call (.serve 0) q) p ∧
    p.started 1 = tokenSigned.issued ∧ p.now = overdue ∧ p.issued = tokenSigned.issued ∧
    (p.memory 0).set = ⟨[⟨firstUuid.text, "sig", "ES256", "public fresh"⟩]⟩ := by
  refine ⟨_, _, .call (.arrive _) <| .call .getVersion <| .call (.memory 0) <|
    .call (.load (.refl _)) <| .call .now <| .call (.scan .Access) <| .call (.expire ?_) <|
    .call (.newV7 (u := firstUuid) List.not_mem_nil ?_) <| .call (.generateKey freshPriv) <| .call .now <|
    .call .begin <| .call (.scan .Access) <| .call (.deactivate rfl ?_) <| .call (.insert rfl ?_) <|
    .call (.commit rfl replaced) <| .call .now <| .call (.load (.refl _)) <|
    .call (Exec.store 0 _) (.stop _ _), rfl, rfl, rfl, rfl⟩
  · exact unlocked_of_nothing fun _ _ _ htx => nomatch htx
  · show firstUuid.text ∉ ["a", "r"]
    decide
  · refine unlocked_of_nothing ?_
    intro j tx hj htx
    have hnone : none = some tx := (Function.update_of_ne hj _ _).symm.trans htx
    cases hnone
  · show firstUuid.text ∉ ["a", "r"]
    decide

theorem overdueToken_run : ∃ trace p q, Run KeyStep ⟨restingKeys twoKeys overdue, []⟩ trace p ∧
    p.threads[1]? = some (.call (.serve 0) q) ∧ p.shared.started 1 = tokenSigned.issued ∧
    p.shared.now = overdue ∧ p.shared.issued = tokenSigned.issued ∧
    (p.shared.memory 0).set = ⟨[⟨firstUuid.text, "sig", "ES256", "public fresh"⟩]⟩ := by
  have hget : Serves (serve (L := textLib) (.getJwkSet 0)) := ⟨.getJwkSet 0, trivial, rfl⟩
  obtain ⟨signing, hsigning, -⟩ := signing_run overdue
  obtain ⟨q, p, hadvance, hfacts⟩ := advance_overdue
  obtain ⟨getting, hgetting⟩ : ∃ trace, Run KeyStep ⟨tokenSigned, [.ret (), serve (.getJwkSet 0)]⟩ trace
      ⟨p, [.ret (), .call (.serve 0) q]⟩ :=
    Advance.run (S := keySemantics textLib) (i := 1) hadvance rfl
  exact ⟨_, _, q, hsigning.append (.cons (.spawn hget) hgetting), rfl, hfacts⟩

/-- The set a call returns lacks the key of a token signed right before the call. -/
theorem live_token_unpublished : ∃ (pool : KeyPool textLib) (trace : List (KeyLabel textLib))
    (p p' : KeyPool textLib) (i n : Nat) (set : JwkSet textLib), KeysInit pool ∧
    Run KeyStep pool trace p ∧ KeyStep p (.cmd i (.serve n) set) p' ∧
    ∃ x ∈ p.shared.started i, Live p.shared.now x ∧
      parseWithClaims x.token (keyFunc set.getKey) p.shared.now ≠ .ok x.token.claims := by
  obtain ⟨trace, p, q, hrun, hnext, hstarted, hnow, -, hset⟩ := overdueToken_run
  refine ⟨_, trace, p, _, 1, 0, _, restingKeys_init overdue twoKeys_wellFormed, hrun,
    .cmd hnext (.serve 0), ⟨.Access, overdueToken, true⟩, ?_, ?_, ?_⟩
  · rw [hstarted]
    exact List.mem_cons_self
  · refine ⟨rfl, rfl, ?_⟩
    intro exp hexp
    obtain rfl := Option.some.inj hexp
    rw [hnow]
    decide
  · rw [hset]
    have herror : parseWithClaims overdueToken
        (keyFunc (L := textLib) (JwkSet.getKey ⟨[⟨firstUuid.text, "sig", "ES256", "public fresh"⟩]⟩))
        p.shared.now = .error "key a not found in JWKS" := rfl
    rw [herror]
    exact fun h => nomatch h

/-- The same call while no key is overdue, up to the set it stores. -/
def freshSigned : KeyState textLib :=
  ((restingKeys twoKeys 0).arrive 0).noteIssued .Access (signWithCNF "alice" "USER" "a" "a" "jkt" 0 0)

theorem advance_fresh : ∃ m p, Advance (fun c s r t => Exec 1 c s r t ∧ Unremarkable c)
    (serve (L := textLib) (.getJwkSet 0)) freshSigned
      (.call (.store 0 m) fun _ => .call (.serve 0) fun _ => .ret ()) p ∧ p.issued = freshSigned.issued :=
  ⟨_, _, .call ⟨.arrive _, trivial⟩ <| .call ⟨.getVersion, trivial⟩ <| .call ⟨.memory 0, trivial⟩ <|
    .call ⟨.load (.refl _), trivial⟩ <| .call ⟨.now, trivial⟩ <| .call ⟨.now, trivial⟩ <| .stop _ _, rfl⟩

/-- A step that stores the set of a call leaves nothing that the call has read and the set has not. -/
theorem store_upToDate {p p' : KeyPool L} {m : Memory L} (h : KeyStep p (.cmd i (.store n m) ()) p') :
    UpToDate p'.shared i n := by
  intro x _ _ kid _ hloaded
  cases h with
  | cmd hi hexec =>
    cases hexec with
    | store =>
      have hsources : (p.shared.store i n m).sources n = p.shared.loaded i := Function.update_self _ _ _
      show kid ∈ (p.shared.store i n m).sources n
      rw [hsources]
      exact hloaded
    | failed h => exact h.elim

/-- A trace in which only the last step serves a set, right after it was stored, and nothing expires. -/
theorem considerate_of_last {pool pool' : KeyPool L} {first : List (KeyLabel L)} {m : Memory L} {set : JwkSet L}
    (hfirst : ∀ l ∈ first, ∀ i c r, l = .cmd i c r → Unremarkable c) :
    ∀ before l after p p',
      (first ++ [.cmd i (.store n m) ()]) ++ [.cmd i (.serve n) set] = before ++ l :: after →
      Run KeyStep pool before p → KeyStep p l p' → Run KeyStep p' after pool' → Considerate p l := by
  intro before l after p p' htrace hbefore _ _
  have hordinary : ∀ l ∈ first ++ [.cmd i (.store n m) ()], ∀ i c r, l = .cmd i c r → Unremarkable c := by
    intro l hl j c r heq
    cases List.mem_append.mp hl with
    | inl h => exact hfirst l h j c r heq
    | inr h =>
      obtain rfl := List.mem_singleton.mp h
      cases heq
      trivial
  constructor
  · intro j kt r hl _
    subst hl
    exfalso
    have hmem : .cmd j (.expire kt) r ∈ (first ++ [.cmd i (.store n m) ()]) ++ [.cmd i (.serve n) set] := by
      rw [htrace]
      exact List.mem_append_right _ List.mem_cons_self
    cases List.mem_append.mp hmem with
    | inl h => exact hordinary _ h j _ r rfl
    | inr h => exact nomatch List.mem_singleton.mp h
  · intro j n' set' hl
    subst hl
    obtain ⟨rfl, hlast, -⟩ := last_of_kind (K := fun l => ∃ j n set, l = .cmd j (.serve n) set) htrace
      ⟨j, n', set', rfl⟩ fun l h ⟨j, n, set, heq⟩ => hordinary l h j (.serve n) set heq
    cases hlast
    obtain ⟨q, -, hstore⟩ := hbefore.split
    cases hstore with
    | cons hstep hnil =>
      cases hnil
      exact store_upToDate hstep

end Sample

/-- A token signed and a set fetched while no key is overdue. -/
theorem live_token_published : ∃ trace p p' set, Run KeyStep ⟨restingKeys twoKeys 0, []⟩ trace p ∧
    KeyStep p (.cmd 1 (.serve 0) set) p' ∧ p.shared.issued = freshSigned.issued ∧
    VerifiesLive p.shared 1 set := by
  have hget : Serves (serve (L := textLib) (.getJwkSet 0)) := ⟨.getJwkSet 0, trivial, rfl⟩
  obtain ⟨signing, hsigning, hquiet⟩ := signing_run 0
  obtain ⟨m, s, hadvance, hissued⟩ := advance_fresh
  obtain ⟨loading, hloading, hlabels⟩ : ∃ trace, Run KeyStep _ trace _ ∧
      ∀ l ∈ trace, ∃ c r, l = .cmd 1 c r ∧ _ := Advance.run_allowed (S := keySemantics textLib) (i := 1)
    (fun _ _ _ _ h => h) hadvance (rfl : [.ret (), serve (L := textLib) (.getJwkSet 0)][1]? = _)
  have hstored : KeyStep ⟨s, [.ret (), .call (.store 0 m) fun _ => .call (.serve 0) fun _ => .ret ()]⟩
      (.cmd 1 (.store 0 m) ()) ⟨s.store 1 0 m, [.ret (), .call (.serve 0) fun _ => .ret ()]⟩ :=
    Step.into rfl (Exec.store 0 m) rfl
  have hserved : KeyStep ⟨s.store 1 0 m, [.ret (), .call (.serve 0) fun _ => .ret ()]⟩
      (.cmd 1 (.serve 0) ((s.store 1 0 m).memory 0).set)
      ⟨(s.store 1 0 m).noteServed ((s.store 1 0 m).memory 0).set, [.ret (), .ret ()]⟩ :=
    Step.into rfl (Exec.serve 0) rfl
  have hrun := (hsigning.append (.cons (.spawn hget) hloading)).append (.single hstored)
  refine ⟨_, _, _, _, hrun, hserved, hissued, ?_⟩
  refine live_tokens_verify textLib_lawful (restingKeys_init 0 twoKeys_wellFormed)
    (considerate_of_last ?_) _ 1 0 _ [] _ _ rfl hrun hserved (.nil _)
  intro l hl i c r heq
  subst heq
  cases List.mem_append.mp hl with
  | inl h => exact hquiet _ h i c r rfl
  | inr h =>
    cases List.mem_cons.mp h with
    | inl h => cases h
    | inr h =>
      obtain ⟨c', r', hcmd, hc⟩ := hlabels _ h
      cases hcmd
      exact hc

end Chinwag.Keys

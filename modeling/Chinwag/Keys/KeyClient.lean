import Chinwag.Keys.Separation

/-!
# The key cache of a service

A service checks access tokens with keys it fetches from the auth service and keeps for a while. Its
requests share one `JWKSClient`. Readers look at the set under the lock; a refresh holds the lock from
before it asks the endpoint until it has stored the answer or given up.
-/
namespace Chinwag.Jwks

open Program Transition Keys
open Prog (perform)

/-- The sections of `GetKey`, `refresh` and `Invalidate` under the lock, and the call of the endpoint.
`began` reads the clock when a request begins. -/
inductive JwksCmd (L : KeyLib) where
  | began
  | cached (kid : String)
  | lock
  | fetch
  | store (set : JwkSet L)
  | unlock
  | lookup (kid : String)
  | invalidate

abbrev JwksReply (L : KeyLib) : JwksCmd L → Type
  | .began => Nat
  | .cached _ => Option (Jwk L.PublicKey)
  | .lock => Unit
  | .fetch => Except String (JwkSet L)
  | .store _ => Unit
  | .unlock => Unit
  | .lookup _ => Option (Jwk L.PublicKey)
  | .invalidate => Unit

abbrev JwksProg (L : KeyLib) (α : Type) := Prog (JwksCmd L) (JwksReply L) α

variable {L : KeyLib}

def refreshFailed (kid e : String) : String := "failed to refresh JWKS and key " ++ kid ++ " not found in cache: " ++ e

def keyNotFound (kid : String) : String := "key " ++ kid ++ " not found in JWKS"

/-- `refresh`: its `defer` unlocks on every way out. -/
def refresh : JwksProg L (Except String Unit) := do
  perform JwksCmd.lock
  match ← perform JwksCmd.fetch with
  | .error e =>
    perform JwksCmd.unlock
    return .error e
  | .ok set =>
    perform (JwksCmd.store set)
    return .ok ()

/-- The rest of `GetKey`, where the cache has no fresh key. -/
def getKeyAnew (kid : String) : JwksProg L (Except String L.PublicKey) := do
  match ← refresh with
  | .error e =>
    match ← perform (JwksCmd.lookup kid) with
    | some key => return .ok key.key
    | none => return .error (refreshFailed kid e)
  | .ok _ =>
    match ← perform (JwksCmd.lookup kid) with
    | some key => return .ok key.key
    | none => return .error (keyNotFound kid)

def getKey (kid : String) : JwksProg L (Except String L.PublicKey) := do
  match ← perform (JwksCmd.cached kid) with
  | some key => return .ok key.key
  | none => getKeyAnew kid

/-- How a thread ends: a request for the key of a kid, or an invalidation. -/
inductive Ending (L : KeyLib) where
  | got (kid : String) (began : Nat) (result : Except String L.PublicKey)
  | invalidated

def request (kid : String) : JwksProg L (Ending L) := do
  let began ← perform JwksCmd.began
  let result ← getKey kid
  return .got kid began result

def invalidate : JwksProg L (Ending L) := do
  perform JwksCmd.invalidate
  return .invalidated

inductive Starts : JwksProg L (Ending L) → Prop where
  | request (kid : String) : Starts (request kid)
  | invalidate : Starts invalidate

/-- What the endpoint answered, and when. -/
structure Answer (L : KeyLib) where
  time : Nat
  result : Except String (JwkSet L)

/-- The client with its lock, what the endpoint would serve now, and the clock. On record are the answer
each thread was given, when it stored it, the time of the answer stored last, and when the client was
invalidated; no command reads the record. -/
structure JwksState (L : KeyLib) where
  client : JWKSClient L
  writer : Option Nat
  endpoint : JwkSet L
  now : Nat
  answered : Nat → Option (Answer L)
  stored : Nat → Option Nat
  newest : Nat
  invalidated : List Nat

/-- `if key, ok := c.set.LookupKeyID(kid); ok && !c.expired()`. -/
def cachedKey (c : JWKSClient L) (now : Nat) (kid : String) : Option (Jwk L.PublicKey) :=
  if c.expired now then none else c.set.lookupKeyID kid

namespace JwksState

def answer (s : JwksState L) (i : Nat) (result : Except String (JwkSet L)) : JwksState L :=
  { s with answered := Function.update s.answered i (some ⟨s.now, result⟩) }

def store (s : JwksState L) (i : Nat) (set : JwkSet L) : JwksState L :=
  { s with
    client := { s.client with set := set, loadedAt := some s.now }
    writer := none
    stored := Function.update s.stored i (some s.now)
    newest := (s.answered i).elim s.newest Answer.time }

def invalidate (s : JwksState L) : JwksState L :=
  { s with
    client := { s.client with set := .empty, loadedAt := none }
    invalidated := s.now :: s.invalidated }

end JwksState

/-- A section waits while another thread holds the lock; the endpoint may fail in any way. -/
inductive Exec (i : Nat) : (c : JwksCmd L) → JwksState L → JwksReply L c → JwksState L → Prop where
  | began {s : JwksState L} : Exec i .began s s.now s
  | cached {s : JwksState L} (kid : String) (h : s.writer = none) :
      Exec i (.cached kid) s (cachedKey s.client s.now kid) s
  | lock {s : JwksState L} (h : s.writer = none) : Exec i .lock s () { s with writer := some i }
  | fetched {s : JwksState L} : Exec i .fetch s (.ok s.endpoint) (s.answer i (.ok s.endpoint))
  | fetchFailed {s : JwksState L} (e : String) : Exec i .fetch s (.error e) (s.answer i (.error e))
  | store {s : JwksState L} (set : JwkSet L) : Exec i (.store set) s () (s.store i set)
  | unlock {s : JwksState L} : Exec i .unlock s () { s with writer := none }
  | lookup {s : JwksState L} (kid : String) (h : s.writer = none) :
      Exec i (.lookup kid) s (s.client.set.lookupKeyID kid) s
  | invalidate {s : JwksState L} (h : s.writer = none) : Exec i .invalidate s () s.invalidate

/-- Time passes, and the endpoint comes to serve other keys. -/
inductive Ambient : JwksState L → JwksState L → Prop where
  | wait {s : JwksState L} (elapsed : Nat) : Ambient s { s with now := s.now + elapsed }
  | serve {s : JwksState L} (set : JwkSet L) : Ambient s { s with endpoint := set }

def jwksSemantics (L : KeyLib) : Semantics (JwksState L) Unit (JwksCmd L) (JwksReply L) where
  exec := Exec
  env s _ t := Ambient s t

abbrev JwksPool (L : KeyLib) := Pool (JwksState L) (JwksCmd L) (JwksReply L) (Ending L)

abbrev JwksLabel (L : KeyLib) := Label Unit (JwksCmd L) (JwksReply L) (Ending L)

abbrev JwksStep (L : KeyLib) : JwksPool L → JwksLabel L → JwksPool L → Prop := Step (jwksSemantics L) Starts

/-- `NewJWKSClient`: nothing has been loaded. -/
structure JwksInit (pool : JwksPool L) : Prop where
  set : pool.shared.client.set = .empty
  loadedAt : pool.shared.client.loadedAt = none
  writer : pool.shared.writer = none
  answered : ∀ i, pool.shared.answered i = none
  stored : ∀ i, pool.shared.stored i = none
  newest : pool.shared.newest ≤ pool.shared.now
  invalidated : pool.shared.invalidated = []
  threads : pool.threads = []

theorem cachedKey_some {c : JWKSClient L} {now : Nat} {kid : String} {key : Jwk L.PublicKey}
    (h : cachedKey c now kid = some key) : c.set.lookupKeyID kid = some key ∧ c.expired now = false := by
  unfold cachedKey at h
  split at h
  · cases h
  · exact ⟨h, Bool.eq_false_iff.mpr ‹_›⟩

section Alone

variable {i : Nat} {kid : String} {s t : JwksState L} {α : Type} {a : α}

theorem alone_section {c : JwksCmd L} {f : JwksReply L c → JwksProg L α}
    (h : Alone (Exec i) Eq (perform c >>= f) s a t) : ∃ r u, Exec i c s r u ∧ Alone (Exec i) Eq (f r) u a t := by
  obtain ⟨r, u, hperform, hrest⟩ := Alone.of_bind h
  obtain ⟨_, rfl, hexec⟩ := hperform.of_perform
  exact ⟨r, u, hexec, hrest⟩

theorem alone_lookup {f : Option (Jwk L.PublicKey) → JwksProg L α}
    (h : Alone (Exec i) Eq (perform (JwksCmd.lookup kid) >>= f) s a t) :
    Alone (Exec i) Eq (f (s.client.set.lookupKeyID kid)) s a t := by
  obtain ⟨r, u, hexec, hrest⟩ := alone_section h
  cases hexec
  exact hrest

theorem alone_refresh {r : Except String Unit} (h : Alone (Exec i) Eq refresh s r t) :
    (∃ e, r = .error e ∧ t.client = s.client) ∨
      r = .ok () ∧ t.client = { s.client with set := s.endpoint, loadedAt := some s.now } := by
  obtain ⟨_, s₁, hlock, h⟩ := alone_section h
  obtain ⟨answer, s₂, hfetch, h⟩ := alone_section h
  cases hlock
  cases hfetch with
  | fetchFailed e =>
    obtain ⟨_, s₃, hunlock, h⟩ := alone_section h
    obtain ⟨rfl, rfl⟩ := h.of_ret
    cases hunlock
    exact .inl ⟨e, rfl, rfl⟩
  | fetched =>
    obtain ⟨_, s₃, hstore, h⟩ := alone_section h
    obtain ⟨rfl, rfl⟩ := h.of_ret
    cases hstore
    exact .inr ⟨rfl, rfl⟩

theorem missed {c : JWKSClient L} {now : Nat} (h : cachedKey c now kid = none) :
    c.expired now = true ∨ c.set.lookupKeyID kid = none := by
  unfold cachedKey at h
  split at h
  · exact .inl ‹_›
  · exact .inr h

theorem getKey_failed {c : JWKSClient L} {now : Nat} (h : cachedKey c now kid = none) (e : String) :
    c.getKey now (.error e) kid =
      ((c.set.lookupKeyID kid).elim (.error (refreshFailed kid e)) fun key => .ok key.key, c) := by
  unfold JWKSClient.getKey
  rcases missed h with hexpired | hnone
  · rw [hexpired]
    cases c.set.lookupKeyID kid <;> rfl
  · rw [hnone]
    rfl

theorem getKey_loaded {c : JWKSClient L} {now : Nat} (h : cachedKey c now kid = none) (set : JwkSet L) :
    c.getKey now (.ok set) kid = ((set.lookupKeyID kid).elim (.error (keyNotFound kid)) fun key => .ok key.key,
      { c with set := set, loadedAt := some now }) := by
  unfold JWKSClient.getKey
  rcases missed h with hexpired | hnone
  · rw [hexpired]
    cases c.set.lookupKeyID kid <;> dsimp only <;> cases set.lookupKeyID kid <;> rfl
  · rw [hnone]
    dsimp only
    cases set.lookupKeyID kid <;> rfl

/-- With no other request under way, `GetKey` is the function of the client and the endpoint's answer. -/
theorem alone_getKey {r : Except String L.PublicKey} (h : Alone (Exec i) Eq (getKey kid) s r t) :
    ∃ endpoint : Except String (JwkSet L), (∀ set, endpoint = .ok set → set = s.endpoint) ∧
      s.client.getKey s.now endpoint kid = (r, t.client) := by
  obtain ⟨cached, u, hexec, h⟩ := alone_section h
  have hcached : cached = cachedKey s.client s.now kid ∧ u = s := by
    cases hexec
    exact ⟨rfl, rfl⟩
  obtain ⟨rfl, rfl⟩ := hcached
  cases hkey : cachedKey u.client u.now kid with
  | some key =>
    obtain ⟨hfound, hlive⟩ := cachedKey_some hkey
    rw [hkey] at h
    refine ⟨.ok u.endpoint, fun set hset => (Except.ok.inj hset).symm, ?_⟩
    obtain ⟨rfl, rfl⟩ := h.of_ret
    simp [JWKSClient.getKey, hfound, hlive]
  | none =>
    rw [hkey] at h
    dsimp only at h
    unfold getKeyAnew at h
    obtain ⟨tried, v, hrefresh, h⟩ := Alone.of_bind h
    rcases alone_refresh hrefresh with ⟨e, rfl, hclient⟩ | ⟨rfl, hclient⟩
    · refine ⟨.error e, nofun, ?_⟩
      have hrest := alone_lookup h
      rw [getKey_failed hkey, ← hclient]
      cases hfound : v.client.set.lookupKeyID kid with
      | none | some =>
        rw [hfound] at hrest
        obtain ⟨rfl, rfl⟩ := hrest.of_ret
        rfl
    · refine ⟨.ok u.endpoint, fun set hset => (Except.ok.inj hset).symm, ?_⟩
      have hrest := alone_lookup h
      have hset : v.client.set = u.endpoint := by rw [hclient]
      rw [getKey_loaded hkey, ← hset]
      cases hfound : v.client.set.lookupKeyID kid with
      | none | some =>
        rw [hfound] at hrest
        obtain ⟨rfl, rfl⟩ := hrest.of_ret
        rw [hclient]
        rfl

end Alone

/-! ### What the requests of one client may rely on -/

/-- The set in the client is one the endpoint answered with, and was stored when `loadedAt` says. -/
structure JwksInv (s : JwksState L) : Prop where
  loaded : ∀ T, s.client.loadedAt = some T → s.newest ≤ T ∧ T ≤ s.now ∧
    ∃ j, s.answered j = some ⟨s.newest, .ok s.client.set⟩ ∧ s.stored j = some T
  unloaded : s.client.loadedAt = none → s.client.set = .empty
  newest : s.newest ≤ s.now

/-- What the others leave of what thread `i` has seen. While it holds the lock no answer is stored. -/
structure Rely (i : Nat) (s t : JwksState L) : Prop where
  now : s.now ≤ t.now
  ttl : t.client.cacheTTL = s.client.cacheTTL
  answered : ∀ j a, s.answered j = some a → t.answered j = some a
  stored : ∀ j T, s.stored j = some T → t.stored j = some T
  mine : t.answered i = s.answered i ∧ t.stored i = s.stored i
  newest : s.newest ≤ t.newest
  held : s.writer = some i → t.writer = some i ∧ t.newest = s.newest
  free : s.writer ≠ some i → t.writer ≠ some i
  emptied : t.client.loadedAt = none → s.client.loadedAt = none ∨ ∃ time ∈ t.invalidated, s.now ≤ time
  invalidated : ∀ time ∈ s.invalidated, time ∈ t.invalidated

/-- A thread asks once, holds the lock from before it asks, and stores what it was answered. -/
def guarantee (i : Nat) (c : JwksCmd L) (s : JwksState L) : Prop :=
  match c with
  | .fetch => s.writer = some i ∧ s.answered i = none
  | .store set => s.writer = some i ∧ s.stored i = none ∧
      ∃ time, s.answered i = some ⟨time, .ok set⟩ ∧ s.newest ≤ time ∧ time ≤ s.now
  | .unlock => s.writer = some i
  | _ => True

def jwksContract (L : KeyLib) : Contract (JwksState L) (JwksCmd L) where
  inv := JwksInv
  rely := Rely
  guar := guarantee

section Steps

variable {i j : Nat} {s t u : JwksState L} {set : JwkSet L} {time : Nat}

theorem Rely.refl (i : Nat) (s : JwksState L) : Rely i s s where
  now := Nat.le_refl _
  ttl := rfl
  answered _ _ h := h
  stored _ _ h := h
  mine := ⟨rfl, rfl⟩
  newest := Nat.le_refl _
  held h := ⟨h, rfl⟩
  free h := h
  emptied h := .inl h
  invalidated _ h := h

theorem Rely.trans (h : Rely i s t) (h' : Rely i t u) : Rely i s u where
  now := Nat.le_trans h.now h'.now
  ttl := h'.ttl.trans h.ttl
  answered j a hj := h'.answered j a (h.answered j a hj)
  stored j T hj := h'.stored j T (h.stored j T hj)
  mine := ⟨h'.mine.1.trans h.mine.1, h'.mine.2.trans h.mine.2⟩
  newest := Nat.le_trans h.newest h'.newest
  held hs := by
    obtain ⟨ht, hsame⟩ := h.held hs
    obtain ⟨hu, hsame'⟩ := h'.held ht
    exact ⟨hu, hsame'.trans hsame⟩
  free hs := h'.free (h.free hs)
  emptied hu := by
    rcases h'.emptied hu with ht | ⟨time, hmem, hle⟩
    · rcases h.emptied ht with hs | ⟨time, hmem, hle⟩
      · exact .inl hs
      · exact .inr ⟨time, h'.invalidated time hmem, hle⟩
    · exact .inr ⟨time, hmem, Nat.le_trans h.now hle⟩
  invalidated time hs := h'.invalidated time (h.invalidated time hs)

theorem answered_self (s : JwksState L) (i : Nat) (result : Except String (JwkSet L)) :
    (s.answer i result).answered i = some ⟨s.now, result⟩ := Function.update_self _ _ _

theorem answered_kept (s : JwksState L) (result : Except String (JwkSet L)) (hi : s.answered i = none) {a : Answer L}
    (h : s.answered j = some a) : (s.answer i result).answered j = some a := by
  have hj : j ≠ i := by
    rintro rfl
    rw [hi] at h
    cases h
  exact (Function.update_of_ne hj _ _).trans h

theorem JwksInv.answer (h : JwksInv s) (hi : s.answered i = none) (result : Except String (JwkSet L)) :
    JwksInv (s.answer i result) where
  loaded T hT := by
    obtain ⟨hnewest, hpast, j, hj, hstored⟩ := h.loaded T hT
    exact ⟨hnewest, hpast, j, answered_kept s result hi hj, hstored⟩
  unloaded := h.unloaded
  newest := h.newest

theorem Rely.answer (hi : s.answered i = none) (hj : j ≠ i) (result : Except String (JwkSet L)) :
    Rely j s (s.answer i result) :=
  { Rely.refl j s with
    answered := fun _ _ h => answered_kept s result hi h
    mine := ⟨Function.update_of_ne hj _ _, rfl⟩ }

theorem newest_store (hanswer : s.answered i = some ⟨time, .ok set⟩) : (s.store i set).newest = time := by
  simp [JwksState.store, hanswer]

theorem JwksInv.store (hanswer : s.answered i = some ⟨time, .ok set⟩) (hpast : time ≤ s.now) :
    JwksInv (s.store i set) where
  loaded T hT := by
    obtain rfl : s.now = T := Option.some.inj hT
    rw [newest_store hanswer]
    exact ⟨hpast, Nat.le_refl _, i, hanswer, Function.update_self _ _ _⟩
  unloaded hT := nomatch hT
  newest := by
    rw [newest_store hanswer]
    exact hpast

theorem Rely.store (hwriter : s.writer = some i) (hstored : s.stored i = none)
    (hanswer : s.answered i = some ⟨time, .ok set⟩) (hnewest : s.newest ≤ time) (hj : j ≠ i) :
    Rely j s (s.store i set) := by
  have hother : s.writer ≠ some j := by
    rw [hwriter]
    exact fun heq => hj (Option.some.inj heq).symm
  refine { Rely.refl j s with
    stored := fun k T hk => ?_
    mine := ⟨rfl, Function.update_of_ne hj _ _⟩
    newest := by rw [newest_store hanswer]; exact hnewest
    held := fun h => absurd h hother
    free := fun _ => nofun
    emptied := nofun }
  have hk' : k ≠ i := by
    rintro rfl
    rw [hstored] at hk
    cases hk
  exact (Function.update_of_ne hk' _ _).trans hk

/-- A section that takes the lock while it is free, or gives it back. -/
theorem Rely.writer {w : Option Nat} (hheld : s.writer ≠ some j) (hw : w ≠ some j) :
    Rely j s { s with writer := w } :=
  { Rely.refl j s with held := fun h => absurd h hheld, free := fun _ => hw }

theorem Rely.invalidate (hfree : s.writer = none) (j : Nat) : Rely j s s.invalidate :=
  { Rely.refl j s with
    held := fun h => by rw [hfree] at h; cases h
    emptied := fun _ => .inr ⟨s.now, List.mem_cons_self, Nat.le_refl _⟩
    invalidated := fun _ h => List.mem_cons_of_mem _ h }

theorem jwksContract_sound : (jwksContract L).Sound (jwksSemantics L) where
  rely_refl := Rely.refl
  rely_trans _ _ _ _ h h' := h.trans h'
  env s _ t hs he := by
    cases he with
    | wait elapsed =>
      refine ⟨⟨fun T hT => ?_, hs.unloaded, Nat.le_add_right_of_le hs.newest⟩, fun i => ?_⟩
      · obtain ⟨hnewest, hpast, hj⟩ := hs.loaded T hT
        exact ⟨hnewest, Nat.le_add_right_of_le hpast, hj⟩
      · exact { Rely.refl i s with now := Nat.le_add_right _ _ }
    | serve set => exact ⟨⟨hs.loaded, hs.unloaded, hs.newest⟩, fun i => { Rely.refl i s with }⟩
  cmd i c s r t hs hguar hexec := by
    cases hexec with
    | began | cached | lookup => exact ⟨hs, fun j _ => Rely.refl j _⟩
    | lock hfree =>
      refine ⟨⟨hs.loaded, hs.unloaded, hs.newest⟩, fun j hj => Rely.writer ?_ ?_⟩
      · rw [hfree]
        nofun
      · exact fun heq => hj (Option.some.inj heq).symm
    | fetched | fetchFailed => exact ⟨hs.answer hguar.2 _, fun j hj => Rely.answer hguar.2 hj _⟩
    | store set =>
      obtain ⟨hwriter, hstored, time, hanswer, hnewest, hpast⟩ := hguar
      exact ⟨JwksInv.store hanswer hpast, fun j hj => Rely.store hwriter hstored hanswer hnewest hj⟩
    | unlock =>
      have hwriter : s.writer = some i := hguar
      refine ⟨⟨hs.loaded, hs.unloaded, hs.newest⟩, fun j hj => Rely.writer ?_ nofun⟩
      rw [hwriter]
      exact fun heq => hj (Option.some.inj heq).symm
    | invalidate hfree => exact ⟨⟨nofun, fun _ => rfl, hs.newest⟩, fun j _ => Rely.invalidate hfree j⟩

end Steps

/-! ### One request -/

/-- Where the answer to a request for a kid came from, if it began at that time. -/
inductive Answered (began i : Nat) (kid : String) (s : JwksState L) : Except String L.PublicKey → Prop where
  | cached {j time stored : Nat} {set : JwkSet L} {key : Jwk L.PublicKey} (h : s.answered j = some ⟨time, .ok set⟩)
      (hstored : s.stored j = some stored) (hkey : set.lookupKeyID kid = some key) (hpast : time ≤ stored)
      (hfresh : began ≤ stored + s.client.cacheTTL) : Answered began i kid s (.ok key.key)
  | fetched {j time : Nat} {set : JwkSet L} {key : Jwk L.PublicKey} (h : s.answered j = some ⟨time, .ok set⟩)
      (hkey : set.lookupKeyID kid = some key) (hduring : began ≤ time) : Answered began i kid s (.ok key.key)
  | degraded {j time failed : Nat} {set : JwkSet L} {key : Jwk L.PublicKey} {e : String}
      (h : s.answered j = some ⟨time, .ok set⟩) (hkey : set.lookupKeyID kid = some key)
      (hfailed : s.answered i = some ⟨failed, .error e⟩) : Answered began i kid s (.ok key.key)
  | failed {failed : Nat} {e : String} (hfailed : s.answered i = some ⟨failed, .error e⟩) :
      Answered began i kid s (.error (refreshFailed kid e))
  | unknown {j time : Nat} {set : JwkSet L} (h : s.answered j = some ⟨time, .ok set⟩)
      (hnone : set.lookupKeyID kid = none) (hduring : began ≤ time) : Answered began i kid s (.error (keyNotFound kid))
  | emptied {time : Nat} (h : time ∈ s.invalidated) (hduring : began ≤ time) :
      Answered began i kid s (.error (keyNotFound kid))

/-- A thread that has not asked. -/
structure Idle (i : Nat) (s : JwksState L) : Prop where
  answered : s.answered i = none
  stored : s.stored i = none
  free : s.writer ≠ some i

/-- What a thread has when its refresh is over. -/
structure Tried (began i : Nat) (r : Except String Unit) (s : JwksState L) : Prop where
  free : s.writer ≠ some i
  now : began ≤ s.now
  error : ∀ e, r = .error e → ∃ time, s.answered i = some ⟨time, .error e⟩
  ok : r = .ok () → began ≤ s.newest ∧ (s.client.loadedAt = none → ∃ time ∈ s.invalidated, began ≤ time)

/-- What a thread leaves. -/
def Kept (i : Nat) (ending : Ending L) (s : JwksState L) : Prop :=
  s.writer ≠ some i ∧ ∀ kid began result, ending = .got kid began result → Answered began i kid s result

section Request

variable {began i : Nat} {kid : String} {s t : JwksState L} {result : Except String L.PublicKey}

abbrev SafeKeys (i : Nat) {α : Type} (Q : α → JwksState L → Prop) (p : JwksProg L α) (s : JwksState L) : Prop :=
  Safe (jwksSemantics L) (jwksContract L) i Q p s

theorem Answered.rely (h : Answered began i kid s result) (hr : Rely i s t) : Answered began i kid t result := by
  have hmine : ∀ {a}, s.answered i = some a → t.answered i = some a := fun ha => hr.answered _ _ ha
  cases h with
  | cached h hstored hkey hpast hfresh =>
    exact .cached (hr.answered _ _ h) (hr.stored _ _ hstored) hkey hpast (by rw [hr.ttl]; exact hfresh)
  | fetched h hkey hduring => exact .fetched (hr.answered _ _ h) hkey hduring
  | degraded h hkey hfailed => exact .degraded (hr.answered _ _ h) hkey (hmine hfailed)
  | failed hfailed => exact .failed (hmine hfailed)
  | unknown h hnone hduring => exact .unknown (hr.answered _ _ h) hnone hduring
  | emptied h hduring => exact .emptied (hr.invalidated _ h) hduring

theorem Idle.rely (h : Idle i s) (hr : Rely i s t) : Idle i t :=
  ⟨hr.mine.1.trans h.answered, hr.mine.2.trans h.stored, hr.free h.free⟩

theorem Tried.rely {r : Except String Unit} (h : Tried began i r s) (hr : Rely i s t) : Tried began i r t where
  free := hr.free h.free
  now := Nat.le_trans h.now hr.now
  error e he := by
    obtain ⟨time, htime⟩ := h.error e he
    exact ⟨time, hr.answered _ _ htime⟩
  ok hok := by
    obtain ⟨hnewest, hempty⟩ := h.ok hok
    refine ⟨Nat.le_trans hnewest hr.newest, fun hnone => ?_⟩
    rcases hr.emptied hnone with hbefore | ⟨time, hmem, hle⟩
    · obtain ⟨time, hmem, hle⟩ := hempty hbefore
      exact ⟨time, hr.invalidated _ hmem, hle⟩
    · exact ⟨time, hmem, Nat.le_trans h.now hle⟩

theorem stable_kept : (jwksContract L).Stable Kept := fun _ _ _ _ h hr =>
  ⟨hr.free h.1, fun kid began result he => (h.2 kid began result he).rely hr⟩

/-- The lock is held until the answer is stored, or there is none. -/
theorem safe_refresh (h : Idle i s) (hbegan : began ≤ s.now) :
    SafeKeys i (Tried began i) (refresh : JwksProg L _) s := by
  intro s₁ _ hrely
  have h₁ := h.rely hrely
  have hbegan₁ : began ≤ s₁.now := Nat.le_trans hbegan hrely.now
  refine ⟨trivial, fun _ _ hlock _ => ?_⟩
  cases hlock
  intro s₂ hinv₂ hrely₂
  obtain ⟨hwriter, hnewest⟩ := hrely₂.held rfl
  have hanswered : s₂.answered i = none := hrely₂.mine.1.trans h₁.answered
  have hstored : s₂.stored i = none := hrely₂.mine.2.trans h₁.stored
  have hbegan₂ : began ≤ s₂.now := Nat.le_trans hbegan₁ hrely₂.now
  refine ⟨⟨hwriter, hanswered⟩, fun _ _ hfetch _ => ?_⟩
  cases hfetch with
  | fetchFailed e =>
    intro s₃ _ hrely₃
    refine ⟨(hrely₃.held hwriter).1, fun _ _ hunlock _ => ?_⟩
    cases hunlock
    refine ⟨nofun, Nat.le_trans hbegan₂ hrely₃.now, fun e' he => ?_, nofun⟩
    obtain rfl := Except.error.inj he
    exact ⟨s₂.now, hrely₃.answered i _ (answered_self s₂ i _)⟩
  | fetched =>
    intro s₃ _ hrely₃
    have hanswer := hrely₃.answered i _ (answered_self s₂ i (.ok s₂.endpoint))
    obtain ⟨hwriter₃, hnewest₃⟩ := hrely₃.held hwriter
    refine ⟨⟨hwriter₃, hrely₃.mine.2.trans hstored, s₂.now, hanswer, ?_, hrely₃.now⟩, fun _ _ hstore _ => ?_⟩
    · rw [hnewest₃]
      exact hinv₂.newest
    · cases hstore
      refine ⟨nofun, Nat.le_trans hbegan₂ hrely₃.now, nofun, fun _ => ⟨?_, nofun⟩⟩
      rw [newest_store hanswer]
      exact hbegan₂

/-- What is found in the client was answered by the endpoint. -/
theorem JwksInv.looked (h : JwksInv s) {key : Jwk L.PublicKey} (hkey : s.client.set.lookupKeyID kid = some key) :
    ∃ T j, s.client.loadedAt = some T ∧ s.newest ≤ T ∧ T ≤ s.now ∧
      s.answered j = some ⟨s.newest, .ok s.client.set⟩ ∧ s.stored j = some T := by
  cases hT : s.client.loadedAt with
  | none =>
    rw [h.unloaded hT] at hkey
    cases hkey
  | some T =>
    obtain ⟨hnewest, hpast, j, hj, hstored⟩ := h.loaded T hT
    exact ⟨T, j, rfl, hnewest, hpast, hj, hstored⟩

theorem safe_getKeyAnew (h : Idle i s) (hbegan : began ≤ s.now) :
    SafeKeys i (fun r t => t.writer ≠ some i ∧ Answered began i kid t r) (getKeyAnew kid : JwksProg L _) s := by
  refine (safe_refresh h hbegan).bind fun r t ht => ?_
  cases r with
  | error e =>
    intro s₁ hinv hrely
    have h₁ := ht.rely hrely
    obtain ⟨time, hfailed⟩ := h₁.error e rfl
    refine ⟨trivial, fun r _ hexec _ => ?_⟩
    cases hexec
    cases hkey : s₁.client.set.lookupKeyID kid with
    | none => exact ⟨h₁.free, .failed hfailed⟩
    | some key =>
      obtain ⟨T, j, -, -, -, hj, -⟩ := hinv.looked hkey
      exact ⟨h₁.free, .degraded hj hkey hfailed⟩
  | ok _ =>
    intro s₁ hinv hrely
    have h₁ := ht.rely hrely
    obtain ⟨hduring, hempty⟩ := h₁.ok rfl
    refine ⟨trivial, fun r _ hexec _ => ?_⟩
    cases hexec
    cases hkey : s₁.client.set.lookupKeyID kid with
    | some key =>
      obtain ⟨T, j, -, -, -, hj, -⟩ := hinv.looked hkey
      exact ⟨h₁.free, .fetched hj hkey hduring⟩
    | none =>
      cases hT : s₁.client.loadedAt with
      | none =>
        obtain ⟨time, hmem, hle⟩ := hempty hT
        exact ⟨h₁.free, .emptied hmem hle⟩
      | some T =>
        obtain ⟨-, -, j, hj, -⟩ := hinv.loaded T hT
        exact ⟨h₁.free, .unknown hj hkey hduring⟩

theorem not_expired {c : JWKSClient L} {now T : Nat} (h : c.expired now = false) (hT : c.loadedAt = some T) :
    now ≤ T + c.cacheTTL := by
  simp only [JWKSClient.expired, hT, decide_eq_false_iff_not] at h
  omega

theorem safe_getKey (h : Idle i s) (hbegan : began ≤ s.now) :
    SafeKeys i (fun r t => t.writer ≠ some i ∧ Answered began i kid t r) (getKey kid : JwksProg L _) s := by
  intro s₁ hinv hrely
  have h₁ := h.rely hrely
  have hbegan₁ : began ≤ s₁.now := Nat.le_trans hbegan hrely.now
  refine ⟨trivial, fun r _ hexec _ => ?_⟩
  cases hexec
  cases hkey : cachedKey s₁.client s₁.now kid with
  | none => exact safe_getKeyAnew h₁ hbegan₁
  | some key =>
    obtain ⟨hfound, hlive⟩ := cachedKey_some hkey
    obtain ⟨T, j, hT, hnewest, -, hj, hstored⟩ := hinv.looked hfound
    exact ⟨h₁.free, .cached hj hstored hfound hnewest (Nat.le_trans hbegan₁ (not_expired hlive hT))⟩

theorem safe_request (kid : String) (h : Idle i s) : SafeKeys i (Kept i) (request kid : JwksProg L _) s := by
  intro s₁ _ hrely
  refine ⟨trivial, fun r _ hexec _ => ?_⟩
  cases hexec
  refine (safe_getKey (h.rely hrely) (Nat.le_refl _)).bind fun result t ht => ⟨ht.1, ?_⟩
  rintro _ _ _ ⟨⟩
  exact ht.2

theorem safe_starts {p : JwksProg L (Ending L)} (hp : Starts p) (h : Idle i s) : SafeKeys i (Kept i) p s := by
  cases hp with
  | request kid => exact safe_request kid h
  | invalidate =>
    intro s₁ _ hrely
    refine ⟨trivial, fun _ _ hexec _ => ?_⟩
    cases hexec
    exact ⟨(h.rely hrely).free, nofun⟩

end Request

/-! ### Whole runs -/

section Runs

variable {pool₀ pool pool' : JwksPool L} {trace : List (JwksLabel L)} {l : JwksLabel L} {i j time : Nat} {a : Answer L}
  {set : JwkSet L}

theorem good_init (h₀ : JwksInit pool₀) : Good (jwksSemantics L) (jwksContract L) Kept pool₀ where
  shared := by
    refine ⟨fun T hT => ?_, fun _ => h₀.set, h₀.newest⟩
    rw [h₀.loadedAt] at hT
    cases hT
  safe i p hi := by simp [h₀.threads] at hi

theorem good_run (h₀ : JwksInit pool₀) (hrun : Run (JwksStep L) pool₀ trace pool) :
    Good (jwksSemantics L) (jwksContract L) Kept pool ∧ ∀ i, pool.threads.length ≤ i → Idle i pool.shared := by
  refine Good.run_started jwksContract_sound stable_kept (fun _ _ _ h hr => h.rely hr)
    (fun _ _ _ hp h => safe_starts hp h) hrun (good_init h₀) fun i _ => ⟨h₀.answered i, h₀.stored i, ?_⟩
  rw [h₀.writer]
  nofun

/-- Within the run the endpoint answered a refresh with the set, at that time. -/
def FetchedAt (pool₀ : JwksPool L) (trace : List (JwksLabel L)) (j time : Nat) (set : JwkSet L) : Prop :=
  ∃ before after q, trace = before ++ .cmd j .fetch (.ok set) :: after ∧ Run (JwksStep L) pool₀ before q ∧
    q.shared.endpoint = set ∧ q.shared.now = time

def StoredAt (pool₀ : JwksPool L) (trace : List (JwksLabel L)) (j time : Nat) (set : JwkSet L) : Prop :=
  ∃ before after q, trace = before ++ .cmd j (.store set) () :: after ∧ Run (JwksStep L) pool₀ before q ∧
    q.shared.now = time

def InvalidatedAt (pool₀ : JwksPool L) (trace : List (JwksLabel L)) (time : Nat) : Prop :=
  ∃ before j after q, trace = before ++ .cmd j .invalidate () :: after ∧ Run (JwksStep L) pool₀ before q ∧
    q.shared.now = time

theorem answered_step (hg : Good (jwksSemantics L) (jwksContract L) Kept pool) (hstep : JwksStep L pool l pool')
    (h : pool.shared.answered j = some a) : pool'.shared.answered j = some a := by
  cases hstep with
  | spawn => exact h
  | env he => cases he <;> exact h
  | cmd hi hexec =>
    have hguar := hg.guar jwksContract_sound hi
    cases hexec with
    | fetched | fetchFailed => exact answered_kept _ _ hguar.2 h
    | _ => exact h

theorem answered_later (h₀ : JwksInit pool₀) {before after : List (JwksLabel L)}
    (hbefore : Run (JwksStep L) pool₀ before pool)
    (hafter : Run (JwksStep L) pool after pool') (h : pool.shared.answered j = some a) :
    pool'.shared.answered j = some a := by
  have hgood := good_run h₀ hbefore
  have hkeep : ∀ q l q', (Good (jwksSemantics L) (jwksContract L) Kept q ∧
      ∀ i, q.threads.length ≤ i → Idle i q.shared) ∧ q.shared.answered j = some a → JwksStep L q l q' →
      (Good (jwksSemantics L) (jwksContract L) Kept q' ∧ ∀ i, q'.threads.length ≤ i → Idle i q'.shared) ∧
        q'.shared.answered j = some a := by
    rintro q l q' ⟨⟨hg, hidle⟩, hanswered⟩ hstep
    have hrun := Good.run_started jwksContract_sound stable_kept (fun _ _ _ h hr => h.rely hr)
      (fun _ _ _ hp h => safe_starts hp h) (.single hstep) hg hidle
    exact ⟨hrun, answered_step hg hstep hanswered⟩
  exact (hafter.invariant hkeep ⟨hgood, h⟩).2

/-- An answer that is on record was given. -/
theorem answer_given (h₀ : JwksInit pool₀) (hrun : Run (JwksStep L) pool₀ trace pool)
    (h : pool.shared.answered j = some a) :
    ∃ before after q, trace = before ++ .cmd j .fetch a.result :: after ∧ Run (JwksStep L) pool₀ before q ∧
      (∀ set, a.result = .ok set → q.shared.endpoint = set) ∧ q.shared.now = a.time := by
  have hstart : pool₀.shared.answered j ≠ some a := by simp [h₀.answered]
  obtain ⟨before, l, after, q, q', rfl, hbefore, hl, -, hno, hyes⟩ :=
    hrun.crossing (P := fun q => q.shared.answered j = some a) hstart h
  refine ⟨before, after, q, ?_⟩
  cases hl with
  | spawn => exact absurd hyes hno
  | env he => cases he <;> exact absurd hyes hno
  | @cmd k c next r s hi hexec =>
    have hsame : ∀ result, (q.shared.answer k result).answered j = some a → k = j ∧ a = ⟨q.shared.now, result⟩ := by
      intro result hnow
      by_cases hk : j = k
      · subst hk
        exact ⟨rfl, (Option.some.inj ((answered_self _ _ _).symm.trans hnow)).symm⟩
      · exact absurd ((Function.update_of_ne hk _ _).symm.trans hnow) hno
    cases hexec with
    | fetched =>
      obtain ⟨rfl, rfl⟩ := hsame _ hyes
      exact ⟨rfl, hbefore, fun set hset => Except.ok.inj hset, rfl⟩
    | fetchFailed e =>
      obtain ⟨rfl, rfl⟩ := hsame _ hyes
      exact ⟨rfl, hbefore, nofun, rfl⟩
    | _ => exact absurd hyes hno

theorem fetched_of_answered (h₀ : JwksInit pool₀) (hrun : Run (JwksStep L) pool₀ trace pool)
    (h : pool.shared.answered j = some ⟨time, .ok set⟩) : FetchedAt pool₀ trace j time set := by
  obtain ⟨before, after, q, htrace, hbefore, hset, hnow⟩ := answer_given h₀ hrun h
  exact ⟨before, after, q, htrace, hbefore, hset set rfl, hnow⟩

/-- A thread stores what it was answered. -/
theorem stored_of_record (h₀ : JwksInit pool₀) (hrun : Run (JwksStep L) pool₀ trace pool) {T : Nat}
    (hanswer : pool.shared.answered j = some ⟨time, .ok set⟩) (h : pool.shared.stored j = some T) :
    StoredAt pool₀ trace j T set := by
  have hstart : pool₀.shared.stored j ≠ some T := by simp [h₀.stored]
  obtain ⟨before, l, after, q, q', rfl, hbefore, hl, hafter, hno, hyes⟩ :=
    hrun.crossing (P := fun q => q.shared.stored j = some T) hstart h
  cases hl with
  | spawn => exact absurd hyes hno
  | env he => cases he <;> exact absurd hyes hno
  | @cmd k c next r s hi hexec =>
    have hguar := (good_run h₀ hbefore).1.guar jwksContract_sound hi
    cases hexec with
    | store set' =>
      by_cases hk : j = k
      · subst hk
        obtain ⟨-, -, time', hanswer', -, -⟩ := hguar
        have hlater := answered_later h₀ (hbefore.append (.single (Step.cmd hi (.store set')))) hafter hanswer'
        obtain rfl : set' = set := by
          have hsame := Option.some.inj (hlater.symm.trans hanswer)
          exact Except.ok.inj (Answer.mk.inj hsame).2
        have hnow : q.shared.now = T := by simpa [JwksState.store] using hyes
        exact ⟨before, after, q, rfl, hbefore, hnow⟩
      · exact absurd ((Function.update_of_ne hk _ _).symm.trans hyes) hno
    | _ => exact absurd hyes hno

theorem invalidated_of_record (h₀ : JwksInit pool₀) (hrun : Run (JwksStep L) pool₀ trace pool)
    (h : time ∈ pool.shared.invalidated) : InvalidatedAt pool₀ trace time := by
  have hstart : time ∉ pool₀.shared.invalidated := by simp [h₀.invalidated]
  obtain ⟨before, l, after, q, q', rfl, hbefore, hl, -, hno, hyes⟩ :=
    hrun.crossing (P := fun q => time ∈ q.shared.invalidated) hstart h
  cases hl with
  | spawn => exact absurd hyes hno
  | env he => cases he <;> exact absurd hyes hno
  | @cmd k c next r s hi hexec =>
    cases hexec with
    | invalidate =>
      have hnow := (List.mem_cons.mp hyes).resolve_right hno
      exact ⟨before, k, after, q, rfl, hbefore, hnow.symm⟩
    | _ => exact absurd hyes hno

/-- A key a request was given is one the endpoint served: while the request was under way, or in a set
stored no longer than the TTL before it, unless the request's own refresh failed. -/
def KeyServed (pool₀ pool : JwksPool L) (trace : List (JwksLabel L)) (i : Nat) (kid : String) (began : Nat)
    (key : L.PublicKey) : Prop :=
  ∃ j time set jwk, FetchedAt pool₀ trace j time set ∧ set.lookupKeyID kid = some jwk ∧ jwk.key = key ∧
    (began ≤ time ∨
      (∃ stored, time ≤ stored ∧ began ≤ stored + pool.shared.client.cacheTTL ∧
        StoredAt pool₀ trace j stored set) ∨
      ∃ e, .cmd i .fetch (.error e) ∈ trace)

/-- A request is refused only after its own refresh failed, or where the endpoint served no such key
while it was under way, or where the client was emptied then. -/
def KeyRefused (pool₀ : JwksPool L) (trace : List (JwksLabel L)) (i : Nat) (kid : String) (began : Nat)
    (text : String) : Prop :=
  (∃ e, .cmd i .fetch (.error e) ∈ trace ∧ text = refreshFailed kid e) ∨
    text = keyNotFound kid ∧
      ((∃ j time set, FetchedAt pool₀ trace j time set ∧ began ≤ time ∧ set.lookupKeyID kid = none) ∨
        ∃ time, InvalidatedAt pool₀ trace time ∧ began ≤ time)

end Runs

section Sample

def servedKeys : JwkSet textLib := ⟨[⟨"a", "sig", "ES256", "public a"⟩]⟩

/-- A service that has just started, beside an endpoint that serves one key. -/
def freshClient : JwksState textLib :=
  ⟨⟨.empty, none, 10 * minute⟩, none, servedKeys, 0, fun _ => none, fun _ => none, 0, []⟩

theorem freshClient_init : JwksInit ⟨freshClient, []⟩ :=
  ⟨rfl, rfl, rfl, fun _ => rfl, fun _ => rfl, Nat.le_refl _, rfl, rfl⟩

/-- The first request fetches the set and finds its key. -/
theorem first_request : ∃ trace pool, Run (JwksStep textLib) ⟨freshClient, []⟩ trace pool ∧
    pool.threads = [.ret (.got "a" 0 (.ok "public a"))] := by
  have halone : Alone (Exec 0) Eq (request "a") freshClient (.got "a" 0 (.ok "public a"))
      (((freshClient.answer 0 (.ok servedKeys)).store 0 servedKeys)) := by
    refine .call rfl .began <| .call rfl (.cached "a" rfl) ?_
    refine .call rfl (.lock rfl) <| .call rfl .fetched <| .call rfl (.store servedKeys) ?_
    exact .call rfl (.lookup "a" rfl) (.ret _ _)
  obtain ⟨trace, hrun⟩ := Alone.spawn_run (S := jwksSemantics textLib) [] (Starts.request "a") halone
  exact ⟨trace, _, hrun, rfl⟩

end Sample

end Chinwag.Jwks

import Chinwag.Lib.OneShot
import Chinwag.Users.GoogleIdentity

/-!
# The state of a Google login

`HandleRedirect` leaves the thumbprint of the client's key under a state it has just drawn, and
`HandleCallback` takes it from there. The two handlers share Redis with all their other runs, and the
users table with every other request.
-/
namespace Chinwag.OAuth

open Program Auth Redis Users OneShot Transition
open Prog (perform)

/-- Ten minutes, in milliseconds. -/
def oauthStateTTL : Nat := 10 * 60 * 1000

def stateKey (state : String) : String := "oauth:state:" ++ state

theorem stateKey_injective : Function.Injective stateKey := by
  intro a b h
  have hlist := congrArg String.toList h
  simp only [stateKey, String.toList_append, List.append_cancel_left_eq] at hlist
  exact String.toList_injective hlist

structure GoogleConfig where
  clientID : String
  redirectURL : String

/-- The calls of the two handlers: those of the user service, and `Cache.Set`. -/
inductive OAuthCmd where
  | user (c : UserCmd)
  | cacheSet (key value : String) (ttl : Nat)

abbrev OAuthReply : OAuthCmd → Type
  | .user c => UserReply c
  | .cacheSet _ _ _ => Except RedisError Unit

abbrev OAuthProg (α : Type) := Prog OAuthCmd OAuthReply α

/-- A program of the user service among the other commands. -/
def embed {α : Type} : UserProg α → OAuthProg α
  | .ret a => .ret a
  | .call c next => .call (.user c) fun r => embed (next r)

/-- A redirect to a page of the client, to Google with these parameters, or an error. -/
inductive Redirect where
  | toFrontend (path : String)
  | toGoogle (params : List (String × String))
  | error (status : Nat) (message : String)

def authorizeParams (cfg : GoogleConfig) (state : String) : List (String × String) :=
  [("client_id", cfg.clientID), ("redirect_uri", cfg.redirectURL), ("response_type", "code"),
    ("scope", "openid email profile"), ("state", state), ("access_type", "offline"), ("prompt", "consent")]

/-- `HandleRedirect`, given the query parameter `jkt`. -/
def handleRedirect (cfg : GoogleConfig) (jkt : String) : OAuthProg Redirect := do
  if isValidJkt jkt then
    let state ← perform (OAuthCmd.user .newV7)
    match ← perform (OAuthCmd.cacheSet (stateKey state) jkt oauthStateTTL) with
    | .error _ => return .error 500 "failed to start oauth"
    | .ok () => return .toGoogle (authorizeParams cfg state)
  else return .toFrontend "/login?error=oauth_binding_required"

/-- What a request came to: a redirect asked for with this `jkt`, or a callback with this state. -/
inductive Ending where
  | redirected (jkt : String) (answer : Redirect)
  | called (state : String) (answer : Response)

/-- The users table and its records; the keys of Redis that hold states; who drew which UUID. -/
structure OAuthState where
  users : UserState
  shelf : Shelf String String Nat
  drawn : List (Nat × String)

def noteDrawn (i : Nat) : (c : UserCmd) → UserReply c → List (Nat × String) → List (Nat × String)
  | .newV7, id, drawn => (i, id) :: drawn
  | _, _, drawn => drawn

/-- `consumeState` reads a failed call as an empty value, whether or not the script has run. -/
inductive Exec (i : Nat) : (c : OAuthCmd) → OAuthState → OAuthReply c → OAuthState → Prop where
  | user {c : UserCmd} {s : OAuthState} {reply : UserReply c} {users : UserState}
      (hc : ∀ state, c ≠ .consumeState state) (h : Users.Exec i c s.users reply users) :
      Exec i (.user c) s reply { s with users := users, drawn := noteDrawn i c reply s.drawn }
  | consume {s : OAuthState} (state : String) :
      Exec i (.user (.consumeState state)) s ((s.shelf.look (stateKey state)).getD "")
        { s with shelf := s.shelf.take i (stateKey state) }
  | consumeFailed {s : OAuthState} (state : String) : Exec i (.user (.consumeState state)) s "" s
  | consumeLost {s : OAuthState} (state : String) :
      Exec i (.user (.consumeState state)) s "" { s with shelf := s.shelf.drop (stateKey state) }
  | set {s : OAuthState} (key value : String) (ttl : Nat) :
      Exec i (.cacheSet key value ttl) s (.ok ()) { s with shelf := s.shelf.place i key value ttl }
  | setFailed {s : OAuthState} (key value : String) (ttl : Nat) (e : RedisError) :
      Exec i (.cacheSet key value ttl) s (.error e) s
  | setLost {s : OAuthState} (key value : String) (ttl : Nat) (e : RedisError) :
      Exec i (.cacheSet key value ttl) s (.error e) { s with shelf := s.shelf.place i key value ttl }

/-- Time passes, Redis loses a key, and other requests work on the users table. -/
inductive Ambient : OAuthState → OAuthState → Prop where
  | wait {s : OAuthState} (elapsed : Nat) : Ambient s { s with shelf := s.shelf.wait elapsed }
  | drop {s : OAuthState} (key : String) : Ambient s { s with shelf := s.shelf.drop key }
  | users {s : OAuthState} (users : UserState) (hdrawn : ∀ id ∈ s.users.drawn, id ∈ users.drawn) :
      Ambient s { s with users := users }

def oauthSemantics : Semantics OAuthState Unit OAuthCmd OAuthReply where
  exec := Exec
  env s _ t := Ambient s t

abbrev OAuthPool := Pool OAuthState OAuthCmd OAuthReply Ending

abbrev OAuthLabel := Label Unit OAuthCmd OAuthReply Ending

inductive Starts : OAuthProg Ending → Prop where
  | redirect (cfg : GoogleConfig) (jkt : String) :
      Starts (handleRedirect cfg jkt >>= fun answer => .ret (.redirected jkt answer))
  | callback (code state errParam : String) :
      Starts (embed (handleCallback code state errParam) >>= fun answer => .ret (.called state answer))

abbrev OAuthStep : OAuthPool → OAuthLabel → OAuthPool → Prop := Step oauthSemantics Starts

/-- Nobody has begun to log in; any users table. -/
structure OAuthInit (pool : OAuthPool) : Prop where
  held : ∀ key, pool.shared.shelf.held key = none
  placed : pool.shared.shelf.placed = []
  taken : pool.shared.shelf.taken = []
  drawn : pool.shared.drawn = []
  threads : pool.threads = []

/-! ### One use of a state -/

/-- The states are UUIDs, each drawn once; what is held under one was placed by whoever drew it, and
is a thumbprint. -/
structure StateInv (s : OAuthState) : Prop where
  shelf : Inv oauthStateTTL s.shelf
  once : (s.drawn.map Prod.snd).Nodup
  known : ∀ d ∈ s.drawn, d.2 ∈ s.users.drawn
  placed : ∀ p ∈ s.shelf.placed, ∃ state, (p.who, state) ∈ s.drawn ∧ p.key = stateKey state ∧ isValidJkt p.value = true

/-- Others add to what is on record, and place nothing in the name of thread `i`. -/
structure Adds (i : Nat) (s t : OAuthState) : Prop where
  drawn : ∀ d ∈ s.drawn, d ∈ t.drawn
  taken : ∀ r ∈ s.shelf.taken, r ∈ t.shelf.taken
  placed : (∀ p ∈ s.shelf.placed, p.who ≠ i) → ∀ p ∈ t.shelf.placed, p.who ≠ i

/-- A state is stored by whoever drew it, once, with a thumbprint and for ten minutes. -/
def MayPlace (s : OAuthState) (i : Nat) (key value : String) (ttl : Nat) : Prop :=
  ttl = oauthStateTTL ∧ isValidJkt value = true ∧ (∃ state, (i, state) ∈ s.drawn ∧ key = stateKey state) ∧
    ∀ p ∈ s.shelf.placed, p.who ≠ i

def oauthContract : Contract OAuthState OAuthCmd where
  inv := StateInv
  rely := Adds
  guar i c s := ∀ key value ttl, c = .cacheSet key value ttl → MayPlace s i key value ttl

section Steps

variable {s t u : OAuthState} {i j : Nat}

theorem Adds.refl (i : Nat) (s : OAuthState) : Adds i s s := ⟨fun _ h => h, fun _ h => h, id⟩

theorem Adds.trans (h₁ : Adds i s t) (h₂ : Adds i t u) : Adds i s u where
  drawn d h := h₂.drawn d (h₁.drawn d h)
  taken r h := h₂.taken r (h₁.taken r h)
  placed h := h₂.placed (h₁.placed h)

/-- The key of a state that its thread has not stored yet is new. -/
theorem StateInv.fresh (h : StateInv s) {state : String} (hdrawn : (i, state) ∈ s.drawn)
    (hnone : ∀ p ∈ s.shelf.placed, p.who ≠ i) : ∀ p ∈ s.shelf.placed, p.key ≠ stateKey state := by
  intro p hp hkey
  obtain ⟨other, hother, hsame, -⟩ := h.placed p hp
  obtain rfl : other = state := stateKey_injective (hsame.symm.trans hkey)
  have hpair := List.inj_on_of_nodup_map h.once hother hdrawn rfl
  exact hnone p hp (Prod.ext_iff.mp hpair).1

theorem StateInv.place (h : StateInv s) {key value : String} {ttl : Nat} (hmay : MayPlace s i key value ttl) :
    StateInv { s with shelf := s.shelf.place i key value ttl } := by
  obtain ⟨rfl, hvalid, ⟨state, hdrawn, rfl⟩, hnone⟩ := hmay
  refine { h with shelf := h.shelf.place (h.fresh hdrawn hnone) i value, placed := ?_ }
  intro p hp
  cases List.mem_cons.mp hp with
  | inl heq => exact heq ▸ ⟨state, hdrawn, rfl, hvalid⟩
  | inr hold => exact h.placed p hold

theorem StateInv.take (h : StateInv s) (w : Nat) (key : String) :
    StateInv { s with shelf := s.shelf.take w key } := by
  refine { h with shelf := h.shelf.take w key, placed := ?_ }
  show ∀ p ∈ (s.shelf.take w key).placed, _
  rw [placed_take]
  exact h.placed

theorem users_drawn {c : UserCmd} {reply : UserReply c} {users users' : UserState}
    (h : Users.Exec i c users reply users') : ∀ id ∈ users.drawn, id ∈ users'.drawn :=
  (exec_undisturbed (Nat.succ_ne_self i) h).drawn

/-- What a command of the user service does to the list of what was drawn. -/
theorem noteDrawn_cases {c : UserCmd} {reply : UserReply c} {users users' : UserState}
    (h : Users.Exec i c users reply users') (drawn : List (Nat × String)) :
    noteDrawn i c reply drawn = drawn ∨
      ∃ id, noteDrawn i c reply drawn = (i, id) :: drawn ∧ id ∉ users.drawn ∧ id ∈ users'.drawn := by
  cases h with
  | newV7 hfresh => exact .inr ⟨_, rfl, hfresh, List.mem_cons_self⟩
  | receive => exact .inl rfl
  | read => exact .inl rfl
  | readFailed => exact .inl rfl
  | write => exact .inl rfl
  | writeRefused => exact .inl rfl
  | writeFailed => exact .inl rfl
  | writeLost => exact .inl rfl
  | fetchUserInfo => exact .inl rfl
  | fetchFailed => exact .inl rfl
  | outside hanswers =>
    refine .inl ?_
    cases c with
    | newV7 => exact hanswers.elim
    | _ => rfl

theorem StateInv.user (h : StateInv s) {c : UserCmd} {reply : UserReply c} {users : UserState}
    (hexec : Users.Exec i c s.users reply users) :
    StateInv { s with users := users, drawn := noteDrawn i c reply s.drawn } := by
  have hgrown := users_drawn hexec
  rcases noteDrawn_cases hexec s.drawn with hsame | ⟨id, hnew, hfresh, hmem⟩
  · rw [hsame]
    exact { h with known := fun d hd => hgrown _ (h.known d hd) }
  · rw [hnew]
    refine { h with once := ?_, known := ?_, placed := ?_ }
    · refine List.nodup_cons.mpr ⟨fun hold => ?_, h.once⟩
      obtain ⟨d, hd, hid⟩ := List.mem_map.mp hold
      obtain rfl : d.2 = id := hid
      exact hfresh (h.known d hd)
    · intro d hd
      cases List.mem_cons.mp hd with
      | inl heq =>
        subst heq
        exact hmem
      | inr hold => exact hgrown _ (h.known d hold)
    · intro p hp
      obtain ⟨state, hstate, hrest⟩ := h.placed p hp
      exact ⟨state, List.mem_cons_of_mem _ hstate, hrest⟩

theorem StateInv.exec (h : StateInv s) {c : OAuthCmd} {reply : OAuthReply c}
    (hguar : oauthContract.guar i c s) (hexec : Exec i c s reply t) : StateInv t := by
  cases hexec with
  | user hc hexec => exact h.user hexec
  | consume state => exact h.take i (stateKey state)
  | consumeFailed => exact h
  | consumeLost state => exact { h with shelf := h.shelf.drop (stateKey state) }
  | set key value ttl => exact h.place (hguar key value ttl rfl)
  | setFailed => exact h
  | setLost key value ttl => exact h.place (hguar key value ttl rfl)

theorem Adds.place (hij : j ≠ i) (s : OAuthState) (key value : String) (ttl : Nat) :
    Adds j s { s with shelf := s.shelf.place i key value ttl } := by
  refine ⟨fun _ h => h, fun _ h => h, fun h p hp => ?_⟩
  cases List.mem_cons.mp hp with
  | inl heq => exact heq ▸ hij.symm
  | inr hold => exact h p hold

theorem Exec.adds {c : OAuthCmd} {reply : OAuthReply c} (hij : j ≠ i) (hexec : Exec i c s reply t) : Adds j s t := by
  cases hexec with
  | user hc hexec =>
    refine ⟨fun d hd => ?_, fun _ h => h, id⟩
    rcases noteDrawn_cases hexec s.drawn with hsame | ⟨id, hnew, -⟩
    · rwa [show _ = s.drawn from hsame]
    · rw [show _ = (i, id) :: s.drawn from hnew]
      exact List.mem_cons_of_mem _ hd
  | consume state =>
    refine ⟨fun _ h => h, (taken_take s.shelf i (stateKey state)).1, ?_⟩
    show _ → ∀ p ∈ (s.shelf.take i (stateKey state)).placed, _
    rw [placed_take]
    exact id
  | consumeFailed => exact .refl j s
  | consumeLost => exact ⟨fun _ h => h, fun _ h => h, id⟩
  | set key value ttl => exact .place hij s key value ttl
  | setFailed => exact .refl j s
  | setLost key value ttl => exact .place hij s key value ttl

theorem oauthContract_sound : oauthContract.Sound oauthSemantics where
  rely_refl := .refl
  rely_trans _ _ _ _ := .trans
  env s _ t h hamb := by
    cases hamb with
    | wait elapsed => exact ⟨{ h with shelf := h.shelf.wait elapsed }, fun i => ⟨fun _ h => h, fun _ h => h, id⟩⟩
    | drop key => exact ⟨{ h with shelf := h.shelf.drop key }, fun i => ⟨fun _ h => h, fun _ h => h, id⟩⟩
    | users users hdrawn =>
      exact ⟨{ h with known := fun d hd => hdrawn _ (h.known d hd) }, fun i => ⟨fun _ h => h, fun _ h => h, id⟩⟩
  cmd i c s reply t h hguar hexec := ⟨h.exec hguar hexec, fun _ hij => hexec.adds hij⟩

end Steps

section Programs

variable {s t : OAuthState} {i : Nat} {α β : Type}

theorem embed_bind (p : UserProg α) (f : α → UserProg β) : embed (p >>= f) = embed p >>= fun a => embed (f a) := by
  induction p with
  | ret a => rfl
  | call c next ih =>
    show Prog.call (OAuthCmd.user c) _ = Prog.call (OAuthCmd.user c) _
    congr
    funext r
    exact ih r

/-- Request `i` was given this value for the state. -/
def TakenBy (i : Nat) (state jkt : String) (s : OAuthState) : Prop :=
  ∃ x ∈ s.shelf.taken, x.who = i ∧ x.key = stateKey state ∧ x.value = jkt

theorem TakenBy.mono {state jkt : String} (h : TakenBy i state jkt s) (hadds : Adds i s t) : TakenBy i state jkt t := by
  obtain ⟨x, hx, hrest⟩ := h
  exact ⟨x, hadds.taken x hx, hrest⟩

theorem TakenBy.exec {state jkt : String} (h : TakenBy i state jkt s) {c : OAuthCmd} {reply : OAuthReply c}
    (hexec : Exec i c s reply t) : TakenBy i state jkt t := by
  obtain ⟨x, hx, hrest⟩ := h
  exact ⟨x, (hexec.adds (Nat.succ_ne_self i)).taken x hx, hrest⟩

/-- A call of the user service, by what it may be answered; what was taken stays on record. -/
theorem safe_user {Q : α → OAuthState → Prop} {c : UserCmd} {next : UserReply c → OAuthProg α} {state jkt : String}
    (h : TakenBy i state jkt s)
    (hnext : ∀ reply t u, Exec i (.user c) t reply u → TakenBy i state jkt u →
      Safe oauthSemantics oauthContract i Q (next reply) u) :
    Safe oauthSemantics oauthContract i Q (.call (.user c) next) s := by
  intro s₁ _ hrely
  refine ⟨nofun, fun reply s₂ hexec _ => ?_⟩
  exact hnext reply s₁ s₂ hexec ((h.mono hrely).exec hexec)

/-- Tokens, if there are any, are bound to this key. -/
def BoundTo (jkt : String) (result : Users.Result (AccessClaims × RefreshTokenClaims)) : Prop :=
  ∀ access refresh, result = .ok (access, refresh) → access.jkt = jkt ∧ refresh.jkt = jkt

theorem signed_jkt {userId jkt : String} {role : Role} {access : AccessClaims}
    (hexec : Exec i (.user (.signWithCNF userId role jkt)) s (.ok access) t) : access.jkt = jkt := by
  generalize hreply : (Except.ok access : OAuthReply (.user (.signWithCNF userId role jkt))) = reply at hexec
  cases hexec with
  | user hc hexec =>
    cases hexec with
    | outside hanswers =>
      rw [hanswers access hreply.symm]

theorem issued_jkt {subject jkt : String} {refresh : RefreshTokenClaims}
    (hexec : Exec i (.user (.issueRefreshToken subject jkt)) s (.ok refresh) t) : refresh.jkt = jkt := by
  generalize hreply : (Except.ok refresh : OAuthReply (.user (.issueRefreshToken subject jkt))) = reply at hexec
  cases hexec with
  | user hc hexec =>
    cases hexec with
    | outside hanswers => exact (hanswers refresh hreply.symm).2

theorem safe_issueTokens {user : User} {state jkt : String} (h : TakenBy i state jkt s) :
    Safe oauthSemantics oauthContract i (fun result t => BoundTo jkt result ∧ TakenBy i state jkt t)
      (embed (issueTokens user jkt)) s := by
  refine safe_user h fun reply t u hexec hu => ?_
  cases reply with
  | error e => exact ⟨nofun, hu⟩
  | ok access =>
    have haccess := signed_jkt hexec
    refine safe_user hu fun reply t u hexec hu => ?_
    cases reply with
    | error e => exact ⟨nofun, hu⟩
    | ok refresh =>
      refine ⟨fun access' refresh' heq => ?_, hu⟩
      cases heq
      exact ⟨haccess, issued_jkt hexec⟩

theorem safe_findOrCreateUser (info : GoogleUserInfo) {state jkt : String} (h : TakenBy i state jkt s) :
    Safe oauthSemantics oauthContract i (fun result t => BoundTo jkt result ∧ TakenBy i state jkt t)
      (embed (findOrCreateUser info jkt)) s := by
  refine safe_user h fun reply t u _ hu => ?_
  cases reply with
  | ok user => exact safe_issueTokens hu
  | error e =>
    refine safe_user hu fun id t u _ hu => ?_
    refine safe_user hu fun reply t u _ hu => ?_
    cases reply with
    | error e => exact ⟨nofun, hu⟩
    | ok n => exact safe_issueTokens hu

/-- Tokens are bound to the value the request was given for its state, a thumbprint. -/
def Bound (i : Nat) (state : String) (answer : Response) (s : OAuthState) : Prop :=
  ∀ access refresh, answer = .tokens access refresh →
    ∃ jkt, TakenBy i state jkt s ∧ isValidJkt jkt = true ∧ access.jkt = jkt ∧ refresh.jkt = jkt

theorem isValidJkt_empty : isValidJkt "" = false := by
  decide

/-- A valid answer is what stood under the state, and the request is on record for it. -/
theorem taken_of_consume {state jkt : String} (hvalid : isValidJkt jkt = true)
    (hexec : Exec i (.user (.consumeState state)) s jkt t) : TakenBy i state jkt t := by
  have hne : jkt ≠ "" := by
    rintro rfl
    rw [isValidJkt_empty] at hvalid
    cases hvalid
  generalize hreply : (jkt : OAuthReply (.user (.consumeState state))) = reply at hexec
  cases hexec with
  | user hc _ => exact absurd rfl (hc state)
  | consume =>
    cases hlook : s.shelf.look (stateKey state) with
    | none =>
      rw [hlook] at hreply
      exact absurd hreply hne
    | some value =>
      obtain ⟨r, hr, hkey, hvalue, hwho⟩ := (taken_take s.shelf i (stateKey state)).2 value hlook
      exact ⟨r, hr, hwho, hkey, hvalue⟩
  | consumeFailed => exact absurd hreply hne
  | consumeLost => exact absurd hreply hne

theorem safe_loginWithGoogle (state : String) (info : GoogleUserInfo) (s : OAuthState) :
    Safe oauthSemantics oauthContract i (Bound i state) (embed (loginWithGoogle state info)) s := by
  intro s₁ _ _
  refine ⟨nofun, fun jkt s₂ hexec _ => ?_⟩
  show Safe _ _ _ _ (embed (if isValidJkt jkt then _ else _)) s₂
  split
  · rename_i hvalid
    have htaken := taken_of_consume hvalid hexec
    rw [embed_bind]
    refine (safe_findOrCreateUser info htaken).bind fun result t h => ?_
    cases result with
    | error e => exact nofun
    | ok tokens =>
      obtain ⟨access, refresh⟩ := tokens
      intro access' refresh' heq
      cases heq
      exact ⟨jkt, h.2, hvalid, h.1 access refresh rfl⟩
  · exact nofun

theorem safe_handleCallback (code state errParam : String) (s : OAuthState) :
    Safe oauthSemantics oauthContract i (Bound i state) (embed (handleCallback code state errParam)) s := by
  unfold handleCallback
  split
  · exact nofun
  · split
    · exact nofun
    · intro s₁ _ _
      refine ⟨nofun, fun reply s₂ _ _ => ?_⟩
      cases reply with
      | error reason => exact nofun
      | ok info => exact safe_loginWithGoogle state info s₂

theorem safe_handleRedirect (cfg : GoogleConfig) (jkt : String) (hnone : ∀ p ∈ s.shelf.placed, p.who ≠ i) :
    Safe oauthSemantics oauthContract i (fun _ _ => True) (handleRedirect cfg jkt) s := by
  unfold handleRedirect
  split
  · rename_i hvalid
    intro s₁ _ hrely
    refine ⟨nofun, fun state s₂ hexec _ => ?_⟩
    have hdrawn : (i, state) ∈ s₂.drawn ∧ ∀ p ∈ s₂.shelf.placed, p.who ≠ i := by
      cases hexec with
      | user hc hexec => exact ⟨List.mem_cons_self, hrely.placed hnone⟩
    intro s₃ _ hrely'
    constructor
    · intro key value ttl heq
      cases heq
      exact ⟨rfl, hvalid, ⟨state, hrely'.drawn _ hdrawn.1, rfl⟩, hrely'.placed hdrawn.2⟩
    · intro reply s₄ _ _
      cases reply <;> trivial
  · trivial

end Programs

section Runs

variable {pool pool' : OAuthPool} {trace : List OAuthLabel}

def Kept (i : Nat) : Ending → OAuthState → Prop
  | .redirected _ _, _ => True
  | .called state answer, s => Bound i state answer s

theorem stable_kept : oauthContract.Stable Kept := by
  intro i ending s t hkept hrely
  cases ending with
  | redirected jkt answer => trivial
  | called state answer =>
    intro access refresh heq
    obtain ⟨jkt, htaken, hrest⟩ := hkept access refresh heq
    exact ⟨jkt, htaken.mono hrely, hrest⟩

theorem safe_starts {i : Nat} {p : OAuthProg Ending} {s : OAuthState} (hp : Starts p)
    (hnone : ∀ x ∈ s.shelf.placed, x.who ≠ i) : Safe oauthSemantics oauthContract i (Kept i) p s := by
  cases hp with
  | redirect cfg jkt => exact (safe_handleRedirect cfg jkt hnone).bind fun answer t _ => trivial
  | callback code state errParam => exact (safe_handleCallback code state errParam s).bind fun answer t h => h

theorem good_init (h : OAuthInit pool) : Good oauthSemantics oauthContract Kept pool where
  shared :=
    { shelf :=
        { keys := by simp [h.placed]
          held := fun key e he => by simp [h.held] at he
          past := by simp [h.placed]
          taken := by simp [h.taken]
          once := by simp [h.taken] }
      once := by simp [h.drawn]
      known := by simp [h.drawn]
      placed := by simp [h.placed] }
  safe i p hi := by
    rw [h.threads] at hi
    cases hi

theorem good_run (h : OAuthInit pool) (hrun : Run OAuthStep pool trace pool') :
    Good oauthSemantics oauthContract Kept pool' := by
  have hunmarked : ∀ i (s t : OAuthState), (∀ x ∈ s.shelf.placed, x.who ≠ i) → oauthContract.rely i s t →
      ∀ x ∈ t.shelf.placed, x.who ≠ i := fun i s t hnone hrely => hrely.placed hnone
  refine Good.run_spawned oauthContract_sound stable_kept hunmarked hrun
    (fun j p s _ hp hnone => safe_starts hp hnone) (good_init h) ?_
  intro i _
  simp [h.placed]

/-- Request `i` was a callback with this state, and ended with these tokens. -/
def LoggedIn (pool : OAuthPool) (i : Nat) (state : String) (access : AccessClaims) (refresh : RefreshTokenClaims) : Prop :=
  pool.threads[i]? = some (.ret (.called state (.tokens access refresh)))

/-- The tokens of a login are bound to the thumbprint its state was drawn for, no more than ten minutes
before; no state serves twice. -/
structure BindsOnce (pool : OAuthPool) : Prop where
  bound : ∀ i state access refresh, LoggedIn pool i state access refresh →
    ∃ p ∈ pool.shared.shelf.placed, p.key = stateKey state ∧ isValidJkt p.value = true ∧ access.jkt = p.value ∧
      refresh.jkt = p.value ∧
      ∃ r ∈ pool.shared.shelf.taken, r.who = i ∧ r.key = p.key ∧ p.time ≤ r.time ∧ r.time ≤ p.time + oauthStateTTL
  drawn : ∀ p ∈ pool.shared.shelf.placed, ∃ state, (p.who, state) ∈ pool.shared.drawn ∧ p.key = stateKey state
  placed : (pool.shared.shelf.placed.map Entry.key).Nodup
  once : ∀ i j state access refresh access' refresh', LoggedIn pool i state access refresh →
    LoggedIn pool j state access' refresh' → i = j

/-- Whatever redirects and callbacks run at once, and whatever Redis loses or answers too late. -/
theorem oauth_binds_once (h : OAuthInit pool) (hrun : Run OAuthStep pool trace pool') : BindsOnce pool' := by
  have hg := good_run h hrun
  have hbound : ∀ i state access refresh, LoggedIn pool' i state access refresh →
      ∃ jkt, TakenBy i state jkt pool'.shared ∧ isValidJkt jkt = true ∧ access.jkt = jkt ∧ refresh.jkt = jkt :=
    fun i state access refresh hi => hg.safe i _ hi access refresh rfl
  refine ⟨?_, ?_, hg.shared.shelf.keys, ?_⟩
  · intro i state access refresh hi
    obtain ⟨jkt, ⟨r, hr, hwho, hkey, rfl⟩, hvalid, haccess, hrefresh⟩ := hbound i state access refresh hi
    obtain ⟨p, hp, hsame, hvalue, hsince, huntil⟩ := hg.shared.shelf.taken r hr
    refine ⟨p, hp, hsame.trans hkey, ?_, ?_, ?_, r, hr, hwho, hsame.symm, hsince, huntil⟩
    · rw [hvalue]
      exact hvalid
    · rw [hvalue]
      exact haccess
    · rw [hvalue]
      exact hrefresh
  · intro p hp
    obtain ⟨state, hdrawn, hkey, -⟩ := hg.shared.placed p hp
    exact ⟨state, hdrawn, hkey⟩
  · intro i j state access refresh access' refresh' hi hj
    obtain ⟨jkt, ⟨r, hr, hwho, hkey, -⟩, -⟩ := hbound i state access refresh hi
    obtain ⟨jkt', ⟨r', hr', hwho', hkey', -⟩, -⟩ := hbound j state access' refresh' hj
    obtain rfl := hg.shared.shelf.unique hr hr' (hkey.trans hkey'.symm)
    exact hwho.symm.trans hwho'

end Runs

section Sample

def quietOAuth : OAuthState := ⟨restingState rootTable, ⟨fun _ => none, 0, [], []⟩, []⟩

def sampleState : String := "01890a5d-ac96-774b-bcce-b302099a8063"

/-- Redis and the records after the redirect. -/
def redirectedOAuth : OAuthState :=
  { quietOAuth with
    users := (restingState rootTable).draw sampleState
    shelf := quietOAuth.shelf.place 0 (stateKey sampleState) eveJkt oauthStateTTL
    drawn := [(0, sampleState)] }

theorem eveJkt_valid : isValidJkt eveJkt = true := by
  decide +kernel

theorem alone_redirect (cfg : GoogleConfig) :
    Alone (Exec 0) Eq (handleRedirect cfg eveJkt >>= fun answer => .ret (Ending.redirected eveJkt answer)) quietOAuth
      (Ending.redirected eveJkt (.toGoogle (authorizeParams cfg sampleState))) redirectedOAuth := by
  have hfree : ∀ u ∈ rootTable.rows, u.id ≠ sampleState := by
    intro u hu
    obtain rfl := List.mem_singleton.mp hu
    decide +kernel
  have hdraw : Users.Exec 0 .newV7 (restingState rootTable) sampleState ((restingState rootTable).draw sampleState) :=
    .newV7 List.not_mem_nil hfree
  unfold handleRedirect
  rw [if_pos eveJkt_valid]
  exact .call rfl (.user nofun hdraw) (.call rfl (.set (stateKey sampleState) eveJkt oauthStateTTL) (.ret _ _))

theorem alone_tokens (s : OAuthState) (user : User) (jkt : String) : ∃ t, Alone (Exec 1) Eq
    (embed (issueTokens user jkt)) s (.ok (⟨user.id, user.role, jkt⟩, ⟨user.id, eveUuid, eveUuid, jkt⟩)) t := by
  have hsign : Users.Exec 1 (.signWithCNF user.id user.role jkt) s.users (.ok ⟨user.id, user.role, jkt⟩) s.users := by
    refine .outside fun token h => ?_
    exact (Except.ok.inj h).symm
  have hissue : Users.Exec 1 (.issueRefreshToken user.id jkt) s.users (.ok ⟨user.id, eveUuid, eveUuid, jkt⟩)
      s.users := by
    refine .outside fun token h => ?_
    obtain rfl := Except.ok.inj h
    exact ⟨rfl, rfl⟩
  exact ⟨_, .call rfl (.user nofun hsign) (.call rfl (.user nofun hissue) (.ret _ _))⟩

theorem alone_login (s : OAuthState) (info : GoogleUserInfo) {state jkt : String} {user : User}
    (hlook : s.shelf.look (stateKey state) = some jkt) (hvalid : isValidJkt jkt = true)
    (hread : Users.Exec 1 (.read (.getUserByEmail info.email)) s.users (.ok user) s.users) : ∃ t, Alone (Exec 1) Eq
      (embed (loginWithGoogle state info)) s
      (.tokens ⟨user.id, user.role, jkt⟩ ⟨user.id, eveUuid, eveUuid, jkt⟩) t := by
  have hconsume : Exec 1 (.user (.consumeState state)) s jkt { s with shelf := s.shelf.take 1 (stateKey state) } := by
    have hexec := @Exec.consume 1 s state
    rwa [hlook] at hexec
  obtain ⟨t, htokens⟩ := alone_tokens { s with shelf := s.shelf.take 1 (stateKey state) } user jkt
  have hfound : Alone (Exec 1) Eq (embed (findOrCreateUser info jkt))
      { s with shelf := s.shelf.take 1 (stateKey state) }
      (.ok (⟨user.id, user.role, jkt⟩, ⟨user.id, eveUuid, eveUuid, jkt⟩)) t := .call rfl (.user nofun hread) htokens
  refine ⟨t, .call rfl hconsume ?_⟩
  show Alone _ _ (embed (if isValidJkt jkt then _ else _)) _ _ _
  rw [if_pos hvalid, embed_bind]
  exact hfound.bind (.ret _ _)

/-- The callback of the administrator, at once. -/
theorem alone_callback : ∃ t, Alone (Exec 1) Eq
    (embed (handleCallback "code" sampleState "") >>= fun answer => .ret (Ending.called sampleState answer))
    redirectedOAuth
    (Ending.called sampleState (.tokens ⟨"root", .ADMIN, eveJkt⟩ ⟨"root", eveUuid, eveUuid, eveJkt⟩)) t := by
  have hfetch : Users.Exec 1 (.fetchUserInfo "code") redirectedOAuth.users (.ok (googleInfo "root@example.org"))
      (redirectedOAuth.users.vouch 1 "root@example.org") := .fetchUserInfo "code" _
  have hread : Users.Exec 1 (.read (.getUserByEmail "root@example.org"))
      (redirectedOAuth.users.vouch 1 "root@example.org") (.ok rootUser)
      (redirectedOAuth.users.vouch 1 "root@example.org") := .read _
  obtain ⟨t, hlogin⟩ := alone_login
    { redirectedOAuth with users := redirectedOAuth.users.vouch 1 "root@example.org" } (googleInfo "root@example.org")
    (look_place quietOAuth.shelf 0 (stateKey sampleState) eveJkt oauthStateTTL) eveJkt_valid hread
  have hcallback : Alone (Exec 1) Eq (embed (handleCallback "code" sampleState "")) redirectedOAuth
      (.tokens ⟨"root", .ADMIN, eveJkt⟩ ⟨"root", eveUuid, eveUuid, eveJkt⟩) t := by
    have hne : sampleState ≠ "" := by decide +kernel
    unfold handleCallback
    rw [if_neg (not_not_intro rfl), if_neg (by simp [hne])]
    exact .call rfl (.user nofun hfetch) hlogin
  exact ⟨t, hcallback.bind (.ret _ _)⟩

/-- A login from redirect to callback. -/
theorem oauth_binds_once_login : ∃ pool' : OAuthPool,
    LoggedIn pool' 1 sampleState ⟨"root", .ADMIN, eveJkt⟩ ⟨"root", eveUuid, eveUuid, eveJkt⟩ ∧ BindsOnce pool' := by
  obtain ⟨t, hcallback⟩ := alone_callback
  have hredirect := Starts.redirect ⟨"client", "https://chat.local/api/auth/google/callback"⟩ eveJkt
  obtain ⟨first, hfirst⟩ := Alone.spawn_run (S := oauthSemantics) [] hredirect (alone_redirect _)
  have hstart := Starts.callback "code" sampleState ""
  obtain ⟨second, hsecond⟩ := Alone.spawn_run (S := oauthSemantics) [.ret _] hstart hcallback
  have hinit : OAuthInit ⟨quietOAuth, []⟩ := ⟨fun _ => rfl, rfl, rfl, rfl, rfl⟩
  refine ⟨_, ?_, oauth_binds_once hinit (hfirst.append hsecond)⟩
  rfl

end Sample

end Chinwag.OAuth

import Chinwag.Client.ApiClient
import Chinwag.Lib.History

/-!
# What a call may do next

Of the commands of each call: whoever starts a refresh settles it before anything else, a request is sent a
second time only with a token that was refreshed after it was refused, and each token, user and failure that
is passed on comes from an answer.
-/
namespace Chinwag.Session

open Program
open Handshake (FetchCall)

/-- The history of a call, the latest first. -/
abbrev Past := Seen PageReply

def RefreshPromise.owes (held : Option Nat) : RefreshPromise → Option Nat
  | .pending _ => held
  | .started k => some k

def owedAfter (held : Option Nat) : (c : PageCmd) → PageReply c → Option Nat
  | .getValidToken, .ready _ => held
  | .getValidToken, .refresh promise => promise.owes held
  | .refreshAccessToken, promise => promise.owes held
  | .settleRefresh _ _, _ => none
  | .awaitRefresh _, _ => held
  | .doFetch _, _ => held
  | .setAccessToken _, _ => held
  | .signIn _ _, _ => held
  | .restore _, _ => held
  | .signOut, _ => held
  | .setIsLoading, _ => held

/-- The refresh that the call has started and not settled yet. -/
def owed : Past → Option Nat
  | [] => none
  | ⟨c, r⟩ :: seen => owedAfter (owed seen) c r

/-- The refresh was under way when the call asked for a token. -/
inductive Joined (seen : Past) (k : Nat) : Prop where
  | valid (h : Saw seen .getValidToken (.refresh (.pending k)))
  | fresh (h : Saw seen .refreshAccessToken (.pending k))

/-- The call has been given this token to send. -/
inductive Holds (seen : Past) (t : String) : Prop where
  | ready (h : Saw seen .getValidToken (.ready t))
  | awaited (k : Nat) (h : Saw seen (.awaitRefresh k) (some t))
  | refreshed (k : Nat) (answer : Except String Response) (h : Saw seen (.settleRefresh k answer) (some t))

def Carries (seen : Past) (headers : List (String × String)) : Prop :=
  ∀ v, ("Authorization", v) ∈ headers → ∃ t, t ≠ "" ∧ v = "DPoP " ++ t ∧ Holds seen t

def NotFetched (seen : Past) (url : String) : Prop := ∀ c r, Saw seen (.doFetch c) r → c.url ≠ url

/-- How the promise of a refresh came to a token. -/
inductive Awaited : RefreshPromise → Past → String → Prop where
  | pending (k : Nat) (t : String) : Awaited (.pending k) [⟨.awaitRefresh k, some t⟩] t
  | started (k : Nat) (answer : Except String Response) (t : String) :
      Awaited (.started k) [⟨.settleRefresh k answer, some t⟩, ⟨.doFetch refreshCall, answer⟩] t

/-- A refresh, the first attempt at a request, or the second one. -/
inductive Sends : Past → FetchCall → Prop where
  | refresh (seen : Past) : Sends seen refreshCall
  | first {seen : Past} {c : FetchCall} (h : c.url ≠ refreshUrl → NotFetched seen c.url) : Sends seen c
  | again {mid earlier : Past} {promise : RefreshPromise} {c : FetchCall} {res : Response} {t : String}
      (hfirst : c.url ≠ refreshUrl → NotFetched earlier c.url) (hrefused : res.status = 401) (ht : t ≠ "")
      (hmid : Awaited promise mid t) :
      Sends (mid ++ ⟨.refreshAccessToken, promise⟩ :: ⟨.doFetch c, .ok res⟩ :: earlier)
        { c with headers := authorize t c.headers }

/-- A success of this url with these data. -/
def Gave (seen : Past) (url : String) (data : Data) : Prop :=
  ∃ c res body, Saw seen (.doFetch c) (.ok res) ∧ c.url = url ∧ res.ok = true ∧ res.body = some body ∧
    body.success = true ∧ body.data = some data

/-- What a request to this url was made of. -/
structure Answered (seen : Past) (url : String) (r : Except Failure ApiResponse) : Prop where
  ok : ∀ body, r = .ok body →
    ∃ c res, Saw seen (.doFetch c) (.ok res) ∧ c.url = url ∧ res.ok = true ∧ res.body = some body
  failed : ∀ status code message data, r = .error (.api status code message data) →
    ∃ c res, Saw seen (.doFetch c) (.ok res) ∧ c.url = url ∧ res.status = status

def whoamiUrl : String := API_BASE ++ API_PATHS.whoami

def loginUrl : String := API_BASE ++ API_PATHS.login

def Lawful (call : PageCall) (seen : Past) : PageCmd → Prop
  | .getValidToken => owed seen = none
  | .refreshAccessToken => owed seen = none
  | .settleRefresh k answer => owed seen = some k ∧ Saw seen (.doFetch refreshCall) answer
  | .awaitRefresh k => owed seen = none ∧ Joined seen k
  | .doFetch c => Sends seen c ∧ Carries seen c.headers
  | .setAccessToken token => owed seen = none ∧ ∃ t, token = some t ∧
      ((∃ data, Gave seen loginUrl data ∧ data.token = some t) ∨ call = .oauthCallback t)
  | .signIn user role => owed seen = none ∧ ∃ data, Gave seen whoamiUrl data ∧ data.user = some user ∧ data.role = role
  | .restore answer => owed seen = none ∧ Answered seen whoamiUrl answer
  | .signOut => owed seen = none
  | .setIsLoading => owed seen = none

section Calls

variable {α : Type} {call : PageCall} {seen later : Past} {url : String} {lib : PageLib}

/-- What a call has fetched beside what it had before. -/
def FetchedOnly (seen : Past) (url : String) (later : Past) : Prop :=
  ∀ c r, Saw later (.doFetch c) r → Saw seen (.doFetch c) r ∨ c.url = url ∨ c.url = refreshUrl

/-- What `doFetch` and its second attempt leave behind. -/
structure Retried (seen : Past) (url : String) (later : Past) (answer : Except String Response) : Prop where
  owed : owed later = none
  fetched : FetchedOnly seen url later
  answered : ∀ res, answer = .ok res → ∃ c : FetchCall, c.url = url ∧ Saw later (.doFetch c) (.ok res)

structure Requested (seen : Past) (url : String) (later : Past) (r : Except Failure ApiResponse) : Prop where
  owed : owed later = none
  fetched : FetchedOnly seen url later
  answered : Answered later url r

theorem awaited_fetches {promise : RefreshPromise} {mid : Past} {t : String} (h : Awaited promise mid t) {c : FetchCall}
    {r : Except String Response} (hc : Saw mid (.doFetch c) r) : c = refreshCall := by
  cases h with
  | pending => cases hc with | tail _ h => cases h
  | started =>
    cases hc with
    | tail _ h =>
      cases h with
      | head => rfl
      | tail _ h => cases h

theorem holds_of_awaited {promise : RefreshPromise} {mid : Past} {t : String} (h : Awaited promise mid t) :
    Holds (mid ++ seen) t := by
  cases h with
  | pending k => exact .awaited k (.head _)
  | started k answer => exact .refreshed k answer (.head _)

theorem authorization_of_authorize {t v : String} {headers : List (String × String)}
    (h : ("Authorization", v) ∈ authorize t headers) : v = "DPoP " ++ t := by
  unfold authorize setHeader at h
  rcases List.mem_append.mp h with hold | hnew
  · exact absurd rfl (of_decide_eq_true (List.mem_filter.mp hold).2)
  · exact congrArg Prod.snd (List.mem_singleton.mp hnew)

theorem carries_authorize {t : String} (ht : t ≠ "") (hholds : Holds seen t) (headers : List (String × String)) :
    Carries seen (authorize t headers) := fun _ hv => ⟨t, ht, authorization_of_authorize hv, hholds⟩

/-- Of the token that was looked up, an empty one is not sent. -/
theorem carries_filter {token : Option String} {t : String} (ht : token.filter (· ≠ "") = some t)
    (hholds : ∀ t, token = some t → Holds seen t) (headers : List (String × String)) :
    Carries seen (authorize t headers) := by
  obtain ⟨htoken, hne⟩ := Option.filter_eq_some_iff.mp ht
  exact carries_authorize (of_decide_eq_true hne) (hholds t htoken) headers

theorem carries_base (o : RequestOptions) : Carries seen (baseHeaders o) := by
  intro v hv
  unfold baseHeaders at hv
  split at hv
  · have hname : "Authorization" = "Content-Type" := congrArg Prod.fst (List.mem_singleton.mp hv)
    exact absurd hname (by decide)
  · cases hv

/-- A refresh is awaited where it was under way, and brought about where it was started. -/
theorem upholds_awaitRefresh (promise : RefreshPromise) (howed : owed seen = promise.owes none)
    (hjoined : ∀ k, promise = .pending k → Joined seen k) :
    Upholds (Lawful call) (fun later t => owed later = none ∧ ∃ mid, later = mid ++ seen ∧
      (∀ c r, Saw mid (.doFetch c) r → c = refreshCall) ∧ ∀ token, t = some token → Awaited promise mid token)
      (awaitRefresh promise) seen := by
  cases promise with
  | pending k =>
    refine .call ⟨howed, hjoined k rfl⟩ fun t => ⟨howed, [_], rfl, ?_, ?_⟩
    · intro c r h
      cases h with | tail _ h => cases h
    · rintro token rfl
      exact .pending k token
  | started k =>
    refine .call ⟨.refresh seen, nofun⟩ fun answer => ?_
    refine .call ⟨howed, .latest⟩ fun t => ⟨rfl, [_, _], rfl, ?_, ?_⟩
    · intro c r h
      cases h with
      | tail _ h =>
        cases h with
        | head => rfl
        | tail _ h => cases h
    · rintro token rfl
      exact .started k answer token

theorem upholds_authorizedHeaders (o : RequestOptions) (howed : owed seen = none) :
    Upholds (Lawful call) (fun later headers => owed later = none ∧ Carries later headers ∧
      ∀ c r, Saw later (.doFetch c) r → Saw seen (.doFetch c) r ∨ c = refreshCall) (authorizedHeaders o) seen := by
  unfold authorizedHeaders
  split
  · refine .call howed fun promise => ?_
    cases promise with
    | ready token =>
      have hholds : ∀ t, some token = some t → Holds (⟨.getValidToken, .ready token⟩ :: seen) t := by
        rintro t ⟨⟩
        exact .ready .latest
      have hfetched : ∀ c r, Saw (⟨.getValidToken, .ready token⟩ :: seen) (.doFetch c) r →
          Saw seen (.doFetch c) r ∨ c = refreshCall := by
        intro c r h
        cases h with | tail _ h => exact .inl h
      have hready : awaitToken (.ready token) = .ret (some token) := rfl
      simp only [Prog.bind, hready, Prog.ret_bind]
      cases htoken : (some token).filter (· ≠ "") with
      | none => exact ⟨howed, carries_base o, hfetched⟩
      | some t => exact ⟨howed, carries_filter htoken hholds _, hfetched⟩
    | refresh promise =>
      have hnow : owed (⟨.getValidToken, .refresh promise⟩ :: seen) = promise.owes none := by
        rw [← howed]
        rfl
      have hjoined : ∀ k, promise = .pending k → Joined (⟨.getValidToken, .refresh promise⟩ :: seen) k := by
        rintro k rfl
        exact .valid .latest
      refine (upholds_awaitRefresh promise hnow hjoined).bind ?_
      rintro later token ⟨hlater, mid, rfl, hmid, hawaited⟩
      have hholds : ∀ t, token = some t → Holds (mid ++ ⟨.getValidToken, .refresh promise⟩ :: seen) t :=
        fun t ht => holds_of_awaited (hawaited t ht)
      have hfetched : ∀ c r, Saw (mid ++ ⟨.getValidToken, .refresh promise⟩ :: seen) (.doFetch c) r →
          Saw seen (.doFetch c) r ∨ c = refreshCall := by
        intro c r h
        rcases List.mem_append.mp h with hmem | hold
        · exact .inr (hmid c r hmem)
        · cases hold with | tail _ h => exact .inl h
      cases htoken : token.filter (· ≠ "") with
      | none => exact ⟨hlater, carries_base o, hfetched⟩
      | some t => exact ⟨hlater, carries_filter htoken hholds _, hfetched⟩
  · exact ⟨howed, carries_base o, fun c r h => .inl h⟩

/-- The second attempt of a request, once the first was answered. -/
theorem upholds_retry {c : FetchCall} {o : RequestOptions} {res : Response} {earlier : Past}
    (hseen : seen = ⟨.doFetch c, .ok res⟩ :: earlier) (howed : owed seen = none)
    (hfirst : c.url ≠ refreshUrl → NotFetched earlier c.url) :
    Upholds (Lawful call) (Retried seen c.url) (retry c o res) seen := by
  have hanswered : Saw seen (.doFetch c) (.ok res) := hseen ▸ Saw.latest
  have hdone : ∀ {later : Past}, owed later = none → seen ⊆ later → FetchedOnly seen c.url later →
      Upholds (Lawful call) (Retried seen c.url) (.ret (.ok res)) later := by
    intro later howed hsub hfetched
    refine ⟨howed, hfetched, ?_⟩
    rintro _ ⟨⟩
    exact ⟨c, rfl, hsub hanswered⟩
  unfold retry
  split
  · next hcond =>
    have hrefused : res.status = 401 := of_decide_eq_true ((Bool.and_eq_true _ _).mp hcond).1
    refine .call howed fun promise => ?_
    have hnow : owed (⟨.refreshAccessToken, promise⟩ :: seen) = promise.owes none := by
      rw [← howed]
      rfl
    have hjoined : ∀ k, promise = .pending k → Joined (⟨.refreshAccessToken, promise⟩ :: seen) k := by
      rintro k rfl
      exact .fresh .latest
    refine (upholds_awaitRefresh promise hnow hjoined).bind ?_
    rintro later token ⟨hlater, mid, rfl, hfetched, hawaited⟩
    have honly : FetchedOnly seen c.url (mid ++ ⟨.refreshAccessToken, promise⟩ :: seen) := by
      intro d r h
      rcases List.mem_append.mp h with hmid | hold
      · exact .inr (.inr (congrArg FetchCall.url (hfetched d r hmid)))
      · cases hold with | tail _ h => exact .inl h
    cases htoken : token.filter (· ≠ "") with
    | none =>
      dsimp only
      exact hdone hlater (fun _ he => List.mem_append_right _ (.tail _ he)) honly
    | some t =>
      obtain ⟨htoken, hne⟩ := Option.filter_eq_some_iff.mp htoken
      have ht : t ≠ "" := of_decide_eq_true hne
      have hsends : Sends (mid ++ ⟨.refreshAccessToken, promise⟩ :: seen)
          { c with headers := authorize t c.headers } := by
        rw [hseen]
        exact .again hfirst hrefused ht (hawaited t htoken)
      refine .call ⟨hsends, carries_authorize ht (holds_of_awaited (hawaited t htoken)) _⟩ fun answer => ?_
      refine ⟨hlater, ?_, ?_⟩
      · intro d r h
        cases h with
        | head => exact .inr (.inl rfl)
        | tail _ h => exact honly d r h
      · rintro res' rfl
        exact ⟨{ c with headers := authorize t c.headers }, rfl, .latest⟩
  · exact hdone howed (fun _ he => he) fun d r h => .inl h

theorem answered_parse {c : FetchCall} {res : Response} (hurl : c.url = url) (h : Saw seen (.doFetch c) (.ok res)) :
    Answered seen url (parseResponse res) := by
  unfold parseResponse
  cases hbody : res.body with
  | none => exact ⟨(fun _ h => nomatch h), (fun _ _ _ _ h => nomatch h)⟩
  | some json =>
    dsimp only
    split
    · refine ⟨(fun _ h => nomatch h), ?_⟩
      rintro _ _ _ _ ⟨⟩
      exact ⟨c, res, h, hurl, rfl⟩
    · next hok =>
      refine ⟨?_, (fun _ _ _ _ h => nomatch h)⟩
      rintro _ ⟨⟩
      exact ⟨c, res, h, hurl, by simpa using hok, hbody⟩

/-- A request is made once, and once more where it was refused. -/
theorem upholds_apiRequest (path : String) (o : RequestOptions) (howed : owed seen = none)
    (hfirst : requestUrl lib path o.params ≠ refreshUrl → NotFetched seen (requestUrl lib path o.params)) :
    Upholds (Lawful call) (Requested seen (requestUrl lib path o.params)) (apiRequest lib path o) seen := by
  have hother : ∀ {later : Past}, owed later = none → FetchedOnly seen (requestUrl lib path o.params) later →
      Upholds (Lawful call) (Requested seen (requestUrl lib path o.params)) (.ret (.error .other)) later :=
    fun howed hfetched => ⟨howed, hfetched, ⟨(fun _ h => nomatch h), (fun _ _ _ _ h => nomatch h)⟩⟩
  refine (upholds_authorizedHeaders o howed).bind ?_
  rintro later headers ⟨hlater, hcarries, hfetched⟩
  have hfresh : requestUrl lib path o.params ≠ refreshUrl → NotFetched later (requestUrl lib path o.params) := by
    intro hne c r h hurl
    rcases hfetched c r h with hold | hrefresh
    · exact hfirst hne c r hold hurl
    · rw [hrefresh] at hurl
      exact hne hurl.symm
  refine .call ⟨.first hfresh, hcarries⟩ fun answer => ?_
  have honly : ∀ {now : Past},
      FetchedOnly (⟨.doFetch ⟨requestUrl lib path o.params, o.method, headers, o.body⟩, answer⟩ :: later)
        (requestUrl lib path o.params) now → FetchedOnly seen (requestUrl lib path o.params) now := by
    intro now hnow c r h
    rcases hnow c r h with hold | hnew
    · cases hold with
      | head => exact .inr (.inl rfl)
      | tail _ hold =>
        rcases hfetched c r hold with hold | hrefresh
        · exact .inl hold
        · exact .inr (.inr (congrArg FetchCall.url hrefresh))
    · exact .inr hnew
  cases answer with
  | error e => exact hother hlater (honly fun _ _ h => .inl h)
  | ok res =>
    refine (upholds_retry rfl hlater hfresh).bind ?_
    rintro now answer ⟨hnow, hretried, hanswer⟩
    cases answer with
    | error e => exact hother hnow (honly hretried)
    | ok res' =>
      obtain ⟨c, hurl, hsaw⟩ := hanswer res' rfl
      exact ⟨hnow, honly hretried, answered_parse hurl hsaw⟩

theorem requestUrl_plain (lib : PageLib) (path : String) : requestUrl lib path [] = API_BASE ++ path := by
  show API_BASE ++ path ++ "" = API_BASE ++ path
  rw [String.append_empty]

theorem upholds_apiGet (path : String) (howed : owed seen = none)
    (hfirst : NotFetched seen (API_BASE ++ path)) :
    Upholds (Lawful call) (Requested seen (API_BASE ++ path)) (apiGet lib path) seen := by
  rw [← requestUrl_plain lib] at hfirst ⊢
  exact upholds_apiRequest path ⟨"GET", none, [], true⟩ howed fun _ => hfirst

theorem upholds_apiPost (path : String) (body : Option String) (auth : Bool) (howed : owed seen = none)
    (hfirst : NotFetched seen (API_BASE ++ path)) :
    Upholds (Lawful call) (Requested seen (API_BASE ++ path)) (apiPost lib path body auth) seen := by
  rw [← requestUrl_plain lib] at hfirst ⊢
  exact upholds_apiRequest path ⟨"POST", body, [], auth⟩ howed fun _ => hfirst

theorem NotFetched.of_requested {other : String} {r : Except Failure ApiResponse} (h : NotFetched seen other)
    (hrequested : Requested seen url later r) (hurl : url ≠ other) (hrefresh : refreshUrl ≠ other) :
    NotFetched later other := by
  intro c r hc heq
  rcases hrequested.fetched c r hc with hold | hnew | hnew
  · exact h c r hold heq
  · exact hurl (hnew.symm.trans heq)
  · exact hrefresh (hnew.symm.trans heq)

theorem gave_of_requested {res : ApiResponse} {data : Data} (h : Requested seen url later (.ok res))
    (hsuccess : res.success = true) (hdata : res.data = some data) : Gave later url data := by
  obtain ⟨c, res', hsaw, hurl, hok, hbody⟩ := h.answered.ok res rfl
  exact ⟨c, res', res, hsaw, hurl, hok, hbody, hsuccess, hdata⟩

theorem notFetched_cons {c : PageCmd} {r : PageReply c} (h : NotFetched seen url) (hc : ∀ f, c ≠ .doFetch f) :
    NotFetched (⟨c, r⟩ :: seen) url := by
  intro f r' hsaw
  cases hsaw with
  | head => exact absurd rfl (hc f)
  | tail _ hsaw => exact h f r' hsaw

/-- All that is asked of a call once it has returned. -/
abbrev Settled : Past → Bool → Prop := fun later _ => owed later = none

theorem upholds_checkSession (howed : owed seen = none) (hfirst : NotFetched seen whoamiUrl) :
    Upholds (Lawful call) Settled (checkSession lib) seen :=
  (upholds_apiGet API_PATHS.whoami howed hfirst).bind fun _ _ h => .call ⟨h.owed, h.answered⟩ fun _ => h.owed

theorem upholds_login (body : String) (howed : owed seen = none) (hlogin : NotFetched seen loginUrl)
    (hwhoami : NotFetched seen whoamiUrl) : Upholds (Lawful call) Settled (login lib body) seen := by
  refine (upholds_apiPost API_PATHS.login (some body) false howed hlogin).bind fun later r h => ?_
  cases r with
  | error e => exact h.owed
  | ok res =>
    dsimp only
    split
    · exact h.owed
    · next token htoken =>
      have hgave : ∃ data, Gave later loginUrl data ∧ data.token = some token := by
        split at htoken
        · next hsuccess =>
          obtain ⟨data, hdata, htoken⟩ := Option.bind_eq_some_iff.mp htoken
          exact ⟨data, gave_of_requested h hsuccess hdata, (Option.filter_eq_some_iff.mp htoken).1⟩
        · cases htoken
      refine .call ⟨h.owed, token, rfl, .inl hgave⟩ fun _ => ?_
      have hfirst : NotFetched (⟨.setAccessToken (some token), ()⟩ :: later) whoamiUrl :=
        notFetched_cons (hwhoami.of_requested h (by decide) (by decide)) nofun
      have howed : owed (⟨.setAccessToken (some token), ()⟩ :: later) = none := h.owed
      refine (upholds_apiGet API_PATHS.whoami howed hfirst).bind fun now r hnow => ?_
      cases r with
      | error e => exact hnow.owed
      | ok whoami =>
        dsimp only
        split
        · exact hnow.owed
        · next data hdata =>
          split
          · exact hnow.owed
          · next user huser =>
            split at hdata
            · next hsuccess =>
              exact .call ⟨hnow.owed, data, gave_of_requested hnow hsuccess hdata, huser, rfl⟩ fun _ => hnow.owed
            · cases hdata

theorem upholds_register (body loginBody : String) : Upholds (Lawful call) Settled (register lib body loginBody) [] := by
  have hnone : ∀ url, NotFetched [] url := fun _ _ _ h => nomatch h
  refine (upholds_apiPost API_PATHS.register (some body) false rfl (hnone _)).bind fun later r h => ?_
  cases r with
  | error e => exact h.owed
  | ok res =>
    dsimp only
    split
    · exact upholds_login loginBody h.owed ((hnone loginUrl).of_requested h (by decide) (by decide))
        ((hnone whoamiUrl).of_requested h (by decide) (by decide))
    · exact h.owed

theorem upholds_logout : Upholds (Lawful call) Settled (logout lib) [] := by
  have hnone : NotFetched [] (API_BASE ++ API_PATHS.logout) := fun _ _ h => nomatch h
  exact (upholds_apiPost API_PATHS.logout none false rfl hnone).bind fun _ _ h => .call h.owed fun _ => h.owed

/-- Every call, whatever is answered to it. -/
theorem upholds_call (lib : PageLib) (call : PageCall) : Upholds (Lawful call) Settled (call.prog lib) [] := by
  have hnone : ∀ url, NotFetched [] url := fun _ _ _ h => nomatch h
  cases call with
  | request path o => exact (upholds_apiRequest path o rfl fun _ => hnone _).bind fun _ _ h => h.owed
  | checkSession => exact upholds_checkSession rfl (hnone _)
  | refreshSession => exact .call rfl fun _ => upholds_checkSession rfl (notFetched_cons (hnone _) nofun)
  | login body => exact upholds_login body rfl (hnone _) (hnone _)
  | register body loginBody => exact upholds_register body loginBody
  | logout => exact upholds_logout
  | oauthCallback token =>
    show Upholds _ _ (if token = "" then _ else _) []
    split
    · rfl
    · exact .call ⟨rfl, token, rfl, .inr rfl⟩ fun _ => upholds_checkSession rfl (notFetched_cons (hnone _) nofun)

end Calls

end Chinwag.Session

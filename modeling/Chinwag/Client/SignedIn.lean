import Chinwag.Client.Refreshes

/-!
# The tokens a page sends, and the user it shows

No token is sent but one that came with an answer to a login or a refresh, or with the address of the OAuth
callback; nobody is shown as signed in but whom a whoami named, or, while the service is unavailable, whom the
local storage held.
-/
namespace Chinwag.Session

open Program Transition
open Handshake (FetchCall)

/-- Where a page has a token from. -/
inductive Issued (lib : PageLib) (past : List PageLabel) (t : String) : Prop where
  | answered {j : Nat} {c : FetchCall} {res : Response} {body : ApiResponse} {data : Data}
      (h : .cmd j (.doFetch c) (.ok res) ∈ past) (hurl : c.url = refreshUrl ∨ c.url = loginUrl) (hok : res.ok = true)
      (hbody : res.body = some body) (hsuccess : body.success = true) (hdata : body.data = some data)
      (htoken : data.token = some t) : Issued lib past t
  | handed {j : Nat} (h : (spawned past)[j]? = some ((PageCall.oauthCallback t).prog lib)) : Issued lib past t

/-- A user with the account role of the same answer, or of a token. -/
inductive Merged (lib : PageLib) (past : List PageLabel) (v : User) (role : Option String) : User → Prop where
  | plain : Merged lib past v role v
  | answered {r : String} (hrole : role = some r) : Merged lib past v role { v with role := some r }
  | claimed {t r : String} (hrole : role = none) (hissued : Issued lib past t) (hclaim : roleClaim lib t = some r) :
      Merged lib past v role { v with role := some r }

/-- A whoami named this user. -/
inductive Vouched (lib : PageLib) (past : List PageLabel) (u : User) : Prop where
  | mk {j : Nat} {c : FetchCall} {res : Response} {body : ApiResponse} {data : Data} {v : User}
      (h : .cmd j (.doFetch c) (.ok res) ∈ past) (hurl : c.url = whoamiUrl) (hok : res.ok = true)
      (hbody : res.body = some body) (hsuccess : body.success = true) (hdata : body.data = some data)
      (huser : data.user = some v) (hmerged : Merged lib past v data.role u) : Vouched lib past u

/-- The local storage held this user. -/
inductive Stored (lib : PageLib) (pool₀ : PagePool) (past : List PageLabel) (v : User) : Prop where
  | initial (h : pool₀.shared.cachedUser = some v) : Stored lib pool₀ past v
  | elsewhere (h : .env (.storage (some v)) ∈ past) : Stored lib pool₀ past v
  | here (h : Vouched lib past v) : Stored lib pool₀ past v

/-- A whoami was answered by a failure of the service. -/
def Unavailable (past : List PageLabel) : Prop :=
  ∃ (j : Nat) (c : FetchCall) (res : Response), .cmd j (.doFetch c) (.ok res) ∈ past ∧ c.url = whoamiUrl ∧
    500 ≤ res.status

/-- What is shown is accounted for. -/
structure Shown (lib : PageLib) (pool₀ : PagePool) (past : List PageLabel) (page : Page) : Prop where
  nobody : page.user = none → page.readOnly = false
  online : ∀ u, page.user = some u → page.readOnly = false → Vouched lib past u
  offline : ∀ u, page.user = some u → page.readOnly = true →
    (∃ v, Stored lib pool₀ past v ∧ Merged lib past v none u) ∧ Unavailable past

structure SessionInv (lib : PageLib) (pool₀ : PagePool) (past : List PageLabel) (page : Page) : Prop where
  held : ∀ t, page.accessToken = some t → Issued lib past t
  ready : ∀ j t, .cmd j .getValidToken (.ready t) ∈ past → Issued lib past t
  settled : ∀ j k answer t, .cmd j (.settleRefresh k answer) (some t) ∈ past → Issued lib past t
  shown : Shown lib pool₀ past page
  cached : ∀ v, page.cachedUser = some v → Stored lib pool₀ past v

variable {lib : PageLib} {pool₀ pool pool' : PagePool} {past : List PageLabel} {l : PageLabel} {page : Page}
  {t : String} {u v : User} {role : Option String}

theorem Issued.append (h : Issued lib past t) (later : List PageLabel) : Issued lib (past ++ later) t := by
  cases h with
  | answered h hurl hok hbody hsuccess hdata htoken =>
    exact .answered (List.mem_append_left _ h) hurl hok hbody hsuccess hdata htoken
  | @handed j h =>
    refine .handed (j := j) ?_
    rw [spawned_append]
    exact (List.getElem?_append_left (List.getElem?_eq_some_iff.mp h).1).trans h

theorem Merged.append (h : Merged lib past v role u) (later : List PageLabel) : Merged lib (past ++ later) v role u := by
  cases h with
  | plain => exact .plain
  | answered hrole => exact .answered hrole
  | claimed hrole hissued hclaim => exact .claimed hrole (hissued.append later) hclaim

theorem Vouched.append (h : Vouched lib past u) (later : List PageLabel) : Vouched lib (past ++ later) u := by
  obtain ⟨h, hurl, hok, hbody, hsuccess, hdata, huser, hmerged⟩ := h
  exact .mk (List.mem_append_left _ h) hurl hok hbody hsuccess hdata huser (hmerged.append later)

theorem Stored.append (h : Stored lib pool₀ past v) (later : List PageLabel) : Stored lib pool₀ (past ++ later) v := by
  cases h with
  | initial h => exact .initial h
  | elsewhere h => exact .elsewhere (List.mem_append_left _ h)
  | here h => exact .here (h.append later)

theorem Unavailable.append (h : Unavailable past) (later : List PageLabel) : Unavailable (past ++ later) := by
  obtain ⟨j, c, res, hmem, hrest⟩ := h
  exact ⟨j, c, res, List.mem_append_left _ hmem, hrest⟩

theorem Shown.append (h : Shown lib pool₀ past page) (later : List PageLabel) :
    Shown lib pool₀ (past ++ later) page where
  nobody := h.nobody
  online u hu hro := (h.online u hu hro).append later
  offline u hu hro := by
    obtain ⟨⟨v, hstored, hmerged⟩, hunavailable⟩ := h.offline u hu hro
    exact ⟨⟨v, hstored.append later, hmerged.append later⟩, hunavailable.append later⟩

theorem merged_withRole (h : ∀ t, page.accessToken = some t → Issued lib past t) (v : User) (role : Option String) :
    Merged lib past v role (withRole lib page v role) := by
  unfold withRole
  split
  · exact .plain
  · next r hr =>
    have hr := (Option.filter_eq_some_iff.mp hr).1
    cases role with
    | some r' => exact .answered hr
    | none =>
      obtain ⟨t, ht, hclaim⟩ := Option.bind_eq_some_iff.mp hr
      exact .claimed rfl (h t (Option.filter_eq_some_iff.mp ht).1) hclaim

/-- A refresh that came to a token was answered with it. -/
theorem issued_of_refreshed {answer : Except String Response} {c : FetchCall} {j : Nat}
    (h : .cmd j (.doFetch c) answer ∈ past) (hurl : c.url = refreshUrl) (ht : refreshedToken answer = some t) :
    Issued lib past t := by
  cases answer with
  | error e => cases ht
  | ok res =>
    unfold refreshedToken at ht
    dsimp only at ht
    split at ht
    · cases ht
    · next hok =>
      split at ht
      · cases ht
      · next body hbody =>
        split at ht
        · next hsuccess =>
          obtain ⟨data, hdata, ht⟩ := Option.bind_eq_some_iff.mp ht
          exact .answered h (.inl hurl) (by simpa using hok) hbody hsuccess hdata (Option.filter_eq_some_iff.mp ht).1
        · cases ht

section Executed

variable {i : Nat} {call : PageCall} {c : PageCmd} {r : PageReply c} {s : Page}

theorem asked_page {promise : RefreshPromise} (h : Asked page promise s) :
    s.accessToken = page.accessToken ∧ s.user = page.user ∧ s.readOnly = page.readOnly ∧
      s.cachedUser = page.cachedUser := by
  cases h <;> exact ⟨rfl, rfl, rfl, rfl⟩

theorem getValidToken_page (lib : PageLib) (page : Page) : (page.getValidToken lib).2.accessToken = page.accessToken ∧
    (page.getValidToken lib).2.user = page.user ∧ (page.getValidToken lib).2.readOnly = page.readOnly ∧
    (page.getValidToken lib).2.cachedUser = page.cachedUser := by
  rcases asked_getValidToken lib page with ⟨token, heq⟩ | ⟨promise, t, heq, hasked⟩
  · rw [heq]
    exact ⟨rfl, rfl, rfl, rfl⟩
  · rw [heq]
    exact asked_page hasked

theorem restore_token (page : Page) (answer : Except Failure ApiResponse) :
    (page.restore lib answer).2.accessToken = page.accessToken := by
  unfold Page.restore
  repeat' split
  all_goals rfl

theorem held_of_exec (h : SessionInv lib pool₀ past page) (hcall : (spawned past)[i]? = some (call.prog lib))
    (hlawful : Lawful call (seenBy i past) c) (hexec : Exec lib c page r s) (ht : s.accessToken = some t) :
    Issued lib past t := by
  cases hexec with
  | getValidToken => exact h.held t ((getValidToken_page lib page).1 ▸ ht)
  | refreshAccessToken => exact h.held t ((asked_page (asked_refreshAccessToken page)).1 ▸ ht)
  | @settleRefresh _ answer =>
    exact issued_of_refreshed (saw_seenBy.mp hlawful.2) rfl ht
  | setAccessToken =>
    obtain ⟨-, t', htoken, hsource⟩ := hlawful
    obtain rfl := Option.some.inj (ht.symm.trans htoken)
    rcases hsource with ⟨data, ⟨d, res, body, hsaw, hurl, hok, hbody, hsuccess, hdata⟩, htoken⟩ | heq
    · exact .answered (saw_seenBy.mp hsaw) (.inr hurl) hok hbody hsuccess hdata htoken
    · rw [heq] at hcall
      exact .handed hcall
  | restore => exact h.held t (restore_token page _ ▸ ht)
  | signOut => cases ht
  | _ => exact h.held t ht

/-- The page shows whom a whoami named. -/
theorem shown_signIn (h : SessionInv lib pool₀ past page) {data : Data} (hgave : Gave (seenBy i past) whoamiUrl data)
    (hv : data.user = some v) : Vouched lib past (withRole lib page v data.role) := by
  obtain ⟨d, res, body, hsaw, hurl, hok, hbody, hsuccess, hdata⟩ := hgave
  exact .mk (saw_seenBy.mp hsaw) hurl hok hbody hsuccess hdata hv (merged_withRole h.held v data.role)

/-- What a restored session shows, and what is in the storage after it. -/
theorem shown_restore (h : SessionInv lib pool₀ past page) {answer : Except Failure ApiResponse}
    (hanswered : Answered (seenBy i past) whoamiUrl answer) : Shown lib pool₀ past (page.restore lib answer).2 ∧
      ∀ v, (page.restore lib answer).2.cachedUser = some v → Stored lib pool₀ past v := by
  have hout : Shown lib pool₀ past { page with user := none, readOnly := false, isLoading := false } :=
    ⟨fun _ => rfl, nofun, nofun⟩
  unfold Page.restore
  dsimp only
  cases answer with
  | ok res =>
    dsimp only
    split
    · exact ⟨hout, h.cached⟩
    · next data hdata =>
      split
      · exact ⟨hout, h.cached⟩
      · next user huser =>
        split at hdata
        · next hsuccess =>
          obtain ⟨d, res', hsaw, hurl, hok, hbody⟩ := hanswered.ok res rfl
          have hvouched := shown_signIn h ⟨d, res', res, hsaw, hurl, hok, hbody, hsuccess, hdata⟩ huser
          refine ⟨⟨nofun, ?_, fun _ _ h => nomatch h⟩, ?_⟩
          · rintro _ ⟨⟩ -
            exact hvouched
          · rintro _ ⟨⟩
            exact .here hvouched
        · cases hdata
  | error e =>
    dsimp only
    split
    · next hunavailable =>
      split
      · next cached hcached =>
        refine ⟨⟨nofun, fun _ _ h => (nomatch h), ?_⟩, h.cached⟩
        rintro _ ⟨⟩ -
        refine ⟨⟨cached, h.cached cached hcached, merged_withRole h.held cached none⟩, ?_⟩
        cases e with
        | other => cases hunavailable
        | api status code message data =>
          obtain ⟨d, res, hsaw, hurl, hstatus⟩ := hanswered.failed status code message data rfl
          exact ⟨i, d, res, saw_seenBy.mp hsaw, hurl, hstatus ▸ of_decide_eq_true hunavailable⟩
      · exact ⟨hout, h.cached⟩
    · exact ⟨hout, h.cached⟩

theorem Shown.of_same (h : Shown lib pool₀ past page) (huser : s.user = page.user)
    (hreadOnly : s.readOnly = page.readOnly) : Shown lib pool₀ past s where
  nobody hu := hreadOnly.trans (h.nobody (huser.symm.trans hu))
  online u hu hro := h.online u (huser.symm.trans hu) (hreadOnly.symm.trans hro)
  offline u hu hro := h.offline u (huser.symm.trans hu) (hreadOnly.symm.trans hro)

theorem shown_of_exec (h : SessionInv lib pool₀ past page) (hlawful : Lawful call (seenBy i past) c)
    (hexec : Exec lib c page r s) :
    Shown lib pool₀ past s ∧ ∀ v, s.cachedUser = some v → Stored lib pool₀ past v := by
  cases hexec with
  | getValidToken =>
    obtain ⟨-, huser, hreadOnly, hcached⟩ := getValidToken_page lib page
    exact ⟨h.shown.of_same huser hreadOnly, fun v hv => h.cached v (hcached.symm.trans hv)⟩
  | refreshAccessToken =>
    obtain ⟨-, huser, hreadOnly, hcached⟩ := asked_page (asked_refreshAccessToken page)
    exact ⟨h.shown.of_same huser hreadOnly, fun v hv => h.cached v (hcached.symm.trans hv)⟩
  | signIn =>
    obtain ⟨-, data, hgave, huser, rfl⟩ := hlawful
    have hvouched := shown_signIn h hgave huser
    refine ⟨⟨nofun, ?_, fun _ _ h => nomatch h⟩, ?_⟩
    · rintro _ ⟨⟩ -
      exact hvouched
    · rintro _ ⟨⟩
      exact .here hvouched
  | restore => exact shown_restore h hlawful.2
  | signOut => exact ⟨⟨fun _ => rfl, nofun, nofun⟩, nofun⟩
  | _ => exact ⟨h.shown.of_same rfl rfl, h.cached⟩

end Executed

theorem token_of_ready (h : (page.getValidToken lib).1 = .ready t) : page.accessToken = some t := by
  unfold Page.getValidToken at h
  split at h
  · next token htoken =>
    split at h
    · cases h
    · cases h
      exact (Option.filter_eq_some_iff.mp htoken).1
  · cases h

theorem sessionInv_step (h₀ : PageInit pool₀) (hrun : Run (PageStep lib) pool₀ past pool)
    (h : SessionInv lib pool₀ past pool.shared) (hstep : PageStep lib pool l pool') :
    SessionInv lib pool₀ (past ++ [l]) pool'.shared := by
  cases hstep with
  | spawn =>
    exact {
      held := fun t ht => (h.held t ht).append _
      ready := fun j t hmem => (h.ready j t (by simpa using hmem)).append _
      settled := fun j k answer t hmem => (h.settled j k answer t (by simpa using hmem)).append _
      shown := h.shown.append _
      cached := fun v hv => (h.cached v hv).append _ }
  | @env e s he =>
    have hsame : s.accessToken = pool.shared.accessToken ∧ s.user = pool.shared.user ∧
        s.readOnly = pool.shared.readOnly := by
      cases e <;> cases he <;> exact ⟨rfl, rfl, rfl⟩
    exact {
      held := fun t ht => (h.held t (hsame.1 ▸ ht)).append _
      ready := fun j t hmem => (h.ready j t (by simpa using hmem)).append _
      settled := fun j k answer t hmem => (h.settled j k answer t (by simpa using hmem)).append _
      shown := (h.shown.of_same hsame.2.1 hsame.2.2).append _
      cached := by
        intro v hv
        cases e with
        | elapsed n =>
          cases he
          exact (h.cached v hv).append _
        | storage user =>
          cases he
          obtain rfl : user = some v := hv
          exact .elsewhere (List.mem_append_right _ (.head _)) }
  | @cmd i c next r s hi hexec =>
    obtain ⟨call, hcall, hlawful, -⟩ := lawful_of_thread h₀ hrun hi
    have hshown := shown_of_exec h hlawful hexec
    exact {
      held := fun t ht => (held_of_exec h hcall hlawful hexec ht).append _
      ready := by
        intro j t hmem
        rcases List.mem_append.mp hmem with hold | hnew
        · exact (h.ready j t hold).append _
        · cases List.mem_singleton.mp hnew
          generalize hreply : (TokenPromise.ready t : PageReply .getValidToken) = reply at hexec
          cases hexec with
          | getValidToken => exact (h.held t (token_of_ready hreply.symm)).append _
      settled := by
        intro j k answer t hmem
        rcases List.mem_append.mp hmem with hold | hnew
        · exact (h.settled j k answer t hold).append _
        · cases List.mem_singleton.mp hnew
          generalize hreply : (some t : PageReply (.settleRefresh k answer)) = reply at hexec
          cases hexec with
          | settleRefresh => exact (issued_of_refreshed (saw_seenBy.mp hlawful.2) rfl hreply.symm).append _
      shown := hshown.1.append _
      cached := fun v hv => (hshown.2 v hv).append _ }

theorem sessionInv_run (h₀ : PageInit pool₀) (hrun : Run (PageStep lib) pool₀ past pool) :
    SessionInv lib pool₀ past pool.shared := by
  have hstep : ∀ past s e t, Run (PageStep lib) pool₀ past s ∧ SessionInv lib pool₀ past s.shared →
      PageStep lib s e t → Run (PageStep lib) pool₀ (past ++ [e]) t ∧ SessionInv lib pool₀ (past ++ [e]) t.shared :=
    fun _ _ _ _ h hst => ⟨h.1.append (.single hst), sessionInv_step h₀ h.1 h.2 hst⟩
  have hnobody : ∀ u, pool₀.shared.user ≠ some u := by
    intro u hu
    cases h₀.user.symm.trans hu
  have hinit : SessionInv lib pool₀ [] pool₀.shared := {
    held := by
      intro t ht
      cases h₀.accessToken.symm.trans ht
    ready := nofun
    settled := nofun
    shown := ⟨fun _ => h₀.readOnly, fun u hu => absurd hu (hnobody u), fun u hu => absurd hu (hnobody u)⟩
    cached := fun v hv => .initial hv }
  exact (hrun.history hstep [] ⟨.nil _, hinit⟩).2

/-- Every token a call holds is accounted for. -/
theorem issued_of_holds (h₀ : PageInit pool₀) (hrun : Run (PageStep lib) pool₀ past pool) {i : Nat}
    (h : Holds (seenBy i past) t) : Issued lib past t := by
  have hinv := sessionInv_run h₀ hrun
  cases h with
  | ready h => exact hinv.ready i t (saw_seenBy.mp h)
  | refreshed k answer h => exact hinv.settled i k answer t (saw_seenBy.mp h)
  | awaited k h =>
    obtain ⟨before, after, p, s, hsplit, hbefore, hexec⟩ := executed_of_mem hrun (saw_seenBy.mp h)
    cases hexec with
    | awaitRefresh hk =>
      obtain ⟨j, answer, hmem⟩ := ((refreshInv_run h₀ hbefore).settled k (some t)).mp hk
      exact hinv.settled j k answer t (by rw [hsplit]; exact List.mem_append_left _ hmem)

/-- What a page shows and sends is accounted for by what it was answered. -/
theorem session_accounted (h₀ : PageInit pool₀) {trace : List PageLabel} (hrun : Run (PageStep lib) pool₀ trace pool) :
    Shown lib pool₀ trace pool.shared ∧
    ∀ before i c r after, trace = before ++ .cmd i (.doFetch c) r :: after →
      ∀ v, ("Authorization", v) ∈ c.headers → ∃ t, v = "DPoP " ++ t ∧ Issued lib before t := by
  refine ⟨(sessionInv_run h₀ hrun).shown, fun before i c r after htrace v hv => ?_⟩
  rw [htrace] at hrun
  obtain ⟨p, p', hbefore, hstep, -⟩ := hrun.at_label
  cases hstep with
  | cmd hi _ =>
    obtain ⟨call, -, hlawful, -⟩ := lawful_of_thread h₀ hbefore hi
    obtain ⟨t, -, rfl, hholds⟩ := hlawful.2 v hv
    exact ⟨t, rfl, issued_of_holds h₀ hbefore hholds⟩

section Sample

def ann : User := ⟨"1", "Ann", "ann@example.com", none⟩

def namesAnn : Except String Response := .ok ⟨200, some ⟨true, some ⟨none, some ann, some "USER"⟩, none, none⟩⟩

end Sample

/-- Ann comes back to the page with a refresh token in its cookie. -/
theorem session_accounted_ann : ∃ trace pool, Run (PageStep sampleLib) ⟨blankPage, []⟩ trace pool ∧
    pool.shared.user = some { ann with role := some "USER" } ∧
    Vouched sampleLib trace { ann with role := some "USER" } := by
  have hrun : Run (PageStep sampleLib) ⟨blankPage, []⟩ _ _ :=
    .cons (.spawn ⟨.checkSession, rfl⟩) (.cons (.cmd (i := 0) rfl (.getValidToken _))
      (.cons (.cmd (i := 0) rfl (.doFetch _ _ (grants "h.ann.s"))) (.cons (.cmd (i := 0) rfl (.settleRefresh _ _ _))
        (.cons (.cmd (i := 0) rfl (.doFetch _ _ namesAnn)) (.single (.cmd (i := 0) rfl (.restore _ _)))))))
  have hshown := (session_accounted blankPage_init hrun).1
  exact ⟨_, _, hrun, rfl, hshown.online _ rfl rfl⟩

end Chinwag.Session

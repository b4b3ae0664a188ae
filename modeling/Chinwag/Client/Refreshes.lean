import Chinwag.Client.ApiCalls
import Chinwag.Lib.Slots

/-!
# One refresh at a time

A refresh is under way exactly while the call that started it has not settled it, and that call waits for
nothing else. So no call waits for ever, and a token that comes out of a refresh is newer than any answer the
refresh was asked for.
-/
namespace Chinwag.Session

open Program Transition
open Handshake (FetchCall)

variable {lib : PageLib} {pool₀ pool pool' : PagePool} {past : List PageLabel} {l : PageLabel} {i j k : Nat}

/-- Each call does what it may, given what it has seen. -/
theorem lawful_of_thread (h₀ : PageInit pool₀) (hrun : Run (PageStep lib) pool₀ past pool) {p : PageProg Bool}
    (hi : pool.threads[i]? = some p) : ∃ call : PageCall, (spawned past)[i]? = some (call.prog lib) ∧
      Upholds (Lawful call) Settled p (seenBy i past) := by
  have hnumber : pool₀.threads.length + i = i := by rw [h₀.threads, List.length_nil, Nat.zero_add]
  rw [← hnumber] at hi
  obtain ⟨p, hspawned, ⟨call, rfl⟩, hfollows⟩ := Follows.of_spawned hrun hi
  rw [hnumber] at hfollows
  have hupholds := (upholds_call lib call).follows hfollows
  rw [List.append_nil] at hupholds
  exact ⟨call, hspawned, hupholds⟩

/-- The promise of the refresh under way, if any, is the one that is not settled. -/
structure RefreshInv (past : List PageLabel) (pool : PagePool) : Prop where
  held : ∀ i k, owed (seenBy i past) = some k → pool.shared.refreshPromise = some k
  alone : ∀ i j k, owed (seenBy i past) = some k → owed (seenBy j past) = some k → i = j
  someone : ∀ k, pool.shared.refreshPromise = some k → ∃ i, owed (seenBy i past) = some k
  pending : ∀ k, pool.shared.refreshPromise = some k ↔ pool.shared.promises[k]? = some none
  settled : ∀ k t, pool.shared.promises[k]? = some (some t) ↔
    ∃ j answer, .cmd j (.settleRefresh k answer) t ∈ past
  joined : ∀ i k, Joined (seenBy i past) k → k < pool.shared.promises.length

theorem owed_cmd (past : List PageLabel) (i j : Nat) (c : PageCmd) (r : PageReply c) :
    owed (seenBy j (past ++ [.cmd i c r])) =
      if i = j then owedAfter (owed (seenBy j past)) c r else owed (seenBy j past) := by
  rw [seenBy_append]
  split
  · next hij =>
    subst hij
    rw [seenBy_cmd_self]
    rfl
  · next hij =>
    rw [seenBy_cmd_ne hij]
    rfl

/-- What `refreshAccessToken` does before its first await. -/
inductive Asked (s : Page) : RefreshPromise → Page → Prop where
  | pending {k : Nat} (h : s.refreshPromise = some k) : Asked s (.pending k) s
  | started (h : s.refreshPromise = none) : Asked s (.started s.promises.length)
      { s with refreshPromise := some s.promises.length, promises := s.promises ++ [none] }

theorem asked_refreshAccessToken (s : Page) : Asked s s.refreshAccessToken.1 s.refreshAccessToken.2 := by
  unfold Page.refreshAccessToken
  cases h : s.refreshPromise with
  | some k => exact .pending h
  | none => exact .started h

theorem asked_getValidToken (lib : PageLib) (s : Page) : (∃ token, s.getValidToken lib = (.ready token, s)) ∨
    ∃ promise t, s.getValidToken lib = (.refresh promise, t) ∧ Asked s promise t := by
  unfold Page.getValidToken
  split
  · next token _ =>
    split
    · exact .inr ⟨_, _, rfl, asked_refreshAccessToken s⟩
    · exact .inl ⟨token, rfl⟩
  · exact .inr ⟨_, _, rfl, asked_refreshAccessToken s⟩

theorem joined_cmd {c : PageCmd} {r : PageReply c} (h : Joined (seenBy j (past ++ [.cmd i c r])) k) :
    Joined (seenBy j past) k ∨ (⟨c, r⟩ : Σ c, PageReply c) = ⟨.refreshAccessToken, .pending k⟩ ∨
      (⟨c, r⟩ : Σ c, PageReply c) = ⟨.getValidToken, .refresh (.pending k)⟩ := by
  rw [seenBy_append] at h
  by_cases hij : i = j
  · subst hij
    rw [seenBy_cmd_self] at h
    cases h with
    | valid h =>
      rcases List.mem_cons.mp h with heq | h
      · exact .inr (.inr heq.symm)
      · exact .inl (.valid h)
    | fresh h =>
      rcases List.mem_cons.mp h with heq | h
      · exact .inr (.inl heq.symm)
      · exact .inl (.fresh h)
  · rw [seenBy_cmd_ne hij] at h
    exact .inl h

/-- Nothing is settled, started or joined that was not before. -/
theorem RefreshInv.quiet (h : RefreshInv past pool) (howed : ∀ j, owed (seenBy j (past ++ [l])) = owed (seenBy j past))
    (hrefresh : pool'.shared.refreshPromise = pool.shared.refreshPromise)
    (hpromises : pool'.shared.promises = pool.shared.promises)
    (hsettle : ∀ j k answer t, l ≠ .cmd j (.settleRefresh k answer) t)
    (hjoin : ∀ j k, Joined (seenBy j (past ++ [l])) k →
      Joined (seenBy j past) k ∨ pool.shared.refreshPromise = some k) : RefreshInv (past ++ [l]) pool' where
  held i k hi := by
    rw [howed] at hi
    rw [hrefresh]
    exact h.held i k hi
  alone i j k hi hj := by
    rw [howed] at hi hj
    exact h.alone i j k hi hj
  someone k hk := by
    rw [hrefresh] at hk
    obtain ⟨i, hi⟩ := h.someone k hk
    exact ⟨i, (howed i).trans hi⟩
  pending k := by
    rw [hrefresh, hpromises]
    exact h.pending k
  settled k t := by
    rw [hpromises, h.settled k t]
    refine ⟨fun ⟨j, answer, hmem⟩ => ⟨j, answer, List.mem_append_left _ hmem⟩, fun ⟨j, answer, hmem⟩ => ?_⟩
    rcases List.mem_append.mp hmem with hold | hnew
    · exact ⟨j, answer, hold⟩
    · exact absurd (List.mem_singleton.mp hnew).symm (hsettle j k answer t)
  joined j k hj := by
    rw [hpromises]
    rcases hjoin j k hj with hold | hpending
    · exact h.joined j k hold
    · exact (List.getElem?_eq_some_iff.mp ((h.pending k).mp hpending)).1

/-- A call that asks for a refresh joins the one under way, or starts one and owes it. -/
theorem RefreshInv.asks (h : RefreshInv past pool) {c : PageCmd} {r : PageReply c} {promise : RefreshPromise} {t : Page}
    (hc : (⟨c, r⟩ : Σ c, PageReply c) = ⟨.refreshAccessToken, promise⟩ ∨
      (⟨c, r⟩ : Σ c, PageReply c) = ⟨.getValidToken, .refresh promise⟩)
    (hasked : Asked pool.shared promise t) {threads : List (PageProg Bool)} :
    RefreshInv (past ++ [.cmd i c r]) ⟨t, threads⟩ := by
  have hsettle : ∀ j k answer t, (.cmd i c r : PageLabel) ≠ .cmd j (.settleRefresh k answer) t := by
    rintro j k answer t heq
    cases heq
    rcases hc with hc | hc <;> cases hc
  have hafter : ∀ held, owedAfter held c r = promise.owes held := by
    intro held
    rcases hc with hc | hc <;> cases hc <;> rfl
  have hjoin : ∀ j k, Joined (seenBy j (past ++ [.cmd i c r])) k →
      Joined (seenBy j past) k ∨ promise = .pending k := by
    intro j k hj
    rcases joined_cmd hj with hold | heq | heq
    · exact .inl hold
    · rcases hc with hc | hc <;> cases hc.symm.trans heq
      exact .inr rfl
    · rcases hc with hc | hc <;> cases hc.symm.trans heq
      exact .inr rfl
  cases hasked with
  | @pending k hk =>
    refine h.quiet (fun j => ?_) rfl rfl hsettle fun j k' hj => ?_
    · rw [owed_cmd, hafter]
      split <;> rfl
    · rcases hjoin j k' hj with hold | heq
      · exact .inl hold
      · cases heq
        exact .inr hk
  | started hfree =>
    have hnobody : ∀ j k, owed (seenBy j past) ≠ some k := by
      intro j k hj
      cases hfree.symm.trans (h.held j k hj)
    have howed : ∀ j k, owed (seenBy j (past ++ [.cmd i c r])) = some k → i = j ∧ k = pool.shared.promises.length := by
      intro j k hj
      rw [owed_cmd, hafter] at hj
      split at hj
      · next hij => exact ⟨hij, (Option.some.inj hj).symm⟩
      · exact absurd hj (hnobody j k)
    exact {
      held := fun j k hj => by rw [(howed j k hj).2]
      alone := fun j j' k hj hj' => (howed j k hj).1.symm.trans (howed j' k hj').1
      someone := by
        rintro k hk
        refine ⟨i, ?_⟩
        rw [owed_cmd, if_pos rfl, hafter]
        exact hk
      pending := by
        intro k
        have hold : pool.shared.promises[k]? ≠ some none := by
          intro hk
          cases hfree.symm.trans ((h.pending k).mpr hk)
        show some pool.shared.promises.length = some k ↔ (pool.shared.promises ++ [none])[k]? = some none
        rw [Option.some.injEq]
        constructor
        · rintro rfl
          exact List.getElem?_concat_length
        · intro hk
          rcases Slots.slot_concat hk with hk | ⟨hk, -⟩
          · exact absurd hk hold
          · exact hk.symm
      settled := by
        intro k token
        have hsame : (pool.shared.promises ++ [none])[k]? = some (some token) ↔
            pool.shared.promises[k]? = some (some token) := by
          constructor
          · intro hk
            rcases Slots.slot_concat hk with hk | ⟨-, hk⟩
            · exact hk
            · cases hk
          · intro hk
            rwa [List.getElem?_append_left (List.getElem?_eq_some_iff.mp hk).1]
        rw [hsame, h.settled k token]
        refine ⟨fun ⟨j, answer, hmem⟩ => ⟨j, answer, List.mem_append_left _ hmem⟩, fun ⟨j, answer, hmem⟩ => ?_⟩
        rcases List.mem_append.mp hmem with hold | hnew
        · exact ⟨j, answer, hold⟩
        · exact absurd (List.mem_singleton.mp hnew).symm (hsettle j k answer token)
      joined := by
        intro j k hj
        rw [List.length_append]
        rcases hjoin j k hj with hold | heq
        · exact Nat.lt_add_right _ (h.joined j k hold)
        · cases heq }

/-- Only who owes a refresh settles it, and nobody owes one after that. -/
theorem RefreshInv.settles (h : RefreshInv past pool) {answer : Except String Response} {token : Option String}
    (hi : owed (seenBy i past) = some k) (htoken : token = refreshedToken answer) {threads : List (PageProg Bool)} :
    RefreshInv (past ++ [.cmd i (.settleRefresh k answer) token]) ⟨pool.shared.settleRefresh k answer, threads⟩ := by
  have hk := h.held i k hi
  have hlt : k < pool.shared.promises.length := (List.getElem?_eq_some_iff.mp ((h.pending k).mp hk)).1
  have hnobody : ∀ j, owed (seenBy j (past ++ [.cmd i (.settleRefresh k answer) token])) = none := by
    intro j
    rw [owed_cmd]
    split
    · rfl
    · next hij =>
      cases hj : owed (seenBy j past) with
      | none => rfl
      | some k' =>
        obtain rfl : k = k' := Option.some.inj (hk.symm.trans (h.held j k' hj))
        exact absurd (h.alone i j k hi hj) hij
  exact {
    held := fun j k' hj => by rw [hnobody] at hj; cases hj
    alone := fun j j' k' hj => by rw [hnobody] at hj; cases hj
    someone := nofun
    pending := by
      intro k'
      refine ⟨nofun, fun hpending => ?_⟩
      rcases Slots.slot_set hpending with ⟨-, heq⟩ | ⟨hne, hold⟩
      · cases heq
      · exact absurd (Option.some.inj (((h.pending k').mpr hold).symm.trans hk)) hne
    settled := by
      intro k' token'
      constructor
      · intro hset
        rcases Slots.slot_set hset with ⟨rfl, heq⟩ | ⟨-, hold⟩
        · obtain rfl := Option.some.inj heq
          exact ⟨i, answer, List.mem_append_right _ (by rw [htoken]; exact .head _)⟩
        · obtain ⟨j, answer', hmem⟩ := (h.settled k' token').mp hold
          exact ⟨j, answer', List.mem_append_left _ hmem⟩
      · rintro ⟨j, answer', hmem⟩
        show (pool.shared.promises.set k (some (refreshedToken answer)))[k']? = _
        rcases List.mem_append.mp hmem with hold | hnew
        · have hset := (h.settled k' token').mpr ⟨j, answer', hold⟩
          have hne : k ≠ k' := by
            rintro rfl
            cases ((h.pending k).mp hk).symm.trans hset
          rwa [List.getElem?_set_ne hne]
        · cases List.mem_singleton.mp hnew
          rw [List.getElem?_set_self hlt, htoken]
    joined := by
      intro j k' hj
      show k' < (pool.shared.promises.set k _).length
      rw [List.length_set]
      rcases joined_cmd hj with hold | heq | heq
      · exact h.joined j k' hold
      · cases heq
      · cases heq }

theorem refreshInv_step (h₀ : PageInit pool₀) (hrun : Run (PageStep lib) pool₀ past pool) (h : RefreshInv past pool)
    (hstep : PageStep lib pool l pool') : RefreshInv (past ++ [l]) pool' := by
  cases hstep with
  | spawn =>
    refine h.quiet (fun j => ?_) rfl rfl nofun fun j k hj => ?_
    · rw [seenBy_append]
      rfl
    · rw [seenBy_append] at hj
      exact .inl hj
  | @env e s he =>
    have hsame : s.refreshPromise = pool.shared.refreshPromise ∧ s.promises = pool.shared.promises := by
      cases e <;> cases he <;> exact ⟨rfl, rfl⟩
    refine h.quiet (fun j => ?_) hsame.1 hsame.2 nofun fun j k hj => ?_
    · rw [seenBy_append]
      rfl
    · rw [seenBy_append] at hj
      exact .inl hj
  | @cmd i c next r s hi hexec =>
    obtain ⟨call, -, hlawful, -⟩ := lawful_of_thread h₀ hrun hi
    have hquiet : s.refreshPromise = pool.shared.refreshPromise → s.promises = pool.shared.promises →
        (∀ held, owedAfter held c r = held) → (∀ k answer, c ≠ .settleRefresh k answer) →
        (∀ k, (⟨c, r⟩ : Σ c, PageReply c) ≠ ⟨.refreshAccessToken, .pending k⟩ ∧
          (⟨c, r⟩ : Σ c, PageReply c) ≠ ⟨.getValidToken, .refresh (.pending k)⟩) →
        RefreshInv (past ++ [.cmd i c r]) ⟨s, pool.threads.set i (next r)⟩ := by
      intro hrefresh hpromises hafter hsettle hjoin
      refine h.quiet (fun j => ?_) hrefresh hpromises ?_ fun j k hj => ?_
      · rw [owed_cmd, hafter]
        split <;> rfl
      · intro j k answer t heq
        cases heq
        exact hsettle k answer rfl
      · rcases joined_cmd hj with hold | heq | heq
        · exact .inl hold
        · exact absurd heq (hjoin k).1
        · exact absurd heq (hjoin k).2
    cases hexec with
    | getValidToken =>
      rcases asked_getValidToken lib pool.shared with ⟨token, heq⟩ | ⟨promise, t, heq, hasked⟩
      · rw [heq] at hquiet ⊢
        exact hquiet rfl rfl (fun _ => rfl) nofun fun k => ⟨nofun, nofun⟩
      · rw [heq]
        exact h.asks (.inr rfl) hasked
    | refreshAccessToken => exact h.asks (.inl rfl) (asked_refreshAccessToken pool.shared)
    | settleRefresh k answer => exact h.settles hlawful.1 rfl
    | @restore _ answer =>
      have hsame : (pool.shared.restore lib answer).2.refreshPromise = pool.shared.refreshPromise ∧
          (pool.shared.restore lib answer).2.promises = pool.shared.promises := by
        unfold Page.restore
        repeat' split
        all_goals exact ⟨rfl, rfl⟩
      exact hquiet hsame.1 hsame.2 (fun _ => rfl) nofun fun k => ⟨nofun, nofun⟩
    | awaitRefresh => exact hquiet rfl rfl (fun _ => rfl) nofun fun k => ⟨nofun, nofun⟩
    | doFetch => exact hquiet rfl rfl (fun _ => rfl) nofun fun k => ⟨nofun, nofun⟩
    | setAccessToken => exact hquiet rfl rfl (fun _ => rfl) nofun fun k => ⟨nofun, nofun⟩
    | signIn => exact hquiet rfl rfl (fun _ => rfl) nofun fun k => ⟨nofun, nofun⟩
    | signOut => exact hquiet rfl rfl (fun _ => rfl) nofun fun k => ⟨nofun, nofun⟩
    | setIsLoading => exact hquiet rfl rfl (fun _ => rfl) nofun fun k => ⟨nofun, nofun⟩

theorem refreshInv_init (h₀ : PageInit pool₀) : RefreshInv [] pool₀ where
  held _ _ h := nomatch h
  alone _ _ _ h := nomatch h
  someone k hk := by
    rw [h₀.refreshPromise] at hk
    cases hk
  pending k := by
    rw [h₀.refreshPromise, h₀.promises]
    exact ⟨nofun, nofun⟩
  settled k t := by
    rw [h₀.promises]
    exact ⟨nofun, fun ⟨_, _, h⟩ => nomatch h⟩
  joined _ _ h := by cases h <;> contradiction

theorem refreshInv_run (h₀ : PageInit pool₀) (hrun : Run (PageStep lib) pool₀ past pool) : RefreshInv past pool := by
  have hstep : ∀ past s e t, Run (PageStep lib) pool₀ past s ∧ RefreshInv past s → PageStep lib s e t →
      Run (PageStep lib) pool₀ (past ++ [e]) t ∧ RefreshInv (past ++ [e]) t :=
    fun _ _ _ _ h hst => ⟨h.1.append (.single hst), refreshInv_step h₀ h.1 h.2 hst⟩
  exact (hrun.history hstep [] ⟨.nil _, refreshInv_init h₀⟩).2

section Resends

/-- Where only one entry is of a kind, it is found in one place. -/
theorem split_at_only {α : Type} {P : α → Prop} {first first' second second' : List α} {x y : α}
    (h : first ++ x :: second = first' ++ y :: second') (hx : P x) (hfirst : ∀ z ∈ first', ¬ P z)
    (hsecond : ∀ z ∈ second', ¬ P z) : first = first' ∧ x = y := by
  induction first' generalizing first with
  | nil =>
    cases first with
    | nil => exact ⟨rfl, List.head_eq_of_cons_eq h⟩
    | cons z first =>
      have hmem : x ∈ second' := by
        rw [← List.tail_eq_of_cons_eq h]
        exact List.mem_append_right _ (.head _)
      exact absurd hx (hsecond x hmem)
  | cons z first' ih =>
    cases first with
    | nil =>
      have heq : x = z := List.head_eq_of_cons_eq h
      exact absurd hx (hfirst x (heq ▸ .head _))
    | cons w first =>
      obtain ⟨rfl, rfl⟩ := ih (List.tail_eq_of_cons_eq h) fun z hz => hfirst z (.tail _ hz)
      exact ⟨by rw [List.head_eq_of_cons_eq h], rfl⟩

variable {trace before between after : List PageLabel} {c c' : FetchCall} {r r' : Except String Response}

/-- A token that was waited for comes from a refresh that was settled since. -/
theorem settled_since (h₀ : PageInit pool₀) (hrun : Run (PageStep lib) pool₀ (before ++ between) pool)
    (hjoin : .cmd i .refreshAccessToken (.pending k) ∈ between) {token : Option String}
    (hawait : .cmd i (.awaitRefresh k) token ∈ between) :
    ∃ j answer, .cmd j (.settleRefresh k answer) token ∈ between := by
  obtain ⟨first, second, hsplit⟩ := List.append_of_mem hjoin
  have hall : before ++ between = (before ++ first) ++ .cmd i .refreshAccessToken (.pending k) :: second := by
    rw [hsplit, List.append_assoc]
  obtain ⟨p, p', hbefore, hask, -⟩ := (hall ▸ hrun).at_label
  have hpending : p.shared.promises[k]? = some none := by
    cases hask with
    | cmd _ hexec =>
      have hasked := asked_refreshAccessToken p.shared
      generalize hreply : (RefreshPromise.pending k : PageReply .refreshAccessToken) = promise at hexec
      cases hexec with
      | refreshAccessToken =>
        rw [← hreply] at hasked
        generalize p.shared.refreshAccessToken.2 = t at hasked
        cases hasked with
        | pending hk => exact ((refreshInv_run h₀ hbefore).pending k).mp hk
  obtain ⟨first', second', hsplit'⟩ := List.append_of_mem hawait
  have hall' : before ++ between = (before ++ first') ++ .cmd i (.awaitRefresh k) token :: second' := by
    rw [hsplit', List.append_assoc]
  obtain ⟨q, q', hthen, hwait, -⟩ := (hall' ▸ hrun).at_label
  have hsettled : q.shared.promises[k]? = some (some token) := by
    cases hwait with
    | cmd _ hexec =>
      cases hexec with
      | awaitRefresh hk => exact hk
  obtain ⟨j, answer, hmem⟩ := ((refreshInv_run h₀ hthen).settled k token).mp hsettled
  rcases List.mem_append.mp hmem with hold | hnew
  · have hearly : p.shared.promises[k]? = some (some token) :=
      ((refreshInv_run h₀ hbefore).settled k token).mpr ⟨j, answer, List.mem_append_left _ hold⟩
    cases hpending.symm.trans hearly
  · refine ⟨j, answer, ?_⟩
    rw [hsplit']
    exact List.mem_append_left _ hnew

/-- A request is sent a second time only where it was refused, and with a token that was refreshed since. -/
theorem resent_after_refresh (h₀ : PageInit pool₀) (hrun : Run (PageStep lib) pool₀ trace pool)
    (htrace : trace = before ++ .cmd i (.doFetch c) r :: between ++ .cmd i (.doFetch c') r' :: after)
    (hsame : c'.url = c.url) (hother : c.url ≠ refreshUrl) :
    ∃ res token, r = .ok res ∧ res.status = 401 ∧ token ≠ "" ∧ c' = { c with headers := authorize token c.headers } ∧
      (∃ j k answer, .cmd j (.settleRefresh k answer) (some token) ∈ between ∧ refreshedToken answer = some token) ∧
      ∀ d answer, .cmd i (.doFetch d) answer ∈ between → d = refreshCall := by
  rw [htrace] at hrun
  obtain ⟨p, p', hpast, hstep, -⟩ := hrun.at_label
  have hseen : seenBy i (before ++ .cmd i (.doFetch c) r :: between) =
      seenBy i between ++ (⟨.doFetch c, r⟩ :: seenBy i before : Past) := by
    have hcons : (.cmd i (.doFetch c) r :: between : List PageLabel) = [.cmd i (.doFetch c) r] ++ between := rfl
    rw [hcons, ← List.append_assoc, seenBy_append, seenBy_append, seenBy_cmd_self]
    rfl
  have hsends : Sends (seenBy i (before ++ .cmd i (.doFetch c) r :: between)) c' := by
    cases hstep with
    | cmd hi _ =>
      obtain ⟨call, -, hlawful, -⟩ := lawful_of_thread h₀ hpast hi
      exact hlawful.1
  have hne : c'.url ≠ refreshUrl := fun h => hother (hsame.symm.trans h)
  generalize hpresent : seenBy i (before ++ .cmd i (.doFetch c) r :: between) = seen at hsends hseen
  cases hsends with
  | refresh => exact absurd rfl hne
  | first h =>
    have hsaw : Saw seen (.doFetch c) r := by
      rw [hseen]
      exact List.mem_append_right _ (.head _)
    exact absurd hsame.symm (h hne c r hsaw)
  | @again mid earlier promise c₀ res token hfirst hrefused htoken hawaited =>
    have hsplit : seenBy i between ++ ⟨.doFetch c, r⟩ :: seenBy i before =
        (mid ++ [⟨.refreshAccessToken, promise⟩]) ++ ⟨.doFetch c₀, .ok res⟩ :: earlier := by
      rw [← hseen, List.append_assoc]
      rfl
    have honly : ∀ d answer, (⟨.doFetch d, answer⟩ : Σ c, PageReply c) ∈ mid ++ [⟨.refreshAccessToken, promise⟩] →
        d = refreshCall := by
      intro d answer hmem
      rcases List.mem_append.mp hmem with hmid | hlast
      · exact awaited_fetches hawaited hmid
      · cases List.mem_singleton.mp hlast
    obtain ⟨hbetween, heq⟩ := split_at_only (P := fun e => ∃ d answer, e = ⟨.doFetch d, answer⟩ ∧ d.url = c.url) hsplit
      ⟨c, r, rfl, rfl⟩ (by
        rintro _ hz ⟨d, answer, rfl, hurl⟩
        rw [honly d answer hz] at hurl
        exact hother hurl.symm) (by
        rintro _ hz ⟨d, answer, rfl, hurl⟩
        exact hfirst hne d answer hz (hurl.trans hsame.symm))
    cases heq
    have hobtained : ∃ j k answer, .cmd j (.settleRefresh k answer) (some token) ∈ between := by
      cases hawaited with
      | pending k =>
        have hpast' : Run (PageStep lib) pool₀ ((before ++ [.cmd i (.doFetch c) (.ok res)]) ++ between) p := by
          rw [List.append_assoc]
          exact hpast
        have hjoin : .cmd i .refreshAccessToken (.pending k) ∈ between := by
          rw [← saw_seenBy, hbetween]
          exact .tail _ (.head _)
        have hawait : .cmd i (.awaitRefresh k) (some token) ∈ between := by
          rw [← saw_seenBy, hbetween]
          exact .head _
        obtain ⟨j, answer, hsettled⟩ := settled_since h₀ hpast' hjoin hawait
        exact ⟨j, k, answer, hsettled⟩
      | started k answer =>
        refine ⟨i, k, answer, saw_seenBy.mp ?_⟩
        rw [hbetween]
        exact .head _
    obtain ⟨j, k, answer, hsettled⟩ := hobtained
    refine ⟨res, token, rfl, hrefused, htoken, rfl, ⟨j, k, answer, hsettled, ?_⟩, ?_⟩
    · have hmem : .cmd j (.settleRefresh k answer) (some token) ∈ before ++ .cmd i (.doFetch c) (.ok res) :: between :=
        List.mem_append_right _ (.tail _ hsettled)
      obtain ⟨_, _, _, _, -, -, hexec⟩ := executed_of_mem hpast hmem
      generalize (some token : PageReply (.settleRefresh k answer)) = t at hexec ⊢
      cases hexec
      rfl
    · intro d answer hmem
      refine honly d answer ?_
      rw [← hbetween]
      exact saw_seenBy.mpr hmem

end Resends

section Finish

variable {trace : List PageLabel} {α : Type}

theorem within_awaitRefresh (promise : RefreshPromise) : Within 2 (awaitRefresh promise) := by
  cases promise with
  | pending k => exact fun _ => trivial
  | started k => exact fun _ _ => trivial

theorem within_authorizedHeaders (o : RequestOptions) : Within 3 (authorizedHeaders o) := by
  unfold authorizedHeaders
  split
  · intro promise
    have hawait : Within 2 (awaitToken promise) := by
      cases promise with
      | ready token => trivial
      | refresh promise => exact within_awaitRefresh promise
    refine hawait.bind (m := 0) fun token => ?_
    cases token.filter (· ≠ "") <;> trivial
  · trivial

theorem within_retry (c : FetchCall) (o : RequestOptions) (res : Response) : Within 4 (retry c o res) := by
  unfold retry
  split
  · intro promise
    refine (within_awaitRefresh promise).bind (m := 1) fun token => ?_
    cases token.filter (· ≠ "") with
    | none => trivial
    | some token => exact fun _ => trivial
  · trivial

/-- Two attempts with a refresh before each of them. -/
theorem within_apiRequest (path : String) (o : RequestOptions) : Within 8 (apiRequest lib path o) := by
  refine (within_authorizedHeaders o).bind (m := 5) fun headers => ?_
  intro answer
  cases answer with
  | error e => trivial
  | ok res =>
    refine (within_retry _ o res).bind (m := 0) fun answer => ?_
    cases answer <;> trivial

theorem within_apiPost (path : String) (body : Option String) : Within 1 (apiPost lib path body false) := by
  intro answer
  cases answer with
  | error e => trivial
  | ok res =>
    have hretry : ∀ c o, o.auth = false → retry c o res = .ret (.ok res) := by
      intro c o hauth
      rw [retry, hauth, Bool.and_false]
      rfl
    show Within 0 (retry _ _ res >>= _)
    rw [hretry _ _ rfl]
    trivial

theorem within_checkSession : Within 9 (checkSession lib) :=
  (within_apiRequest API_PATHS.whoami ⟨"GET", none, [], true⟩).bind (m := 1) fun _ _ => trivial

theorem within_login (body : String) : Within 11 (login lib body) := by
  refine (within_apiPost API_PATHS.login (some body)).bind (m := 10) fun r => ?_
  cases r with
  | error e => trivial
  | ok res =>
    dsimp only
    split
    · trivial
    · intro _
      refine (within_apiRequest API_PATHS.whoami ⟨"GET", none, [], true⟩).bind (m := 1) fun r => ?_
      cases r with
      | error e => trivial
      | ok whoami =>
        dsimp only
        split
        · trivial
        · split
          · trivial
          · exact fun _ => trivial

/-- No call awaits more than twelve things. -/
theorem within_call (lib : PageLib) (call : PageCall) : Within 12 (call.prog lib) := by
  cases call with
  | request path o =>
    refine Within.mono (n := 8) (by decide) ?_
    exact (within_apiRequest path o).bind (m := 0) fun _ => trivial
  | checkSession => exact within_checkSession.mono (by decide)
  | refreshSession => exact fun _ => within_checkSession.mono (by decide)
  | login body => exact (within_login body).mono (by decide)
  | register body loginBody =>
    refine (within_apiPost API_PATHS.register (some body)).bind (m := 11) fun r => ?_
    cases r with
    | error e => trivial
    | ok res =>
      dsimp only
      split
      · exact within_login loginBody
      · trivial
  | logout =>
    refine Within.mono (n := 2) (by decide) ?_
    exact (within_apiPost API_PATHS.logout none).bind (m := 1) fun _ _ => trivial
  | oauthCallback token =>
    show Within 12 (if _ then _ else _)
    split
    · trivial
    · exact fun _ => within_checkSession.mono (by decide)

/-- A command that does not wait for a refresh of another call can be given at once. -/
theorem enabled_or_awaits (lib : PageLib) (s : Page) (c : PageCmd) : (∃ r t, Exec lib c s r t) ∨
    ∃ k, c = .awaitRefresh k ∧ ∀ token, s.promises[k]? ≠ some (some token) := by
  cases c with
  | awaitRefresh k =>
    by_cases h : ∃ token, s.promises[k]? = some (some token)
    · obtain ⟨token, htoken⟩ := h
      exact .inl ⟨_, _, .awaitRefresh htoken⟩
    · exact .inr ⟨k, rfl, fun token htoken => h ⟨token, htoken⟩⟩
  | getValidToken => exact .inl ⟨_, _, .getValidToken s⟩
  | refreshAccessToken => exact .inl ⟨_, _, .refreshAccessToken s⟩
  | settleRefresh k answer => exact .inl ⟨_, _, .settleRefresh s k answer⟩
  | doFetch c => exact .inl ⟨.error "", _, .doFetch s c _⟩
  | setAccessToken token => exact .inl ⟨_, _, .setAccessToken s token⟩
  | signIn user role => exact .inl ⟨_, _, .signIn s user role⟩
  | restore answer => exact .inl ⟨_, _, .restore s answer⟩
  | signOut => exact .inl ⟨_, _, .signOut s⟩
  | setIsLoading => exact .inl ⟨_, _, .setIsLoading s⟩

/-- The call that brings the refresh about is not waiting for another. -/
theorem refresh_in_hand (h₀ : PageInit pool₀) (hrun : Run (PageStep lib) pool₀ trace pool)
    (hk : pool.shared.promises[k]? = some none) : ∃ (i : Nat) (c : PageCmd) (next : PageReply c → PageProg Bool),
      pool.threads[i]? = some (.call c next) ∧ ((∃ d, c = .doFetch d) ∨ ∃ answer, c = .settleRefresh k answer) := by
  have hinv := refreshInv_run h₀ hrun
  obtain ⟨i, howed⟩ := hinv.someone k ((hinv.pending k).mpr hk)
  cases hi : pool.threads[i]? with
  | none =>
    rw [seenBy_unstarted hrun (List.getElem?_eq_none_iff.mp hi)] at howed
    cases howed
  | some p =>
    obtain ⟨call, -, hupholds⟩ := lawful_of_thread h₀ hrun hi
    cases p with
    | ret b => cases howed.symm.trans (show owed (seenBy i trace) = none from hupholds)
    | call c next =>
      refine ⟨i, c, next, hi, ?_⟩
      have hlawful := hupholds.1
      cases c with
      | doFetch d => exact .inl ⟨d, rfl⟩
      | settleRefresh k' answer =>
        obtain rfl := Option.some.inj (howed.symm.trans hlawful.1)
        exact .inr ⟨answer, rfl⟩
      | getValidToken => cases howed.symm.trans hlawful
      | refreshAccessToken => cases howed.symm.trans hlawful
      | awaitRefresh => cases howed.symm.trans hlawful.1
      | setAccessToken => cases howed.symm.trans hlawful.1
      | signIn => cases howed.symm.trans hlawful.1
      | restore => cases howed.symm.trans hlawful.1
      | signOut => cases howed.symm.trans hlawful
      | setIsLoading => cases howed.symm.trans hlawful

end Finish

section Sample

def sampleLib : PageLib := ⟨fun _ => some (.obj [("exp", .int 4102444800)]), id⟩

def blankPage : Page := ⟨none, none, [], none, true, false, none, 1760000000000⟩

theorem blankPage_init : PageInit ⟨blankPage, []⟩ := ⟨rfl, rfl, rfl, rfl, rfl, rfl⟩

def grants (token : String) : Except String Response :=
  .ok ⟨200, some ⟨true, some ⟨some token, none, none⟩, none, none⟩⟩

def listRooms : PageCall := .request "/users/1/rooms" ⟨"GET", none, [], true⟩

def roomsCall (token : String) : FetchCall :=
  ⟨"/api/users/1/rooms", "GET", authorize token [], none⟩

/-- A token is refused, refreshed, and the request sent again. -/
def refusedOnce : List PageLabel :=
  [.spawn (listRooms.prog sampleLib), .cmd 0 .getValidToken (.refresh (.started 0)),
    .cmd 0 (.doFetch refreshCall) (grants "h.old.s"), .cmd 0 (.settleRefresh 0 (grants "h.old.s")) (some "h.old.s"),
    .cmd 0 (.doFetch (roomsCall "h.old.s")) (.ok ⟨401, none⟩), .cmd 0 .refreshAccessToken (.started 1),
    .cmd 0 (.doFetch refreshCall) (grants "h.new.s"), .cmd 0 (.settleRefresh 1 (grants "h.new.s")) (some "h.new.s"),
    .cmd 0 (.doFetch (roomsCall "h.new.s")) (.ok ⟨200, none⟩)]

theorem refusedOnce_run : ∃ pool, Run (PageStep sampleLib) ⟨blankPage, []⟩ refusedOnce pool := by
  refine ⟨_, .cons (.spawn ⟨listRooms, rfl⟩) (.cons (.cmd rfl (.getValidToken _)) (.cons (.cmd rfl (.doFetch _ _ _))
    (.cons (.cmd rfl (.settleRefresh _ _ _)) (.cons (.cmd rfl (.doFetch _ _ _)) (.cons (.cmd rfl (.refreshAccessToken _))
    (.cons (.cmd rfl (.doFetch _ _ _)) (.cons (.cmd rfl (.settleRefresh _ _ _)) (.cons (.cmd rfl (.doFetch _ _ _))
    (.nil _)))))))))⟩

end Sample

/-- The rooms are listed at the second attempt. -/
theorem resent_after_refresh_refusedOnce : ∃ token, roomsCall "h.new.s" =
    { roomsCall "h.old.s" with headers := authorize token (roomsCall "h.old.s").headers } ∧
    ∃ j k answer, .cmd j (.settleRefresh k answer) (some token) ∈ refusedOnce ∧ refreshedToken answer = some token := by
  obtain ⟨pool, hrun⟩ := refusedOnce_run
  have hsplit : refusedOnce = refusedOnce.take 4 ++ .cmd 0 (.doFetch (roomsCall "h.old.s")) (.ok ⟨401, none⟩) ::
      (refusedOnce.drop 5).take 3 ++ .cmd 0 (.doFetch (roomsCall "h.new.s")) (.ok ⟨200, none⟩) :: [] := rfl
  obtain ⟨res, token, -, -, -, hresent, ⟨j, k, answer, hmem, hanswer⟩, -⟩ :=
    resent_after_refresh blankPage_init hrun hsplit rfl (by decide)
  have hsub : (refusedOnce.drop 5).take 3 ⊆ refusedOnce := fun _ h => List.mem_of_mem_drop (List.mem_of_mem_take h)
  exact ⟨token, hresent, j, k, answer, hsub hmem, hanswer⟩

end Chinwag.Session

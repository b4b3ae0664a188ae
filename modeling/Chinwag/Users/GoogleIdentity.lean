import Chinwag.Users.DisabledAccounts

/-!
# Whose tokens a Google login hands out

The tokens are those of the active row with the email Google vouched for, exactly if the
lookup found that row, or there was no row with that email at all.
-/
namespace Chinwag.Users

open Program Auth Transition

variable {s t : UserState} {info : GoogleUserInfo} {jkt : String} {access : AccessClaims}
  {refresh : RefreshTokenClaims}

abbrev LoginPool := Pool UserState UserCmd UserReply (Result (AccessClaims × RefreshTokenClaims))

abbrev LoginLabel := Label Nat UserCmd UserReply (Result (AccessClaims × RefreshTokenClaims))

/-- A call of `findOrCreateUser`, with time passing as it likes. -/
abbrev LoginStep : LoginPool → LoginLabel → LoginPool → Prop := SoleStep userSemantics

variable {trace : List LoginLabel}

/-- The tokens name the active row with that email. -/
def TokensOf (t : UserTable) (email : String) (access : AccessClaims) (refresh : RefreshTokenClaims) : Prop :=
  ∃ u ∈ t.rows, u.email = email ∧ u.deletedAt = none ∧
    access.subject = u.id ∧ access.role = u.role ∧ refresh.subject = u.id

def Finds (email : String) (l : LoginLabel) : Prop :=
  ∃ i u, l = .cmd i (.read (.getUserByEmail email)) (.ok u)

theorem table_elapsed {es : List Nat} (h : Run userSemantics.env s es t) : t.table = s.table := by
  have hkeep : ∀ u e v, u.table = s.table → userSemantics.env u e v → v.table = s.table := by
    rintro u e v hu rfl
    exact hu
  exact h.invariant hkeep rfl

theorem not_finds_env {email : String} {es : List Nat} {l : LoginLabel} (h : l ∈ es.map .env) :
    ¬ Finds email l := by
  rintro ⟨i, u, rfl⟩
  obtain ⟨e, -, he⟩ := List.mem_map.mp h
  cases he

/-- A login that stops on the way has not succeeded. -/
theorem not_returned {r : Result (AccessClaims × RefreshTokenClaims)}
    (h : Run LoginStep ⟨s, [.ret r]⟩ trace ⟨t, [.ret (.ok (access, refresh))]⟩) : r = .ok (access, refresh) :=
  (sole_ret h).1.symm

/-- The tokens at the end are those of the user the login has come to. -/
theorem issued_tokens {user : User}
    (h : Run LoginStep ⟨s, [issueTokens user jkt]⟩ trace ⟨t, [.ret (.ok (access, refresh))]⟩) :
    access.subject = user.id ∧ access.role = user.role ∧ refresh.subject = user.id ∧
      t.table = s.table ∧ ∀ email, ∀ l ∈ trace, ¬ Finds email l := by
  obtain ⟨es₁, s₁, signed, s₂, after₁, rfl, hdrift₁, hsign, h⟩ := sole_call h
  cases hsign with
  | outside hsign =>
  cases signed with
  | error e => cases not_returned h
  | ok token =>
  obtain ⟨es₂, s₃, issued, s₄, after₂, rfl, hdrift₂, hissue, h⟩ := sole_call h
  cases hissue with
  | outside hissue =>
  cases issued with
  | error e => cases not_returned h
  | ok token' =>
  obtain ⟨hret, es₃, rfl, hdrift₃⟩ := sole_ret h
  cases hret
  obtain rfl := hsign access rfl
  refine ⟨rfl, rfl, (hissue refresh rfl).1, ?_, ?_⟩
  · rw [table_elapsed hdrift₃, table_elapsed hdrift₂, table_elapsed hdrift₁]
  · intro email l hl hfinds
    obtain ⟨i, u, rfl⟩ := hfinds
    simp at hl

/-- The account a Google login makes up. -/
def googleUser (id : String) (info : GoogleUserInfo) : User :=
  ⟨id, info.name, info.email, "", .USER, "google", some info.id, 0, 0, none⟩

/-- A creation ends with tokens for the id it drew, whatever row the upsert wrote to. -/
theorem created_tokens (h : Run LoginStep ⟨s, [do
      match ← createUserFromGoogle info with
      | .error e => return .error e
      | .ok user => issueTokens user jkt]⟩ trace ⟨t, [.ret (.ok (access, refresh))]⟩) :
    ∃ id now n, (∀ u ∈ s.table.rows, u.id ≠ id) ∧
      s.table.createOAuthUser (googleUser id info) now = .ok (t.table, n) ∧
      access.subject = id ∧ access.role = .USER ∧ refresh.subject = id ∧
      ∀ email, ∀ l ∈ trace, ¬ Finds email l := by
  obtain ⟨es₁, s₁, id, s₂, after₁, rfl, hdrift₁, hdraw, h⟩ := sole_call h
  cases hdraw with
  | outside hno => exact hno.elim
  | newV7 _ hfree =>
  obtain ⟨es₂, s₃, written, s₄, after₂, rfl, hdrift₂, hwrite, h⟩ := sole_call h
  cases written with
  | error e => cases not_returned h
  | ok n =>
  cases hwrite with
  | outside hno => exact hno.elim
  | write happly =>
  obtain ⟨hsub, hrole, hrefresh, htable, hquiet⟩ := issued_tokens h
  have hdrawn : s₁.table = s.table := table_elapsed hdrift₁
  have hsame : s₃.table = s.table := (table_elapsed hdrift₂).trans hdrawn
  refine ⟨id, s₃.now, n, ?_, ?_, hsub, hrole, hrefresh, ?_⟩
  · rw [← hdrawn]
    exact hfree
  · rw [← hsame, htable]
    exact happly
  · intro email l hl
    rcases List.mem_append.mp hl with hl | hl
    · exact not_finds_env hl
    rcases List.mem_cons.mp hl with rfl | hl
    · rintro ⟨i, u, heq⟩
      cases heq
    rcases List.mem_append.mp hl with hl | hl
    · exact not_finds_env hl
    rcases List.mem_cons.mp hl with rfl | hl
    · rintro ⟨i, u, heq⟩
      cases heq
    · exact hquiet email l hl

/-- Without a row of that email the upsert is an insertion. -/
theorem rows_createOAuthUser {table table' : UserTable} {user : User} {now n : Nat}
    (hnone : ∀ u ∈ table.rows, u.email ≠ user.email)
    (h : table.createOAuthUser user now = .ok (table', n)) :
    UserTable.newRow user user.provider user.providerID now ∈ table'.rows := by
  unfold UserTable.createOAuthUser at h
  rw [if_neg fun ⟨u, hu, he⟩ => hnone u hu he] at h
  unfold UserTable.insert at h
  split at h
  · obtain rfl := congrArg Prod.fst (Except.ok.inj h)
    exact List.mem_append_right _ (List.mem_singleton_self _)
  · cases h

theorem exec_read {i : Nat} {q : Query} {reply : UserReply (.read q)} (h : Exec i (.read q) s reply t) :
    t.table = s.table ∧ (reply = s.table.answer q ∨ reply = .error .unavailable) := by
  cases h with
  | read => exact ⟨(note_table s i q _).1, Or.inl rfl⟩
  | readFailed => exact ⟨rfl, Or.inr rfl⟩
  | outside hno => exact hno.elim

/-- A Google login that succeeds hands out the tokens of the active row with that email, exactly
if no row had the email or the lookup answered with the active one. -/
theorem google_identity_iff
    (h : Run LoginStep ⟨s, [findOrCreateUser info jkt]⟩ trace ⟨t, [.ret (.ok (access, refresh))]⟩) :
    TokensOf t.table info.email access refresh ↔
      (∀ u ∈ s.table.rows, u.email ≠ info.email) ∨ ∃ l ∈ trace, Finds info.email l := by
  obtain ⟨es, s₁, found, s₂, after, rfl, hdrift, hread, h⟩ := sole_call h
  have htable : s₁.table = s.table := table_elapsed hdrift
  obtain ⟨hkept, hanswer⟩ := exec_read hread
  cases found with
  | ok user =>
    obtain ⟨hmem, hemail, hactive⟩ := UserTable.getUserByEmail_ok (hanswer.resolve_right nofun).symm
    obtain ⟨hsub, hrole, hrefresh, hstill, -⟩ := issued_tokens h
    constructor
    · intro _
      exact Or.inr ⟨_, List.mem_append_right _ List.mem_cons_self, 0, user, rfl⟩
    · intro _
      rw [hstill, hkept]
      exact ⟨user, hmem, hemail, hactive, hsub, hrole, hrefresh⟩
  | error e =>
    obtain ⟨id, now, n, hfree, happly, hsub, hrole, hrefresh, hquiet⟩ := created_tokens h
    rw [hkept, htable] at hfree happly
    constructor
    · rintro ⟨u, hu, hemail, -, hid, -⟩
      refine Or.inl fun v hv hv' => ?_
      -- the upsert kept the row and its id, and the tokens carry another
      have heff : Write.Effect (.createOAuthUser (googleUser id info)) now s.table t.table :=
        Write.effect_of_apply happly
      have hrow := heff.revised v hv hv'
      have hsame := t.table.eq_of_email hu hrow (hemail.trans hv'.symm)
      refine hfree v hv ?_
      rw [← hsub, hid, hsame, Write.revise_id]
    · rintro (hnone | ⟨l, hl, hfinds⟩)
      · exact ⟨_, rows_createOAuthUser hnone happly, rfl, rfl, hsub, hrole, hrefresh⟩
      · exfalso
        rcases List.mem_append.mp hl with hl | hl
        · exact not_finds_env hl hfinds
        rcases List.mem_cons.mp hl with rfl | hl
        · obtain ⟨i, u, heq⟩ := hfinds
          cases heq
        · exact hquiet _ l hl hfinds

section Sample

def googleInfo (email : String) : GoogleUserInfo := ⟨"1", email, "Eve"⟩

/-- Tokens for that subject can be signed and issued at any time. -/
theorem alone_issueTokens {i : Nat} (s : UserState) (user : User) (jkt : String) :
    Alone (Exec i) Eq (issueTokens user jkt) s
      (.ok (⟨user.id, user.role, jkt⟩, ⟨user.id, eveUuid, eveUuid, jkt⟩)) s := by
  have hsign : Exec i (.signWithCNF user.id user.role jkt) s (.ok ⟨user.id, user.role, jkt⟩) s := by
    refine .outside fun token h => ?_
    exact (Except.ok.inj h).symm
  have hissue : Exec i (.issueRefreshToken user.id jkt) s (.ok ⟨user.id, eveUuid, eveUuid, jkt⟩) s := by
    refine .outside fun token h => ?_
    obtain rfl := Except.ok.inj h
    exact ⟨rfl, rfl⟩
  exact .call rfl hsign (.call rfl hissue (.ret _ _))

end Sample

/-- A disabled account logs in with Google: it is active again, and the tokens are nobody's. -/
theorem google_tokens_of_nobody : ∃ trace t access refresh,
    Run LoginStep ⟨restingState bannedTable, [findOrCreateUser (googleInfo "eve@example.org") eveJkt]⟩ trace
      ⟨t, [.ret (.ok (access, refresh))]⟩ ∧
    (∃ u ∈ t.table.rows, u.email = "eve@example.org" ∧ u.deletedAt = none) ∧
    ∀ u ∈ t.table.rows, u.id ≠ access.subject ∧ u.id ≠ refresh.subject := by
  have hbanned : bannedUser ∈ bannedTable.rows := List.mem_singleton_self _
  have hfree : ∀ u ∈ bannedTable.rows, u.id ≠ "new" := by
    intro u hu
    obtain rfl := List.mem_singleton.mp hu
    decide
  obtain ⟨t, n, happly⟩ : ∃ t n, Write.apply 1 bannedTable
      (.createOAuthUser (googleUser "new" (googleInfo "eve@example.org"))) = .ok (t, n) :=
    exists_upsert ⟨bannedUser, hbanned, rfl⟩
  have hread : Exec 0 (.read (.getUserByEmail "eve@example.org")) (restingState bannedTable)
      (.error .noRows) (restingState bannedTable) := .read _
  have halone : Alone (Exec 0) Eq (findOrCreateUser (googleInfo "eve@example.org") eveJkt)
      (restingState bannedTable) _ _ :=
    .call rfl hread <| .call rfl (.newV7 List.not_mem_nil hfree) <| .call rfl (.write happly) <|
      alone_issueTokens _ (googleUser "new" (googleInfo "eve@example.org")) eveJkt
  obtain ⟨trace, hrun⟩ : ∃ trace, Run LoginStep
      ⟨restingState bannedTable, [findOrCreateUser (googleInfo "eve@example.org") eveJkt]⟩ trace ⟨_, [.ret _]⟩ :=
    Alone.run (S := userSemantics) (i := 0) halone rfl
  have heff := Write.effect_of_apply happly
  refine ⟨trace, _, _, _, hrun, ⟨_, heff.revised bannedUser hbanned rfl, rfl, rfl⟩, ?_⟩
  intro u hu
  have hid : u.id ≠ "new" := by
    rcases heff.origin u hu with ⟨hold, -⟩ | ⟨v, hv, -, rfl⟩ | ⟨hins, hnone⟩
    · exact hfree u hold
    · rw [Write.revise_id]
      exact hfree v hv
    · obtain rfl := Option.some.inj hins
      exact absurd rfl (hnone bannedUser hbanned).2
  exact ⟨hid, hid⟩

/-- An account that the lookup finds. -/
theorem google_identity_root : ∃ t access refresh, TokensOf t "root@example.org" access refresh := by
  have hread : Exec 0 (.read (.getUserByEmail "root@example.org")) (restingState rootTable)
      (.ok rootUser) (restingState rootTable) := .read _
  obtain ⟨trace, hrun⟩ : ∃ trace, Run LoginStep ⟨restingState rootTable, [issueTokens rootUser eveJkt]⟩ trace
      ⟨restingState rootTable, [.ret _]⟩ :=
    Alone.run (S := userSemantics) (i := 0) (alone_issueTokens (restingState rootTable) rootUser eveJkt) rfl
  have hstep : LoginStep ⟨restingState rootTable, [findOrCreateUser (googleInfo "root@example.org") eveJkt]⟩
      (.cmd 0 (.read (.getUserByEmail "root@example.org")) (.ok rootUser))
      ⟨restingState rootTable, [issueTokens rootUser eveJkt]⟩ := Step.into rfl hread rfl
  exact ⟨_, _, _, (google_identity_iff (.cons hstep hrun)).mpr (Or.inr ⟨_, List.mem_cons_self, 0, rootUser, rfl⟩)⟩

end Chinwag.Users

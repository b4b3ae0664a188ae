import Chinwag.Auth.SessionInvariant

/-!
# Every step keeps the session invariant

An issue, an accepted rotation and the passage of time preserve `SessionInv` and undo
nothing that `Later` records.
-/
namespace Chinwag.Auth

open Redis Script Program

variable {r : RefreshConfig} {s : Sessions}

section Issue

variable {sid jti : Uuid} {user jkt : String} {now : Int}

theorem issued_token : (issued r s.redis sid jti user jkt now).data (r.tokenKey jti.text) =
    some ⟨.hash (setFields ∅ (activeFields sid.text user jkt (toString now))),
      some (deadline r s.redis)⟩ := by
  simp [issued, Server.data_set]

theorem issued_lineage : (issued r s.redis sid jti user jkt now).data (r.lineageKey sid.text) =
    some ⟨.hash (setFields ∅ (activeFields sid.text user jkt (toString now))),
      some (deadline r s.redis)⟩ := by
  simp [issued, Server.data_set]

theorem issued_members : (issued r s.redis sid jti user jkt now).data (r.lineageMembersKey sid.text) =
    some ⟨.set [jti.text], some (deadline r s.redis)⟩ := by
  simp [issued, Server.data_set]

theorem mem_index_issued {user' sid' : String} :
    sid' ∈ indexOf (issued r s.redis sid jti user jkt now) (r.userKey user') ↔
      (user' = user ∧ sid' = sid.text) ∨ sid' ∈ indexOf s.redis (r.userKey user') := by
  by_cases hu : user' = user
  · subst hu
    simp [indexOf, issued, Server.data_set]
  · simp [indexOf, issued, Server.data_set, hu]

theorem inv_issued (h : SessionInv r s) (hjti : FreshJti s jti) (hs : FreshSid r s sid) (hb : jkt ≠ "") :
    SessionInv r ⟨issued r s.redis sid jti user jkt now, s.minted ++ [⟨user, jti, sid, jkt⟩]⟩ := by
  have hsid : ∀ c ∈ s.minted, c.sid ≠ sid := hs.unused
  have htok : ∀ u : Uuid, u ≠ jti → (issued r s.redis sid jti user jkt now).data (r.tokenKey u.text) =
      s.redis.data (r.tokenKey u.text) := by
    intro u hu
    simp [issued, Server.data_set, hu]
  have hlin : ∀ c ∈ s.minted, (issued r s.redis sid jti user jkt now).data (r.lineageKey c.sid.text) =
      s.redis.data (r.lineageKey c.sid.text) := by
    intro c hc
    simp [issued, Server.data_set, hsid c hc]
  have hmem : ∀ sid', sid' ≠ sid.text →
      (issued r s.redis sid jti user jkt now).data (r.lineageMembersKey sid') =
        s.redis.data (r.lineageMembersKey sid') := by
    intro sid' hne
    simp [issued, Server.data_set, hne]
  constructor
  · intro c hc
    rcases List.mem_append.mp hc with hc | hc
    · rcases h.tokens c hc with hr | ⟨f, t, hd, hk⟩
      · exact Or.inl (hr.congr (htok _ (hjti c hc)))
      · refine Or.inr ⟨f, t, (htok _ (hjti c hc)).trans hd, hk.status, hk.sid, hk.user, fun g t' hl => ?_⟩
        exact hk.outlived g t' ((hlin c hc).symm.trans hl)
    · obtain rfl := List.mem_singleton.mp hc
      refine Or.inr ⟨_, _, issued_token, Or.inl (by simp), by simp, by simp, fun g t' hl => ?_⟩
      cases issued_lineage.symm.trans hl
      exact Nat.le_refl _
  · intro c hc
    rcases List.mem_append.mp hc with hc | hc
    · rcases h.lineages c hc with hr | ⟨g, t, hd, ho⟩
      · exact Or.inl (hr.congr (hlin c hc))
      · refine Or.inr ⟨g, t, (hlin c hc).trans hd, ho.status, ho.created, ho.bounded, ?_, fun ht => ?_⟩
        · exact mem_index_issued.mpr (Or.inr ho.indexed)
        · obtain ⟨ms, hne, hms⟩ := ho.members ht
          exact ⟨ms, hne, (hmem _ (by simpa using hsid c hc)).trans hms⟩
    · obtain rfl := List.mem_singleton.mp hc
      refine Or.inr ⟨_, _, issued_lineage, by simp, ⟨now, by simp⟩, Nat.le_refl _, ?_, fun _ => ?_⟩
      · exact mem_index_issued.mpr (Or.inl ⟨rfl, rfl⟩)
      · exact ⟨_, by simp, issued_members⟩
  · intro sid' ms x hms m hm
    by_cases he : sid' = sid.text
    · subst he
      cases issued_members.symm.trans hms
      obtain rfl := List.mem_singleton.mp hm
      exact ⟨_, List.mem_append_right _ (List.mem_singleton_self _), rfl, rfl⟩
    · obtain ⟨c, hc, hcj, hcs⟩ := h.members sid' ms x ((hmem sid' he).symm.trans hms) m hm
      exact ⟨c, List.mem_append_left _ hc, hcj, hcs⟩
  · intro u hu
    by_cases he : u = jti
    · exact ⟨_, List.mem_append_right _ (List.mem_singleton_self _), he.symm⟩
    · rw [htok u he] at hu
      obtain ⟨c, hc, hcu⟩ := h.records u hu
      exact ⟨c, List.mem_append_left _ hc, hcu⟩
  · intro user'
    by_cases he : user' = user
    · subst he
      exact Or.inr ⟨_, by simp [issued, Server.data_set]; rfl⟩
    · exact (h.userIndex user').congr (by simp [issued, Server.data_set, he])
  · exact Or.inr ⟨_, by simp [issued]; rfl⟩
  · intro user' sid' hi
    rcases mem_index_issued.mp hi with ⟨rfl, rfl⟩ | hi
    · exact ⟨_, List.mem_append_right _ (List.mem_singleton_self _), rfl, rfl⟩
    · obtain ⟨c, hc, hcu⟩ := h.listed user' sid' hi
      exact ⟨c, List.mem_append_left _ hc, hcu⟩
  · intro c hc c' hc' he ha ha'
    rcases List.mem_append.mp hc with hc | hc <;> rcases List.mem_append.mp hc' with hc' | hc'
    · exact h.single c hc c' hc' he (ha.congr (htok _ (hjti c hc)).symm)
        (ha'.congr (htok _ (hjti c' hc')).symm)
    · obtain rfl := List.mem_singleton.mp hc'
      exact absurd he (hsid c hc)
    · obtain rfl := List.mem_singleton.mp hc
      exact absurd he.symm (hsid c' hc')
    · rw [List.mem_singleton.mp hc, List.mem_singleton.mp hc']
  · intro c hc c' hc' he
    rcases List.mem_append.mp hc with hc | hc <;> rcases List.mem_append.mp hc' with hc' | hc'
    · exact h.jti_inj c hc c' hc' he
    · obtain rfl := List.mem_singleton.mp hc'
      exact absurd he (hjti c hc)
    · obtain rfl := List.mem_singleton.mp hc
      exact absurd he.symm (hjti c' hc')
    · rw [List.mem_singleton.mp hc, List.mem_singleton.mp hc']
  · intro c hc c' hc' he
    rcases List.mem_append.mp hc with hc | hc <;> rcases List.mem_append.mp hc' with hc' | hc'
    · exact h.one_subject c hc c' hc' he
    · obtain rfl := List.mem_singleton.mp hc'
      exact absurd he (hsid c hc)
    · obtain rfl := List.mem_singleton.mp hc
      exact absurd he.symm (hsid c' hc')
    · rw [List.mem_singleton.mp hc, List.mem_singleton.mp hc']
  · intro c hc
    rcases List.mem_append.mp hc with hc | hc
    · exact h.bound c hc
    · rw [List.mem_singleton.mp hc]
      exact hb

theorem later_issued (hjti : FreshJti s jti) (hs : FreshSid r s sid) :
    Later r s ⟨issued r s.redis sid jti user jkt now, s.minted ++ [⟨user, jti, sid, jkt⟩]⟩ := by
  refine ⟨fun c hc => List.mem_append_left _ hc, Nat.le_refl _, fun sid' hr => ?_, fun c hc => Or.inl ?_⟩
  · obtain ⟨f, x, hd, hf⟩ := hr
    have hl : r.lineageKey sid' ≠ r.lineageKey sid.text := by
      intro he
      rw [he, hs.lineage] at hd
      cases hd
    have hm : r.lineageKey sid' ≠ r.lineageMembersKey sid.text := by
      intro he
      rw [he, hs.members] at hd
      cases hd
    have hl' : sid' ≠ sid.text := by simpa using hl
    exact ⟨f, x, by simpa [issued, Server.data_set, hm, hl'] using hd, hf⟩
  · simp [issued, Server.data_set, hjti c hc]

end Issue

section Rotation

variable {c : RefreshTokenClaims} {newJti : Uuid} {now created : Int} {cur lin : Fields}
  {members : List String} {t t' : Nat}

theorem rotated_old (hne : newJti ≠ c.jti) :
    (rotated r s.redis c newJti now created cur ∅ lin members).data (r.tokenKey c.jti.text) =
      some ⟨.hash (setFields cur [("status", "consumed")]), some (deadline r s.redis)⟩ := by
  simp [rotated, Server.data_set, hne.symm]

theorem rotated_new : (rotated r s.redis c newJti now created cur ∅ lin members).data
    (r.tokenKey newJti.text) =
      some ⟨.hash (setFields ∅ (activeFields c.sid.text c.subject c.jkt (toString now))),
        some (deadline r s.redis)⟩ := by
  simp [rotated, Server.data_set]

theorem rotated_lineage : (rotated r s.redis c newJti now created cur ∅ lin members).data
    (r.lineageKey c.sid.text) =
      some ⟨.hash (setFields lin (activeFields c.sid.text c.subject c.jkt (toString created))),
        some (deadline r s.redis)⟩ := by
  simp [rotated, Server.data_set]

theorem rotated_members : (rotated r s.redis c newJti now created cur ∅ lin members).data
    (r.lineageMembersKey c.sid.text) =
      some ⟨.set (members.insert newJti.text), some (deadline r s.redis)⟩ := by
  simp [rotated, Server.data_set]

theorem rotated_token_ne {u : Uuid} (h₁ : u ≠ c.jti) (h₂ : u ≠ newJti) :
    (rotated r s.redis c newJti now created cur ∅ lin members).data (r.tokenKey u.text) =
      s.redis.data (r.tokenKey u.text) := by
  simp [rotated, Server.data_set, h₁, h₂]

theorem rotated_lineage_ne {u : Uuid} (h : u ≠ c.sid) :
    (rotated r s.redis c newJti now created cur ∅ lin members).data (r.lineageKey u.text) =
      s.redis.data (r.lineageKey u.text) := by
  simp [rotated, Server.data_set, h]

theorem rotated_members_ne {sid : String} (h : sid ≠ c.sid.text) :
    (rotated r s.redis c newJti now created cur ∅ lin members).data (r.lineageMembersKey sid) =
      s.redis.data (r.lineageMembersKey sid) := by
  simp [rotated, Server.data_set, h]

theorem mem_index_rotated {user sid : String} :
    sid ∈ indexOf (rotated r s.redis c newJti now created cur ∅ lin members) (r.userKey user) ↔
      (user = c.subject ∧ sid = c.sid.text) ∨ sid ∈ indexOf s.redis (r.userKey user) := by
  by_cases hu : user = c.subject
  · subst hu
    simp [indexOf, rotated, Server.data_set]
  · simp [indexOf, rotated, Server.data_set, hu]

/-- The entries an accepted rotation starts from. -/
structure Accepts (r : RefreshConfig) (s : Sessions) (c : RefreshTokenClaims) (cur lin : Fields)
    (members : List String) (created : Int) : Prop where
  minted : c ∈ s.minted
  active : cur.lookup "status" = some "active"
  token : ∃ t, s.redis.data (r.tokenKey c.jti.text) = some ⟨.hash cur, some t⟩ ∧
    TokenKept r s.redis c cur t ∧ s.redis.now ≤ t
  lineage : ∃ t, s.redis.data (r.lineageKey c.sid.text) = some ⟨.hash lin, some t⟩ ∧
    LineageOpen r s.redis c lin t ∧
    s.redis.data (r.lineageMembersKey c.sid.text) = some ⟨.set members, some t⟩
  created : lin.lookup "created_at" = some (toString created)

theorem Accepts.active_jti (ha : Accepts r s c cur lin members created) : Active r s c.jti := by
  obtain ⟨t, hd, -⟩ := ha.token
  exact ⟨cur, some t, hd, ha.active⟩

theorem inv_rotated (h : SessionInv r s) (ha : Accepts r s c cur lin members created)
    (hjti : FreshJti s newJti) :
    SessionInv r ⟨rotated r s.redis c newJti now created cur ∅ lin members,
      s.minted ++ [⟨c.subject, newJti, c.sid, c.jkt⟩]⟩ := by
  have hne : newJti ≠ c.jti := (hjti c ha.minted).symm
  obtain ⟨t, hd, hk, ht⟩ := ha.token
  obtain ⟨t', hl, ho, hm⟩ := ha.lineage
  have htok : ∀ u : Uuid, u ≠ c.jti → u ≠ newJti →
      (rotated r s.redis c newJti now created cur ∅ lin members).data (r.tokenKey u.text) =
        s.redis.data (r.tokenKey u.text) := fun u => rotated_token_ne
  have hlin : ∀ u : Uuid, u ≠ c.sid →
      (rotated r s.redis c newJti now created cur ∅ lin members).data (r.lineageKey u.text) =
        s.redis.data (r.lineageKey u.text) := fun u => rotated_lineage_ne
  have hmem : ∀ sid, sid ≠ c.sid.text →
      (rotated r s.redis c newJti now created cur ∅ lin members).data (r.lineageMembersKey sid) =
        s.redis.data (r.lineageMembersKey sid) := fun sid => rotated_members_ne
  have hnew : (⟨c.subject, newJti, c.sid, c.jkt⟩ : RefreshTokenClaims) ∈
      s.minted ++ [⟨c.subject, newJti, c.sid, c.jkt⟩] :=
    List.mem_append_right _ (List.mem_singleton_self _)
  -- The presented token stops being active, so the new one is the only active one.
  have hact : ∀ c' ∈ s.minted, Active r ⟨rotated r s.redis c newJti now created cur ∅ lin members,
      s.minted ++ [⟨c.subject, newJti, c.sid, c.jkt⟩]⟩ c'.jti → c'.sid ≠ c.sid ∧ Active r s c'.jti := by
    intro c' hc' hact
    have hjc : c'.jti ≠ c.jti := by
      intro he
      obtain ⟨f, x, hf, hs⟩ := hact
      rw [he] at hf
      cases (rotated_old hne).symm.trans hf
      simp at hs
    have hold : Active r s c'.jti := hact.congr (htok _ hjc (hjti c' hc')).symm
    refine ⟨fun he => hjc ?_, hold⟩
    rw [h.single c' hc' c ha.minted he hold ha.active_jti]
  constructor
  · intro c' hc'
    rcases List.mem_append.mp hc' with hc' | hc'
    · by_cases hjc : c'.jti = c.jti
      · obtain rfl := h.jti_inj c' hc' c ha.minted hjc
        refine Or.inr ⟨_, _, rotated_old hne, Or.inr (by simp), by simp [hk.sid], by simp [hk.user], ?_⟩
        intro g x hg
        cases rotated_lineage.symm.trans hg
        exact Nat.le_refl _
      · have hdata := htok c'.jti hjc (hjti c' hc')
        rcases h.tokens c' hc' with hr | ⟨f, x, hf, hk'⟩
        · exact Or.inl (hr.congr hdata)
        · refine Or.inr ⟨f, x, hdata.trans hf, hk'.status, hk'.sid, hk'.user, fun g y hg => ?_⟩
          by_cases hs : c'.sid = c.sid
          · rw [hs] at hg
            cases rotated_lineage.symm.trans hg
            have hx : x ≤ t' := hk'.outlived lin t' (by rw [hs]; exact hl)
            exact Nat.le_trans hx ho.bounded
          · rw [hlin _ hs] at hg
            exact hk'.outlived g y hg
    · obtain rfl := List.mem_singleton.mp hc'
      refine Or.inr ⟨_, _, rotated_new, Or.inl (by simp), by simp, by simp, fun g x hg => ?_⟩
      cases rotated_lineage.symm.trans hg
      exact Nat.le_refl _
  · intro c' hc'
    by_cases hs : c'.sid = c.sid
    · have hsub : c'.subject = c.subject := by
        rcases List.mem_append.mp hc' with hc' | hc'
        · exact h.one_subject c' hc' c ha.minted hs
        · rw [List.mem_singleton.mp hc']
      rw [hs]
      refine Or.inr ⟨_, _, rotated_lineage, by simp, ⟨created, by simp⟩, Nat.le_refl _, ?_, fun _ => ?_⟩
      · exact mem_index_rotated.mpr (Or.inl ⟨hsub, by rw [hs]⟩)
      · rw [hs]
        exact ⟨_, List.ne_nil_of_mem (List.mem_insert_self), rotated_members⟩
    · have hc₀ : c' ∈ s.minted := by
        rcases List.mem_append.mp hc' with hc' | hc'
        · exact hc'
        · rw [List.mem_singleton.mp hc'] at hs
          exact absurd rfl hs
      rcases h.lineages c' hc₀ with hr | ⟨g, x, hg, ho'⟩
      · exact Or.inl (hr.congr (hlin _ hs))
      · refine Or.inr ⟨g, x, (hlin _ hs).trans hg, ho'.status, ho'.created, ho'.bounded, ?_, fun hx => ?_⟩
        · exact mem_index_rotated.mpr (Or.inr ho'.indexed)
        · obtain ⟨ms, hms, hd'⟩ := ho'.members hx
          exact ⟨ms, hms, (hmem _ (by simpa using hs)).trans hd'⟩
  · intro sid ms x hms m hmm
    by_cases hs : sid = c.sid.text
    · subst hs
      cases rotated_members.symm.trans hms
      rcases List.mem_insert_iff.mp hmm with rfl | hmm
      · exact ⟨_, hnew, rfl, rfl⟩
      · obtain ⟨c', hc', hcj, hcs⟩ := h.members _ _ _ hm m hmm
        exact ⟨c', List.mem_append_left _ hc', hcj, hcs⟩
    · obtain ⟨c', hc', hcj, hcs⟩ := h.members sid ms x ((hmem sid hs).symm.trans hms) m hmm
      exact ⟨c', List.mem_append_left _ hc', hcj, hcs⟩
  · intro u hu
    by_cases hn : u = newJti
    · exact ⟨_, hnew, hn.symm⟩
    · by_cases hc : u = c.jti
      · exact ⟨c, List.mem_append_left _ ha.minted, hc.symm⟩
      · rw [htok u hc hn] at hu
        obtain ⟨c', hc', hcu⟩ := h.records u hu
        exact ⟨c', List.mem_append_left _ hc', hcu⟩
  · intro user
    by_cases hu : user = c.subject
    · subst hu
      exact Or.inr ⟨_, by simp [rotated, Server.data_set]; rfl⟩
    · exact (h.userIndex user).congr (by simp [rotated, Server.data_set, hu])
  · exact Or.inr ⟨_, by simp [rotated]; rfl⟩
  · intro user sid hi
    rcases mem_index_rotated.mp hi with ⟨rfl, rfl⟩ | hi
    · exact ⟨_, hnew, rfl, rfl⟩
    · obtain ⟨c', hc', hcu⟩ := h.listed user sid hi
      exact ⟨c', List.mem_append_left _ hc', hcu⟩
  · intro c₁ h₁ c₂ h₂ he ha₁ ha₂
    rcases List.mem_append.mp h₁ with h₁ | h₁ <;> rcases List.mem_append.mp h₂ with h₂ | h₂
    · exact h.single c₁ h₁ c₂ h₂ he (hact c₁ h₁ ha₁).2 (hact c₂ h₂ ha₂).2
    · obtain rfl := List.mem_singleton.mp h₂
      exact absurd he (hact c₁ h₁ ha₁).1
    · obtain rfl := List.mem_singleton.mp h₁
      exact absurd he.symm (hact c₂ h₂ ha₂).1
    · rw [List.mem_singleton.mp h₁, List.mem_singleton.mp h₂]
  · intro c₁ h₁ c₂ h₂ he
    rcases List.mem_append.mp h₁ with h₁ | h₁ <;> rcases List.mem_append.mp h₂ with h₂ | h₂
    · exact h.jti_inj c₁ h₁ c₂ h₂ he
    · obtain rfl := List.mem_singleton.mp h₂
      exact absurd he (hjti c₁ h₁)
    · obtain rfl := List.mem_singleton.mp h₁
      exact absurd he.symm (hjti c₂ h₂)
    · rw [List.mem_singleton.mp h₁, List.mem_singleton.mp h₂]
  · intro c₁ h₁ c₂ h₂ he
    rcases List.mem_append.mp h₁ with h₁ | h₁ <;> rcases List.mem_append.mp h₂ with h₂ | h₂
    · exact h.one_subject c₁ h₁ c₂ h₂ he
    · obtain rfl := List.mem_singleton.mp h₂
      exact h.one_subject c₁ h₁ c ha.minted he
    · obtain rfl := List.mem_singleton.mp h₁
      exact h.one_subject c ha.minted c₂ h₂ he
    · rw [List.mem_singleton.mp h₁, List.mem_singleton.mp h₂]
  · intro c' hc'
    rcases List.mem_append.mp hc' with hc' | hc'
    · exact h.bound c' hc'
    · rw [List.mem_singleton.mp hc']
      exact h.bound c ha.minted

theorem later_rotated (ha : Accepts r s c cur lin members created) (hjti : FreshJti s newJti) :
    Later r s ⟨rotated r s.redis c newJti now created cur ∅ lin members,
      s.minted ++ [⟨c.subject, newJti, c.sid, c.jkt⟩]⟩ := by
  obtain ⟨t, hl, ho, hm⟩ := ha.lineage
  refine ⟨fun c' hc' => List.mem_append_left _ hc', Nat.le_refl _, fun sid hr => ?_, fun c' hc' => ?_⟩
  · obtain ⟨f, x, hd, hf⟩ := hr
    have hsid : sid ≠ c.sid.text := by
      rintro rfl
      cases hl.symm.trans hd
      rw [ho.status] at hf
      simp at hf
    have hmk : r.lineageKey sid ≠ r.lineageMembersKey c.sid.text := by
      intro he
      rw [he] at hd
      cases hm.symm.trans hd
    exact ⟨f, x, by simpa [rotated, Server.data_set, hmk, hsid] using hd, hf⟩
  · by_cases hjc : c'.jti = c.jti
    · refine Or.inr (Or.inl ?_)
      rw [hjc]
      exact ⟨_, _, rotated_old (hjti c ha.minted).symm, by simp⟩
    · exact Or.inl (rotated_token_ne hjc (hjti c' hc'))

end Rotation

section Passing

theorem inv_after (h : SessionInv r s) (ms : Nat) : SessionInv r ⟨s.redis.after ms, s.minted⟩ := by
  constructor
  · intro c hc
    rcases h.tokens c hc with hr | ⟨f, t, hd, hk⟩
    · exact Or.inl hr
    · exact Or.inr ⟨f, t, hd, hk.status, hk.sid, hk.user, hk.outlived⟩
  · intro c hc
    rcases h.lineages c hc with hr | ⟨g, t, hd, ho⟩
    · exact Or.inl hr
    · refine Or.inr ⟨g, t, hd, ho.status, ho.created, ?_, ho.indexed, fun ht => ?_⟩
      · have hb := ho.bounded
        simp only [deadline, Server.now_after] at hb ⊢
        omega
      · simp only [Server.now_after] at ht
        exact ho.members (by omega)
  · exact h.members
  · exact h.records
  · exact h.userIndex
  · exact h.sessionsIndex
  · exact h.listed
  · exact h.single
  · exact h.jti_inj
  · exact h.one_subject
  · exact h.bound

theorem later_after (s : Sessions) (ms : Nat) : Later r s ⟨s.redis.after ms, s.minted⟩ :=
  ⟨fun _ hc => hc, by simp, fun _ h => h, fun _ _ => Or.inl rfl⟩

end Passing

end Chinwag.Auth

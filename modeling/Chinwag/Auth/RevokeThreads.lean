import Chinwag.Auth.RotationOutcomes

/-!
# Revocation among the other calls

The contract of a `RevokeLineage` thread: it may rely on `Later`, and it only ever
marks hashes revoked and takes revoked lineages out of the indexes. Every state of
the session system then satisfies the invariant.
-/
namespace Chinwag.Auth

open Redis Script Program Transition

variable (r : RefreshConfig)

/-- The commands a revocation may issue. -/
def Allowed (s : Sessions) : CacheCmd → Prop
  | .hset key fields => fields = [("status", "revoked")] ∧
      ((∃ sid, key = r.lineageKey sid) ∨ ∃ c ∈ s.minted, key = r.tokenKey c.jti.text)
  | .zrem key member => IndexKey r key ∧ Removable r s member
  | .expire _ _ => False
  | .hgetall _ => True
  | .smembers _ => True
  | .zrevrange _ => True

def sessionContract : Contract Sessions CacheCmd where
  inv := SessionInv r
  rely _ := Later r
  guar _ c s := Allowed r s c

variable {r} {s t : Sessions}

theorem serve_keeps (h : SessionInv r s) {c : CacheCmd} (hc : Allowed r s c) :
    SessionInv r ⟨(serve c s.redis).2, s.minted⟩ ∧ Later r s ⟨(serve c s.redis).2, s.minted⟩ := by
  cases c with
  | hset key fields =>
    obtain ⟨rfl, hkey⟩ := hc
    simp only [serve]
    rcases exec_mark s.redis key with ⟨e, he⟩ | ⟨f, hf, he⟩
    · rw [he]
      exact ⟨h, .refl s⟩
    · rw [he]
      rcases hkey with ⟨sid, rfl⟩ | ⟨c, hc, rfl⟩
      · exact ⟨inv_mark_lineage h sid hf, later_mark_lineage s sid f⟩
      · exact ⟨inv_mark_token h hc, later_mark_token s c f⟩
  | expire => exact hc.elim
  | hgetall => exact ⟨h, .refl s⟩
  | smembers => exact ⟨h, .refl s⟩
  | zrem key member =>
    simp only [serve]
    rw [(h.isIndex hc.1).exec_zrem]
    exact ⟨inv_unindex h hc.1 hc.2, later_unindex s hc.1 _⟩
  | zrevrange => exact ⟨h, .refl s⟩

theorem sessionContract_sound : (sessionContract r).Sound (sessionSemantics r) where
  rely_refl _ := Later.refl
  rely_trans _ _ _ _ := Later.trans
  env s e t h he := ⟨(env_keeps h he).1, fun _ => (env_keeps h he).2⟩
  cmd i c s reply t h hc hexec := by
    have hk := serve_keeps h hc
    rcases hexec with ⟨-, rfl⟩ | ⟨-, rfl | rfl⟩
    · exact ⟨hk.1, fun _ _ => hk.2⟩
    · exact ⟨h, fun _ _ => .refl _⟩
    · exact ⟨hk.1, fun _ _ => hk.2⟩

section Programs

variable {i : Nat} {α : Type}

theorem exec_keeps (h : SessionInv r s) {c : CacheCmd} {reply : CacheReply c} (hc : Allowed r s c)
    (hexec : (sessionSemantics r).exec i c s reply t) : Later r s t := by
  have hk := (serve_keeps h hc).2
  rcases hexec with ⟨-, rfl⟩ | ⟨-, rfl | rfl⟩
  · exact hk
  · exact .refl _
  · exact hk

/-- Whatever order `SMEMBERS` answers in, it names minted tokens of the lineage. -/
theorem SessionInv.of_smembers (h : SessionInv r s) {sid : String} {members : List String}
    (hexec : (sessionSemantics r).exec i (.smembers (r.lineageMembersKey sid)) s (.ok members) t) :
    ∀ m ∈ members, ∃ c ∈ s.minted, c.jti.text = m ∧ c.sid.text = sid := by
  intro m hm
  rcases hexec with ⟨hre, -⟩ | ⟨⟨e, he⟩, -⟩
  · simp only [serve, smembers, exec_of] at hre
    cases hs : s.redis.setAt (r.lineageMembersKey sid) with
    | error e =>
      rw [hs] at hre
      cases hre
    | ok stored =>
      rw [hs] at hre
      exact h.mem_of_setAt hs m (List.Perm.mem_iff hre |>.mpr hm)
  · cases he

/-- One command of a revocation, seen from where the thread last looked. -/
theorem safe_call {Q : α → Sessions → Prop} {c : CacheCmd} {next : CacheReply c → CacheProg α}
    (hc : ∀ s₁, Later r s s₁ → Allowed r s₁ c)
    (hn : ∀ reply s₁ s₂, SessionInv r s₁ → Later r s s₁ → (sessionSemantics r).exec i c s₁ reply s₂ →
      Later r s s₂ → Safe (sessionSemantics r) (sessionContract r) i Q (next reply) s₂) :
    Safe (sessionSemantics r) (sessionContract r) i Q (.call c next) s := by
  intro s₁ h₁ hr
  refine ⟨hc s₁ hr, fun reply s₂ hexec _ => hn reply s₁ s₂ h₁ hr hexec ?_⟩
  exact hr.trans (exec_keeps h₁ (hc s₁ hr) hexec)

theorem safe_mark {key : String}
    (hkey : (∃ sid, key = r.lineageKey sid) ∨ ∃ c ∈ s.minted, key = r.tokenKey c.jti.text) :
    Safe (sessionSemantics r) (sessionContract r) i
      (fun reply t => Later r s t ∧ (reply = .ok () → Status t.redis key "revoked"))
      (hSet key [("status", "revoked")] 0) s := by
  refine safe_call (fun s₁ hr => ⟨rfl, hkey.imp_right fun ⟨c, hc, he⟩ => ⟨c, hr.minted c hc, he⟩⟩)
    fun reply s₁ s₂ _ _ hexec hl => ?_
  cases reply with
  | error e => exact ⟨hl, fun h => by cases h⟩
  | ok u =>
    refine ⟨hl, fun _ => ?_⟩
    rcases hexec with ⟨hre, rfl⟩ | ⟨⟨e, he⟩, -⟩
    · simp only [serve, Reordered] at hre ⊢
      rcases exec_mark s₁.redis key with ⟨e, he⟩ | ⟨f, hf, he⟩
      · rw [he] at hre
        cases hre
      · rw [he]
        exact status_marked _ _ f
    · cases he

theorem safe_markMembers {members : List String} (hm : ∀ m ∈ members, ∃ c ∈ s.minted, c.jti.text = m) :
    Safe (sessionSemantics r) (sessionContract r) i (fun _ t => Later r s t)
      (markMembers r members) s := by
  induction members generalizing s with
  | nil => exact Later.refl s
  | cons m rest ih =>
    obtain ⟨c, hc, rfl⟩ := hm m List.mem_cons_self
    refine (safe_mark (Or.inr ⟨c, hc, rfl⟩)).bind fun reply t ⟨hl, _⟩ => ?_
    cases reply with
    | error e => exact hl
    | ok u =>
      have hrest : ∀ m ∈ rest, ∃ c ∈ t.minted, c.jti.text = m := by
        intro m hm'
        obtain ⟨c', hc', he⟩ := hm m (List.mem_cons_of_mem _ hm')
        exact ⟨c', hl.minted c' hc', he⟩
      exact (ih hrest).mono fun _ _ h => hl.trans h

theorem safe_getRecord (jti : String) :
    Safe (sessionSemantics r) (sessionContract r) i (fun _ t => Later r s t) (getRecord r jti) s := by
  refine safe_call (fun _ _ => trivial) fun reply _ _ _ _ _ hl => ?_
  cases reply with
  | error e => exact hl
  | ok f =>
    show Safe _ _ i _ (if f.entries.isEmpty then _ else _) _
    split <;> exact hl

/-- Taking a revoked lineage out of an index, whatever becomes of the call. -/
theorem safe_unindex {key sid : String} (hk : IndexKey r key) (hs : Revoked r s sid) :
    Safe (sessionSemantics r) (sessionContract r) i (fun _ t => Later r s t) (zRem key sid) s := by
  refine safe_call (fun s₁ hr => ⟨hk, ?_⟩) fun _ _ _ _ _ _ hl => hl
  rintro c - rfl
  exact hr.revoked _ hs

theorem safe_unindexLineage {sid : String} (hs : Revoked r s sid) (members : List String) :
    Safe (sessionSemantics r) (sessionContract r) i (fun _ t => Later r s t)
      (unindexLineage r sid members) s := by
  cases members with
  | nil => exact Later.refl s
  | cons first rest =>
    refine (safe_getRecord first).bind fun reply t hl => ?_
    cases reply with
    | error e => exact hl
    | ok rec =>
      show Safe _ _ i _ (if rec.userID = "" then _ else _) t
      split
      · exact hl
      · exact (safe_unindex (Or.inr ⟨_, rfl⟩) (hl.revoked _ hs)).bind fun _ _ h => hl.trans h

/-- A revocation is safe from any state; one that returns no error has revoked its lineage. -/
theorem safe_revokeLineage (sid : String) :
    Safe (sessionSemantics r) (sessionContract r) i
      (fun reply t => Later r s t ∧ (reply = .ok () → sid ≠ "" → Revoked r t sid))
      (revokeLineage r sid) s := by
  unfold revokeLineage
  split
  · next h => exact ⟨Later.refl s, fun _ hne => absurd h hne⟩
  refine (safe_mark (Or.inl ⟨sid, rfl⟩)).bind fun reply t₁ ⟨hl₁, hok⟩ => ?_
  cases reply with
  | error e => exact ⟨hl₁, fun h => by cases h⟩
  | ok u =>
  have hrev : Revoked r t₁ sid := hok rfl
  refine safe_call (fun _ _ => trivial) fun reply s₁ t₂ hinv hl hexec hl₂ => ?_
  cases reply with
  | error e => exact ⟨hl₁.trans hl₂, fun h => by cases h⟩
  | ok members =>
  have hm : ∀ m ∈ members, ∃ c ∈ t₂.minted, c.jti.text = m := by
    intro m hm
    obtain ⟨c, hc, he, -⟩ := hinv.of_smembers hexec m hm
    refine ⟨c, ?_, he⟩
    rcases hexec with ⟨-, rfl⟩ | ⟨⟨e, he⟩, -⟩
    · exact hc
    · cases he
  refine (safe_markMembers hm).bind fun reply t₃ hl₃ => ?_
  have h₃ : Later r t₁ t₃ := hl₂.trans hl₃
  cases reply with
  | error e => exact ⟨hl₁.trans h₃, fun h => by cases h⟩
  | ok u =>
  refine (safe_unindexLineage (h₃.revoked _ hrev) members).bind fun _ t₄ hl₄ => ?_
  have h₄ : Later r t₁ t₄ := h₃.trans hl₄
  refine (safe_unindex (Or.inl rfl) (h₄.revoked _ hrev)).bind fun _ t₅ hl₅ => ?_
  exact ⟨hl₁.trans (h₄.trans hl₅), fun _ _ => (h₄.trans hl₅).revoked _ hrev⟩

end Programs

end Chinwag.Auth

import Chinwag.Auth.Reuse

/-!
# What the index of all sessions lists

A lineage enters `refresh:sessions` with its hash and leaves it once it is revoked; the expiry of the
hash takes it out of nothing. Between the first write of a revocation and its last the lineage is
revoked and still listed.
-/
namespace Chinwag.Auth

open Redis Script Program Transition

variable {r : RefreshConfig} {s t : Sessions} {c : RefreshTokenClaims}

/-- The global index names lineages that were issued, and every one that was not revoked. -/
structure Indexed (r : RefreshConfig) (s : Sessions) : Prop where
  known : ∀ sid f x, s.redis.data (r.lineageKey sid) = some ⟨.hash f, x⟩ →
    f.lookup "status" = some "revoked" ∨ ∃ c ∈ s.minted, c.sid.text = sid
  named : ∀ sid ∈ indexOf s.redis r.sessionsKey, ∃ c ∈ s.minted, c.sid.text = sid
  listed : ∀ c ∈ s.minted, Revoked r s c.sid.text ∨ c.sid.text ∈ indexOf s.redis r.sessionsKey

section Listing

theorem indexOf_congr {s t : Server} {key : String} (h : t.data key = s.data key) :
    indexOf t key = indexOf s key := by
  unfold indexOf
  rw [h]

theorem Indexed.after (h : Indexed r s) (ms : Nat) : Indexed r ⟨s.redis.after ms, s.minted⟩ :=
  ⟨h.known, h.named, h.listed⟩

theorem Indexed.mark_lineage (h : Indexed r s) (lg : String) (f : Fields) :
    Indexed r ⟨marked s.redis (r.lineageKey lg) f, s.minted⟩ := by
  have hindex : indexOf (marked s.redis (r.lineageKey lg) f) r.sessionsKey = indexOf s.redis r.sessionsKey :=
    indexOf_congr (data_marked_ne _ (by simp) f)
  refine ⟨fun sid g x hd => ?_, fun sid hsid => ?_, fun c hc => ?_⟩
  · by_cases hkey : r.lineageKey sid = r.lineageKey lg
    · rw [hkey] at hd
      obtain ⟨g', x', hd', hs⟩ := status_marked s.redis (r.lineageKey lg) f
      cases hd.symm.trans hd'
      exact .inl hs
    · exact h.known sid g x ((data_marked_ne _ hkey f).symm.trans hd)
  · exact h.named sid (hindex ▸ hsid)
  · exact (h.listed c hc).imp ((later_mark_lineage s lg f).revoked _) (hindex ▸ ·)

theorem Indexed.mark_token (h : Indexed r s) (u : Uuid) (f : Fields) :
    Indexed r ⟨marked s.redis (r.tokenKey u.text) f, s.minted⟩ := by
  have hlin : ∀ sid, (marked s.redis (r.tokenKey u.text) f).data (r.lineageKey sid) =
      s.redis.data (r.lineageKey sid) := fun sid => data_marked_ne _ (by simp) f
  have hindex : indexOf (marked s.redis (r.tokenKey u.text) f) r.sessionsKey = indexOf s.redis r.sessionsKey :=
    indexOf_congr (data_marked_ne _ (by simp) f)
  refine ⟨fun sid g x hd => h.known sid g x ((hlin sid).symm.trans hd), fun sid hsid => h.named sid (hindex ▸ hsid),
    fun c hc => ?_⟩
  exact (h.listed c hc).imp (Status.congr (hlin _)) (hindex ▸ ·)

theorem Indexed.unindex (h : Indexed r s) {key member : String} (hk : IndexKey r key) (hm : Removable r s member) :
    Indexed r ⟨setIndex s.redis key ((indexOf s.redis key).erase member), s.minted⟩ := by
  have hlin : ∀ sid, (setIndex s.redis key ((indexOf s.redis key).erase member)).data (r.lineageKey sid) =
      s.redis.data (r.lineageKey sid) := by
    intro sid
    apply data_setIndex_ne
    rcases hk with rfl | ⟨user, rfl⟩ <;> simp
  -- only the member goes, and only from this index
  have hindex : ∀ sid, sid ∈ indexOf (setIndex s.redis key ((indexOf s.redis key).erase member)) r.sessionsKey ↔
      sid ∈ indexOf s.redis r.sessionsKey ∧ (key = r.sessionsKey → sid ≠ member) := by
    intro sid
    by_cases hkey : r.sessionsKey = key
    · subst hkey
      rw [indexOf_setIndex, AList.mem_erase]
      tauto
    · rw [indexOf_congr (data_setIndex_ne hkey _)]
      exact ⟨fun h => ⟨h, fun heq => absurd heq.symm hkey⟩, And.left⟩
  refine ⟨fun sid g x hd => h.known sid g x ((hlin sid).symm.trans hd),
    fun sid hsid => h.named sid ((hindex sid).mp hsid).1, fun c hc => ?_⟩
  rcases h.listed c hc with hrev | hin
  · exact .inl (hrev.congr (hlin _))
  · by_cases hmem : c.sid.text = member
    · exact .inl ((hm c hc hmem).congr (hlin _))
    · exact .inr ((hindex _).mpr ⟨hin, fun _ => hmem⟩)

theorem Indexed.on_revokeReused (h : Indexed r s) (hinv : SessionInv r s) (hc : c ∈ s.minted) (userID : Option String) :
    Indexed r ⟨(exec (revokeReused r c.sid.text userID) s.redis).2, s.minted⟩ := by
  -- from the first write on the lineage is revoked, so that it may leave the indexes
  have hall := revokeReused_rule hinv hc (P := fun t => Indexed r ⟨t, s.minted⟩ ∧ Revoked r ⟨t, s.minted⟩ c.sid.text)
    (fun f _ => ⟨h.mark_lineage _ f, status_marked _ _ f⟩)
    (fun t f c' _ _ ht => ⟨ht.1.mark_token c'.jti f, (later_mark_token ⟨t, s.minted⟩ c' f).revoked _ ht.2⟩)
    (fun t key hk _ ht => ?_) userID
  · exact hall.1
  · refine ⟨ht.1.unindex hk ?_, (later_unindex ⟨t, s.minted⟩ hk _).revoked _ ht.2⟩
    intro c' _ hsid
    rw [hsid]
    exact ht.2

theorem mem_sessions_issued {sid jti : Uuid} {user jkt : String} {now : Int} {sid' : String} :
    sid' ∈ indexOf (issued r s.redis sid jti user jkt now) r.sessionsKey ↔
      sid' = sid.text ∨ sid' ∈ indexOf s.redis r.sessionsKey := by
  simp [indexOf, issued]

theorem mem_sessions_rotated {newJti : Uuid} {now created : Int} {cur lin : Fields} {members : List String} {sid : String} :
    sid ∈ indexOf (rotated r s.redis c newJti now created cur ∅ lin members) r.sessionsKey ↔
      sid = c.sid.text ∨ sid ∈ indexOf s.redis r.sessionsKey := by
  simp [indexOf, rotated]

/-- The hash of a lineage of another name was there before. -/
theorem hash_issued {sid jti : Uuid} {user jkt : String} {now : Int} {sid' : String} {f : Fields} {x : Option Nat}
    (h : (issued r s.redis sid jti user jkt now).data (r.lineageKey sid') = some ⟨.hash f, x⟩) :
    sid' = sid.text ∨ s.redis.data (r.lineageKey sid') = some ⟨.hash f, x⟩ := by
  by_cases hsid : sid' = sid.text
  · exact .inl hsid
  · by_cases hkey : r.lineageKey sid' = r.lineageMembersKey sid.text
    · simp [issued, Server.data_set, hkey] at h
    · refine .inr ?_
      rw [← h]
      simp [issued, Server.data_set, hsid, hkey]

theorem hash_rotated {newJti : Uuid} {now created : Int} {cur lin : Fields} {members : List String} {sid : String}
    {f : Fields} {x : Option Nat}
    (h : (rotated r s.redis c newJti now created cur ∅ lin members).data (r.lineageKey sid) = some ⟨.hash f, x⟩) :
    sid = c.sid.text ∨ s.redis.data (r.lineageKey sid) = some ⟨.hash f, x⟩ := by
  by_cases hsid : sid = c.sid.text
  · exact .inl hsid
  · by_cases hkey : r.lineageKey sid = r.lineageMembersKey c.sid.text
    · simp [rotated, Server.data_set, hkey] at h
    · refine .inr ?_
      rw [← h]
      simp [rotated, Server.data_set, hsid, hkey]

theorem Indexed.on_issued (h : Indexed r s) {sid jti : Uuid} {user jkt : String} {now : Int} (hs : FreshSid r s sid) :
    Indexed r ⟨issued r s.redis sid jti user jkt now, s.minted ++ [⟨user, jti, sid, jkt⟩]⟩ := by
  have hnew : (⟨user, jti, sid, jkt⟩ : RefreshTokenClaims) ∈ s.minted ++ [⟨user, jti, sid, jkt⟩] :=
    List.mem_append_right _ (List.mem_singleton_self _)
  have hold : ∀ c ∈ s.minted, c ∈ s.minted ++ [⟨user, jti, sid, jkt⟩] := fun _ => List.mem_append_left _
  refine ⟨fun sid' f x hd => ?_, fun sid' hsid => ?_, fun c hc => ?_⟩
  · rcases hash_issued hd with rfl | hd
    · exact .inr ⟨_, hnew, rfl⟩
    · exact (h.known sid' f x hd).imp_right fun ⟨c, hc, heq⟩ => ⟨c, hold c hc, heq⟩
  · rcases mem_sessions_issued.mp hsid with rfl | hin
    · exact ⟨_, hnew, rfl⟩
    · obtain ⟨c, hc, heq⟩ := h.named sid' hin
      exact ⟨c, hold c hc, heq⟩
  · rcases List.mem_append.mp hc with hc | hc
    · refine (h.listed c hc).imp (Status.congr ?_) fun hin => mem_sessions_issued.mpr (.inr hin)
      simp [issued, Server.data_set, hs.unused c hc]
    · obtain rfl := List.mem_singleton.mp hc
      exact .inr (mem_sessions_issued.mpr (.inl rfl))

theorem Indexed.on_rotated (h : Indexed r s) {cur lin : Fields} {members : List String} {created : Int}
    (hc : c ∈ s.minted) (newJti : Uuid) (now : Int) :
    Indexed r ⟨rotated r s.redis c newJti now created cur ∅ lin members,
      s.minted ++ [⟨c.subject, newJti, c.sid, c.jkt⟩]⟩ := by
  have hold : ∀ c' ∈ s.minted, c' ∈ s.minted ++ [⟨c.subject, newJti, c.sid, c.jkt⟩] := fun _ => List.mem_append_left _
  refine ⟨fun sid f x hd => ?_, fun sid hsid => ?_, fun c' hc' => ?_⟩
  · rcases hash_rotated hd with rfl | hd
    · exact .inr ⟨c, hold c hc, rfl⟩
    · exact (h.known sid f x hd).imp_right fun ⟨c', hc', heq⟩ => ⟨c', hold c' hc', heq⟩
  · rcases mem_sessions_rotated.mp hsid with rfl | hin
    · exact ⟨c, hold c hc, rfl⟩
    · obtain ⟨c', hc', heq⟩ := h.named sid hin
      exact ⟨c', hold c' hc', heq⟩
  · by_cases hsid : c'.sid = c.sid
    · rw [hsid]
      exact .inr (mem_sessions_rotated.mpr (.inl rfl))
    · rcases List.mem_append.mp hc' with hc' | hc'
      · exact (h.listed c' hc').imp (Status.congr (rotated_lineage_ne hsid)) fun hin =>
          mem_sessions_rotated.mpr (.inr hin)
      · obtain rfl := List.mem_singleton.mp hc'
        exact absurd rfl hsid

theorem Indexed.on_env (h : Indexed r s) (hinv : SessionInv r s) {e : Event} (he : Env r s e t) : Indexed r t := by
  cases envEffect hinv he with
  | same => exact h
  | issued hjti hsid => exact h.on_issued hsid
  | rotated ha hjti now => exact h.on_rotated ha.minted _ now
  | reused hc => exact h.on_revokeReused hinv hc _
  | passed ms => exact h.after ms

theorem Indexed.on_serve (h : Indexed r s) (hinv : SessionInv r s) {cmd : CacheCmd} (hcmd : Allowed r s cmd) :
    Indexed r ⟨(serve cmd s.redis).2, s.minted⟩ := by
  cases cmd with
  | hset key fields =>
    obtain ⟨rfl, hkey⟩ := hcmd
    simp only [serve]
    rcases exec_mark s.redis key with ⟨e, he⟩ | ⟨f, -, he⟩
    · rw [he]
      exact h
    · rw [he]
      rcases hkey with ⟨sid, rfl⟩ | ⟨c, -, rfl⟩
      · exact h.mark_lineage sid f
      · exact h.mark_token c.jti f
  | expire => exact hcmd.elim
  | hgetall => exact h
  | smembers => exact h
  | zrem key member =>
    simp only [serve]
    rw [(hinv.isIndex hcmd.1).exec_zrem]
    exact h.unindex hcmd.1 hcmd.2
  | zrevrange => exact h

theorem indexed_init {redis : Server} (h : ∀ suffix, redis.data (r.refreshTokenPrefix ++ suffix) = none) :
    Indexed r ⟨redis, []⟩ := by
  have hlin : ∀ sid, redis.data (r.lineageKey sid) = none := fun sid => h _
  have hsessions : redis.data r.sessionsKey = none := h _
  refine ⟨fun sid f x hd => ?_, fun sid hsid => ?_, nofun⟩
  · cases (hlin sid).symm.trans hd
  · simp [indexOf, hsessions] at hsid

theorem indexed_step {pool pool' : SessionPool} (hg : SessionGood r pool) (h : Indexed r pool.shared) {l : SessionLabel}
    (hst : SessionStep r pool l pool') : Indexed r pool'.shared := by
  cases hst with
  | cmd hi hexec =>
    have hserved := h.on_serve hg.shared (hg.guar sessionContract_sound hi)
    rcases hexec with ⟨-, rfl⟩ | ⟨-, rfl | rfl⟩
    · exact hserved
    · exact h
    · exact hserved
  | spawn => exact h
  | env he => exact h.on_env hg.shared he

end Listing

end Chinwag.Auth

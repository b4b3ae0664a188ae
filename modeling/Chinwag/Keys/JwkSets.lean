import Chinwag.Keys.Table

/-!
# What ToJWKSet publishes

Every entry of a set stems from an Access row, and a set made from a read of the table covers
the rows of that read until they expire. Both outlast whatever happens to the table afterwards.
-/
namespace Chinwag.Keys

variable {L : KeyLib} {t u : KeyTable} {keys : List SigningKeyEntity} {set set' : JwkSet L}

/-- The entry a row makes. -/
def Publishes (L : KeyLib) (k : SigningKeyEntity) (e : Jwk L.PublicKey) : Prop :=
  k.type = .Access ∧ k.status ≠ .Expired ∧
    ∃ pub, L.decodePublicKey k.publicKey = .ok pub ∧ e = ⟨k.kid, "sig", "ES256", pub⟩

/-- Every entry has the kid and the public key of an Access row. -/
def Stems (t : KeyTable) (set : JwkSet L) : Prop :=
  ∀ e ∈ set.entries, ∃ k ∈ t.rows, k.type = .Access ∧ k.kid = e.kid ∧
    L.decodePublicKey k.publicKey = .ok e.key

/-- The set has every Access key among `kids` that has not expired. -/
def Covers (t : KeyTable) (kids : List String) (set : JwkSet L) : Prop :=
  ∀ k ∈ t.rows, k.kid ∈ kids → k.type = .Access → k.status ≠ .Expired → ∃ e ∈ set.entries, e.kid = k.kid

theorem entries_addKey {key : Jwk L.PublicKey} (h : set.addKey key = .ok set') :
    set'.entries = set.entries ++ [key] := by
  unfold JwkSet.addKey at h
  split at h
  · cases h
  · obtain rfl := Except.ok.inj h
    rfl

theorem addKeys_ok (h : addKeys L keys set = .ok set') (e : Jwk L.PublicKey) :
    e ∈ set'.entries ↔ e ∈ set.entries ∨ ∃ k ∈ keys, Publishes L k e := by
  induction keys generalizing set with
  | nil =>
    obtain rfl := Except.ok.inj h
    simp
  | cons k keys ih =>
    unfold addKeys at h
    split at h
    · next hskip =>
      have hnot : ¬ Publishes L k e := by
        intro hp
        cases hskip with
        | inl htype => exact htype hp.1
        | inr hstatus =>
          have hexp := hp.2.1
          revert hstatus hexp
          cases k.status <;> decide
      rw [ih h, List.exists_mem_cons_iff]
      simp [hnot]
    · next htake =>
      rw [not_or, not_not, Bool.not_eq_false] at htake
      split at h
      · cases h
      · next pub hpub =>
        split at h
        · cases h
        · next set₁ hadd =>
          have hiff : Publishes L k e ↔ e = ⟨k.kid, "sig", "ES256", pub⟩ := by
            constructor
            · rintro ⟨-, -, pub', hpub', he⟩
              rw [hpub] at hpub'
              obtain rfl := Except.ok.inj hpub'
              exact he
            · intro he
              refine ⟨htake.1, ?_, pub, hpub, he⟩
              intro hexp
              rw [hexp] at htake
              exact Bool.noConfusion htake.2
          rw [ih h, entries_addKey hadd, List.mem_append, List.mem_singleton, List.exists_mem_cons_iff,
            hiff, or_assoc]

theorem toJWKSet_ok (h : toJWKSet L keys = .ok set) (e : Jwk L.PublicKey) :
    e ∈ set.entries ↔ ∃ k ∈ keys, Publishes L k e := by
  have hiff := addKeys_ok h e
  simpa [JwkSet.empty] using hiff

/-- `ToJWKSet` decoded every key that it published. -/
theorem addKeys_decoded (h : addKeys L keys set = .ok set') {k : SigningKeyEntity} (hk : k ∈ keys)
    (htype : k.type = .Access) (hexp : k.status ≠ .Expired) : ∃ pub, L.decodePublicKey k.publicKey = .ok pub := by
  induction keys generalizing set with
  | nil => cases hk
  | cons l keys ih =>
    unfold addKeys at h
    split at h
    · next hskip =>
      cases List.mem_cons.mp hk with
      | inl heq =>
        subst heq
        exfalso
        cases hskip with
        | inl hne => exact hne htype
        | inr hstatus =>
          revert hstatus hexp
          cases k.status <;> decide
      | inr hmem => exact ih h hmem
    · split at h
      · cases h
      · next pub hpub =>
        split at h
        · cases h
        · cases List.mem_cons.mp hk with
          | inl heq => exact ⟨pub, by rw [heq, hpub]⟩
          | inr hmem => exact ih h hmem

theorem Stems.mono (h : Stems t set) (hd : Descends t u) : Stems u set := by
  intro e he
  obtain ⟨k, hk, htype, hkid, hpub⟩ := h e he
  obtain ⟨l, hl, hage⟩ := hd k hk
  exact ⟨l, hl, hage.type.trans htype, hage.kid.trans hkid, by rw [hage.publicKey, hpub]⟩

theorem Covers.mono {kids : List String} (h : Covers t kids set) (hkids : ∀ kid ∈ kids, kid ∈ t.kids)
    (hd : Descends t u) : Covers u kids set := by
  intro l hl hkid htype hexp
  obtain ⟨k, hk, hage⟩ := hd.back hl (hkids _ hkid)
  have hnotExpired : k.status ≠ .Expired := by
    intro hk'
    refine hexp ?_
    rw [hage.status (by rw [hk']; decide), hk']
  obtain ⟨e, he, hke⟩ := h k hk (by rw [← hage.kid]; exact hkid) (hage.type.symm.trans htype) hnotExpired
  exact ⟨e, he, hke.trans hage.kid.symm⟩

/-- Looking up the kid of a row that has an entry finds the public key of that row. -/
theorem Stems.lookup (h : Stems t set) {k : SigningKeyEntity} (hk : k ∈ t.rows)
    (hentry : ∃ e ∈ set.entries, e.kid = k.kid) :
    ∃ e, set.lookupKeyID k.kid = some e ∧ L.decodePublicKey k.publicKey = .ok e.key := by
  obtain ⟨e, he, hkid⟩ := hentry
  have hsome : (set.entries.find? fun e => e.kid == k.kid).isSome = true :=
    List.find?_isSome.mpr ⟨e, he, beq_iff_eq.mpr hkid⟩
  obtain ⟨e', he'⟩ := Option.isSome_iff_exists.mp hsome
  have hkid' := List.find?_some he'
  obtain ⟨k', hk', -, hkk', hpub⟩ := h e' (List.mem_of_find?_eq_some he')
  obtain rfl : k' = k := t.eq_of_kid hk' hk (hkk'.trans (eq_of_beq hkid'))
  exact ⟨e', he', hpub⟩

/-- No set that stems from the table has an entry for a Refresh row. -/
theorem Stems.lookup_refresh (h : Stems t set) {k : SigningKeyEntity} (hk : k ∈ t.rows)
    (htype : k.type = .Refresh) : set.lookupKeyID k.kid = none := by
  unfold JwkSet.lookupKeyID
  rw [List.find?_eq_none]
  intro e he hkid
  obtain ⟨k', hk', htype', hkid', -⟩ := h e he
  obtain rfl : k' = k := t.eq_of_kid hk' hk (hkid'.trans (eq_of_beq hkid))
  rw [htype] at htype'
  cases htype'

end Chinwag.Keys

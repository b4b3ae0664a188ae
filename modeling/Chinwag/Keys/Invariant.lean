import Chinwag.Keys.System

/-!
# What every step keeps

The table only grows and ages, transactions deactivate what their `UPDATE` selected, and tokens
and sets go back to rows. Each command keeps this as long as it meets its guarantee.
-/
namespace Chinwag.Keys

open Program Transition
open Users (DbError)

variable {L : KeyLib} {s t u : KeyState L} {i j : Nat} {a b : KeyTable}

section Tables

theorem kids_setStatus (p : SigningKeyEntity → Bool) (status : KeyStatus) (t : KeyTable) :
    (t.setStatus p status).kids = t.kids := by
  unfold KeyTable.kids KeyTable.setStatus
  rw [List.map_map]
  congr 1
  funext k
  show SigningKeyEntity.kid (if p k then _ else _) = k.kid
  split <;> rfl

/-- Every row of the new table is an old one aged, or new and well formed. -/
def Grows (L : KeyLib) (a b : KeyTable) : Prop :=
  Descends a b ∧ ∀ l ∈ b.rows, (∃ k ∈ a.rows, Ages k l) ∨ (l.kid ∉ a.kids ∧ WellFormed L l)

theorem grows_setStatus {p : SigningKeyEntity → Bool} {status : KeyStatus}
    (hp : ∀ k, p k = true → k.status = .Active) (t : KeyTable) : Grows L t (t.setStatus p status) := by
  refine ⟨descends_setStatus hp t, ?_⟩
  intro l hl
  obtain ⟨k, hk, rfl⟩ := List.mem_map.mp hl
  exact Or.inl ⟨k, hk, ages_setStatus hp k⟩

theorem active_of_and {k : SigningKeyEntity} {q : Bool} (h : (k.status == .Active && q) = true) :
    k.status = .Active := by
  rw [Bool.and_eq_true] at h
  exact eq_of_beq h.1

theorem grows_expireKeys (t : KeyTable) (kt : KeyType) (scanned : List String) :
    Grows L t (t.expireKeys kt scanned) :=
  grows_setStatus (fun _ h => active_of_and h) t

theorem grows_applyTx {tx : Tx} (h : a.applyTx tx = .ok b)
    (hins : ∀ row, tx.inserted = some row → WellFormed L row) : Grows L a b := by
  unfold KeyTable.applyTx at h
  obtain ⟨hd, hrows⟩ : Grows L a (a.setStatus (fun k => k.status == .Active && tx.deactivated.contains k.kid)
      .Inactive) := grows_setStatus (fun _ h => active_of_and h) a
  split at h
  · obtain rfl := Except.ok.inj h
    exact ⟨hd, hrows⟩
  · next row hrow =>
    obtain ⟨hb, hfree⟩ := rows_insert h
    refine ⟨hd.trans (descends_insert h), ?_⟩
    intro l hl
    rw [hb] at hl
    cases List.mem_append.mp hl with
    | inl hold => exact hrows l hold
    | inr hnew =>
      obtain rfl := List.mem_singleton.mp hnew
      rw [kids_setStatus] at hfree
      exact Or.inr ⟨hfree, hins _ hrow⟩

theorem mem_stillActive {kt : KeyType} {scanned : List String} {kid : String} :
    kid ∈ a.stillActive kt scanned ↔
      ∃ k ∈ a.rows, k.status = .Active ∧ k.type = kt ∧ k.kid ∈ scanned ∧ k.kid = kid := by
  unfold KeyTable.stillActive
  rw [List.mem_map]
  constructor
  · rintro ⟨k, hk, rfl⟩
    obtain ⟨hk, hscan⟩ := List.mem_filter.mp hk
    obtain ⟨hmem, hact, htype⟩ := mem_activeKeys.mp hk
    exact ⟨k, hmem, hact, htype, List.contains_iff_mem.mp hscan, rfl⟩
  · rintro ⟨k, hk, hact, htype, hscan, rfl⟩
    exact ⟨k, List.mem_filter.mpr ⟨mem_activeKeys.mpr ⟨hk, hact, htype⟩, List.contains_iff_mem.mpr hscan⟩, rfl⟩

theorem kid_mem {k : SigningKeyEntity} (h : k ∈ a.rows) : k.kid ∈ a.kids := List.mem_map_of_mem h

end Tables

section Tokens

variable {k l : SigningKeyEntity} {now now' : Nat} {kt : KeyType} {tok : Token L}

theorem SignedBy.mono (h : SignedBy k now kt tok) (hage : Ages k l) (hnow : now ≤ now') :
    SignedBy l now' kt tok := by
  cases h with
  | access hkey =>
    rw [← hage.kid]
    exact .access (by rw [hage.privateKey]; exact hkey)
  | refresh hkey hsign hsub hjti hsid hpast =>
    rw [← hage.kid] at hsign
    exact .refresh (by rw [hage.privateKey]; exact hkey) hsign hsub hjti hsid (Nat.le_trans hpast hnow)

theorem Genuine.mono (h : Genuine a now kt tok) (hd : Descends a b) (hnow : now ≤ now') :
    Genuine b now' kt tok := by
  obtain ⟨k, hk, htype, hsigned⟩ := h
  obtain ⟨l, hl, hage⟩ := hd k hk
  exact ⟨l, hl, hage.type.trans htype, hsigned.mono hage hnow⟩

/-- A signed token names the row of its key. -/
theorem SignedBy.kid (h : SignedBy k now kt tok) : tok.kid = some k.kid := by
  cases h with
  | access => rfl
  | refresh hkey hsign =>
    unfold signRefreshToken at hsign
    split at hsign
    · cases hsign
    · obtain rfl := Except.ok.inj hsign
      rfl

end Tokens

section Updates

theorem KeyInv.grow (hs : KeyInv s) {a : KeyTable} (h : Grows L s.table a) : KeyInv (s.setTable a) where
  rows l hl := by
    cases h.2 l hl with
    | inl hold =>
      obtain ⟨k, hk, hage⟩ := hold
      exact hage.wellFormed (hs.rows k hk)
    | inr hnew => exact hnew.2
  inserted := hs.inserted
  scans i kid hkid := h.1.kids (hs.scans i kid hkid)
  deactivated := hs.deactivated
  updated i tx kt htx hupd l hl hact htype hscan := by
    cases h.2 l hl with
    | inl hold =>
      obtain ⟨k, hk, hage⟩ := hold
      rw [hage.kid] at hscan ⊢
      exact hs.updated i tx kt htx hupd k hk (hage.active hact) (hage.type.symm.trans htype) hscan
    | inr hnew => exact absurd (hs.scans i _ hscan) hnew.1
  issued x hx := (hs.issued x hx).mono h.1 (Nat.le_refl _)
  started := hs.started
  stems n := (hs.stems n).mono h.1
  served set hset := (hs.served set hset).mono h.1
  loaded i kid hkid := h.1.kids (hs.loaded i kid hkid)
  sources n kid hkid := h.1.kids (hs.sources n kid hkid)
  covers n := (hs.covers n).mono (hs.sources n) h.1

theorem KeyInv.elapse (hs : KeyInv s) (d : Nat) : KeyInv { s with now := s.now + d } :=
  ⟨hs.rows, hs.inserted, hs.scans, hs.deactivated, hs.updated,
    fun x hx => (hs.issued x hx).mono (.refl _) (Nat.le_add_right _ _), hs.started, hs.stems, hs.served, hs.loaded,
    hs.sources, hs.covers⟩

/-- What an open transaction of call `i` must satisfy. -/
structure TxInv (s : KeyState L) (i : Nat) (tx : Tx) : Prop where
  inserted : ∀ row, tx.inserted = some row →
    WellFormed L row ∧ row.status = .Active ∧ tx.updated = some row.type
  deactivated : ∀ kid ∈ tx.deactivated, kid ∈ s.scans i
  updated : ∀ kt, tx.updated = some kt → ∀ k ∈ s.table.rows, k.status = .Active → k.type = kt →
    k.kid ∈ s.scans i → k.kid ∈ tx.deactivated

theorem KeyInv.tx (hs : KeyInv s) {tx : Tx} (h : s.txs i = some tx) : TxInv s i tx :=
  ⟨fun row => hs.inserted i tx row h, hs.deactivated i tx h, fun kt => hs.updated i tx kt h⟩

theorem KeyInv.setTx (hs : KeyInv s) {tx : Option Tx} (h : ∀ new, tx = some new → TxInv s i new) :
    KeyInv (s.setTx i tx) := by
  have hall : ∀ j new, (s.setTx i tx).txs j = some new → TxInv s j new := by
    intro j new hj
    by_cases hji : j = i
    · subst hji
      have hself : (s.setTx j tx).txs j = tx := Function.update_self _ _ _
      exact h new (hself.symm.trans hj)
    · have hne : (s.setTx i tx).txs j = s.txs j := Function.update_of_ne hji _ _
      exact hs.tx (hne.symm.trans hj)
  exact ⟨hs.rows, fun j new row hj => (hall j new hj).inserted row, hs.scans,
    fun j new hj => (hall j new hj).deactivated, fun j new kt hj => (hall j new hj).updated kt, hs.issued,
    hs.started, hs.stems, hs.served, hs.loaded, hs.sources, hs.covers⟩

theorem KeyInv.dropTx (hs : KeyInv s) (i : Nat) : KeyInv (s.setTx i none) :=
  hs.setTx fun _ h => nomatch h

theorem KeyInv.scan (hs : KeyInv s) {kt : KeyType} (h : ∀ tx, s.txs i = some tx → tx = ⟨none, [], none⟩) :
    KeyInv (s.scan i kt) := by
  have hne : ∀ j, j ≠ i → (s.scan i kt).scans j = s.scans j := fun j hj => Function.update_of_ne hj _ _
  refine ⟨hs.rows, hs.inserted, ?_, ?_, ?_, hs.issued, hs.started, hs.stems, hs.served, hs.loaded, hs.sources, hs.covers⟩
  · intro j kid hkid
    by_cases hji : j = i
    · subst hji
      have hself : (s.scan j kt).scans j = _ := Function.update_self _ _ _
      rw [hself] at hkid
      obtain ⟨k, hk, rfl⟩ := List.mem_map.mp hkid
      exact kid_mem (mem_activeKeys.mp hk).1
    · rw [hne j hji] at hkid
      exact hs.scans j kid hkid
  · intro j tx hj kid hkid
    by_cases hji : j = i
    · subst hji
      obtain rfl := h tx hj
      cases hkid
    · rw [hne j hji]
      exact hs.deactivated j tx hj kid hkid
  · intro j tx kt' hj hupd k hk hact htype hscan
    by_cases hji : j = i
    · subst hji
      obtain rfl := h tx hj
      cases hupd
    · rw [hne j hji] at hscan
      exact hs.updated j tx kt' hj hupd k hk hact htype hscan

theorem KeyInv.deactivate (hs : KeyInv s) {kt : KeyType} {tx : Tx} (h : s.txs i = some tx)
    (hnone : tx.inserted = none) : TxInv s i { tx with
      updated := some kt
      deactivated := s.table.stillActive kt (s.scans i) ++ tx.deactivated } where
  inserted row hrow := by
    rw [hnone] at hrow
    cases hrow
  deactivated kid hkid := by
    cases List.mem_append.mp hkid with
    | inl hnew =>
      obtain ⟨k, -, -, -, hscan, rfl⟩ := mem_stillActive.mp hnew
      exact hscan
    | inr hold => exact hs.deactivated i tx h kid hold
  updated kt' hkt k hk hact htype hscan := by
    obtain rfl := Option.some.inj hkt
    exact List.mem_append_left _ (mem_stillActive.mpr ⟨k, hk, hact, htype, hscan, rfl⟩)

theorem KeyInv.noteLoad (hs : KeyInv s) (i : Nat) : KeyInv (s.noteLoad i) := by
  refine ⟨hs.rows, hs.inserted, hs.scans, hs.deactivated, hs.updated, hs.issued, hs.started, hs.stems, hs.served, ?_,
    hs.sources, hs.covers⟩
  intro j kid hkid
  by_cases hji : j = i
  · subst hji
    have hself : (s.noteLoad j).loaded j = s.table.kids := Function.update_self _ _ _
    rw [hself] at hkid
    exact hkid
  · have hne : (s.noteLoad i).loaded j = s.loaded j := Function.update_of_ne hji _ _
    rw [hne] at hkid
    exact hs.loaded j kid hkid

theorem KeyInv.store (hs : KeyInv s) {n : Nat} {m : Memory L} (hstems : Stems s.table m.set)
    (hcovers : Covers s.table (s.loaded i) m.set) : KeyInv (s.store i n m) := by
  have hself : (s.store i n m).memory n = m ∧ (s.store i n m).sources n = s.loaded i :=
    ⟨Function.update_self _ _ _, Function.update_self _ _ _⟩
  have hne : ∀ n', n' ≠ n → (s.store i n m).memory n' = s.memory n' ∧
      (s.store i n m).sources n' = s.sources n' :=
    fun n' hn => ⟨Function.update_of_ne hn _ _, Function.update_of_ne hn _ _⟩
  refine ⟨hs.rows, hs.inserted, hs.scans, hs.deactivated, hs.updated, hs.issued, hs.started, ?_, hs.served,
    hs.loaded, ?_, ?_⟩
  · intro n'
    by_cases hn : n' = n
    · subst hn
      rw [hself.1]
      exact hstems
    · rw [(hne n' hn).1]
      exact hs.stems n'
  · intro n' kid hkid
    by_cases hn : n' = n
    · subst hn
      rw [hself.2] at hkid
      exact hs.loaded i kid hkid
    · rw [(hne n' hn).2] at hkid
      exact hs.sources n' kid hkid
  · intro n'
    by_cases hn : n' = n
    · subst hn
      rw [hself.1, hself.2]
      exact hcovers
    · rw [(hne n' hn).1, (hne n' hn).2]
      exact hs.covers n'

theorem KeyInv.noteServed (hs : KeyInv s) (n : Nat) : KeyInv (s.noteServed (s.memory n).set) := by
  refine ⟨hs.rows, hs.inserted, hs.scans, hs.deactivated, hs.updated, hs.issued, hs.started, hs.stems, ?_, hs.loaded,
    hs.sources, hs.covers⟩
  intro set hset
  cases List.mem_cons.mp hset with
  | inl hnew =>
    subst hnew
    exact hs.stems n
  | inr hold => exact hs.served set hold

theorem KeyInv.noteIssued (hs : KeyInv s) {kt : KeyType} {tok : Token L}
    (h : Genuine s.table s.now kt tok) : KeyInv (s.noteIssued kt tok) := by
  refine ⟨hs.rows, hs.inserted, hs.scans, hs.deactivated, hs.updated, ?_, ?_, hs.stems, hs.served,
    hs.loaded, hs.sources, hs.covers⟩
  · intro x hx
    cases List.mem_cons.mp hx with
    | inl hnew =>
      subst hnew
      exact h
    | inr hold => exact hs.issued x hold
  · intro j x hx
    exact List.mem_cons_of_mem _ (hs.started j x hx)

theorem KeyInv.arrive (hs : KeyInv s) (i : Nat) : KeyInv (s.arrive i) := by
  refine ⟨hs.rows, hs.inserted, hs.scans, hs.deactivated, hs.updated, hs.issued, ?_, hs.stems, hs.served,
    hs.loaded, hs.sources, hs.covers⟩
  intro j x hx
  by_cases hji : j = i
  · subst hji
    have hself : (s.arrive j).started j = s.issued := Function.update_self _ _ _
    rw [hself] at hx
    exact hx
  · have hne : (s.arrive i).started j = s.started j := Function.update_of_ne hji _ _
    rw [hne] at hx
    exact hs.started j x hx

end Updates

theorem KeyInv.commit (hs : KeyInv s) {tx : Tx} {t : KeyTable} (h : s.txs i = some tx)
    (ht : s.table.applyTx tx = .ok t) : KeyInv ((s.setTable t).setTx i none) :=
  (hs.grow (grows_applyTx ht fun row hrow => ((hs.tx h).inserted row hrow).1)).dropTx i

theorem exec_inv {c : KeyCmd L} {r : KeyReply L c} (hs : KeyInv s) (hg : Guarantee i c s)
    (h : Exec i c s r t) : KeyInv t := by
  cases h with
  | arrive => exact hs.arrive i
  | getVersion => exact hs
  | load => exact hs.noteLoad i
  | getActiveKey => exact hs
  | noActiveKey => exact hs
  | newV7 => exact ⟨hs.rows, hs.inserted, hs.scans, hs.deactivated, hs.updated, hs.issued, hs.started, hs.stems,
      hs.served, hs.loaded, hs.sources, hs.covers⟩
  | generateKey => exact hs
  | now => exact hs
  | begin =>
    refine hs.setTx ?_
    intro new hnew
    obtain rfl := Option.some.inj hnew
    exact ⟨fun _ h => (nomatch h), fun _ h => (nomatch h), fun _ h => nomatch h⟩
  | scan kt => exact hs.scan hg
  | @deactivate _ kt tx htx hlock =>
    refine hs.setTx ?_
    intro new hnew
    obtain rfl := Option.some.inj hnew
    exact hs.deactivate htx (hg tx htx)
  | @insert _ row tx htx free =>
    refine hs.setTx ?_
    intro new hnew
    obtain rfl := Option.some.inj hnew
    obtain ⟨hrow, hact, hupd⟩ := hg
    refine ⟨?_, (hs.tx htx).deactivated, (hs.tx htx).updated⟩
    intro row' hrow'
    obtain rfl := Option.some.inj hrow'
    exact ⟨hrow, hact, hupd tx htx⟩
  | insertRefused => exact hs
  | commit htx ht => exact hs.commit htx ht
  | commitLost htx ht => exact hs.commit htx ht
  | commitFailed => exact hs.dropTx i
  | rollback => exact hs.dropTx i
  | expire => exact hs.grow (grows_expireKeys _ _ _)
  | expireLost => exact hs.grow (grows_expireKeys _ _ _)
  | memory => exact hs
  | store n m => exact hs.store hg.1 hg.2
  | serve n => exact hs.noteServed n
  | sign kt tok => exact hs.noteIssued hg
  | failed => exact hs

theorem Undisturbed.refl (i : Nat) (s : KeyState L) : Undisturbed i s s :=
  ⟨.refl _, Nat.le_refl _, Or.inl rfl, rfl, rfl, rfl⟩

theorem Undisturbed.trans (h₁ : Undisturbed i s t) (h₂ : Undisturbed i t u) : Undisturbed i s u where
  table := h₁.table.trans h₂.table
  now := Nat.le_trans h₁.now h₂.now
  tx := by
    cases h₂.tx with
    | inl h =>
      rw [h]
      exact h₁.tx
    | inr h => exact Or.inr h
  scans := h₂.scans.trans h₁.scans
  started := h₂.started.trans h₁.started
  loaded := h₂.loaded.trans h₁.loaded

theorem undisturbed_setTable {a : KeyTable} (h : Descends s.table a) (j : Nat) :
    Undisturbed j s (s.setTable a) :=
  ⟨h, Nat.le_refl _, Or.inl rfl, rfl, rfl, rfl⟩

theorem undisturbed_setTx (hij : j ≠ i) (tx : Option Tx) : Undisturbed j s (s.setTx i tx) :=
  ⟨.refl _, Nat.le_refl _, Or.inl (Function.update_of_ne hij _ _), rfl, rfl, rfl⟩

/-- The table descends from the one before whatever the command. -/
theorem exec_descends {c : KeyCmd L} {r : KeyReply L c} (hs : KeyInv s) (h : Exec i c s r t) :
    Descends s.table t.table := by
  cases h with
  | commit htx ht => exact (grows_applyTx ht fun row hrow => ((hs.tx htx).inserted row hrow).1).1
  | commitLost htx ht => exact (grows_applyTx ht fun row hrow => ((hs.tx htx).inserted row hrow).1).1
  | expire => exact (grows_expireKeys (L := L) _ _ _).1
  | expireLost => exact (grows_expireKeys (L := L) _ _ _).1
  | arrive => exact .refl _
  | getVersion => exact .refl _
  | load => exact .refl _
  | getActiveKey => exact .refl _
  | noActiveKey => exact .refl _
  | newV7 => exact .refl _
  | generateKey => exact .refl _
  | now => exact .refl _
  | begin => exact .refl _
  | scan => exact .refl _
  | deactivate => exact .refl _
  | insert => exact .refl _
  | insertRefused => exact .refl _
  | commitFailed => exact .refl _
  | rollback => exact .refl _
  | memory => exact .refl _
  | store => exact .refl _
  | serve => exact .refl _
  | sign => exact .refl _
  | failed => exact .refl _

theorem exec_undisturbed {c : KeyCmd L} {r : KeyReply L c} (hs : KeyInv s) (hij : j ≠ i)
    (h : Exec i c s r t) : Undisturbed j s t := by
  have hd := exec_descends hs h
  have hne : ∀ {β : Type} (f : Nat → β) (b : β), Function.update f i b j = f j :=
    fun f b => Function.update_of_ne hij b f
  cases h with
  | arrive => exact ⟨hd, Nat.le_refl _, Or.inl rfl, rfl, hne _ _, rfl⟩
  | getVersion => exact .refl j s
  | load => exact ⟨hd, Nat.le_refl _, Or.inl rfl, rfl, rfl, hne _ _⟩
  | getActiveKey => exact .refl j s
  | noActiveKey => exact .refl j s
  | newV7 => exact ⟨hd, Nat.le_refl _, Or.inl rfl, rfl, rfl, rfl⟩
  | generateKey => exact .refl j s
  | now => exact .refl j s
  | begin => exact undisturbed_setTx hij _
  | scan => exact ⟨hd, Nat.le_refl _, Or.inl rfl, hne _ _, rfl, rfl⟩
  | deactivate => exact undisturbed_setTx hij _
  | insert => exact undisturbed_setTx hij _
  | insertRefused => exact .refl j s
  | commit => exact ⟨hd, Nat.le_refl _, Or.inl (hne _ _), rfl, rfl, rfl⟩
  | commitLost => exact ⟨hd, Nat.le_refl _, Or.inl (hne _ _), rfl, rfl, rfl⟩
  | commitFailed => exact undisturbed_setTx hij _
  | rollback => exact undisturbed_setTx hij _
  | expire => exact undisturbed_setTable hd j
  | expireLost => exact undisturbed_setTable hd j
  | memory => exact .refl j s
  | store => exact ⟨hd, Nat.le_refl _, Or.inl rfl, rfl, rfl, rfl⟩
  | serve => exact ⟨hd, Nat.le_refl _, Or.inl rfl, rfl, rfl, rfl⟩
  | sign => exact ⟨hd, Nat.le_refl _, Or.inl rfl, rfl, rfl, rfl⟩
  | failed => exact .refl j s

theorem env_undisturbed {e : KeyEvent} (h : KeyEnv s e t) (j : Nat) : Undisturbed j s t := by
  cases e with
  | elapse d =>
    obtain rfl : t = { s with now := s.now + d } := h
    exact ⟨.refl _, Nat.le_add_right _ _, Or.inl rfl, rfl, rfl, rfl⟩
  | disconnect i =>
    obtain rfl : t = s.setTx i none := h
    by_cases hji : j = i
    · subst hji
      exact ⟨.refl _, Nat.le_refl _, Or.inr (Function.update_self _ _ _), rfl, rfl, rfl⟩
    · exact undisturbed_setTx hji none

theorem keyContract_sound : (keyContract L).Sound (keySemantics L) where
  rely_refl := .refl
  rely_trans _ _ _ _ := .trans
  env s e t hs he := by
    refine ⟨?_, env_undisturbed he⟩
    cases e with
    | elapse d =>
      obtain rfl : t = { s with now := s.now + d } := he
      exact KeyInv.elapse hs d
    | disconnect i =>
      obtain rfl : t = s.setTx i none := he
      exact KeyInv.dropTx hs i
  cmd i c s r t hs hg h := ⟨exec_inv hs hg h, fun _ hij => exec_undisturbed hs hij h⟩

end Chinwag.Keys

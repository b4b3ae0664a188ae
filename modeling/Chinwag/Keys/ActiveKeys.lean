import Chinwag.Keys.Separation

/-!
# At most one active key per type

A rotation deactivates what the snapshot of its `UPDATE` selected and inserts an active key.
Nothing forbids another rotation to commit in between, so a run keeps active keys unique exactly
when no rotation commits over an active key that its snapshot did not have.
-/
namespace Chinwag.Keys

open Program Transition
open Users (DbError)

variable {L : KeyLib}

def SoleActive (t : KeyTable) : Prop :=
  ∀ k ∈ t.rows, ∀ l ∈ t.rows, k.status = .Active → l.status = .Active → k.type = l.type → k = l

/-- Whether a reported result means that the statement took effect. -/
def Took : Except DbError Unit → Prop
  | .ok _ => True
  | .error e => e = .lost

/-- Every active key of the type that call `i` is about to insert was there when its `UPDATE`
selected rows. -/
def SnapshotHolds (s : KeyState L) (i : Nat) : Prop :=
  ∀ tx row, s.txs i = some tx → tx.inserted = some row →
    ∀ k ∈ s.table.rows, k.status = .Active → k.type = row.type → k.kid ∈ s.scans i

section Rows

variable {a b : KeyTable} {tx : Tx} {l : SigningKeyEntity}

theorem mem_setStatus {p : SigningKeyEntity → Bool} {status : KeyStatus} {t : KeyTable} :
    l ∈ (t.setStatus p status).rows ↔ ∃ k ∈ t.rows, (if p k then { k with status := status } else k) = l :=
  List.mem_map

/-- A status other than active is set on the rows that a condition selects: the others stay. -/
theorem active_setStatus {p : SigningKeyEntity → Bool} {status : KeyStatus} (hstatus : status ≠ .Active)
    {t : KeyTable} : l ∈ (t.setStatus p status).rows ∧ l.status = .Active ↔
      l ∈ t.rows ∧ l.status = .Active ∧ p l = false := by
  rw [mem_setStatus]
  constructor
  · rintro ⟨⟨k, hk, hkl⟩, hact⟩
    split at hkl
    · subst hkl
      exact absurd hact hstatus
    · next hp =>
      subst hkl
      exact ⟨hk, hact, Bool.eq_false_iff.mpr hp⟩
  · rintro ⟨hl, hact, hp⟩
    refine ⟨⟨l, hl, ?_⟩, hact⟩
    rw [hp]
    rfl

/-- The active rows after a commit: those the transaction left alone, and the one it inserted. -/
theorem active_applyTx (h : a.applyTx tx = .ok b) : l ∈ b.rows ∧ l.status = .Active ↔
    l.status = .Active ∧ ((l ∈ a.rows ∧ l.kid ∉ tx.deactivated) ∨ tx.inserted = some l) := by
  have hold : ∀ l, l ∈ (a.setStatus (fun k => k.status == .Active && tx.deactivated.contains k.kid)
      .Inactive).rows ∧ l.status = .Active ↔ l.status = .Active ∧ (l ∈ a.rows ∧ l.kid ∉ tx.deactivated) := by
    intro l
    rw [active_setStatus (by decide)]
    constructor
    · rintro ⟨hl, hact, hp⟩
      refine ⟨hact, hl, ?_⟩
      intro hmem
      simp [hact, hmem] at hp
    · rintro ⟨hact, hl, hkid⟩
      exact ⟨hl, hact, by simp [hkid]⟩
  unfold KeyTable.applyTx at h
  split at h
  · next hnone =>
    obtain rfl := Except.ok.inj h
    rw [hold, hnone]
    simp
  · next row hrow =>
    obtain ⟨hb, -⟩ := rows_insert h
    rw [hb, List.mem_append, List.mem_singleton, or_and_right, hold, hrow, Option.some.injEq]
    constructor
    · rintro (⟨hact, hl⟩ | ⟨rfl, hact⟩)
      · exact ⟨hact, Or.inl hl⟩
      · exact ⟨hact, Or.inr rfl⟩
    · rintro ⟨hact, hl | rfl⟩
      · exact Or.inl ⟨hact, hl⟩
      · exact Or.inr ⟨rfl, hact⟩

/-- The row a transaction inserts is new to the table. -/
theorem inserted_new {row : SigningKeyEntity} (h : a.applyTx tx = .ok b) (hrow : tx.inserted = some row) :
    row.kid ∉ a.kids := by
  unfold KeyTable.applyTx at h
  rw [hrow] at h
  obtain ⟨-, hfree⟩ := rows_insert h
  rwa [kids_setStatus] at hfree

theorem SoleActive.of_subset (h : SoleActive a)
    (hsub : ∀ l ∈ b.rows, l.status = .Active → l ∈ a.rows) : SoleActive b :=
  fun k hk l hl hkact hlact => h k (hsub k hk hkact) l (hsub l hl hlact) hkact hlact

end Rows

section Steps

variable {s : KeyState L} {i : Nat} {tx : Tx} {t : KeyTable}

theorem soleActive_commit_iff (hs : KeyInv s) (hsole : SoleActive s.table) (htx : s.txs i = some tx)
    (ht : s.table.applyTx tx = .ok t) : SoleActive t ↔ SnapshotHolds s i := by
  constructor
  · intro hafter tx' row htx' hrow k hk hact htype
    obtain rfl : tx' = tx := Option.some.inj (htx'.symm.trans htx)
    by_cases hkid : k.kid ∈ tx'.deactivated
    · exact hs.deactivated i tx' htx k.kid hkid
    · exfalso
      obtain ⟨-, hrowact, -⟩ := hs.inserted i tx' row htx hrow
      have hkt : k ∈ t.rows ∧ k.status = .Active := (active_applyTx ht).mpr ⟨hact, Or.inl ⟨hk, hkid⟩⟩
      have hrowt : row ∈ t.rows ∧ row.status = .Active := (active_applyTx ht).mpr ⟨hrowact, Or.inr hrow⟩
      obtain rfl := hafter k hkt.1 row hrowt.1 hact hrowact htype
      exact inserted_new ht hrow (kid_mem hk)
  · intro hsnap k hk l hl hkact hlact htype
    obtain ⟨-, hk⟩ := (active_applyTx ht).mp ⟨hk, hkact⟩
    obtain ⟨-, hl⟩ := (active_applyTx ht).mp ⟨hl, hlact⟩
    -- an old active key beside the inserted one was deactivated with the snapshot
    have hclash : ∀ m row, m ∈ s.table.rows → m.kid ∉ tx.deactivated → m.status = .Active →
        tx.inserted = some row → m.type = row.type → False := by
      intro m row hm hkid hact hrow hmtype
      obtain ⟨-, -, hupd⟩ := hs.inserted i tx row htx hrow
      have hscan := hsnap tx row htx hrow m hm hact hmtype
      exact hkid (hs.updated i tx row.type htx hupd m hm hact hmtype hscan)
    cases hk with
    | inl hkold =>
      cases hl with
      | inl hlold => exact hsole k hkold.1 l hlold.1 hkact hlact htype
      | inr hlnew => exact (hclash k l hkold.1 hkold.2 hkact hlnew htype).elim
    | inr hknew =>
      cases hl with
      | inl hlold => exact (hclash l k hlold.1 hlold.2 hlact hknew htype.symm).elim
      | inr hlnew => exact Option.some.inj (hknew.symm.trans hlnew)

variable {p p' : KeyPool L} {l : KeyLabel L}

/-- What a step does to the table: nothing, an expiry, or a commit. -/
inductive TableStep (p : KeyPool L) (l : KeyLabel L) (p' : KeyPool L) : Prop where
  | same (htable : p'.shared.table = p.shared.table) (hno : ∀ i r, l = .cmd i .commit r → ¬ Took r)
  | expired (i : Nat) (kt : KeyType) (r : Except DbError Unit) (hl : l = .cmd i (.expire kt) r)
      (htable : p'.shared.table = p.shared.table.expireKeys kt (p.shared.scans i))
  | committed (i : Nat) (tx : Tx) (r : Except DbError Unit) (hl : l = .cmd i .commit r)
      (htook : Took r) (htx : p.shared.txs i = some tx) (happly : p.shared.table.applyTx tx = .ok p'.shared.table)

theorem table_step (h : KeyStep p l p') : TableStep p l p' := by
  cases h with
  | spawn => exact .same rfl fun _ _ h => nomatch h
  | @env e s he =>
    cases e with
    | elapse d =>
      obtain rfl : s = { p.shared with now := p.shared.now + d } := he
      exact .same rfl fun _ _ h => nomatch h
    | disconnect i =>
      obtain rfl : s = p.shared.setTx i none := he
      exact .same rfl fun _ _ h => nomatch h
  | @cmd i c next r s hi hexec =>
    cases hexec with
    | commit htx ht => exact .committed i _ _ rfl trivial htx ht
    | commitLost htx ht => exact .committed i _ _ rfl rfl htx ht
    | expire => exact .expired i _ _ rfl rfl
    | expireLost => exact .expired i _ _ rfl rfl
    | commitFailed =>
      refine .same rfl ?_
      intro j r hl htook
      cases hl
      cases htook
    | @failed _ c _ h =>
      refine .same rfl ?_
      intro j r hl
      cases hl
      exact h.elim
    | _ => exact .same rfl fun _ _ h => nomatch h

theorem active_expireKeys {t : KeyTable} {kt : KeyType} {scanned : List String} {k : SigningKeyEntity}
    (hk : k ∈ (t.expireKeys kt scanned).rows) (hact : k.status = .Active) : k ∈ t.rows :=
  ((active_setStatus (by decide)).mp ⟨hk, hact⟩).1

/-- What a step must not do: commit a rotation over an active key it has not seen. -/
def SeesActive (p : KeyPool L) (l : KeyLabel L) : Prop :=
  ∀ i r, l = .cmd i .commit r → Took r → SnapshotHolds p.shared i

theorem soleActive_step_iff (hg : KeyGood p) (hsole : SoleActive p.shared.table) (h : KeyStep p l p') :
    SoleActive p'.shared.table ↔ SeesActive p l := by
  cases table_step h with
  | same htable hno =>
    rw [htable]
    exact ⟨fun _ i r hl htook => absurd htook (hno i r hl), fun _ => hsole⟩
  | expired i kt r hl htable =>
    subst hl
    rw [htable]
    constructor
    · intro _ j r' hl'
      cases hl'
    · intro _
      exact hsole.of_subset fun k hk hact => active_expireKeys hk hact
  | committed i tx r hl htook htx happly =>
    subst hl
    have hiff : SoleActive p'.shared.table ↔ SnapshotHolds p.shared i :=
      soleActive_commit_iff hg.good.shared hsole htx happly
    rw [hiff]
    constructor
    · intro hsnap j r' hl' _
      cases hl'
      exact hsnap
    · intro hsees
      exact hsees i r rfl htook

end Steps

variable {pool pool' : KeyPool L} {trace : List (KeyLabel L)}

/-- At most one key of each type is active all along a run exactly if every rotation that commits had,
in the snapshot of its `UPDATE`, all keys of its type that are active when it commits. -/
theorem one_active_key_iff (hinit : KeysInit pool) (hsole : SoleActive pool.shared.table) :
    (∀ before after p, trace = before ++ after → Run KeyStep pool before p → Run KeyStep p after pool' →
      SoleActive p.shared.table) ↔
    ∀ before i r after p p', trace = before ++ .cmd i .commit r :: after → Run KeyStep pool before p →
      KeyStep p (.cmd i .commit r) p' → Run KeyStep p' after pool' → Took r → SnapshotHolds p.shared i := by
  have hinv : ∀ (p : KeyPool L) l p', KeyGood p → KeyStep p l p' → KeyGood p' := fun _ _ _ => good_step
  have hgood : ∀ (p : KeyPool L) l p', KeyGood p → SoleActive p.shared.table → KeyStep p l p' →
      (SoleActive p'.shared.table ↔ SeesActive p l) := fun _ _ _ => soleActive_step_iff
  rw [Run.always_good_iff hinv hgood (good_init hinit) hsole]
  constructor
  · intro hall before i r after p p' htrace hbefore hstep hafter htook
    exact hall before _ after p p' htrace hbefore hstep hafter i r rfl htook
  · intro hall before l after p p' htrace hbefore hstep hafter i r hl htook
    subst hl
    exact hall before i r after p p' htrace hbefore hstep hafter htook

section Sample

theorem unlocked_of_nothing {s : KeyState L} {i : Nat}
    (h : ∀ j tx, j ≠ i → s.txs j = some tx → tx.deactivated = []) : s.Unlocked i := by
  intro j tx hj htx kid _
  rw [h j tx hj htx]
  exact List.not_mem_nil

/-- The key that a rotation of access keys inserts. -/
def drawnKey (s : KeyState textLib) (u : Uuid) (priv : String) : SigningKeyEntity :=
  newKey u .Access ("public " ++ priv) priv s.now

/-- After the `UPDATE` of a rotation of access keys. -/
def updatedState (s : KeyState textLib) (i : Nat) (u : Uuid) : KeyState textLib :=
  let scanned := ((((s.arrive i).draw u).setTx i (some ⟨none, [], none⟩)).scan i .Access)
  scanned.setTx i (some ⟨some .Access, scanned.table.stillActive .Access (scanned.scans i) ++ [], none⟩)

/-- A rotation stops after its `UPDATE`, and goes on when nothing is in its way. -/
theorem advance_rotateAccess {s : KeyState textLib} {i : Nat} {u : Uuid} (priv : String)
    (fresh : u ∉ s.drawn) (free : u.text ∉ s.table.kids)
    (hlock : ∀ j tx, j ≠ i → s.txs j = some tx → tx.deactivated = []) :
    ∃ q, Advance (Exec i) (serve .rotateAccess) s q (updatedState s i u) ∧
      ∀ v tx t, v.txs i = some tx → u.text ∉ v.table.kids →
        v.table.applyTx { tx with inserted := some (drawnKey s u priv) } = .ok t →
        ∃ w, Alone (Exec i) Eq q v () w ∧ w.table = t ∧ ∀ j, j ≠ i → w.txs j = v.txs j := by
  have hopen : ∀ s' : KeyState textLib, (s'.setTx i (some ⟨none, [], none⟩)).txs i = some ⟨none, [], none⟩ :=
    fun _ => Function.update_self _ _ _
  have hlock' : ((((s.arrive i).draw u).setTx i (some ⟨none, [], none⟩)).scan i .Access).Unlocked i := by
    refine unlocked_of_nothing fun j tx hj htx => hlock j tx hj ?_
    exact (Function.update_of_ne hj _ _).symm.trans htx
  refine ⟨_, .call (.arrive _) <| .call (.newV7 fresh free) <| .call (.generateKey priv) <| .call .now <|
    .call .begin <| .call (.scan _) <| .call (.deactivate (hopen _) hlock') (.stop _ _), ?_⟩
  intro v tx t htx hfree ht
  refine ⟨_, .call rfl (.insert htx hfree) <| .call rfl (.commit (Function.update_self _ _ _) ht) (.ret _ _),
    rfl, ?_⟩
  intro j hj
  show Function.update (Function.update v.txs i _) i none j = v.txs j
  rw [Function.update_of_ne hj, Function.update_of_ne hj]

theorem applyTx_free {a : KeyTable} {row : SigningKeyEntity} (tx : Tx) (h : row.kid ∉ a.kids) :
    ∃ b, a.applyTx { tx with inserted := some row } = .ok b ∧ b.kids = a.kids ++ [row.kid] := by
  have hfree : row.kid ∉ (a.setStatus (fun k => k.status == .Active && tx.deactivated.contains k.kid)
      .Inactive).kids := by
    rw [kids_setStatus]
    exact h
  obtain ⟨b, hb⟩ : ∃ b, a.applyTx { tx with inserted := some row } = .ok b := ⟨_, dif_neg hfree⟩
  refine ⟨b, hb, ?_⟩
  obtain ⟨hrows, -⟩ := rows_insert hb
  show b.rows.map SigningKeyEntity.kid = _
  rw [hrows, List.map_append, ← kids_setStatus]
  rfl

def noKeys : KeyTable := ⟨[], List.nodup_nil⟩

def secondUuid : Uuid := ⟨"01890000-0000-7000-8000-000000000002", by decide⟩

def firstUpdated : KeyState textLib := updatedState (restingKeys noKeys 0) 0 firstUuid

def bothUpdated : KeyState textLib := updatedState firstUpdated 1 secondUuid

/-- An `UPDATE` on an empty table locks nothing. -/
theorem firstUpdated_unlocked (j : Nat) (tx : Tx) (htx : firstUpdated.txs j = some tx) :
    tx.deactivated = [] := by
  by_cases hj : j = 0
  · subst hj
    obtain rfl := Option.some.inj htx
    rfl
  · have hnone : firstUpdated.txs j = none := by
      simp [firstUpdated, updatedState, KeyState.setTx, KeyState.scan, KeyState.draw, KeyState.arrive,
        restingKeys, hj]
    rw [hnone] at htx
    cases htx

/-- Two instances start on an empty table, and the `UPDATE` of one runs before the other commits. -/
theorem two_rotations : ∃ trace pool', Run KeyStep ⟨restingKeys noKeys 0, []⟩ trace pool' ∧
    ¬ SoleActive pool'.shared.table := by
  have hserve : Serves (serve (L := textLib) .rotateAccess) := ⟨.rotateAccess, trivial, rfl⟩
  -- the first one, up to its `UPDATE`
  obtain ⟨q, hupdate, hcommit⟩ := advance_rotateAccess (s := restingKeys noKeys 0) (i := 0) (u := firstUuid)
    "first" List.not_mem_nil List.not_mem_nil (fun _ _ _ h => nomatch h)
  obtain ⟨before, hbefore⟩ : ∃ trace, Run KeyStep ⟨restingKeys noKeys 0, [serve .rotateAccess]⟩ trace
      ⟨firstUpdated, [q]⟩ := Advance.run (S := keySemantics textLib) (i := 0) hupdate rfl
  -- the second one from start to end
  obtain ⟨q₂, hupdate₂, hcommit₂⟩ := advance_rotateAccess (s := firstUpdated) (i := 1) (u := secondUuid)
    "second" (by decide) List.not_mem_nil (fun j tx _ => firstUpdated_unlocked j tx)
  obtain ⟨t₂, ht₂, hkids₂⟩ : ∃ t, noKeys.applyTx ⟨some .Access, [],
      some (drawnKey firstUpdated secondUuid "second")⟩ = .ok t ∧ t.kids = [secondUuid.text] :=
    applyTx_free ⟨some .Access, [], none⟩ List.not_mem_nil
  obtain ⟨w₂, halone₂, hw₂, htxs₂⟩ := hcommit₂ bothUpdated ⟨some .Access, [], none⟩ t₂
    rfl List.not_mem_nil ht₂
  obtain ⟨between, hbetween⟩ : ∃ trace, Run KeyStep ⟨firstUpdated, [q]⟩ trace ⟨w₂, [q] ++ [.ret ()]⟩ :=
    Alone.spawn_run [q] hserve (hupdate₂.alone halone₂)
  -- the first one goes on
  have hopen₂ : w₂.txs 0 = some ⟨some .Access, [], none⟩ := (htxs₂ 0 (by decide)).trans rfl
  have hfree : firstUuid.text ∉ w₂.table.kids := by
    rw [hw₂, hkids₂]
    decide
  obtain ⟨t, ht, -⟩ : ∃ t, w₂.table.applyTx ⟨some .Access, [],
      some (drawnKey (restingKeys noKeys 0) firstUuid "first")⟩ = .ok t ∧ t.kids = w₂.table.kids ++ _ :=
    applyTx_free ⟨some .Access, [], none⟩ hfree
  obtain ⟨w, halone, hw, -⟩ := hcommit w₂ ⟨some .Access, [], none⟩ t hopen₂ hfree ht
  obtain ⟨after, hafter⟩ : ∃ trace, Run KeyStep ⟨w₂, [q] ++ [.ret ()]⟩ trace ⟨w, _⟩ :=
    Alone.run (S := keySemantics textLib) (i := 0) halone rfl
  refine ⟨_, _, .cons (.spawn hserve) (hbefore.append (hbetween.append hafter)), ?_⟩
  intro hsole
  have hsecond : drawnKey firstUpdated secondUuid "second" ∈ w₂.table.rows := by
    rw [hw₂]
    exact ((active_applyTx ht₂).mpr ⟨rfl, Or.inr rfl⟩).1
  have hfirst : drawnKey (restingKeys noKeys 0) firstUuid "first" ∈ w.table.rows := by
    rw [hw]
    exact ((active_applyTx ht).mpr ⟨rfl, Or.inr rfl⟩).1
  have hkept : drawnKey firstUpdated secondUuid "second" ∈ w.table.rows := by
    rw [hw]
    exact ((active_applyTx ht).mpr ⟨rfl, Or.inl ⟨hsecond, List.not_mem_nil⟩⟩).1
  have hkids := congrArg SigningKeyEntity.kid (hsole _ hfirst _ hkept rfl rfl rfl)
  revert hkids
  decide

theorem noKeys_init : KeysInit ⟨restingKeys noKeys 0, []⟩ :=
  restingKeys_init 0 fun _ h => nomatch h

theorem noKeys_soleActive : SoleActive noKeys := fun _ h => nomatch h

end Sample

theorem active_keys_doubled : ∃ (pool : KeyPool textLib) (trace : List (KeyLabel textLib))
    (pool' : KeyPool textLib), KeysInit pool ∧ SoleActive pool.shared.table ∧ Run KeyStep pool trace pool' ∧
    ¬ SoleActive pool'.shared.table := by
  obtain ⟨trace, pool', hrun, hdouble⟩ := two_rotations
  exact ⟨_, trace, pool', noKeys_init, noKeys_soleActive, hrun, hdouble⟩

/-- The condition is the one that fails there. -/
theorem one_active_key_boot : ∃ trace pool', Run KeyStep ⟨restingKeys noKeys 0, []⟩ trace pool' ∧
    ¬ ∀ before i r after p p', trace = before ++ .cmd i .commit r :: after →
      Run KeyStep ⟨restingKeys noKeys 0, []⟩ before p → KeyStep p (.cmd i .commit r) p' →
      Run KeyStep p' after pool' → Took r → SnapshotHolds p.shared i := by
  obtain ⟨trace, pool', hrun, hdouble⟩ := two_rotations
  refine ⟨trace, pool', hrun, ?_⟩
  intro hsees
  refine hdouble ?_
  exact (one_active_key_iff noKeys_init noKeys_soleActive).mpr hsees trace [] pool'
    (List.append_nil _).symm hrun (.nil _)

end Chinwag.Keys

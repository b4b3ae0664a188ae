import Chinwag.Chat.StoreInvariant

/-!
# Every command keeps the invariant

One lemma for each way a command can change the store, and from them the soundness of
the contract the threads are judged by.
-/
namespace Chinwag.Chat

open Program

theorem outboxIds_eq (s : Store) : s.outboxIds = s.written.map (fun x => x.1.id) := by
  simp [Store.outboxIds, Store.written, OutboxRow.written, Function.comp_def]

@[simp] theorem written_newRow (start : Nat) (e : OutboxEvent) : (newRow start e).written = (e, start) :=
  rfl

/-- What makes a change and its event fit together is in the columns that stay. -/
theorem Coupled.persist {m m' : Messages} {w : Mutation} {e : OutboxEvent} (h : Coupled m w e)
    (hp : RowsPersist m m') : Coupled m' w e := by
  obtain ⟨row, hrow, ha⟩ := h
  rw [Mutation.apply_target] at hrow
  cases w with
  | insert id row' =>
    have hr : row' = row := by simpa [Mutation.on] using hrow
    subst hr
    exact ⟨row', by rw [Mutation.apply_target]; rfl, ha⟩
  | setContent id content now =>
    simp only [Mutation.on, Option.map_eq_some_iff] at hrow
    obtain ⟨r, hr, rfl⟩ := hrow
    obtain ⟨r', hr', h₁, h₂, h₃⟩ := hp _ r hr
    refine ⟨{ r' with content := content, updatedAt := some now }, ?_, ?_⟩
    · rw [Mutation.apply_target, hr']
      rfl
    · obtain ⟨msg, name, payload, t, hd, ht, hpay, he⟩ := ha
      refine ⟨msg, name, payload, t, ?_, ht, hpay, ?_⟩
      · exact ⟨hd.id, hd.roomId.trans h₁.symm, hd.authorId.trans h₂.symm,
          hd.messageType.trans h₃.symm, hd.content⟩
      · simpa only [h₁] using he
  | softDelete id now =>
    simp only [Mutation.on, Option.map_eq_some_iff] at hrow
    obtain ⟨r, hr, rfl⟩ := hrow
    obtain ⟨r', hr', h₁, -, -⟩ := hp _ r hr
    refine ⟨{ r' with deletedAt := some now }, ?_, ?_⟩
    · rw [Mutation.apply_target, hr']
      rfl
    · simpa only [Announces, h₁] using ha

/-- A change of another row leaves a change as it was. -/
theorem Mutation.Enabled.apply_ne {w w' : Mutation} {m : Messages} (h : w.Enabled m)
    (hne : w.target ≠ w'.target) : w.Enabled (w'.apply m) := by
  have hsame : w'.apply m w.target = m w.target := w'.apply_ne m hne
  cases w with
  | insert id row => exact ⟨hsame.trans h.1, h.2⟩
  | setContent id content now =>
    obtain ⟨r, hr, hd⟩ := h
    exact ⟨r, hsame.trans hr, hd⟩
  | softDelete id now =>
    obtain ⟨r, hr, hd⟩ := h
    exact ⟨r, hsame.trans hr, hd⟩

theorem TxShape.apply_ne {m : Messages} {tx : Tx} {w : Mutation} (h : TxShape m tx)
    (hw : w.Enabled m) (hne : ∀ w' ∈ tx.writes, w'.target ≠ w.target) : TxShape (w.apply m) tx := by
  have hp := Mutation.rowsPersist hw
  cases h with
  | started start => exact .started start
  | written start he => exact .written start (he.apply_ne (hne _ (by simp)))
  | complete start he hc => exact .complete start (he.apply_ne (hne _ (by simp))) (hc.persist hp)

/-- The write invariant reads the tables, the open transactions and the history only. -/
theorem WriteInv.congr {s₀ s t : Store} (h : WriteInv s₀ s) (hm : t.messages = s.messages)
    (hh : t.history = s.history) (hw : t.written = s.written) (ht : t.txs = s.txs) :
    WriteInv s₀ t := by
  have hids : t.outboxIds = s.outboxIds := by rw [outboxIds_eq, outboxIds_eq, hw]
  constructor
  · rw [hm, hh]; exact h.replays
  · rw [hw, hh]; exact h.written
  · rw [hids]; exact h.keys
  · rw [hm, ht]; exact h.shape
  · rw [ht]; exact h.locks
  · rw [hids, ht]; exact h.fresh
  · rw [ht]; exact h.apart
  · rw [hh]; exact h.threads

/-- A transaction may take any state that has a proper shape and no conflict with another. -/
theorem WriteInv.setTx {s₀ s : Store} (h : WriteInv s₀ s) (i : Nat) (o : Option Tx)
    (hshape : ∀ tx, o = some tx → TxShape s.messages tx)
    (hlocks : ∀ tx, o = some tx → ∀ w ∈ tx.writes, s.Unlocked i w.target)
    (hfresh : ∀ tx, o = some tx → ∀ e ∈ tx.events, e.id ∉ s.outboxIds)
    (hapart : ∀ tx, o = some tx → ∀ e ∈ tx.events, ∀ j tx', j ≠ i → s.txs j = some tx' →
      ∀ e' ∈ tx'.events, e'.id ≠ e.id) : WriteInv s₀ (s.setTx i o) := by
  have hother : ∀ j, j ≠ i → (s.setTx i o).txs j = s.txs j := by
    intro j hj
    simp [Store.setTx, hj]
  have hself : (s.setTx i o).txs i = o := by simp [Store.setTx]
  constructor
  · exact h.replays
  · exact h.written
  · exact h.keys
  · intro j tx hj
    by_cases hji : j = i
    · subst hji
      rw [hself] at hj
      exact hshape tx hj
    · rw [hother j hji] at hj
      exact h.shape j tx hj
  · intro j k tx tx' hjk hj hk w hw w' hw'
    by_cases hji : j = i
    · subst hji
      rw [hself] at hj
      rw [hother k (Ne.symm hjk)] at hk
      exact fun he => hlocks tx hj w hw k tx' (Ne.symm hjk) hk w' hw' he.symm
    · rw [hother j hji] at hj
      by_cases hki : k = i
      · subst hki
        rw [hself] at hk
        exact hlocks tx' hk w' hw' j tx hji hj w hw
      · rw [hother k hki] at hk
        exact h.locks j k tx tx' hjk hj hk w hw w' hw'
  · intro j tx hj
    by_cases hji : j = i
    · subst hji
      rw [hself] at hj
      exact hfresh tx hj
    · rw [hother j hji] at hj
      exact h.fresh j tx hj
  · intro j k tx tx' hjk hj hk e he e' he'
    by_cases hji : j = i
    · subst hji
      rw [hself] at hj
      rw [hother k (Ne.symm hjk)] at hk
      exact fun heq => hapart tx hj e he k tx' (Ne.symm hjk) hk e' he' heq.symm
    · rw [hother j hji] at hj
      by_cases hki : k = i
      · subst hki
        rw [hself] at hk
        exact hapart tx' hk e' he' j tx hji hj e he
      · rw [hother k hki] at hk
        exact h.apart j k tx tx' hjk hj hk e he e' he'
  · exact h.threads

theorem WriteInv.dropTx {s₀ s : Store} (h : WriteInv s₀ s) (i : Nat) : WriteInv s₀ (s.setTx i none) :=
  h.setTx i none (by simp) (by simp) (by simp) (by simp)

theorem WriteInv.begin {s₀ s : Store} (h : WriteInv s₀ s) (i : Nat) :
    WriteInv s₀ (s.setTx i (some ⟨s.now, [], []⟩)) := by
  refine h.setTx i _ ?_ ?_ ?_ ?_
  · rintro tx ⟨⟩
    exact .started s.now
  all_goals
    rintro tx ⟨⟩
    simp

/-- The first statement of a transaction: a change that finds its row, under its lock. -/
theorem WriteInv.addWrite {s₀ s : Store} (h : WriteInv s₀ s) {i : Nat} {tx : Tx} {w : Mutation}
    (hempty : tx.writes = [] ∧ tx.events = []) (hw : w.Enabled s.messages)
    (hlock : s.Unlocked i w.target) : WriteInv s₀ (s.addWrite i tx w) := by
  obtain ⟨start, writes, events⟩ := tx
  obtain ⟨rfl, rfl⟩ := hempty
  refine h.setTx i _ ?_ ?_ ?_ ?_
  · rintro tx ⟨⟩
    exact .written start hw
  · rintro tx ⟨⟩ w' hw'
    rw [List.nil_append, List.mem_singleton] at hw'
    rw [hw']
    exact hlock
  all_goals
    rintro tx ⟨⟩
    simp

/-- The second one: the event announcing the change. -/
theorem WriteInv.addEvent {s₀ s : Store} (h : WriteInv s₀ s) {i : Nat} {tx : Tx} {w : Mutation}
    {e : OutboxEvent} (hi : s.txs i = some tx) (hw : tx.writes = [w]) (hempty : tx.events = [])
    (hc : Coupled s.messages w e) (hfree : s.EventIdFree e.id) : WriteInv s₀ (s.addEvent i tx e) := by
  have hshape := h.shape i tx hi
  obtain ⟨start, writes, events⟩ := tx
  simp only at hw hempty
  subst hw hempty
  refine h.setTx i _ ?_ ?_ ?_ ?_
  · rintro tx ⟨⟩
    cases hshape with
    | written _ hen => exact .complete start hen hc
  · rintro tx ⟨⟩ w' hw' j tx' hj htx' v hv
    exact h.locks j i tx' _ hj htx' hi v hv w' hw'
  · rintro tx ⟨⟩ e' he'
    rw [List.nil_append, List.mem_singleton] at he'
    rw [he']
    exact hfree.1
  · rintro tx ⟨⟩ e' he' j tx' hj htx' v hv
    rw [List.nil_append, List.mem_singleton] at he'
    rw [he']
    exact hfree.2 j tx' htx' v hv

/-- A transaction whose event is staged has its one change staged too. -/
theorem TxShape.of_events {m : Messages} {tx : Tx} (h : TxShape m tx) (he : tx.events ≠ []) :
    ∃ w e, tx = ⟨tx.start, [w], [e]⟩ ∧ w.Enabled m ∧ Coupled m w e := by
  cases h with
  | started start => exact absurd rfl he
  | written start _ => exact absurd rfl he
  | @complete w e start hw hc => exact ⟨w, e, rfl, hw, hc⟩

theorem commitTx_written (s : Store) (i : Nat) (tx : Tx) :
    (s.commitTx i tx).written = s.written ++ tx.events.map fun e => (e, tx.start) := by
  simp [Store.commitTx, Store.written, Function.comp_def]

theorem WriteInv.commitTx {s₀ s : Store} (h : WriteInv s₀ s) {i : Nat} {tx : Tx}
    (hi : s.txs i = some tx) (hev : tx.events ≠ []) (hmine : ∀ c ∈ s.history, c.thread ≠ i) :
    WriteInv s₀ (s.commitTx i tx) := by
  obtain ⟨w, e, htx, hw, hc⟩ := (h.shape i tx hi).of_events hev
  have hfresh : e.id ∉ s.outboxIds := h.fresh i tx hi e (by rw [htx]; simp)
  have hdrop := h.dropTx i
  have hwritten : (s.commitTx i tx).written = s.written ++ [(e, tx.start)] := by
    rw [commitTx_written, htx]
    rfl
  have hids : (s.commitTx i tx).outboxIds = s.outboxIds ++ [e.id] := by
    rw [outboxIds_eq, hwritten, outboxIds_eq, List.map_append]
    rfl
  have hmsgs : (s.commitTx i tx).messages = w.apply s.messages := by
    simp only [Store.commitTx, Tx.view]
    rw [htx]
    rfl
  have hhist : (s.commitTx i tx).history = s.history ++ [⟨i, tx.start, [w], [e]⟩] := by
    simp only [Store.commitTx]
    rw [htx]
  have hopen : ∀ j tx', (s.commitTx i tx).txs j = some tx' → j ≠ i ∧ s.txs j = some tx' := by
    intro j tx' hj
    by_cases hji : j = i
    · subst hji
      simp [Store.commitTx, Store.setTx] at hj
    · refine ⟨hji, ?_⟩
      simpa [Store.commitTx, Store.setTx, hji] using hj
  constructor
  · rw [hhist, hmsgs]
    exact .snoc i tx.start h.replays hw hc
  · rw [hwritten, hhist, h.written]
    simp [Commit.written]
  · rw [hids]
    exact List.nodup_append.mpr ⟨h.keys, by simp, by
      intro a ha b hb hab
      rw [List.mem_singleton] at hb
      subst hb hab
      exact hfresh ha⟩
  · intro j tx' hj
    obtain ⟨hji, hj⟩ := hopen j tx' hj
    rw [hmsgs]
    refine (h.shape j tx' hj).apply_ne hw fun w' hw' => ?_
    exact h.locks j i tx' tx hji hj hi w' hw' w (by rw [htx]; simp)
  · intro j k tx' tx'' hjk hj hk
    exact h.locks j k tx' tx'' hjk (hopen j tx' hj).2 (hopen k tx'' hk).2
  · intro j tx' hj e' he'
    obtain ⟨hji, hj⟩ := hopen j tx' hj
    rw [hids, List.mem_append, List.mem_singleton]
    rintro (hmem | heq)
    · exact h.fresh j tx' hj e' he' hmem
    · exact h.apart j i tx' tx hji hj hi e' he' e (by rw [htx]; simp) heq
  · intro j k tx' tx'' hjk hj hk
    exact h.apart j k tx' tx'' hjk (hopen j tx' hj).2 (hopen k tx'' hk).2
  · rw [hhist, List.map_append]
    refine List.nodup_append.mpr ⟨h.threads, by simp, ?_⟩
    intro a ha b hb hab
    simp only [List.map_cons, List.map_nil, List.mem_singleton] at hb
    obtain ⟨c, hc, rfl⟩ := List.mem_map.mp ha
    exact hmine c hc (hab.trans hb)

end Chinwag.Chat

import Chinwag.Chat.StoreSteps

/-!
# Every command keeps the publishing side of the invariant

Flags are set after a success, counters raised after a failure, timers set after a
failure; a success never overtakes an event that has not been attempted.
-/
namespace Chinwag.Chat

theorem Attempted.mono {l l' : List (Uuid × Bool)} {id : Uuid} (h : Attempted l id)
    (hs : ∀ a ∈ l, a ∈ l') : Attempted l' id := by
  obtain ⟨b, hb⟩ := h
  exact ⟨b, hs _ hb⟩

/-- Events committed later are not before one that was already there. -/
theorem Precedes.of_append {l new : List (OutboxEvent × Nat)} {a b : Uuid}
    (h : Precedes (l ++ new) a b) (hb : b ∈ l.map (fun x => x.1.id))
    (hnodup : ((l ++ new).map (fun x => x.1.id)).Nodup) : Precedes l a b := by
  obtain ⟨x, y, hsub, hx, hy, hlt⟩ := h
  have hapart : y ∉ new := by
    intro hmem
    rw [List.map_append, List.nodup_append] at hnodup
    exact hnodup.2.2 b hb b (hy ▸ List.mem_map_of_mem hmem) rfl
  refine ⟨x, y, ?_, hx, hy, hlt⟩
  obtain ⟨l₁, l₂, heq, h₁, h₂⟩ := List.sublist_append_iff.mp hsub
  have hl₂ : l₂ = [] := by
    cases l₂ with
    | nil => rfl
    | cons z l₂ =>
      exfalso
      have hlast : y ∈ z :: l₂ := by
        have hsome : ([x, y] : List (OutboxEvent × Nat)).getLast? = some y := rfl
        rw [heq, List.getLast?_append_of_ne_nil _ (by simp)] at hsome
        exact List.mem_of_getLast? hsome
      exact hapart (h₂.subset hlast)
  rw [hl₂, List.append_nil] at heq
  rw [heq]
  exact h₁

/-- The splits of a list with one more entry: the new entry, or a split of the old one. -/
theorem split_concat {α : Type} {l before after : List α} {x y : α}
    (h : l ++ [x] = before ++ y :: after) :
    before = l ∧ y = x ∨ ∃ after', l = before ++ y :: after' := by
  cases List.eq_nil_or_concat after with
  | inl hnil =>
    subst hnil
    obtain ⟨h₁, h₂⟩ := List.append_inj' h rfl
    exact Or.inl ⟨h₁.symm, (List.cons.inj h₂).1.symm⟩
  | inr hcons =>
    obtain ⟨after', z, rfl⟩ := hcons
    refine Or.inr ⟨after', ?_⟩
    have hassoc : l ++ [x] = (before ++ y :: after') ++ [z] := by simpa using h
    exact (List.append_inj' hassoc rfl).1

theorem PublishInv.congr {s₀ s t : Store} (h : PublishInv s₀ s) (ho : t.outbox = s.outbox)
    (ha : t.attempts = s.attempts) (hw : t.owed = s.owed)
    (ht : ∀ p id u, t.timers p id = some u → (id, false) ∈ s.attempts) : PublishInv s₀ t := by
  have hwritten : t.written = s.written := by
    unfold Store.written
    rw [ho]
  have hids : t.outboxIds = s.outboxIds := by rw [outboxIds_eq, outboxIds_eq, hwritten]
  constructor
  · rw [ho, ha]; exact h.published
  · rw [ho, ha, hw]; exact h.retries
  · rw [ha, hw]; exact h.owed
  · rw [ha]; exact ht
  · rw [ha, hids]; exact h.attempted
  · rw [ha, hwritten]; exact h.ordered

theorem PublishInv.commitTx {s₀ s : Store} (h : PublishInv s₀ s) {i : Nat} {tx : Tx}
    (hkeys : (s.commitTx i tx).outboxIds.Nodup) : PublishInv s₀ (s.commitTx i tx) := by
  have hwritten := commitTx_written s i tx
  have hmem : ∀ r ∈ (s.commitTx i tx).outbox, r ∈ s.outbox ∨ ∃ e ∈ tx.events, r = newRow tx.start e := by
    intro r hr
    have hr' : r ∈ s.outbox ++ tx.events.map (newRow tx.start) := hr
    rw [List.mem_append, List.mem_map] at hr'
    rcases hr' with hr' | ⟨e, he, rfl⟩
    · exact Or.inl hr'
    · exact Or.inr ⟨e, he, rfl⟩
  have hids : (s.commitTx i tx).outboxIds = s.outboxIds ++ tx.events.map (·.id) := by
    rw [outboxIds_eq, hwritten, outboxIds_eq, List.map_append, List.map_map]
    rfl
  have hnew : ∀ e ∈ tx.events, e.id ∉ s.outboxIds := by
    intro e he hold
    rw [hids, List.nodup_append] at hkeys
    exact hkeys.2.2 _ hold _ (List.mem_map_of_mem he) rfl
  constructor
  · intro r hr hr₀ hpub
    rcases hmem r hr with hold | ⟨e, _, rfl⟩
    · exact h.published r hold hr₀ hpub
    · exact absurd rfl hpub
  · intro r hr hr₀
    rcases hmem r hr with hold | ⟨e, he, rfl⟩
    · exact h.retries r hold hr₀
    · have hzero : s.owed.countP (fun o => o.2 = e.id) = 0 := by
        rw [List.countP_eq_zero]
        intro o ho heq
        have hatt := h.attempted _ (h.owed o ho)
        exact hnew e he (of_decide_eq_true heq ▸ hatt)
      have hcount : (newRow tx.start e).retryCount +
          s.owed.countP (fun o => o.2 = e.id) = 0 := by
        rw [hzero]
        rfl
      exact hcount ▸ Nat.zero_le _
  · exact h.owed
  · exact h.timers
  · intro a ha
    rw [hids]
    exact List.mem_append_left _ (h.attempted a ha)
  · intro before after b hsplit a hp hnew₀
    have hb : b ∈ s.outboxIds := by
      refine h.attempted (b, true) ?_
      have hsplit' : s.attempts = before ++ (b, true) :: after := hsplit
      rw [hsplit']
      simp
    rw [hwritten] at hp
    refine h.ordered before after b hsplit a (hp.of_append (outboxIds_eq s ▸ hb) ?_) hnew₀
    rw [← hwritten, ← outboxIds_eq]
    exact hkeys

/-- An update that leaves what was written, and keeps the flag and counter true to the attempts. -/
theorem PublishInv.updateOutbox {s₀ s : Store} (h : PublishInv s₀ s) {id : Uuid}
    {f : OutboxRow → OutboxRow} {owed : List (Nat × Uuid)} (hf : ∀ r, (f r).written = r.written)
    (hpub : ∀ r, (f r).publishedAt ≠ none → r.publishedAt ≠ none ∨ (id, true) ∈ s.attempts)
    (hsub : ∀ o ∈ owed, o ∈ s.owed)
    (hself : ∀ r, (f r).retryCount + owed.countP (fun o => o.2 = id) ≤
      r.retryCount + s.owed.countP (fun o => o.2 = id))
    (hother : ∀ id', owed.countP (fun o => o.2 = id') ≤ s.owed.countP (fun o => o.2 = id')) :
    PublishInv s₀ ((s.updateOutbox id f).setOwed owed) := by
  set t := s.updateOutbox id f
  have hwritten : (t.setOwed owed).written = s.written := by
    simp only [Store.written, t, Store.setOwed, Store.updateOutbox, List.map_map]
    refine List.map_congr_left fun r _ => ?_
    simp only [Function.comp_apply]
    split
    · exact hf r
    · rfl
  have hids : (t.setOwed owed).outboxIds = s.outboxIds := by
    rw [outboxIds_eq, hwritten, outboxIds_eq]
  have hid : ∀ r, (f r).id = r.id := fun r => congrArg (fun x => x.1.id) (hf r)
  have hmem : ∀ r ∈ t.outbox, ∃ q ∈ s.outbox, r = if q.id = id then f q else q := by
    intro r hr
    obtain ⟨q, hq, rfl⟩ := List.mem_map.mp hr
    exact ⟨q, hq, rfl⟩
  constructor
  · intro r hr hr₀ hp
    obtain ⟨q, hq, rfl⟩ := hmem r hr
    by_cases hqid : q.id = id
    · rw [if_pos hqid] at hr₀ hp ⊢
      rw [hid] at hr₀ ⊢
      rcases hpub q hp with hold | hnew
      · exact h.published q hq hr₀ hold
      · rw [hqid]
        exact hnew
    · rw [if_neg hqid] at hr₀ hp ⊢
      exact h.published q hq hr₀ hp
  · intro r hr hr₀
    obtain ⟨q, hq, rfl⟩ := hmem r hr
    by_cases hqid : q.id = id
    · rw [if_pos hqid] at hr₀ ⊢
      rw [hid] at hr₀ ⊢
      have hq' := h.retries q hq hr₀
      rw [hqid] at hq' ⊢
      exact (hself q).trans hq'
    · rw [if_neg hqid] at hr₀ ⊢
      exact (Nat.add_le_add_left (hother q.id) _).trans (h.retries q hq hr₀)
  · intro o ho
    exact h.owed o (hsub o ho)
  · exact h.timers
  · rw [hids]
    exact h.attempted
  · rw [hwritten]
    exact h.ordered

theorem PublishInv.markPublished {s₀ s : Store} (h : PublishInv s₀ s) {id : Uuid}
    (hpub : (id, true) ∈ s.attempts) (now : Nat) :
    PublishInv s₀ (s.updateOutbox id (OutboxRow.marked now)) :=
  h.updateOutbox (OutboxRow.written_marked now) (fun _ _ => Or.inr hpub) (fun _ ho => ho)
    (fun _ => le_refl _) (fun _ => le_refl _)

theorem PublishInv.incrementRetry {s₀ s : Store} (h : PublishInv s₀ s) {i : Nat} {id : Uuid}
    (howed : (i, id) ∈ s.owed) :
    PublishInv s₀ ((s.updateOutbox id OutboxRow.retried).setOwed (s.owed.erase (i, id))) := by
  have hperm := List.perm_cons_erase howed
  refine h.updateOutbox OutboxRow.written_retried (fun _ hp => Or.inl hp) (fun _ => List.mem_of_mem_erase) ?_ ?_
  · intro r
    have hcount := hperm.countP_eq (fun o => decide (o.2 = id))
    rw [List.countP_cons_of_pos (by simp)] at hcount
    show r.retryCount + 1 + _ ≤ _
    omega
  · intro id'
    exact List.erase_sublist.countP_le

/-- One more call of `PublishRaw`; a failed one may be counted once. -/
theorem PublishInv.publishRaw {s₀ s : Store} (h : PublishInv s₀ s) {id : Uuid} (ok : Bool)
    {owed : List (Nat × Uuid)} (hid : id ∈ s.outboxIds)
    (hbefore : ∀ a, Precedes s.written a id → a ∉ s₀.outboxIds → Attempted s.attempts a)
    (howed : ∀ o ∈ owed, o ∈ s.owed ∨ o.2 = id ∧ ok = false)
    (hcount : ∀ id', owed.countP (fun o => o.2 = id') ≤
      s.owed.countP (fun o => o.2 = id') + [(id, ok)].count (id', false)) :
    PublishInv s₀ { s with attempts := s.attempts ++ [(id, ok)], owed := owed } := by
  have hmono : ∀ a ∈ s.attempts, a ∈ s.attempts ++ [(id, ok)] := fun _ => List.mem_append_left _
  constructor
  · intro r hr hr₀ hp
    exact hmono _ (h.published r hr hr₀ hp)
  · intro r hr hr₀
    have hold := h.retries r hr hr₀
    have hc := hcount r.id
    show r.retryCount + owed.countP _ ≤ (s.attempts ++ [(id, ok)]).count _
    rw [List.count_append]
    omega
  · intro o ho
    rcases howed o ho with hold | ⟨heq, hok⟩
    · exact hmono _ (h.owed o hold)
    · subst hok
      rw [heq]
      exact List.mem_append_right _ (by simp)
  · intro p id' u hu
    exact hmono _ (h.timers p id' u hu)
  · intro a ha
    rcases List.mem_append.mp ha with hold | hnew
    · exact h.attempted a hold
    · rw [List.mem_singleton.mp hnew]
      exact hid
  · intro before after b hsplit a hp hnew
    rcases split_concat hsplit with ⟨rfl, heq⟩ | ⟨after', hold⟩
    · obtain ⟨rfl, -⟩ := Prod.mk.inj heq
      exact hbefore a hp hnew
    · exact h.ordered before after' b hold a hp hnew

end Chinwag.Chat

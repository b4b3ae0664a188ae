import Chinwag.Chat.PublishSteps

/-!
# The contract between the threads of the command service

Every command that is issued under its guarantee keeps the invariant and what the other
threads rely on; so does everything that happens on its own.
-/
namespace Chinwag.Chat

open Program Rfc3339

/-- A step of thread `i`: the invariant holds after it, and the others may rely on it. -/
def Keeps (s₀ : Store) (i : Nat) (s t : Store) : Prop :=
  StoreInv s₀ t ∧ ∀ j, j ≠ i → Rely j s t

theorem Rely.refl (i : Nat) (s : Store) : Rely i s s :=
  ⟨Or.inl rfl, RowsPersist.refl _, rfl, List.prefix_refl _, List.prefix_refl _, fun _ h => h⟩

theorem Rely.trans {i : Nat} {s t u : Store} (h : Rely i s t) (h' : Rely i t u) : Rely i s u := by
  refine ⟨?_, h.rows.trans h'.rows, h'.mine.trans h.mine, h.written.trans h'.written,
    h.attempts.trans h'.attempts, fun id hid => h'.owed id (h.owed id hid)⟩
  rcases h'.tx with hsame | hnone
  · rw [hsame]
    exact h.tx
  · exact Or.inr hnone

theorem Rely.setTx {i j : Nat} (hj : j ≠ i) (s : Store) (o : Option Tx) : Rely j s (s.setTx i o) :=
  { Rely.refl j s with tx := Or.inl (by simp [Store.setTx, hj]) }

theorem Rely.drop (j i : Nat) (s : Store) : Rely j s (s.setTx i none) := by
  by_cases hj : j = i
  · subst hj
    exact { Rely.refl j s with tx := Or.inr (by simp [Store.setTx]) }
  · exact Rely.setTx hj s none

/-- The timers and the database clock are nothing a thread relies on. -/
theorem Rely.ofClocks (j : Nat) (s : Store) (timers : Nat → Uuid → Option Int) (now : Nat) :
    Rely j s { s with timers := timers, now := now } :=
  { Rely.refl j s with }

section Steps

variable {s₀ s : Store} {i : Nat}

theorem Keeps.refl (h : StoreInv s₀ s) : Keeps s₀ i s s := ⟨h, fun j _ => Rely.refl j s⟩

/-- The publishing side does not read the open transactions. -/
theorem PublishInv.setTx (h : PublishInv s₀ s) (i : Nat) (o : Option Tx) :
    PublishInv s₀ (s.setTx i o) :=
  h.congr rfl rfl rfl h.timers

theorem keeps_setTx {o : Option Tx} (h : StoreInv s₀ s) (hw : WriteInv s₀ (s.setTx i o)) :
    Keeps s₀ i s (s.setTx i o) :=
  ⟨⟨hw, h.publish.setTx i o⟩, fun _ hj => Rely.setTx hj s o⟩

theorem keeps_drop (h : StoreInv s₀ s) : Keeps s₀ i s (s.setTx i none) :=
  keeps_setTx h (h.write.dropTx i)

theorem keeps_timers {timers : Nat → Uuid → Option Int} (h : StoreInv s₀ s)
    (ht : ∀ p id u, timers p id = some u → (id, false) ∈ s.attempts) :
    Keeps s₀ i s { s with timers := timers } :=
  ⟨⟨h.write.congr rfl rfl rfl rfl, h.publish.congr rfl rfl rfl ht⟩, fun j _ => Rely.ofClocks j s timers s.now⟩

/-- Losing the reply of a statement adds nothing to what the statement can do. -/
theorem keeps_fallible {α : Type} {effect : α → Store → Prop} {r : Except ChatError α} {t : Store}
    (h : StoreInv s₀ s) (heffect : ∀ a t, effect a t → Keeps s₀ i s t)
    (hexec : Fallible effect s r t) : Keeps s₀ i s t := by
  cases r with
  | ok a => exact heffect a t hexec
  | error e =>
    rcases hexec with rfl | ⟨a, ha⟩
    · exact Keeps.refl h
    · exact heffect a t ha

theorem view_of_empty {tx : Tx} (h : tx.writes = []) (m : Messages) : tx.view m = m := by
  simp [Tx.view, h]

theorem keeps_insertMessage {msg : ChatMessage} {t : Store} (h : StoreInv s₀ s)
    (hempty : ∀ tx, s.txs i = some tx → tx.writes = [] ∧ tx.events = [])
    (he : InsertMessage i msg s () t) : Keeps s₀ i s t := by
  obtain ⟨tx, htx, hnone, hlock, rfl⟩ := he
  rw [view_of_empty (hempty tx htx).1] at hnone
  exact keeps_setTx h (h.write.addWrite (hempty tx htx) ⟨hnone, rfl⟩ hlock)

theorem keeps_updateRow {w : Nat → Mutation} {rows : Nat} {t : Store} (h : StoreInv s₀ s)
    (hw : ∀ n, Visible (s.messages (w n).target) → (w n).Enabled s.messages)
    (hempty : ∀ tx, s.txs i = some tx → tx.writes = [] ∧ tx.events = [])
    (he : UpdateRow i w s rows t) : Keeps s₀ i s t := by
  obtain ⟨tx, htx, ⟨hvis, hlock, -, rfl⟩ | ⟨-, -, rfl⟩⟩ := he
  · rw [view_of_empty (hempty tx htx).1] at hvis
    exact keeps_setTx h (h.write.addWrite (hempty tx htx) (hw _ hvis) hlock)
  · exact Keeps.refl h

theorem keeps_insertOutbox {e : OutboxEvent} {t : Store} (h : StoreInv s₀ s)
    (hguar : ∀ tx, s.txs i = some tx → ∃ w, tx.writes = [w] ∧ tx.events = [] ∧ Coupled s.messages w e)
    (he : InsertOutbox i e s () t) : Keeps s₀ i s t := by
  obtain ⟨tx, htx, hfree, rfl⟩ := he
  obtain ⟨w, hw, hev, hc⟩ := hguar tx htx
  exact keeps_setTx h (h.write.addEvent htx hw hev hc hfree)

theorem Rely.commitTx {j : Nat} {tx : Tx} (h : WriteInv s₀ s) (hi : s.txs i = some tx)
    (hev : tx.events ≠ []) (hj : j ≠ i) : Rely j s (s.commitTx i tx) := by
  obtain ⟨w, e, htx, hw, -⟩ := (h.shape i tx hi).of_events hev
  refine ⟨Or.inl (by simp [Store.commitTx, Store.setTx, hj]), ?_, ?_, ?_, List.prefix_refl _,
    fun _ hid => hid⟩
  · have hmsgs : (s.commitTx i tx).messages = w.apply s.messages := by
      simp only [Store.commitTx, Tx.view]
      rw [htx]
      rfl
    rw [hmsgs]
    exact Mutation.rowsPersist hw
  · have hthread : decide (i = j) = false := by
      rw [decide_eq_false_iff_not]
      exact fun heq => hj heq.symm
    simp [Store.commitTx, List.filter_append, hthread]
  · rw [commitTx_written]
    exact List.prefix_append _ _

theorem keeps_commit {tx : Tx} (h : StoreInv s₀ s) (hi : s.txs i = some tx) (hev : tx.events ≠ [])
    (hmine : ∀ c ∈ s.history, c.thread ≠ i) : Keeps s₀ i s (s.commitTx i tx) := by
  have hw := h.write.commitTx hi hev hmine
  exact ⟨⟨hw, h.publish.commitTx hw.keys⟩, fun j hj => Rely.commitTx h.write hi hev hj⟩

/-- The publisher's updates leave what was written, and all that writers look at. -/
theorem updateOutbox_written {id : Uuid} {f : OutboxRow → OutboxRow} (s : Store)
    (hf : ∀ r, (f r).written = r.written) : (s.updateOutbox id f).written = s.written := by
  simp only [Store.written, Store.updateOutbox, List.map_map]
  refine List.map_congr_left fun r _ => ?_
  simp only [Function.comp_apply]
  split
  · exact hf r
  · rfl

theorem keeps_updateOutbox {id : Uuid} {f : OutboxRow → OutboxRow} {owed : List (Nat × Uuid)}
    (h : StoreInv s₀ s) (hf : ∀ r, (f r).written = r.written)
    (hp : PublishInv s₀ ((s.updateOutbox id f).setOwed owed))
    (howed : ∀ j id, j ≠ i → (j, id) ∈ s.owed → (j, id) ∈ owed) :
    Keeps s₀ i s ((s.updateOutbox id f).setOwed owed) := by
  have hwritten : (s.updateOutbox id f).written = s.written := updateOutbox_written s hf
  refine ⟨⟨h.write.congr rfl rfl hwritten rfl, hp⟩, fun j hj => ?_⟩
  refine { Rely.refl j s with written := ?_, owed := fun id hid => howed j id hj hid }
  exact hwritten ▸ List.prefix_refl _

theorem keeps_publishRaw {id : Uuid} (ok : Bool) {owed : List (Nat × Uuid)} (h : StoreInv s₀ s)
    (hid : id ∈ s.outboxIds)
    (hbefore : ∀ a, Precedes s.written a id → a ∉ s₀.outboxIds → Attempted s.attempts a)
    (howed : owed = if ok then s.owed else (i, id) :: s.owed) :
    Keeps s₀ i s { s with attempts := s.attempts ++ [(id, ok)], owed := owed } := by
  refine ⟨⟨h.write.congr rfl rfl rfl rfl, ?_⟩, fun j _ => ?_⟩
  · refine h.publish.publishRaw ok hid hbefore ?_ ?_
    · intro o ho
      cases ok with
      | true => exact Or.inl (by simpa [howed] using ho)
      | false =>
        rw [howed, if_neg (by simp), List.mem_cons] at ho
        rcases ho with rfl | ho
        · exact Or.inr ⟨rfl, rfl⟩
        · exact Or.inl ho
    · intro id'
      cases ok with
      | true => simp [howed]
      | false =>
        rw [howed, if_neg (by simp), List.countP_cons]
        by_cases heq : id = id'
        · simp [heq]
        · simp [heq]
  · refine { Rely.refl j s with attempts := List.prefix_append _ _, owed := fun id' hid' => ?_ }
    show (j, id') ∈ owed
    rw [howed]
    split
    · exact hid'
    · exact List.mem_cons_of_mem _ hid'

end Steps

/-- A command issued under its guarantee keeps the invariant and what the others rely on. -/
theorem exec_keeps (present : Nat → Time) (s₀ : Store) (i : Nat) (c : ChatCmd) {s t : Store}
    {r : ChatReply c} (h : StoreInv s₀ s) (hguar : guarantee s₀ i c s)
    (hexec : exec present i c s r t) : Keeps s₀ i s t := by
  cases c with
  | now | newV7 | getRoomById | getMembersByRoomId | getUser =>
    have ht : t = s := hexec
    rw [ht]
    exact Keeps.refl h
  | getMessageById | pollPending | inBackoff =>
    have ht : t = s := hexec.1
    rw [ht]
    exact Keeps.refl h
  | begin =>
    cases r with
    | ok _ =>
      have ht : t = s.setTx i (some ⟨s.now, [], []⟩) := hexec
      rw [ht]
      exact keeps_setTx h (h.write.begin i)
    | error _ =>
      have ht : t = s := hexec
      rw [ht]
      exact Keeps.refl h
  | insertMessage msg =>
    exact keeps_fallible h (fun _ _ => keeps_insertMessage h hguar) hexec
  | updateMessage id content =>
    have hexec' : Fallible (UpdateRow i (fun now => .setContent id content now) s) s r t := hexec
    refine keeps_fallible h (fun _ _ he => ?_) hexec'
    exact keeps_updateRow (w := fun now => .setContent id content now) h (fun _ hv => hv) hguar he
  | deleteMessage id =>
    have hexec' : Fallible (UpdateRow i (fun now => .softDelete id now) s) s r t := hexec
    refine keeps_fallible h (fun _ _ he => ?_) hexec'
    exact keeps_updateRow (w := fun now => .softDelete id now) h (fun _ hv => hv) hguar he
  | insertOutbox e =>
    exact keeps_fallible h (fun _ _ => keeps_insertOutbox h hguar) hexec
  | commit =>
    cases r with
    | ok _ =>
      obtain ⟨tx, hi, rfl⟩ := hexec
      exact keeps_commit h hi (hguar.1 tx hi) hguar.2
    | error _ =>
      rcases hexec with rfl | rfl
      · exact Keeps.refl h
      · exact keeps_drop h
  | rollback =>
    cases r with
    | ok _ =>
      have ht : t = s.setTx i none := hexec
      rw [ht]
      exact keeps_drop h
    | error _ =>
      rcases hexec with rfl | rfl
      · exact Keeps.refl h
      · exact keeps_drop h
  | markPublished id =>
    have hexec' : Fallible (fun _ t => t = s.updateOutbox id (OutboxRow.marked s.now)) s r t := hexec
    refine keeps_fallible h (fun _ u hu => ?_) hexec'
    subst hu
    exact keeps_updateOutbox h (OutboxRow.written_marked s.now) (h.publish.markPublished hguar s.now) fun _ _ _ ho => ho
  | incrementRetry id =>
    have hexec' : Fallible (fun _ t => t = (s.updateOutbox id OutboxRow.retried).setOwed
      (s.owed.erase (i, id))) s r t := hexec
    refine keeps_fallible h (fun _ u hu => ?_) hexec'
    subst hu
    refine keeps_updateOutbox h OutboxRow.written_retried (h.publish.incrementRetry hguar) fun j id' hj ho => ?_
    exact (List.mem_erase_of_ne fun heq => hj (Prod.mk.inj heq).1).mpr ho
  | publishRaw evt =>
    cases r with
    | ok _ =>
      have ht : t = { s with attempts := s.attempts ++ [(evt.id, true)], owed := s.owed } := hexec
      rw [ht]
      exact keeps_publishRaw true h hguar.1 hguar.2 rfl
    | error _ =>
      have ht : t = { s with attempts := s.attempts ++ [(evt.id, false)], owed := (i, evt.id) :: s.owed } :=
        hexec
      rw [ht]
      exact keeps_publishRaw false h hguar.1 hguar.2 rfl
  | cleanupBackoff p =>
    obtain ⟨time, rfl⟩ := hexec
    refine keeps_timers h fun q id u hu => ?_
    by_cases hq : q = p
    · subst hq
      rw [Function.update_self, Option.filter_eq_some_iff] at hu
      exact h.publish.timers q id u hu.1
    · rw [Function.update_of_ne hq] at hu
      exact h.publish.timers q id u hu
  | setBackoff p id n =>
    obtain ⟨time, rfl⟩ := hexec
    refine keeps_timers h fun q id' u hu => ?_
    by_cases hid : id' = id
    · rw [hid]
      exact hguar
    · by_cases hq : q = p
      · subst hq
        rw [Function.update_self, Function.update_of_ne hid] at hu
        exact h.publish.timers q id' u hu
      · rw [Function.update_of_ne hq] at hu
        exact h.publish.timers q id' u hu
  | clearBackoff p id =>
    have ht : t = s.setTimer p id none := hexec
    rw [ht]
    refine keeps_timers h fun q id' u hu => ?_
    by_cases hq : q = p
    · subst hq
      rw [Function.update_self] at hu
      by_cases hid : id' = id
      · rw [hid, Function.update_self] at hu
        cases hu
      · rw [Function.update_of_ne hid] at hu
        exact h.publish.timers q id' u hu
    · rw [Function.update_of_ne hq] at hu
      exact h.publish.timers q id' u hu

theorem ambient_keeps {s₀ s t : Store} {e : Ambient} (h : StoreInv s₀ s) (he : ambient s e t) :
    StoreInv s₀ t ∧ ∀ i, Rely i s t := by
  cases e with
  | elapse n =>
    have ht : t = { s with now := s.now + n } := he
    subst ht
    exact ⟨⟨h.write.congr rfl rfl rfl rfl, h.publish.congr rfl rfl rfl h.publish.timers⟩,
      fun i => Rely.ofClocks i s s.timers (s.now + n)⟩
  | abort i =>
    have ht : t = s.setTx i none := he
    subst ht
    exact ⟨(keeps_drop h).1, fun j => Rely.drop j i s⟩
  | restart p =>
    have ht : t = { s with timers := Function.update s.timers p (fun _ => none) } := he
    subst ht
    refine ⟨(keeps_timers (i := 0) h fun q id u hu => ?_).1, fun j => Rely.ofClocks j s _ s.now⟩
    by_cases hq : q = p
    · subst hq
      rw [Function.update_self] at hu
      cases hu
    · rw [Function.update_of_ne hq] at hu
      exact h.publish.timers q id u hu

theorem chatContract_sound (present : Nat → Time) (s₀ : Store) :
    (chatContract s₀).Sound (chatSemantics present) where
  rely_refl := Rely.refl
  rely_trans _ _ _ _ h h' := h.trans h'
  env _ _ _ h he := ambient_keeps h he
  cmd i c _ _ _ h hguar hexec := exec_keeps present s₀ i c h hguar hexec

theorem storeInv_start {s : Store} (h : Starts s) : StoreInv s s where
  write :=
    { replays := by rw [h.history]; exact .nil
      written := by simp [h.history]
      keys := h.keys
      shape := by simp [h.txs]
      locks := by simp [h.txs]
      fresh := by simp [h.txs]
      apart := by simp [h.txs]
      threads := by simp [h.history] }
  publish :=
    { published := fun r hr hnew => absurd (List.mem_map_of_mem hr) hnew
      retries := fun r hr hnew => absurd (List.mem_map_of_mem hr) hnew
      owed := by simp [h.owed]
      timers := by simp [h.timers]
      attempted := by simp [h.attempts]
      ordered := by simp [h.attempts] }

end Chinwag.Chat

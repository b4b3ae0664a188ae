import Mathlib.Data.List.Flatten
import Chinwag.Chat.OutboxAtomicity

/-!
# Publication of the outbox

An event stays among the rows the publisher polls until it was published or failed
twenty times. An event whose transaction began earlier is attempted before a later one
is published; only a failure lets the later one overtake it.
-/
namespace Chinwag.Chat

open Program Transition Rfc3339

variable {present : Nat → Time} {pool₀ pool : ChatPool}
  {trace : List (Label Ambient ChatCmd ChatReply Outcome)}

/-- An event committed in the run is not one the tables began with. -/
theorem WriteInv.event_new {s₀ s : Store} (h : WriteInv s₀ s) {c : Commit} {e : OutboxEvent}
    (hc : c ∈ s.history) (he : e ∈ c.events) :
    e.id ∉ s₀.outboxIds ∧ ∃ r ∈ s.outbox, r.written = (e, c.start) := by
  have hmem : (e, c.start) ∈ s.history.flatMap Commit.written :=
    List.mem_flatMap.mpr ⟨c, hc, List.mem_map_of_mem he⟩
  have hkeys := h.keys
  rw [outboxIds_eq, h.written, List.map_append, List.nodup_append] at hkeys
  refine ⟨fun hold => ?_, ?_⟩
  · rw [outboxIds_eq] at hold
    exact hkeys.2.2 _ hold _ (List.mem_map_of_mem (f := fun x => x.1.id) hmem) rfl
  · have hall : (e, c.start) ∈ s.written := by
      rw [h.written]
      exact List.mem_append_right _ hmem
    exact List.mem_map.mp hall

/-- A committed event is still polled, or was published, or has used up its retries. -/
theorem outbox_event_kept (h₀ : InitialPool pool₀) (hrun : Run (ChatStep present) pool₀ trace pool)
    {c : Commit} {e : OutboxEvent} (hc : c ∈ pool.shared.history) (he : e ∈ c.events) :
    ∃ r ∈ pool.shared.outbox, r.toOutboxEvent = e ∧
      (Eligible r ∨ (e.id, true) ∈ pool.shared.attempts ∨
        20 ≤ r.retryCount ∧ 20 ≤ pool.shared.attempts.count (e.id, false)) := by
  have hinv := (running_run h₀ hrun).good.shared
  obtain ⟨hnew, r, hr, hwritten⟩ := hinv.write.event_new hc he
  have hevent : r.toOutboxEvent = e := congrArg Prod.fst hwritten
  subst hevent
  refine ⟨r, hr, rfl, ?_⟩
  by_cases hp : r.publishedAt = none
  · by_cases hlt : r.retryCount < 20
    · exact Or.inl ⟨hp, hlt⟩
    · have hle := hinv.publish.retries r hr hnew
      exact Or.inr (Or.inr ⟨by omega, by omega⟩)
  · exact Or.inr (Or.inl (hinv.publish.published r hr hnew hp))

theorem outbox_event_kept_create : ∃ pool trace,
    Run (ChatStep fun _ => sampleTime) ⟨emptyStore, []⟩ trace pool ∧
      ∃ r ∈ pool.shared.outbox, r.id = sampleEvent ∧
        (Eligible r ∨ (sampleEvent, true) ∈ pool.shared.attempts ∨
          20 ≤ r.retryCount ∧ 20 ≤ pool.shared.attempts.count (sampleEvent, false)) := by
  obtain ⟨payload, hpay⟩ := exists_samplePayload
  obtain ⟨trace, hrun⟩ := sampleCreate_run hpay
  obtain ⟨r, hr, he, hkept⟩ := outbox_event_kept ⟨rfl, starts_empty⟩ hrun (List.mem_singleton_self _)
    (List.mem_singleton_self _)
  exact ⟨_, trace, hrun, r, hr, congrArg OutboxEvent.id he, hkept⟩

theorem pollPending_single {r : OutboxRow} (h : Eligible r) : PollPending [r] batchSize [r] :=
  ⟨[r], by simp [h], List.pairwise_singleton _ r, rfl⟩

/-- Ticks whose one publication fails each raise the counter of the only row. -/
theorem failing_ticks (n : Nat) {s : Store} {threads : List (ChatProg Outcome)} {r : OutboxRow}
    (hout : s.outbox = [r]) (hpub : r.publishedAt = none) (hn : r.retryCount + n ≤ 20) :
    ∃ pool trace, Run (ChatStep present) ⟨s, threads⟩ trace pool ∧
      pool.shared.outbox = [{ r with retryCount := r.retryCount + n }] ∧
      pool.shared.attempts = s.attempts ++ List.replicate n (r.id, false) ∧
      pool.shared.history = s.history := by
  induction n generalizing s threads r with
  | zero => exact ⟨_, [], .nil _, hout, by simp, rfl⟩
  | succ n ih =>
    have hpoll : PollPending s.outbox batchSize [r] := by
      rw [hout]
      exact pollPending_single ⟨hpub, by omega⟩
    obtain ⟨t, hsolo, hwork⟩ : ∃ t, Solo present threads.length (publish 0) s .ticked t ∧
        Worked ([r].map fun e => (e.id, false)) s t := solo_publish 0 (fun _ => false) hpoll
    obtain ⟨first, hfirst⟩ : ∃ trace, Run (ChatStep present) ⟨s, threads⟩ trace
        ⟨t, threads ++ [.ret .ticked]⟩ := Alone.spawn_run threads (Entry.publish 0) hsolo
    have hout' : t.outbox = [r.retried] := by
      rw [hwork.outbox, hout]
      simp [attemptRow]
    have hn' : r.retried.retryCount + n ≤ 20 := by
      show r.retryCount + 1 + n ≤ 20
      omega
    obtain ⟨pool, rest, hrest, ho, ha, hh⟩ := ih hout' hpub hn'
    refine ⟨pool, _, hfirst.append hrest, ?_, ?_, hh.trans hwork.history⟩
    · rw [ho]
      simp [OutboxRow.retried, Nat.add_comm, Nat.add_left_comm]
    · rw [ha, hwork.attempts]
      simp [OutboxRow.retried, List.replicate_succ]

/-- Twenty failures in a row, and the publisher never looks at the event again. -/
theorem outbox_event_abandoned : ∃ pool trace e,
    Run (ChatStep fun _ => sampleTime) ⟨emptyStore, []⟩ trace pool ∧
      (∃ c ∈ pool.shared.history, e ∈ c.events) ∧ (∀ r ∈ pool.shared.outbox, ¬ Eligible r) ∧
      (e.id, true) ∉ pool.shared.attempts := by
  obtain ⟨payload, hpay⟩ := exists_samplePayload
  obtain ⟨first, hfirst⟩ := sampleCreate_run hpay
  set event := createdEvent sampleEvent sampleRoom payload
  have hout : (emptyStore.committed 0 (.insert sampleMessage
      (createdRow sampleRoom sampleAuthor sampleRequest 0)) event).outbox = [newRow 0 event] := rfl
  obtain ⟨pool, rest, hrest, ho, ha, hh⟩ := failing_ticks 20 hout rfl (le_refl _)
  refine ⟨pool, _, event, hfirst.append hrest, ?_, ?_, ?_⟩
  · rw [hh]
    exact ⟨_, List.mem_singleton_self _, List.mem_singleton_self _⟩
  · rw [ho]
    intro r hr he
    rw [List.mem_singleton.mp hr] at he
    have hlt : 0 + 20 < 20 := he.2
    omega
  · rw [ha]
    intro hmem
    rcases List.mem_append.mp hmem with hnil | hrep
    · cases hnil
    · cases (List.eq_of_mem_replicate hrep)

/-- A later event of the history is published only after the earlier one was attempted. -/
theorem publication_order (h₀ : InitialPool pool₀) (hrun : Run (ChatStep present) pool₀ trace pool)
    {c₁ c₂ : Commit} {e₁ e₂ : OutboxEvent} {before after : List (Uuid × Bool)}
    (horder : [c₁, c₂].Sublist pool.shared.history) (h₁ : e₁ ∈ c₁.events) (h₂ : e₂ ∈ c₂.events)
    (hstart : c₁.start < c₂.start)
    (hpub : pool.shared.attempts = before ++ (e₂.id, true) :: after)
    (hnofail : (e₁.id, false) ∉ before) : (e₁.id, true) ∈ before := by
  have hinv := (running_run h₀ hrun).good.shared
  have hnew := (hinv.write.event_new (horder.subset (by simp)) h₁).1
  have hsub : [(e₁, c₁.start), (e₂, c₂.start)].Sublist pool.shared.written := by
    have hflat : ([c₁, c₂].flatMap Commit.written).Sublist (pool.shared.history.flatMap Commit.written) :=
      horder.flatMap _
    have hpair : [(e₁, c₁.start), (e₂, c₂.start)].Sublist ([c₁, c₂].flatMap Commit.written) := by
      have hone : [(e₁, c₁.start)].Sublist c₁.written :=
        List.singleton_sublist.mpr (List.mem_map_of_mem h₁)
      have htwo : [(e₂, c₂.start)].Sublist c₂.written :=
        List.singleton_sublist.mpr (List.mem_map_of_mem h₂)
      simpa using hone.append htwo
    rw [hinv.write.written]
    exact (hpair.trans hflat).trans (List.sublist_append_right _ _)
  obtain ⟨b, hb⟩ := hinv.publish.ordered before after e₂.id hpub e₁.id
    ⟨_, _, hsub, rfl, rfl, hstart⟩ hnew
  cases b with
  | true => exact hb
  | false => exact absurd hb hnofail

/-- From an empty database a create, `n` units of time later an edit by its author. -/
theorem sampleEdit_run (n : Nat) : ∃ s threads trace w₁ w₂ e₁ e₂,
    Run (ChatStep fun _ => sampleTime) ⟨emptyStore, []⟩ trace ⟨s, threads⟩ ∧
      s.outbox = [newRow 0 e₁, newRow n e₂] ∧ s.attempts = [] ∧
      s.history = [⟨0, 0, [w₁], [e₁]⟩, ⟨1, n, [w₂], [e₂]⟩] ∧
      w₁.target = sampleMessage ∧ w₂.target = sampleMessage ∧
      e₁.id = sampleEvent ∧ e₂.id = sampleEditEvent := by
  obtain ⟨payload, hpay⟩ := exists_samplePayload
  obtain ⟨payload', hpay'⟩ := exists_sampleEditPayload
  obtain ⟨first, hfirst⟩ := sampleCreate_run hpay
  generalize hcreated : emptyStore.committed 0 (.insert sampleMessage
    (createdRow sampleRoom sampleAuthor sampleRequest 0))
    (createdEvent sampleEvent sampleRoom payload) = s₁ at hfirst
  have hnow : s₁.now = 0 := by rw [← hcreated]; rfl
  have hrow : s₁.messages sampleMessage = some (createdRow sampleRoom sampleAuthor sampleRequest 0) := by
    rw [← hcreated]
    simp [Store.committed, Mutation.apply, Mutation.target, Mutation.on]
  have hidle : ∀ j, s₁.txs j = none := by
    rw [← hcreated]
    exact starts_empty.txs
  have hout : s₁.outbox = [newRow 0 (createdEvent sampleEvent sampleRoom payload)] := by
    rw [← hcreated]
    rfl
  have hfree : sampleEditEvent ∉ s₁.outboxIds := by
    intro hmem
    rw [Store.outboxIds, hout] at hmem
    have hid : sampleEditEvent = sampleEvent := List.mem_singleton.mp hmem
    exact absurd hid (by decide)
  have hhist : s₁.history = [⟨0, 0, [.insert sampleMessage (createdRow sampleRoom sampleAuthor sampleRequest 0)],
      [createdEvent sampleEvent sampleRoom payload]⟩] := by
    rw [← hcreated]
    rfl
  have hnone : s₁.attempts = [] := by rw [← hcreated]; rfl
  have hwait : ChatStep (fun _ => sampleTime)
      ⟨s₁, [.ret (.returned sampleCreate (.ok (some (toResponse sampleCreated "Ann"))))]⟩
      (.env (.elapse n)) ⟨{ s₁ with now := s₁.now + n }, _⟩ := .env rfl
  have hedit : Solo (fun _ => sampleTime) 1 (serve (.update sampleMessage sampleAuthor ⟨some "edited"⟩))
      { s₁ with now := s₁.now + n } _ _ := solo_update hidle hrow rfl rfl hfree hpay'
  obtain ⟨second, hsecond⟩ := Alone.spawn_run (S := chatSemantics fun _ => sampleTime)
    [.ret (.returned sampleCreate (.ok (some (toResponse sampleCreated "Ann"))))] (Entry.serve _) hedit
  refine ⟨_, _, _, .insert sampleMessage (createdRow sampleRoom sampleAuthor sampleRequest 0),
    .setContent sampleMessage "edited" n, createdEvent sampleEvent sampleRoom payload,
    updatedEvent sampleEditEvent sampleRoom payload', (hfirst.append (.single hwait)).append hsecond, ?_,
    hnone, ?_, rfl, rfl, rfl, rfl⟩
  · simp only [Store.committed, hout, hnow, Nat.zero_add]
    rfl
  · simp only [Store.committed, hhist, hnow, Nat.zero_add]
    rfl

/-- A publisher's tick over the two events: its poll returned them in the order of
`created_at`, or in any order where this is the same. -/
theorem sampleEdit_published (n : Nat) (ok : Uuid → Bool) (reversed : Bool)
    (hrows : reversed = true → n = 0) :
    ∃ pool trace w₁ w₂ e₁ e₂, Run (ChatStep fun _ => sampleTime) ⟨emptyStore, []⟩ trace pool ∧
      pool.shared.history = [⟨0, 0, [w₁], [e₁]⟩, ⟨1, n, [w₂], [e₂]⟩] ∧
      w₁.target = sampleMessage ∧ w₂.target = sampleMessage ∧
      e₁.id = sampleEvent ∧ e₂.id = sampleEditEvent ∧
      pool.shared.attempts = if reversed then [(e₂.id, ok e₂.id), (e₁.id, ok e₁.id)]
        else [(e₁.id, ok e₁.id), (e₂.id, ok e₂.id)] := by
  obtain ⟨s, threads, trace, w₁, w₂, e₁, e₂, hrun, hout, hnone, hhist, ht₁, ht₂, he₁, he₂⟩ :=
    sampleEdit_run n
  have hall : s.outbox.filter (fun r => Eligible r) = [newRow 0 e₁, newRow n e₂] := by
    rw [hout]
    rfl
  have hpoll : PollPending s.outbox batchSize
      (if reversed then [newRow n e₂, newRow 0 e₁] else [newRow 0 e₁, newRow n e₂]) := by
    refine ⟨_, ?_, ?_, (List.take_of_length_le ?_).symm⟩
    · rw [hall]
      split
      · exact List.Perm.swap _ _ _
      · exact List.Perm.refl _
    · split
      · rename_i hrev
        simp [newRow, hrows hrev]
      · simp [newRow]
    · split
      · exact Nat.le_of_ble_eq_true rfl
      · exact Nat.le_of_ble_eq_true rfl
  obtain ⟨t, hsolo, hwork⟩ : ∃ t, Solo (fun _ => sampleTime) threads.length (publish 0) s .ticked t ∧
      Worked _ s t := solo_publish 0 (fun r => ok r.id) hpoll
  obtain ⟨last, hlast⟩ : ∃ trace, Run (ChatStep fun _ => sampleTime) ⟨s, threads⟩ trace
      ⟨t, threads ++ [.ret .ticked]⟩ := Alone.spawn_run threads (Entry.publish 0) hsolo
  refine ⟨_, _, w₁, w₂, e₁, e₂, hrun.append hlast, hwork.history.trans hhist, ht₁, ht₂, he₁, he₂, ?_⟩
  rw [hwork.attempts, hnone, List.nil_append]
  split
  · rfl
  · rfl

theorem publication_order_edit : ∃ pool trace before after,
    Run (ChatStep fun _ => sampleTime) ⟨emptyStore, []⟩ trace pool ∧
      pool.shared.attempts = before ++ (sampleEditEvent, true) :: after ∧ (sampleEvent, true) ∈ before := by
  obtain ⟨pool, trace, w₁, w₂, e₁, e₂, hrun, hhist, -, -, he₁, he₂, hatt⟩ :=
    sampleEdit_published 1 (fun _ => true) false (by simp)
  have hatt' : pool.shared.attempts = [(e₁.id, true)] ++ (e₂.id, true) :: [] := hatt
  have horder : [(⟨0, 0, [w₁], [e₁]⟩ : Commit), ⟨1, 1, [w₂], [e₂]⟩].Sublist pool.shared.history := by
    rw [hhist]
  have hbefore := publication_order ⟨rfl, starts_empty⟩ hrun horder (List.mem_singleton_self e₁)
    (List.mem_singleton_self e₂) Nat.zero_lt_one hatt' (by simp)
  rw [he₁, he₂] at hatt'
  rw [he₁] at hbefore
  exact ⟨pool, trace, _, _, hrun, hatt', hbefore⟩

/-- An edit published before its creation: because one publication failed, and with no
failure at all where both transactions began at one reading of the clock. -/
theorem edit_overtakes_creation :
    (∃ pool trace c₁ c₂ w₁ w₂ e₁ e₂, Run (ChatStep fun _ => sampleTime) ⟨emptyStore, []⟩ trace pool ∧
      pool.shared.history = [c₁, c₂] ∧ w₁ ∈ c₁.writes ∧ w₂ ∈ c₂.writes ∧ w₁.target = w₂.target ∧
      e₁ ∈ c₁.events ∧ e₂ ∈ c₂.events ∧ c₁.start < c₂.start ∧
      pool.shared.attempts = [(e₁.id, false), (e₂.id, true)]) ∧
    ∃ pool trace c₁ c₂ w₁ w₂ e₁ e₂, Run (ChatStep fun _ => sampleTime) ⟨emptyStore, []⟩ trace pool ∧
      pool.shared.history = [c₁, c₂] ∧ w₁ ∈ c₁.writes ∧ w₂ ∈ c₂.writes ∧ w₁.target = w₂.target ∧
      e₁ ∈ c₁.events ∧ e₂ ∈ c₂.events ∧ c₁.start = c₂.start ∧
      pool.shared.attempts = [(e₂.id, true), (e₁.id, true)] := by
  have hne : (sampleEditEvent != sampleEvent) = true := by decide
  constructor
  · obtain ⟨pool, trace, w₁, w₂, e₁, e₂, hrun, hhist, ht₁, ht₂, he₁, he₂, hatt⟩ :=
      sampleEdit_published 1 (fun id => id != sampleEvent) false (by simp)
    refine ⟨pool, trace, _, _, w₁, w₂, e₁, e₂, hrun, hhist, by simp, by simp, ht₁.trans ht₂.symm, by simp,
      by simp, Nat.zero_lt_one, ?_⟩
    simpa [he₁, he₂, hne] using hatt
  · obtain ⟨pool, trace, w₁, w₂, e₁, e₂, hrun, hhist, ht₁, ht₂, he₁, he₂, hatt⟩ :=
      sampleEdit_published 0 (fun _ => true) true (by simp)
    exact ⟨pool, trace, _, _, w₁, w₂, e₁, e₂, hrun, hhist, by simp, by simp, ht₁.trans ht₂.symm, by simp,
      by simp, rfl, hatt⟩

end Chinwag.Chat

import Chinwag.Chat.ServiceThreads

/-!
# What a batch of the publisher may rely on

A batch goes through the polled events in order. Whatever precedes an event of the batch
has been attempted before, or stands earlier in the batch.
-/
namespace Chinwag.Chat

open Program Rfc3339

/-- What is left of a batch polled when `polled` had been written. -/
structure Pending (s₀ : Store) (i : Nat) (polled : List (OutboxEvent × Nat)) (rest : List OutboxRow)
    (s : Store) : Prop where
  uncommitted : Uncommitted i s
  written : polled <+: s.written
  sorted : rest.Pairwise (fun a b => a.createdAt ≤ b.createdAt)
  known : ∀ r ∈ rest, r.written ∈ polled
  before : ∀ r ∈ rest, ∀ a, Precedes polled a r.id → a ∉ s₀.outboxIds →
    Attempted s.attempts a ∨ ∃ q ∈ rest, q.id = a ∧ q.createdAt < r.createdAt

variable {present : Nat → Time} {s₀ s t : Store} {i : Nat} {polled : List (OutboxEvent × Nat)}
  {evt : OutboxRow} {rest : List OutboxRow}

theorem Pending.mono (h : Pending s₀ i polled rest s) (hu : Uncommitted i t)
    (hw : s.written <+: t.written) (ha : ∀ a ∈ s.attempts, a ∈ t.attempts) :
    Pending s₀ i polled rest t := by
  refine ⟨hu, h.written.trans hw, h.sorted, h.known, fun r hr a hp hnew => ?_⟩
  rcases h.before r hr a hp hnew with hatt | hrest
  · exact Or.inl (hatt.mono ha)
  · exact Or.inr hrest

theorem lasting_pending : Lasting i (Pending s₀ i polled rest) := fun s t h hr =>
  h.mono (lasting_uncommitted i s t h.uncommitted hr) hr.written hr.attempts.subset

/-- An event leaves the batch once it has been attempted. -/
theorem Pending.tail (h : Pending s₀ i polled (evt :: rest) s) (hatt : Attempted s.attempts evt.id) :
    Pending s₀ i polled rest s := by
  refine ⟨h.uncommitted, h.written, h.sorted.of_cons, fun r hr => h.known r (List.mem_cons_of_mem _ hr),
    fun r hr a hp hnew => ?_⟩
  rcases h.before r (List.mem_cons_of_mem _ hr) a hp hnew with ha | ⟨q, hq, rfl, hlt⟩
  · exact Or.inl ha
  · rcases List.mem_cons.mp hq with rfl | hq
    · exact Or.inl hatt
    · exact Or.inr ⟨q, hq, rfl, hlt⟩

/-- Whatever precedes the head of the batch has been attempted. -/
theorem Pending.head_attempted (hinv : StoreInv s₀ s) (h : Pending s₀ i polled (evt :: rest) s) :
    evt.id ∈ s.outboxIds ∧
      ∀ a, Precedes s.written a evt.id → a ∉ s₀.outboxIds → Attempted s.attempts a := by
  have hpolled : evt.id ∈ polled.map (fun x => x.1.id) :=
    List.mem_map_of_mem (f := fun x : OutboxEvent × Nat => x.1.id) (h.known evt (by simp))
  obtain ⟨new, hnew⟩ := h.written
  have hkeys := hinv.write.keys
  rw [outboxIds_eq, ← hnew] at hkeys
  refine ⟨?_, fun a hp ha => ?_⟩
  · rw [outboxIds_eq, ← hnew, List.map_append]
    exact List.mem_append_left _ hpolled
  · rw [← hnew] at hp
    rcases h.before evt (by simp) a (hp.of_append hpolled hkeys) ha with hatt | ⟨q, hq, -, hlt⟩
    · exact hatt
    · exfalso
      rcases List.mem_cons.mp hq with rfl | hq
      · omega
      · have hle := List.rel_of_pairwise_cons h.sorted hq
        omega

/-- A row the poll does not select has been attempted. -/
theorem attempted_of_not_eligible (hinv : PublishInv s₀ s) {r : OutboxRow} (hr : r ∈ s.outbox)
    (hnew : r.id ∉ s₀.outboxIds) (hne : ¬ Eligible r) : Attempted s.attempts r.id := by
  by_cases hp : r.publishedAt = none
  · have hcount : 20 ≤ r.retryCount := by
      by_contra hlt
      exact hne ⟨hp, by omega⟩
    have hle := hinv.retries r hr hnew
    exact ⟨false, List.count_pos_iff.mp (by omega)⟩
  · exact ⟨true, hinv.published r hr hnew hp⟩

/-- Where a sorted list is cut, what is smaller than a kept element is kept. -/
theorem mem_take_of_lt {sorted : List OutboxRow} (h : sorted.Pairwise (fun a b => a.createdAt ≤ b.createdAt))
    {n : Nat} {q r : OutboxRow} (hr : r ∈ sorted.take n) (hq : q ∈ sorted)
    (hlt : q.createdAt < r.createdAt) : q ∈ sorted.take n := by
  rw [← List.take_append_drop n sorted] at h hq
  rcases List.mem_append.mp hq with hkept | hcut
  · exact hkept
  · have hle := (List.pairwise_append.mp h).2.2 r hr q hcut
    omega

/-- One id stands for one row. -/
theorem written_unique {written : List (OutboxEvent × Nat)} (hnodup : (written.map fun x => x.1.id).Nodup)
    {x y : OutboxEvent × Nat} (hx : x ∈ written) (hy : y ∈ written) (hid : x.1.id = y.1.id) : x = y :=
  List.inj_on_of_nodup_map hnodup hx hy hid

theorem pending_of_poll {n : Nat} {rows : List OutboxRow} (hinv : StoreInv s₀ s) (hu : Uncommitted i s)
    (hpoll : PollPending s.outbox n rows) : Pending s₀ i s.written rows s := by
  obtain ⟨sorted, hperm, hsorted, rfl⟩ := hpoll
  have hmem : ∀ r, r ∈ sorted ↔ r ∈ s.outbox ∧ Eligible r := by
    intro r
    rw [hperm.mem_iff, List.mem_filter]
    simp
  have hkeys := hinv.write.keys
  rw [outboxIds_eq] at hkeys
  have hknown : ∀ r ∈ sorted.take n, r.written ∈ s.written := fun r hr =>
    List.mem_map_of_mem ((hmem r).mp (List.mem_of_mem_take hr)).1
  refine ⟨hu, List.prefix_refl _, hsorted.sublist (List.take_sublist n sorted), hknown,
    fun r hr a hp hnew => ?_⟩
  obtain ⟨x, y, hsub, rfl, hy, hlt⟩ := hp
  have hyr : y = r.written :=
    written_unique hkeys (hsub.subset (by simp)) (hknown r hr) hy
  obtain ⟨q, hq, rfl⟩ := List.mem_map.mp (hsub.subset (List.mem_cons_self (a := x)))
  subst hyr
  by_cases he : Eligible q
  · exact Or.inr ⟨q, mem_take_of_lt hsorted hr ((hmem q).mpr ⟨hq, he⟩) hlt, rfl, hlt⟩
  · exact Or.inl (attempted_of_not_eligible hinv.publish hq hnew he)

/-- A publisher's update of the outbox leaves the rest of the batch as it was. -/
theorem Pending.updateOutbox (h : Pending s₀ i polled rest s) {id : Uuid} {f : OutboxRow → OutboxRow}
    (hf : ∀ r, (f r).written = r.written) (owed : List (Nat × Uuid)) :
    Pending s₀ i polled rest ((s.updateOutbox id f).setOwed owed) := by
  have hw : ((s.updateOutbox id f).setOwed owed).written = s.written := updateOutbox_written s hf
  exact h.mono h.uncommitted (hw ▸ List.prefix_refl _) fun _ ha => ha

theorem safe_publishFailed (hs : Pending s₀ i polled rest s) (hfail : (evt.id, false) ∈ s.attempts)
    (howed : (i, evt.id) ∈ s.owed) (publisher : Nat) :
    SafeThread present s₀ i (fun _ => Pending s₀ i polled rest)
      (do let _ ← incrementRetry evt.id
          setBackoff publisher evt.id (evt.retryCount + 1)) s := by
  have hlast : Lasting i (fun t => Pending s₀ i polled rest t ∧ (evt.id, false) ∈ t.attempts) :=
    fun s t h hr => ⟨lasting_pending s t h.1 hr, hr.attempts.subset h.2⟩
  have hlastOwed : Lasting i (fun t => (Pending s₀ i polled rest t ∧ (evt.id, false) ∈ t.attempts) ∧
      (i, evt.id) ∈ t.owed) :=
    fun s t h hr => ⟨hlast s t h.1 hr, hr.owed _ h.2⟩
  refine Safe.bind (Q := fun _ t => Pending s₀ i polled rest t ∧ (evt.id, false) ∈ t.attempts)
    (safe_perform ⟨⟨hs, hfail⟩, howed⟩ hlastOwed (fun t ht => ht.2) fun t r u ht hexec => ?_)
    fun _ t ht => ?_
  · have hexec' : Fallible (fun _ u => u = (t.updateOutbox evt.id OutboxRow.retried).setOwed
        (t.owed.erase (i, evt.id))) t r u := hexec
    cases r with
    | ok _ =>
      have hu : u = _ := hexec'
      subst hu
      exact ⟨ht.1.1.updateOutbox OutboxRow.written_retried _, ht.1.2⟩
    | error _ =>
      rcases hexec' with rfl | ⟨_, rfl⟩
      · exact ht.1
      · exact ⟨ht.1.1.updateOutbox OutboxRow.written_retried _, ht.1.2⟩
  · refine safe_perform ht hlast (fun u hu => hu.2) fun u r v hu hexec => ?_
    obtain ⟨time, rfl⟩ := hexec
    exact hu.1.mono hu.1.uncommitted (List.prefix_refl _) fun _ ha => ha

theorem safe_published (hs : Pending s₀ i polled rest s) (hok : (evt.id, true) ∈ s.attempts)
    (publisher : Nat) :
    SafeThread present s₀ i (fun _ => Pending s₀ i polled rest)
      (do clearBackoff publisher evt.id
          let _ ← markPublished evt.id
          return ()) s := by
  have hlast : Lasting i (fun t => Pending s₀ i polled rest t ∧ (evt.id, true) ∈ t.attempts) :=
    fun s t h hr => ⟨lasting_pending s t h.1 hr, hr.attempts.subset h.2⟩
  refine Safe.bind (Q := fun _ t => Pending s₀ i polled rest t ∧ (evt.id, true) ∈ t.attempts)
    (safe_perform ⟨hs, hok⟩ hlast (fun _ _ => trivial) fun t r u ht hexec => ?_) fun _ t ht => ?_
  · have hu : u = t.setTimer publisher evt.id none := hexec
    subst hu
    exact ⟨ht.1.mono ht.1.uncommitted (List.prefix_refl _) fun _ ha => ha, ht.2⟩
  · refine Safe.bind (Q := fun _ => Pending s₀ i polled rest)
      (safe_perform ht hlast (fun u hu => hu.2) fun u r v hu hexec => ?_) fun _ _ hv => hv
    have hexec' : Fallible (fun _ v => v = u.updateOutbox evt.id (OutboxRow.marked u.now)) u r v := hexec
    cases r with
    | ok _ =>
      have hv : v = _ := hexec'
      subst hv
      exact hu.1.updateOutbox (OutboxRow.written_marked u.now) u.owed
    | error _ =>
      rcases hexec' with rfl | ⟨_, rfl⟩
      · exact hu.1
      · exact hu.1.updateOutbox (OutboxRow.written_marked u.now) u.owed

/-- One turn of the loop: the event is skipped in backoff, or published, or counted as failed. -/
theorem safe_publishEvent (publisher : Nat) (hs : Pending s₀ i polled (evt :: rest) s) :
    SafeThread present s₀ i (fun _ => Pending s₀ i polled rest) (publishEvent publisher evt) s := by
  refine Safe.bind (Q := fun skip t => Pending s₀ i polled (evt :: rest) t ∧
      (skip = true → Attempted t.attempts evt.id))
    (safe_perform_inv hs lasting_pending (fun _ _ _ => trivial) fun t r u hinv ht hexec => ?_)
    fun skip t ht => ?_
  · obtain ⟨rfl, time, hr⟩ := hexec
    refine ⟨ht, fun hskip => ?_⟩
    rw [hskip] at hr
    cases htimer : u.timers publisher evt.id with
    | none =>
      rw [htimer] at hr
      cases hr
    | some until_ => exact ⟨false, hinv.publish.timers publisher evt.id until_ htimer⟩
  · cases skip with
    | true => exact ht.1.tail (ht.2 rfl)
    | false =>
      refine Safe.bind (Q := fun r u => Pending s₀ i polled rest u ∧ match r with
          | .ok _ => (evt.id, true) ∈ u.attempts
          | .error _ => (evt.id, false) ∈ u.attempts ∧ (i, evt.id) ∈ u.owed)
        (safe_perform_inv ht.1 lasting_pending (fun u hinv hu => hu.head_attempted hinv)
          fun u r v _ hu hexec => ?_) fun r u hu => ?_
      · cases r with
        | ok _ =>
          have hv : v = { u with attempts := u.attempts ++ [(evt.id, true)] } := hexec
          have hmem : (evt.id, true) ∈ v.attempts := by
            rw [hv]
            simp
          have hmono : Pending s₀ i polled (evt :: rest) v := by
            rw [hv]
            exact hu.mono hu.uncommitted (List.prefix_refl _) fun _ => List.mem_append_left _
          exact ⟨hmono.tail ⟨true, hmem⟩, hmem⟩
        | error _ =>
          have hv : v = { u with attempts := u.attempts ++ [(evt.id, false)], owed := (i, evt.id) :: u.owed } :=
            hexec
          have hmem : (evt.id, false) ∈ v.attempts ∧ (i, evt.id) ∈ v.owed := by
            rw [hv]
            simp
          have hmono : Pending s₀ i polled (evt :: rest) v := by
            rw [hv]
            exact hu.mono hu.uncommitted (List.prefix_refl _) fun _ => List.mem_append_left _
          exact ⟨hmono.tail ⟨false, hmem.1⟩, hmem⟩
      · cases r with
        | ok _ => exact safe_published hu.1 hu.2 publisher
        | error _ => exact safe_publishFailed hu.1 hu.2.1 hu.2.2 publisher

theorem safe_publishEach (publisher : Nat) (events : List OutboxRow)
    (hs : Pending s₀ i polled events s) :
    SafeThread present s₀ i (fun _ => Uncommitted i) (publishEach publisher events) s := by
  induction events generalizing s with
  | nil => exact hs.uncommitted
  | cons evt events ih => exact (safe_publishEvent publisher hs).bind fun _ _ h => ih h

theorem safe_tick (publisher : Nat) (hs : Uncommitted i s) :
    SafeThread present s₀ i (fun _ => Uncommitted i) (tick publisher) s := by
  have hlast := lasting_uncommitted i
  refine Safe.bind (Q := fun _ => Uncommitted i)
    (safe_perform hs hlast (fun _ _ => trivial) fun t r u ht hexec => ?_) fun _ t ht => ?_
  · obtain ⟨time, rfl⟩ := hexec
    exact ht
  · refine Safe.bind (Q := fun r u => Uncommitted i u ∧ ∀ rows, r = .ok rows →
        ∃ polled, Pending s₀ i polled rows u)
      (safe_perform_inv ht hlast (fun _ _ _ => trivial) fun u r v hinv hu hexec => ?_) fun r u hu => ?_
    · obtain ⟨rfl, hpoll⟩ := hexec
      exact ⟨hu, fun rows hr => ⟨_, pending_of_poll hinv hu (hpoll rows hr)⟩⟩
    · cases r with
      | error _ => exact hu.1
      | ok rows =>
        obtain ⟨polled, hpending⟩ := hu.2 rows rfl
        exact safe_publishEach publisher rows hpending

/-- How a thread may have ended. -/
def Ended (i : Nat) (outcome : Outcome) (s : Store) : Prop :=
  match outcome with
  | .returned _ (.error _) => Uncommitted i s
  | .returned call (.ok _) => Committed i (Performs call) s
  | .ticked => Uncommitted i s

theorem stable_ended (s₀ : Store) : (chatContract s₀).Stable Ended := by
  intro i outcome s t h hr
  cases outcome with
  | ticked => exact lasting_uncommitted i s t h hr
  | returned call result =>
    cases result with
    | error e => exact lasting_uncommitted i s t h hr
    | ok resp => exact lasting_committed i _ s t h hr

theorem safe_entry {p : ChatProg Outcome} (hp : Entry p) (hs : Uncommitted i s) :
    SafeThread present s₀ i (Ended i) p s := by
  cases hp with
  | serve call =>
    refine (safe_call call hs).bind fun r t ht => ?_
    cases r with
    | error e => exact ht
    | ok resp => exact ht
  | publish publisher => exact (safe_tick publisher hs).bind fun _ _ h => h

end Chinwag.Chat

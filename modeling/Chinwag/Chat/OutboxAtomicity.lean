import Chinwag.Chat.PublisherThreads
import Chinwag.Chat.SoloRuns

/-!
# The transactional outbox is atomic

In every run the tables are what the committed transactions made of the first ones, and
each of these transactions is one change with the one event announcing it. A call that
returned an error committed none, a call that returned a result committed exactly one.
-/
namespace Chinwag.Chat

open Program Transition Rfc3339

/-- The invariant of the running service: its threads are safe, and those not started
yet have committed nothing. -/
structure Running (present : Nat → Time) (s₀ : Store) (pool : ChatPool) : Prop where
  good : Good (chatSemantics present) (chatContract s₀) Ended pool
  unstarted : ∀ i, pool.threads.length ≤ i → Uncommitted i pool.shared

variable {present : Nat → Time}

theorem running_initial {pool : ChatPool} (h : InitialPool pool) :
    Running present pool.shared pool where
  good :=
    { shared := storeInv_start h.2
      safe := by simp [h.1] }
  unstarted := fun i _ => by simp [Uncommitted, h.2.history]

theorem running_step {s₀ : Store} {pool pool' : ChatPool} {l : Label Ambient ChatCmd ChatReply Outcome}
    (h : Running present s₀ pool) (hs : ChatStep present pool l pool') : Running present s₀ pool' := by
  have hK := chatContract_sound present s₀
  refine ⟨h.good.step_spawn hK (stable_ended s₀) (fun p hp => ?_) hs, ?_⟩
  · exact safe_entry hp (h.unstarted _ (le_refl _))
  · exact h.good.unmarked hK (fun i s t hu hr => lasting_uncommitted i s t hu hr) hs h.unstarted

theorem running_run {pool₀ pool : ChatPool} {trace : List (Label Ambient ChatCmd ChatReply Outcome)}
    (h₀ : InitialPool pool₀) (hrun : Run (ChatStep present) pool₀ trace pool) :
    Running present pool₀.shared pool :=
  hrun.invariant (fun _ _ _ h hs => running_step h hs) (running_initial h₀)

/-- What a returned call has committed. -/
theorem Running.returned {s₀ : Store} {pool : ChatPool} (h : Running present s₀ pool) {i : Nat}
    {call : Call} {result : Except ChatError (Option MessageResponse)}
    (hi : pool.threads[i]? = some (.ret (.returned call result))) :
    match result with
    | .error _ => Uncommitted i pool.shared
    | .ok _ => Committed i (Performs call) pool.shared := by
  have hended : Ended i (.returned call result) pool.shared := h.good.safe i _ hi
  cases result with
  | error e => exact hended
  | ok resp => exact hended

/-- Both tables after any run: `Replays` builds the messages table from the first one by
commits of one change and one event announcing it, and the outbox has grown by exactly
the events of these commits. -/
theorem outbox_atomicity {pool₀ pool : ChatPool}
    {trace : List (Label Ambient ChatCmd ChatReply Outcome)} (h₀ : InitialPool pool₀)
    (hrun : Run (ChatStep present) pool₀ trace pool) :
    Replays pool₀.shared.messages pool.shared.history pool.shared.messages ∧
      pool.shared.written = pool₀.shared.written ++ pool.shared.history.flatMap Commit.written ∧
      (pool.shared.history.map Commit.thread).Nodup ∧
      ∀ (i : Nat) (call : Call) (result : Except ChatError (Option MessageResponse)),
        pool.threads[i]? = some (.ret (.returned call result)) →
        match result with
        | .error _ => ∀ c ∈ pool.shared.history, c.thread ≠ i
        | .ok _ => ∃ start w e, pool.shared.history.filter (fun c => c.thread = i) =
            [⟨i, start, [w], [e]⟩] ∧ Performs call w := by
  have h := running_run h₀ hrun
  have hw := h.good.shared.write
  refine ⟨hw.replays, hw.written, hw.threads, fun i call result hi => ?_⟩
  have hret := h.returned hi
  cases result with
  | error e => exact uncommitted_iff.mp hret
  | ok resp => exact hret

theorem outbox_atomicity_create : ∃ pool trace,
    Run (ChatStep fun _ => sampleTime) ⟨emptyStore, []⟩ trace pool ∧
      ∃ start w e, pool.shared.history.filter (fun c => c.thread = 0) = [⟨0, start, [w], [e]⟩] ∧
        Performs sampleCreate w := by
  obtain ⟨payload, hpay⟩ := exists_samplePayload
  obtain ⟨trace, hrun⟩ := sampleCreate_run hpay
  exact ⟨_, trace, hrun, (outbox_atomicity ⟨rfl, starts_empty⟩ hrun).2.2.2 0 sampleCreate (.ok _) rfl⟩

end Chinwag.Chat

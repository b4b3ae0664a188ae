import Chinwag.Lib.JetStream

/-!
# Chat events across restarts of their consumers

The query service and every command instance consume `CHAT_EVENTS` under a stable name,
but with only the name set the server forgets the consumer while its process is down.
-/
namespace Chinwag.Chat

open Transition JetStream

/-- `FilterSubject: "chat.room.>"`: at least one token after the prefix. -/
def chatRoomFilter (subject : String) : Bool :=
  "chat.room.".toList.isPrefixOf subject.toList && decide ("chat.room.".length < subject.length)

/-- `time.Second` in nanoseconds. -/
def second : Nat := 1000000000

def hour : Nat := 3600 * second

/-- The `CHAT_EVENTS` stream. Both services create their consumer with the same options; how long
the server keeps one without a subscriber is its own default. -/
def chatEvents (threshold : Nat) : StreamConfig String where
  maxAge := 24 * hour
  consumer := fun _ =>
    { durable := false, maxDeliver := 3, inactiveThreshold := threshold, filter := chatRoomFilter }

def projectionConsumer : String := "chat-projection"

/-- The consumer of a command instance. -/
def wsConsumer (instanceId : String) : String := "chat-ws-" ++ instanceId

/-- The claim on restarts: in every state of the run nothing owed to a consumer was missed. -/
def NothingMissedAlong (threshold : Nat) (s₀ : Stream String) (trace : List (Action String))
    (s : Stream String) : Prop :=
  ∀ before after t, trace = before ++ after → Run (step (chatEvents threshold)) s₀ before t →
    Run (step (chatEvents threshold)) t after s → NothingMissed (chatEvents threshold) t

/-- Every step of the run is harmless in the state it is taken in. -/
def HarmlessAlong (threshold : Nat) (s₀ : Stream String) (trace : List (Action String))
    (s : Stream String) : Prop :=
  ∀ before a after t t', trace = before ++ a :: after →
    Run (step (chatEvents threshold)) s₀ before t → step (chatEvents threshold) t a t' →
    Run (step (chatEvents threshold)) t' after s → Harmless (chatEvents threshold) t a

variable {threshold : Nat} {s₀ s : Stream String} {trace : List (Action String)}

theorem chatEvents_positive : 0 < (chatEvents threshold).maxAge ∧
    ∀ c, 0 < ((chatEvents threshold).consumer c).maxDeliver := by
  constructor
  · show 0 < 24 * hour
    decide
  · intro c
    show 0 < 3
    omega

/-- What every step of the stream keeps, and when it misses nothing. -/
theorem chatEvents_steps (threshold : Nat) :
    (∀ x a y, StreamInv x → step (chatEvents threshold) x a y → StreamInv y) ∧
    ∀ x a y, StreamInv x → NothingMissed (chatEvents threshold) x →
      step (chatEvents threshold) x a y →
      (NothingMissed (chatEvents threshold) y ↔ Harmless (chatEvents threshold) x a) := by
  constructor
  · intro x a y hx hstep
    exact hx.step hstep
  · intro x a y hx hmissed hstep
    exact nothingMissed_step_iff chatEvents_positive.1 chatEvents_positive.2 hx hmissed hstep

theorem nothingMissedAlong_of_harmless (h₀ : Fresh s₀) (h : HarmlessAlong threshold s₀ trace s) :
    NothingMissedAlong threshold s₀ trace s := by
  obtain ⟨hinv, hgood⟩ := chatEvents_steps threshold
  exact (Run.always_good_iff hinv hgood h₀.inv (h₀.nothingMissed _)).mpr h

theorem harmlessAlong_of_nothingMissed (h₀ : Fresh s₀) (h : NothingMissedAlong threshold s₀ trace s) :
    HarmlessAlong threshold s₀ trace s := by
  obtain ⟨hinv, hgood⟩ := chatEvents_steps threshold
  exact (Run.always_good_iff hinv hgood h₀.inv (h₀.nothingMissed _)).mp h

/-- While no consumer expires, whoever subscribed once has a consumer. -/
theorem consumers_kept (h₀ : Fresh s₀) (hr : Run (step (chatEvents threshold)) s₀ trace s)
    (hkept : ∀ c, Action.expire c ∉ trace) :
    ∀ c, s.subscribed c = true → (s.consumers c).isSome = true := by
  have hstart : ∀ c, s₀.subscribed c = true → (s₀.consumers c).isSome = true := by
    intro c hc
    rw [h₀.subscribed c] at hc
    cases hc
  clear h₀
  induction hr with
  | nil => exact hstart
  | @cons x y u a rest hstep _ ih =>
    refine ih (fun c hc => hkept c (List.mem_cons_of_mem _ hc)) ?_
    cases a with
    | publish subject confirmed =>
      cases hstep
      intro c hc
      show ((x.consumers c).map _).isSome = true
      rw [Option.isSome_map]
      exact hstart c hc
    | start c' =>
      obtain ⟨-, rfl⟩ := hstep
      intro c hc
      by_cases hcc : c = c'
      · subst hcc
        simp [Stream.start, Stream.subscribe, Stream.setProcess]
      · simp only [Stream.start, Stream.subscribe, Function.update_of_ne hcc] at hc
        simpa [Stream.start, Stream.subscribe, Stream.setProcess, Function.update_of_ne hcc]
          using hstart c hc
    | stop c' =>
      obtain ⟨-, rfl⟩ := hstep
      exact hstart
    | fetch c' n =>
      obtain ⟨-, -, k, hk, -, -, rfl⟩ := hstep
      intro c hc
      by_cases hcc : c = c'
      · subst hcc
        simp [Stream.fetch, Stream.setProcess]
      · simpa [Stream.fetch, Stream.setProcess, Function.update_of_ne hcc] using hstart c hc
    | handle c' n acked =>
      obtain ⟨-, rfl⟩ := hstep
      intro c hc
      by_cases hcc : c = c'
      · subst hcc
        simpa [Stream.handle, Stream.record, Stream.setProcess] using hstart c hc
      · simpa [Stream.handle, Stream.record, Stream.setProcess, Function.update_of_ne hcc]
          using hstart c hc
    | elapse n =>
      cases hstep
      exact hstart
    | expire c' => exact absurd List.mem_cons_self (hkept c')
    | reclaim n =>
      obtain ⟨-, rfl⟩ := hstep
      exact hstart
    | ageOut n =>
      obtain ⟨-, -, rfl⟩ := hstep
      exact hstart

/-- Downtimes too short for the server to delete a consumer miss nothing, as long as no process
stops holding an event on its last delivery. -/
theorem nothing_missed_of_no_expiry (h₀ : Fresh s₀) (hkept : ∀ c, Action.expire c ∉ trace)
    (hstop : ∀ before c after t, trace = before ++ Action.stop c :: after →
      Run (step (chatEvents threshold)) s₀ before t → (t.processes c).fetched = []) :
    NothingMissedAlong threshold s₀ trace s := by
  refine nothingMissedAlong_of_harmless h₀ ?_
  intro before a after t t' htrace hbefore hstep hafter
  cases a with
  | publish subject confirmed =>
    intro _ c hsub _
    refine consumers_kept h₀ hbefore ?_ c hsub
    intro c' hc'
    exact hkept c' (by rw [htrace]; exact List.mem_append_left _ hc')
  | stop c =>
    intro k _ seq hseq
    rw [hstop before c after t htrace hbefore] at hseq
    cases hseq
  | expire c => exact absurd (by rw [htrace]; simp) (hkept c)
  | start c => trivial
  | fetch c n => trivial
  | handle c n acked => trivial
  | elapse n => trivial
  | reclaim n => trivial
  | ageOut n => trivial

/-- Nothing is missed along a run exactly if none of its steps is harmful. -/
theorem nothing_missed_iff (h₀ : Fresh s₀) :
    NothingMissedAlong threshold s₀ trace s ↔ HarmlessAlong threshold s₀ trace s :=
  ⟨harmlessAlong_of_nothingMissed h₀, nothingMissedAlong_of_harmless h₀⟩

section Sample

/-- A stream nobody has used. -/
def unusedStream : Stream String :=
  ⟨0, [], [], fun _ => none, fun _ => ⟨false, 0, []⟩, fun _ => false, fun _ => [], fun _ => []⟩

theorem fresh_unusedStream : Fresh unusedStream :=
  ⟨rfl, rfl, fun _ => rfl, fun _ => rfl, fun _ => rfl, fun _ => rfl, fun _ => rfl⟩

def sampleSubject : String := "chat.room.5f2c7a90-1b34-4c7e-9a52-0d6f0c1e8b11"

/-- The query service started on an unused stream. -/
theorem sampleStart : Run (step (chatEvents (5 * second))) unusedStream [.start projectionConsumer]
    (unusedStream.start projectionConsumer) :=
  .single ⟨rfl, rfl⟩

/-- An event published while the query service is up. -/
theorem nothing_missed_up : ∃ trace s,
    trace = [.start projectionConsumer] ++ [.publish sampleSubject true] ∧
      Run (step (chatEvents (5 * second))) unusedStream trace s ∧
      (NothingMissedAlong (5 * second) unusedStream trace s ↔
        HarmlessAlong (5 * second) unusedStream trace s) := by
  have hpublish : step (chatEvents (5 * second)) (unusedStream.start projectionConsumer)
      (.publish sampleSubject true) _ := rfl
  exact ⟨_, _, rfl, sampleStart.append (.single hpublish), nothing_missed_iff fresh_unusedStream⟩

/-- The server deletes the consumer five seconds after the service stopped; an event published
then never reaches it. -/
theorem missed_while_down : ∃ trace s,
    trace = [.start projectionConsumer, .stop projectionConsumer, .elapse (5 * second),
      .expire projectionConsumer] ++ [.publish sampleSubject true] ∧
      Run (step (chatEvents (5 * second))) unusedStream trace s ∧
      ¬ NothingMissedAlong (5 * second) unusedStream trace s := by
  let up := unusedStream.start projectionConsumer
  let down := up.stop projectionConsumer
  let later : Stream String := { down with now := down.now + 5 * second }
  let deleted := later.setConsumer projectionConsumer none
  have hdown : step (chatEvents (5 * second)) up (.stop projectionConsumer) down :=
    ⟨by simp [up, Stream.start, Stream.subscribe], rfl⟩
  have hlater : step (chatEvents (5 * second)) down (.elapse (5 * second)) later := rfl
  have hexpire : step (chatEvents (5 * second)) later (.expire projectionConsumer) deleted := by
    refine ⟨rfl, ?_, ?_, rfl⟩
    · simp [later, down, Stream.stop]
    · simp [later, down, up, Stream.stop, Stream.start, Stream.subscribe, Stream.setProcess,
        Stream.setConsumer, unusedStream, chatEvents]
  have hpublish : step (chatEvents (5 * second)) deleted (.publish sampleSubject true)
      (deleted.publish (chatEvents (5 * second)) sampleSubject true) := rfl
  have hbefore := sampleStart.append (.cons hdown (.cons hlater (.single hexpire)))
  refine ⟨_, _, rfl, hbefore.append (.single hpublish), ?_⟩
  intro h
  have hharmless := harmlessAlong_of_nothingMissed fresh_unusedStream h _ _ [] _ _ rfl hbefore
    hpublish (.nil _)
  have hhere : (deleted.consumers projectionConsumer).isSome = true := by
    refine hharmless rfl projectionConsumer ?_ (by decide)
    simp [deleted, later, down, up, Stream.setConsumer, Stream.stop, Stream.start, Stream.subscribe,
      Stream.setProcess]
  simp [deleted] at hhere

end Sample

end Chinwag.Chat

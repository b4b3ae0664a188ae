import Mathlib.Logic.Function.Basic
import Chinwag.Lib.Transition

/-!
# A stream with interest retention and its pull consumers

A message is owed to the consumers that exist when it is published, and kept until all
of them acknowledged it or it is too old. A consumer that is not durable is deleted once
it has had no subscriber for a while; one created anew starts after its creation.
-/
namespace Chinwag.JetStream

open Transition

structure ConsumerConfig where
  durable : Bool
  maxDeliver : Nat
  inactiveThreshold : Nat
  filter : String → Bool

structure StreamConfig (ν : Type) where
  maxAge : Nat
  consumer : ν → ConsumerConfig

/-- The server's record of a consumer: the messages it has not acknowledged, by sequence
number, and how often each was delivered. -/
structure Consumer where
  unacked : List Nat
  deliveries : Nat → Nat

/-- The process that consumes under a name, with the messages it has been handed and its
callback has not seen. -/
structure Process where
  up : Bool
  downSince : Nat
  fetched : List Nat

/-- `published` has the times of all messages. The last three fields are for statements:
whether a consumer of the name was ever created, what was published for it since with a
confirmation, and what its callback was called with. -/
structure Stream (ν : Type) where
  now : Nat
  published : List Nat
  stored : List Nat
  consumers : ν → Option Consumer
  processes : ν → Process
  subscribed : ν → Bool
  owed : ν → List Nat
  handled : ν → List Nat

inductive Action (ν : Type) where
  | publish (subject : String) (confirmed : Bool)
  | start (c : ν)
  | stop (c : ν)
  | fetch (c : ν) (seq : Nat)
  | handle (c : ν) (seq : Nat) (acked : Bool)
  | elapse (n : Nat)
  | expire (c : ν)
  | reclaim (seq : Nat)
  | ageOut (seq : Nat)

def Consumer.owe (k : Consumer) (seq : Nat) : Consumer := { k with unacked := k.unacked ++ [seq] }

def Consumer.delivered (k : Consumer) (seq : Nat) : Consumer :=
  { k with deliveries := Function.update k.deliveries seq (k.deliveries seq + 1) }

def Consumer.acked (k : Consumer) (seq : Nat) : Consumer := { k with unacked := k.unacked.erase seq }

/-- A consumer just created is owed nothing published before. -/
def Consumer.new : Consumer := ⟨[], fun _ => 0⟩

section Steps

variable {ν : Type} [DecidableEq ν]

namespace Stream

def nextSeq (s : Stream ν) : Nat := s.published.length

def setConsumer (s : Stream ν) (c : ν) (k : Option Consumer) : Stream ν :=
  { s with consumers := Function.update s.consumers c k }

def setProcess (s : Stream ν) (c : ν) (p : Process) : Stream ν :=
  { s with processes := Function.update s.processes c p }

def subscribe (s : Stream ν) (c : ν) : Stream ν :=
  { s with subscribed := Function.update s.subscribed c true }

def record (s : Stream ν) (c : ν) (seq : Nat) : Stream ν :=
  { s with handled := Function.update s.handled c (s.handled c ++ [seq]) }

/-- A message is stored for the consumers there are; the publisher may not hear of it. -/
def publish (cfg : StreamConfig ν) (s : Stream ν) (subject : String) (confirmed : Bool) : Stream ν :=
  { s with
    published := s.published ++ [s.now]
    stored := s.stored ++ [s.nextSeq]
    consumers := fun c => (s.consumers c).map fun k =>
      if (cfg.consumer c).filter subject then k.owe s.nextSeq else k
    owed := fun c =>
      if confirmed && s.subscribed c && (cfg.consumer c).filter subject then s.owed c ++ [s.nextSeq]
      else s.owed c }

/-- `CreateOrUpdateConsumer` and `Consume`: an existing consumer is resumed. -/
def start (s : Stream ν) (c : ν) : Stream ν :=
  ((s.setConsumer c (some ((s.consumers c).getD .new))).setProcess c ⟨true, s.now, []⟩).subscribe c

def stop (s : Stream ν) (c : ν) : Stream ν := s.setProcess c ⟨false, s.now, []⟩

def fetch (s : Stream ν) (c : ν) (k : Consumer) (seq : Nat) : Stream ν :=
  (s.setConsumer c (some (k.delivered seq))).setProcess c
    { s.processes c with fetched := (s.processes c).fetched ++ [seq] }

/-- The callback runs; its acknowledgement may get lost. -/
def handle (s : Stream ν) (c : ν) (seq : Nat) (acked : Bool) : Stream ν :=
  ((s.setConsumer c ((s.consumers c).map fun k => if acked then k.acked seq else k)).setProcess c
    { s.processes c with fetched := (s.processes c).fetched.erase seq }).record c seq

def drop (s : Stream ν) (seq : Nat) : Stream ν := { s with stored := s.stored.erase seq }

end Stream

/-- The age of a message has reached the limit. -/
def Aged (cfg : StreamConfig ν) (s : Stream ν) (seq : Nat) : Prop :=
  ∀ t, s.published[seq]? = some t → cfg.maxAge ≤ s.now - t

def step (cfg : StreamConfig ν) (s : Stream ν) (a : Action ν) (s' : Stream ν) : Prop :=
  match a with
  | .publish subject confirmed => s' = s.publish cfg subject confirmed
  | .start c => (s.processes c).up = false ∧ s' = s.start c
  | .stop c => (s.processes c).up = true ∧ s' = s.stop c
  | .fetch c seq => (s.processes c).up = true ∧ seq ∈ s.stored ∧ ∃ k, s.consumers c = some k ∧
      seq ∈ k.unacked ∧ k.deliveries seq < (cfg.consumer c).maxDeliver ∧ s' = s.fetch c k seq
  | .handle c seq acked => seq ∈ (s.processes c).fetched ∧ s' = s.handle c seq acked
  | .elapse n => s' = { s with now := s.now + n }
  | .expire c => (cfg.consumer c).durable = false ∧ (s.processes c).up = false ∧
      (cfg.consumer c).inactiveThreshold ≤ s.now - (s.processes c).downSince ∧
      s' = s.setConsumer c none
  | .reclaim seq => (∀ c k, s.consumers c = some k → seq ∉ k.unacked) ∧ s' = s.drop seq
  | .ageOut seq => seq < s.nextSeq ∧ Aged cfg s seq ∧ s' = s.drop seq

/-- A stream before anything was published or subscribed. -/
structure Fresh (s : Stream ν) : Prop where
  published : s.published = []
  stored : s.stored = []
  consumers : ∀ c, s.consumers c = none
  fetched : ∀ c, (s.processes c).fetched = []
  subscribed : ∀ c, s.subscribed c = false
  owed : ∀ c, s.owed c = []
  handled : ∀ c, s.handled c = []

/-- The message is on its way to the callback: kept, not acknowledged, and either it may be
delivered again or the process has it in hand. -/
def OnItsWay (cfg : StreamConfig ν) (s : Stream ν) (c : ν) (seq : Nat) : Prop :=
  seq ∈ s.stored ∧ ∃ k, s.consumers c = some k ∧ seq ∈ k.unacked ∧
    (k.deliveries seq < (cfg.consumer c).maxDeliver ∨ seq ∈ (s.processes c).fetched)

/-- Too old, handled, or on its way. -/
def Accounted (cfg : StreamConfig ν) (s : Stream ν) (c : ν) (seq : Nat) : Prop :=
  Aged cfg s seq ∨ seq ∈ s.handled c ∨ OnItsWay cfg s c seq

/-- Everything owed to a consumer is accounted for. -/
def NothingMissed (cfg : StreamConfig ν) (s : Stream ν) : Prop :=
  ∀ c, ∀ seq ∈ s.owed c, Accounted cfg s c seq

/-- The steps that lose nothing: no message for a consumer that was deleted, no message
waiting where a consumer is deleted, no message dropped on its last delivery. -/
def Harmless (cfg : StreamConfig ν) (s : Stream ν) (a : Action ν) : Prop :=
  match a with
  | .publish subject confirmed => confirmed = true → ∀ c, s.subscribed c = true →
      (cfg.consumer c).filter subject = true → (s.consumers c).isSome = true
  | .stop c => ∀ k, s.consumers c = some k → ∀ seq ∈ (s.processes c).fetched, seq ∈ s.owed c →
      Aged cfg s seq ∨ seq ∈ s.handled c ∨ k.deliveries seq < (cfg.consumer c).maxDeliver
  | .expire c => ∀ seq ∈ s.owed c, Aged cfg s seq ∨ seq ∈ s.handled c
  | _ => True

/-- What holds of every reachable stream, whatever is missed. -/
structure StreamInv (s : Stream ν) : Prop where
  owedKnown : ∀ c, ∀ seq ∈ s.owed c, seq < s.nextSeq
  handledKnown : ∀ c, ∀ seq ∈ s.handled c, seq < s.nextSeq
  fetchedKnown : ∀ c, ∀ seq ∈ (s.processes c).fetched, seq < s.nextSeq
  storedKnown : ∀ seq ∈ s.stored, seq < s.nextSeq
  undelivered : ∀ c k, s.consumers c = some k → ∀ seq, s.nextSeq ≤ seq → k.deliveries seq = 0
  idle : ∀ c, (s.processes c).up = false → (s.processes c).fetched = []

end Steps

section Invariant

variable {ν : Type} {s : Stream ν}

theorem Fresh.inv (h : Fresh s) : StreamInv s where
  owedKnown := by simp [h.owed]
  handledKnown := by simp [h.handled]
  fetchedKnown := by simp [h.fetched]
  storedKnown := by simp [h.stored]
  undelivered := by simp [h.consumers]
  idle := fun c _ => h.fetched c

theorem Fresh.nothingMissed (cfg : StreamConfig ν) (h : Fresh s) : NothingMissed cfg s := by
  intro c seq hseq
  rw [h.owed c] at hseq
  cases hseq

end Invariant

section Operations

variable {ν : Type} {cfg : StreamConfig ν} {s s' : Stream ν}

@[simp] theorem nextSeq_publish (subject : String) (confirmed : Bool) :
    (s.publish cfg subject confirmed).nextSeq = s.nextSeq + 1 := by
  simp [Stream.publish, Stream.nextSeq]

theorem mem_owed_publish {subject : String} {confirmed : Bool} {c : ν} {seq : Nat} :
    seq ∈ (s.publish cfg subject confirmed).owed c ↔ seq ∈ s.owed c ∨
      seq = s.nextSeq ∧ confirmed = true ∧ s.subscribed c = true ∧
        (cfg.consumer c).filter subject = true := by
  simp only [Stream.publish]
  split
  · rename_i hgets
    simp only [Bool.and_eq_true] at hgets
    simp [hgets]
  · rename_i hgets
    simp only [Bool.and_eq_true] at hgets
    constructor
    · exact Or.inl
    · intro h
      cases h with
      | inl h => exact h
      | inr h => exact absurd ⟨⟨h.2.1, h.2.2.1⟩, h.2.2.2⟩ hgets

theorem StreamInv.publish (h : StreamInv s) (subject : String) (confirmed : Bool) :
    StreamInv (s.publish cfg subject confirmed) where
  owedKnown := by
    intro c seq hseq
    rw [nextSeq_publish]
    cases mem_owed_publish.mp hseq with
    | inl hseq => exact Nat.lt_succ_of_lt (h.owedKnown c seq hseq)
    | inr hseq => omega
  handledKnown := by
    intro c seq hseq
    rw [nextSeq_publish]
    exact Nat.lt_succ_of_lt (h.handledKnown c seq hseq)
  fetchedKnown := by
    intro c seq hseq
    rw [nextSeq_publish]
    exact Nat.lt_succ_of_lt (h.fetchedKnown c seq hseq)
  storedKnown := by
    intro seq hseq
    rw [nextSeq_publish]
    cases List.mem_append.mp hseq with
    | inl hseq => exact Nat.lt_succ_of_lt (h.storedKnown seq hseq)
    | inr hseq =>
      rw [List.mem_singleton] at hseq
      omega
  undelivered := by
    intro c k hk seq hseq
    rw [nextSeq_publish] at hseq
    obtain ⟨old, hold, rfl⟩ := Option.map_eq_some_iff.mp hk
    have hzero := h.undelivered c old hold seq (by omega)
    split
    · exact hzero
    · exact hzero
  idle := h.idle

theorem StreamInv.drop (h : StreamInv s) (seq : Nat) : StreamInv (s.drop seq) :=
  ⟨h.owedKnown, h.handledKnown, h.fetchedKnown,
    fun n hn => h.storedKnown n (List.mem_of_mem_erase hn), h.undelivered, h.idle⟩

variable [DecidableEq ν]

namespace Stream

@[simp] theorem consumers_setConsumer (s : Stream ν) (c : ν) (k : Option Consumer) :
    (s.setConsumer c k).consumers = Function.update s.consumers c k := rfl

@[simp] theorem processes_setProcess (s : Stream ν) (c : ν) (p : Process) :
    (s.setProcess c p).processes = Function.update s.processes c p := rfl

@[simp] theorem handled_record (s : Stream ν) (c : ν) (seq : Nat) :
    (s.record c seq).handled = Function.update s.handled c (s.handled c ++ [seq]) := rfl

end Stream

theorem StreamInv.setConsumer (h : StreamInv s) {c : ν} {k : Option Consumer}
    (hk : ∀ new, k = some new → ∀ seq, s.nextSeq ≤ seq → new.deliveries seq = 0) :
    StreamInv (s.setConsumer c k) where
  owedKnown := h.owedKnown
  handledKnown := h.handledKnown
  fetchedKnown := h.fetchedKnown
  storedKnown := h.storedKnown
  undelivered := by
    intro c' k' hk' seq hseq
    by_cases hc : c' = c
    · subst hc
      rw [Stream.consumers_setConsumer, Function.update_self] at hk'
      exact hk k' hk' seq hseq
    · rw [Stream.consumers_setConsumer, Function.update_of_ne hc] at hk'
      exact h.undelivered c' k' hk' seq hseq
  idle := h.idle

theorem StreamInv.setProcess (h : StreamInv s) {c : ν} {p : Process}
    (hknown : ∀ seq ∈ p.fetched, seq < s.nextSeq) (hidle : p.up = false → p.fetched = []) :
    StreamInv (s.setProcess c p) where
  owedKnown := h.owedKnown
  handledKnown := h.handledKnown
  fetchedKnown := by
    intro c' seq hseq
    by_cases hc : c' = c
    · subst hc
      rw [Stream.processes_setProcess, Function.update_self] at hseq
      exact hknown seq hseq
    · rw [Stream.processes_setProcess, Function.update_of_ne hc] at hseq
      exact h.fetchedKnown c' seq hseq
  storedKnown := h.storedKnown
  undelivered := h.undelivered
  idle := by
    intro c' hdown
    by_cases hc : c' = c
    · subst hc
      rw [Stream.processes_setProcess, Function.update_self] at hdown ⊢
      exact hidle hdown
    · rw [Stream.processes_setProcess, Function.update_of_ne hc] at hdown ⊢
      exact h.idle c' hdown

/-- Nothing in the invariant is about who subscribed. -/
theorem StreamInv.subscribe (h : StreamInv s) (c : ν) : StreamInv (s.subscribe c) :=
  ⟨h.owedKnown, h.handledKnown, h.fetchedKnown, h.storedKnown, h.undelivered, h.idle⟩

theorem StreamInv.record (h : StreamInv s) {c : ν} {seq : Nat} (hseq : seq < s.nextSeq) :
    StreamInv (s.record c seq) where
  owedKnown := h.owedKnown
  handledKnown := by
    intro c' n hn
    by_cases hc : c' = c
    · subst hc
      rw [Stream.handled_record, Function.update_self, List.mem_append, List.mem_singleton] at hn
      cases hn with
      | inl hn => exact h.handledKnown c' n hn
      | inr hn => exact hn ▸ hseq
    · rw [Stream.handled_record, Function.update_of_ne hc] at hn
      exact h.handledKnown c' n hn
  fetchedKnown := h.fetchedKnown
  storedKnown := h.storedKnown
  undelivered := h.undelivered
  idle := h.idle

theorem StreamInv.step (h : StreamInv s) {a : Action ν} (hstep : step cfg s a s') : StreamInv s' := by
  cases a with
  | publish subject confirmed =>
    cases hstep
    exact h.publish subject confirmed
  | start c =>
    obtain ⟨-, rfl⟩ := hstep
    refine StreamInv.subscribe (StreamInv.setProcess (h.setConsumer ?_) (by simp) (by simp)) c
    intro new hnew seq hseq
    cases hk : s.consumers c with
    | none =>
      rw [hk] at hnew
      cases hnew
      rfl
    | some k =>
      rw [hk] at hnew
      cases hnew
      exact h.undelivered c k hk seq hseq
  | stop c =>
    obtain ⟨-, rfl⟩ := hstep
    exact h.setProcess (by simp) (by simp)
  | fetch c seq =>
    obtain ⟨hup, hstored, k, hk, -, -, rfl⟩ := hstep
    have hlt := h.storedKnown seq hstored
    refine StreamInv.setProcess (h.setConsumer ?_) ?_ ?_
    · rintro new ⟨⟩ n hn
      have hne : n ≠ seq := by omega
      show Function.update k.deliveries seq (k.deliveries seq + 1) n = 0
      rw [Function.update_of_ne hne]
      exact h.undelivered c k hk n hn
    · intro n hn
      cases List.mem_append.mp hn with
      | inl hn => exact h.fetchedKnown c n hn
      | inr hn => exact List.mem_singleton.mp hn ▸ hlt
    · intro hdown
      exact absurd (hup.symm.trans hdown) (by decide)
  | handle c seq acked =>
    obtain ⟨hfetched, rfl⟩ := hstep
    refine StreamInv.record (StreamInv.setProcess (h.setConsumer ?_) ?_ ?_) (h.fetchedKnown c seq hfetched)
    · intro new hnew n hn
      obtain ⟨k, hk, rfl⟩ := Option.map_eq_some_iff.mp hnew
      have hzero := h.undelivered c k hk n hn
      split
      · exact hzero
      · exact hzero
    · intro n hn
      exact h.fetchedKnown c n (List.mem_of_mem_erase hn)
    · intro hdown
      rw [h.idle c hdown] at hfetched
      cases hfetched
  | elapse n =>
    cases hstep
    exact ⟨h.owedKnown, h.handledKnown, h.fetchedKnown, h.storedKnown, h.undelivered, h.idle⟩
  | expire c =>
    obtain ⟨-, -, -, rfl⟩ := hstep
    exact h.setConsumer (by simp)
  | reclaim seq =>
    obtain ⟨-, rfl⟩ := hstep
    exact h.drop seq
  | ageOut seq =>
    obtain ⟨-, -, rfl⟩ := hstep
    exact h.drop seq

end Operations

section Accounts

variable {ν : Type} {cfg : StreamConfig ν} {s s' : Stream ν} {c : ν} {seq : Nat}

theorem Aged.publish {subject : String} {confirmed : Bool} (hlt : seq < s.nextSeq) :
    Aged cfg (s.publish cfg subject confirmed) seq ↔ Aged cfg s seq := by
  unfold Aged
  show (∀ t, (s.published ++ [s.now])[seq]? = some t → cfg.maxAge ≤ s.now - t) ↔ _
  rw [List.getElem?_append_left hlt]

/-- A message just published is young. -/
theorem not_aged_publish (hage : 0 < cfg.maxAge) (subject : String) (confirmed : Bool) :
    ¬ Aged cfg (s.publish cfg subject confirmed) s.nextSeq := by
  intro h
  have hlast : (s.published ++ [s.now])[s.nextSeq]? = some s.now := by simp [Stream.nextSeq]
  have hle : cfg.maxAge ≤ s.now - s.now := h s.now hlast
  omega

theorem Aged.elapse (n : Nat) (h : Aged cfg s seq) : Aged cfg { s with now := s.now + n } seq := by
  intro t ht
  have hle := h t ht
  show cfg.maxAge ≤ s.now + n - t
  omega

theorem Accounted.publish {subject : String} {confirmed : Bool} (h : Accounted cfg s c seq)
    (hlt : seq < s.nextSeq) : Accounted cfg (s.publish cfg subject confirmed) c seq := by
  rcases h with h | h | ⟨hstored, k, hk, hunacked, hmore⟩
  · exact Or.inl ((Aged.publish hlt).mpr h)
  · exact Or.inr (Or.inl h)
  · refine Or.inr (Or.inr ⟨List.mem_append_left _ hstored, _, Option.map_eq_some_iff.mpr ⟨k, hk, rfl⟩,
      ?_, ?_⟩)
    · split
      · exact List.mem_append_left _ hunacked
      · exact hunacked
    · split
      · exact hmore
      · exact hmore

/-- A message just published is accounted for exactly where its consumer exists. -/
theorem accounted_publish_iff (hinv : StreamInv s) (hage : 0 < cfg.maxAge)
    (hmax : 0 < (cfg.consumer c).maxDeliver) {subject : String} {confirmed : Bool}
    (hfilter : (cfg.consumer c).filter subject = true) :
    Accounted cfg (s.publish cfg subject confirmed) c s.nextSeq ↔ (s.consumers c).isSome = true := by
  constructor
  · rintro (h | h | ⟨-, k, hk, -⟩)
    · exact absurd h (not_aged_publish hage subject confirmed)
    · exact absurd (hinv.handledKnown c _ h) (Nat.lt_irrefl _)
    · obtain ⟨old, hold, -⟩ := Option.map_eq_some_iff.mp hk
      rw [hold]
      rfl
  · intro h
    obtain ⟨k, hk⟩ := Option.isSome_iff_exists.mp h
    refine Or.inr (Or.inr ⟨List.mem_append_right _ (List.mem_singleton.mpr rfl), k.owe s.nextSeq, ?_,
      List.mem_append_right _ (List.mem_singleton.mpr rfl), Or.inl ?_⟩)
    · show (s.consumers c).map _ = _
      rw [hk, Option.map_some, if_pos hfilter]
    · show k.deliveries s.nextSeq < _
      rw [hinv.undelivered c k hk _ (Nat.le_refl _)]
      exact hmax

theorem Accounted.drop {n : Nat} (h : Accounted cfg s c seq)
    (hn : seq = n → Aged cfg s seq ∨ seq ∈ s.handled c) : Accounted cfg (s.drop n) c seq := by
  by_cases heq : seq = n
  · cases hn heq with
    | inl h => exact Or.inl h
    | inr h => exact Or.inr (Or.inl h)
  · rcases h with h | h | ⟨hstored, hway⟩
    · exact Or.inl h
    · exact Or.inr (Or.inl h)
    · exact Or.inr (Or.inr ⟨(List.mem_erase_of_ne heq).mpr hstored, hway⟩)

variable [DecidableEq ν]

/-- What a consumer and its process do leaves the accounts of the others. -/
theorem Accounted.other {c' : ν} (hne : c' ≠ c) {k : Option Consumer} {p : Process} :
    Accounted cfg ((s.setConsumer c k).setProcess c p) c' seq ↔ Accounted cfg s c' seq := by
  unfold Accounted OnItsWay
  show _ ∨ _ ∨ (_ ∧ ∃ k', Function.update s.consumers c k c' = some k' ∧ _ ∧ (_ ∨
    seq ∈ (Function.update s.processes c p c').fetched)) ↔ _
  rw [Function.update_of_ne hne, Function.update_of_ne hne]
  rfl

theorem Accounted.own {k : Option Consumer} {p : Process} :
    Accounted cfg ((s.setConsumer c k).setProcess c p) c seq ↔
      Aged cfg s seq ∨ seq ∈ s.handled c ∨ seq ∈ s.stored ∧ ∃ k', k = some k' ∧ seq ∈ k'.unacked ∧
        (k'.deliveries seq < (cfg.consumer c).maxDeliver ∨ seq ∈ p.fetched) := by
  unfold Accounted OnItsWay
  show _ ∨ _ ∨ (_ ∧ ∃ k', Function.update s.consumers c k c = some k' ∧ _ ∧ (_ ∨
    seq ∈ (Function.update s.processes c p c).fetched)) ↔ _
  rw [Function.update_self, Function.update_self]
  rfl

theorem stop_eq (s : Stream ν) (c : ν) :
    s.stop c = (s.setConsumer c (s.consumers c)).setProcess c ⟨false, s.now, []⟩ := by
  unfold Stream.stop Stream.setConsumer
  rw [Function.update_eq_self]

theorem expire_eq (s : Stream ν) (c : ν) :
    s.setConsumer c none = (s.setConsumer c none).setProcess c (s.processes c) := by
  unfold Stream.setProcess Stream.setConsumer
  rw [Function.update_eq_self]

theorem Accounted.start (h : Accounted cfg s c seq) (hinv : StreamInv s) {c' : ν}
    (hdown : (s.processes c').up = false) : Accounted cfg (s.start c') c seq := by
  show Accounted cfg ((s.setConsumer c' _).setProcess c' _) c seq
  by_cases hc : c = c'
  · subst hc
    rw [Accounted.own]
    rcases h with h | h | ⟨hstored, k, hk, hunacked, hmore⟩
    · exact Or.inl h
    · exact Or.inr (Or.inl h)
    · refine Or.inr (Or.inr ⟨hstored, k, by rw [hk]; rfl, hunacked, ?_⟩)
      rw [hinv.idle c hdown] at hmore
      exact hmore
  · rwa [Accounted.other hc]

theorem Accounted.fetch (h : Accounted cfg s c seq) {c' : ν} {k : Consumer}
    (hk : s.consumers c' = some k) (n : Nat) : Accounted cfg (s.fetch c' k n) c seq := by
  unfold Stream.fetch
  by_cases hc : c = c'
  · subst hc
    rw [Accounted.own]
    rcases h with h | h | ⟨hstored, k', hk', hunacked, hmore⟩
    · exact Or.inl h
    · exact Or.inr (Or.inl h)
    · obtain rfl : k = k' := Option.some.inj (hk.symm.trans hk')
      refine Or.inr (Or.inr ⟨hstored, _, rfl, hunacked, ?_⟩)
      by_cases hn : seq = n
      · exact Or.inr (List.mem_append_right _ (List.mem_singleton.mpr hn))
      · cases hmore with
        | inl hmore =>
          left
          show Function.update k.deliveries n _ seq < _
          rwa [Function.update_of_ne hn]
        | inr hmore => exact Or.inr (List.mem_append_left _ hmore)
  · rwa [Accounted.other hc]

theorem Accounted.handle (h : Accounted cfg s c seq) (c' : ν) (n : Nat) (acked : Bool) :
    Accounted cfg (s.handle c' n acked) c seq := by
  unfold Stream.handle
  set t := (s.setConsumer c' _).setProcess c' _ with ht
  have hrec : ∀ m ∈ s.handled c, m ∈ (t.record c' n).handled c := by
    intro m hm
    show m ∈ Function.update s.handled c' (s.handled c' ++ [n]) c
    by_cases hc : c = c'
    · subst hc
      rw [Function.update_self]
      exact List.mem_append_left _ hm
    · rwa [Function.update_of_ne hc]
  have hkept : Accounted cfg t c seq ∨ seq ∈ (t.record c' n).handled c := by
    by_cases hc : c = c'
    · subst hc
      rw [ht, Accounted.own]
      rcases h with h | h | ⟨hstored, k, hk, hunacked, hmore⟩
      · exact Or.inl (Or.inl h)
      · exact Or.inr (hrec _ h)
      · by_cases hn : seq = n
        · right
          show seq ∈ Function.update s.handled c (s.handled c ++ [n]) c
          rw [Function.update_self, hn]
          exact List.mem_append_right _ (List.mem_singleton.mpr rfl)
        · refine Or.inl (Or.inr (Or.inr ⟨hstored, _, Option.map_eq_some_iff.mpr ⟨k, hk, rfl⟩, ?_, ?_⟩))
          · split
            · exact (List.mem_erase_of_ne hn).mpr hunacked
            · exact hunacked
          · have hmore' : k.deliveries seq < (cfg.consumer c).maxDeliver ∨
                seq ∈ (s.processes c).fetched.erase n := by
              rwa [List.mem_erase_of_ne hn]
            split
            · exact hmore'
            · exact hmore'
    · left
      rwa [ht, Accounted.other hc]
  rcases hkept with (h | h | h) | h
  · exact Or.inl h
  · exact Or.inr (Or.inl (hrec _ h))
  · exact Or.inr (Or.inr h)
  · exact Or.inr (Or.inl h)

/-- A process that stops gives up the last deliveries it has in hand. -/
theorem accounted_stop_iff (h : Accounted cfg s c seq) :
    Accounted cfg (s.stop c) c seq ↔ ∀ k, s.consumers c = some k → seq ∈ (s.processes c).fetched →
      Aged cfg s seq ∨ seq ∈ s.handled c ∨ k.deliveries seq < (cfg.consumer c).maxDeliver := by
  rw [stop_eq, Accounted.own]
  constructor
  · rintro (h | h | ⟨-, k', hk', -, hmore⟩) k hk -
    · exact Or.inl h
    · exact Or.inr (Or.inl h)
    · obtain rfl : k' = k := Option.some.inj (hk'.symm.trans hk)
      simp only [List.not_mem_nil, or_false] at hmore
      exact Or.inr (Or.inr hmore)
  · intro hall
    rcases h with h | h | ⟨hstored, k, hk, hunacked, hmore⟩
    · exact Or.inl h
    · exact Or.inr (Or.inl h)
    · cases hmore with
      | inl hmore => exact Or.inr (Or.inr ⟨hstored, k, hk, hunacked, Or.inl hmore⟩)
      | inr hin =>
        rcases hall k hk hin with h | h | h
        · exact Or.inl h
        · exact Or.inr (Or.inl h)
        · exact Or.inr (Or.inr ⟨hstored, k, hk, hunacked, Or.inl h⟩)

/-- Nothing is on its way to a consumer that was deleted. -/
theorem accounted_expire_iff :
    Accounted cfg (s.setConsumer c none) c seq ↔ Aged cfg s seq ∨ seq ∈ s.handled c := by
  rw [expire_eq, Accounted.own]
  simp

/-- Whether a step misses a message is decided before it. -/
theorem nothingMissed_step_iff (hage : 0 < cfg.maxAge) (hmax : ∀ c, 0 < (cfg.consumer c).maxDeliver)
    (hinv : StreamInv s) (h : NothingMissed cfg s) {a : Action ν} (hstep : step cfg s a s') :
    NothingMissed cfg s' ↔ Harmless cfg s a := by
  cases a with
  | publish subject confirmed =>
    cases hstep
    constructor
    · intro hnext hconf c hsub hfilter
      have howed := mem_owed_publish.mpr (Or.inr ⟨rfl, hconf, hsub, hfilter⟩)
      exact (accounted_publish_iff hinv hage (hmax c) hfilter).mp (hnext c s.nextSeq howed)
    · intro hharmless c seq hseq
      rcases mem_owed_publish.mp hseq with hseq | ⟨rfl, hconf, hsub, hfilter⟩
      · exact (h c seq hseq).publish (hinv.owedKnown c seq hseq)
      · exact (accounted_publish_iff hinv hage (hmax c) hfilter).mpr (hharmless hconf c hsub hfilter)
  | start c' =>
    obtain ⟨hdown, rfl⟩ := hstep
    exact ⟨fun _ => trivial, fun _ c seq hseq => (h c seq hseq).start hinv hdown⟩
  | stop c' =>
    obtain ⟨-, rfl⟩ := hstep
    constructor
    · intro hnext k hk seq hin howed
      exact (accounted_stop_iff (h c' seq howed)).mp (hnext c' seq howed) k hk hin
    · intro hharmless c seq hseq
      by_cases hc : c = c'
      · subst hc
        exact (accounted_stop_iff (h c seq hseq)).mpr fun k hk hin => hharmless k hk seq hin hseq
      · rw [stop_eq, Accounted.other hc]
        exact h c seq hseq
  | fetch c' n =>
    obtain ⟨-, -, k, hk, -, -, rfl⟩ := hstep
    exact ⟨fun _ => trivial, fun _ c seq hseq => (h c seq hseq).fetch hk n⟩
  | handle c' n acked =>
    obtain ⟨-, rfl⟩ := hstep
    exact ⟨fun _ => trivial, fun _ c seq hseq => (h c seq hseq).handle c' n acked⟩
  | elapse n =>
    cases hstep
    refine ⟨fun _ => trivial, fun _ c seq hseq => ?_⟩
    cases h c seq hseq with
    | inl h => exact Or.inl (h.elapse n)
    | inr h => exact Or.inr h
  | expire c' =>
    obtain ⟨-, -, -, rfl⟩ := hstep
    constructor
    · intro hnext seq howed
      exact accounted_expire_iff.mp (hnext c' seq howed)
    · intro hharmless c seq hseq
      by_cases hc : c = c'
      · subst hc
        exact accounted_expire_iff.mpr (hharmless seq hseq)
      · rw [expire_eq, Accounted.other hc]
        exact h c seq hseq
  | reclaim n =>
    obtain ⟨hdone, rfl⟩ := hstep
    refine ⟨fun _ => trivial, fun _ c seq hseq => (h c seq hseq).drop ?_⟩
    rintro rfl
    rcases h c seq hseq with h | h | ⟨-, k, hk, hunacked, -⟩
    · exact Or.inl h
    · exact Or.inr h
    · exact absurd hunacked (hdone c k hk)
  | ageOut n =>
    obtain ⟨-, haged, rfl⟩ := hstep
    refine ⟨fun _ => trivial, fun _ c seq hseq => (h c seq hseq).drop ?_⟩
    rintro rfl
    exact Or.inl haged

end Accounts

end Chinwag.JetStream

import Mathlib.Data.List.Induction
import Mathlib.Data.List.TakeWhile
import Chinwag.Chat.Projection
import Chinwag.Chat.SoloRuns

/-!
# Redelivered events of one message

The events of a message are delivered with their first deliveries in order and any
number of repeats. An upsert rewrites the content each time it is delivered, an update
as long as the row is not deleted, so the last of these rewrites decides the content.
-/
namespace Chinwag.Chat

open Rfc3339

structure CreatedEvent (id : Uuid) where
  msg : ChatMessage
  authorName : String
  payload : Json
  id_eq : msg.id = id
  marshalled : newMessagePayload (toResponse msg authorName) = some payload

structure UpdatedEvent (id : Uuid) where
  msg : ChatMessage
  authorName : String
  updatedAt : Time
  payload : Json
  id_eq : msg.id = id
  updatedAt_eq : msg.updatedAt = some updatedAt
  marshalled : updatedMessagePayload (toResponse msg authorName) = some payload

/-- The events of one message: its creation, its edits, and its deletion if it was deleted,
which names the room. -/
structure MessageLog where
  id : Uuid
  created : CreatedEvent id
  updates : List (UpdatedEvent id)
  deleted : Option Uuid

namespace MessageLog

def payloads (log : MessageLog) : List Json :=
  log.created.payload :: (log.updates.map (·.payload) ++
    (log.deleted.map (deletedMessagePayload log.id)).toList)

/-- What the content was set to, by the creation and by each edit. -/
def contents (log : MessageLog) : List String :=
  log.created.msg.content :: log.updates.map (·.msg.content)

/-- The number of the last edit; of the creation, 0, where there is none. -/
def lastEdit (log : MessageLog) : Nat := log.updates.length

/-- One delivery: when it happens, and the number of the event in the log. -/
def deliver (log : MessageLog) (p : Projections) (d : Time × Nat) : Projections :=
  match log.payloads[d.2]? with
  | none => p
  | some payload => (handle ⟨d.1, .up⟩ (some payload) p).2

def deliverAll (log : MessageLog) (ds : List (Time × Nat)) : Projections :=
  ds.foldl log.deliver fun _ => none

/-- The row of the message: its content, and whether it is visible. -/
def row (log : MessageLog) (p : Projections) : Option (String × Bool) :=
  (p log.id).map fun r => (r.content, r.deletedAt.isNone)

end MessageLog

/-- Deliveries of `n` events: an event comes first after all earlier ones, and again at any
later time. -/
structure Delivers (n : Nat) (ks : List Nat) : Prop where
  known : ∀ k ∈ ks, k < n
  inOrder : ∀ before k after, ks = before ++ k :: after → ∀ j < k, j ∈ before
  complete : ∀ k < n, k ∈ ks

/-- The deliveries that rewrite the content: every one of the creation, and those of edits
before the deletion is first delivered. -/
def rewrites (lastEdit : Nat) (ks : List Nat) : List Nat :=
  (ks.takeWhile (· ≠ lastEdit + 1)).filter (· ≤ lastEdit) ++
    (ks.dropWhile (· ≠ lastEdit + 1)).filter (· = 0)

theorem rewrites_concat (m k : Nat) (ks : List Nat) :
    rewrites m (ks ++ [k]) =
      if k = 0 ∨ k ≤ m ∧ m + 1 ∉ ks then rewrites m ks ++ [k] else rewrites m ks := by
  unfold rewrites
  by_cases hdel : m + 1 ∈ ks
  · obtain ⟨before, after, rfl, hbefore⟩ := List.eq_append_cons_of_mem hdel
    have hpos : ∀ j ∈ before, decide (j ≠ m + 1) = true := by
      intro j hj
      rw [decide_eq_true_eq]
      rintro rfl
      exact hbefore hj
    rw [List.append_assoc, List.takeWhile_append_of_pos hpos, List.takeWhile_append_of_pos hpos,
      List.dropWhile_append_of_pos hpos, List.dropWhile_append_of_pos hpos]
    by_cases hk : k = 0
    · simp [hk, List.filter_append]
    · simp [hk, hdel, List.filter_append]
  · have hpos : ∀ j ∈ ks, decide (j ≠ m + 1) = true := by
      intro j hj
      rw [decide_eq_true_eq]
      rintro rfl
      exact hdel hj
    rw [List.takeWhile_append_of_pos hpos, List.dropWhile_append_of_pos hpos,
      List.takeWhile_eq_self_iff.mpr hpos, List.dropWhile_eq_nil_iff.mpr hpos]
    by_cases hk : k = m + 1
    · subst hk
      simp
    · by_cases hle : k ≤ m
      · simp [hk, hle, hdel, List.filter_append]
      · have hpos0 : k ≠ 0 := by omega
        simp [hk, hle, hpos0, List.filter_append]

/-- The row after deliveries `ks`: none before the first one, then visible until the deletion
is delivered, with the content of the last rewrite. -/
structure RowAfter (log : MessageLog) (ks : List Nat) (p : Projections) : Prop where
  empty : ks = [] → p log.id = none
  there : ks ≠ [] → ∃ r k, p log.id = some r ∧ (rewrites log.lastEdit ks).getLast? = some k ∧
    log.contents[k]? = some r.content ∧ (r.deletedAt.isSome ↔ log.lastEdit + 1 ∈ ks)

/-- Only the creation and the edits are numbered up to the last edit; the deletion is next. -/
theorem MessageLog.payload_cases (log : MessageLog) {k : Nat} {payload : Json}
    (h : log.payloads[k]? = some payload) :
    k = 0 ∧ payload = log.created.payload ∨
    (∃ u, log.updates[k - 1]? = some u ∧ 0 < k ∧ k ≤ log.lastEdit ∧ payload = u.payload) ∨
    ∃ room, k = log.lastEdit + 1 ∧ payload = deletedMessagePayload log.id room := by
  unfold payloads at h
  cases k with
  | zero =>
    rw [List.getElem?_cons_zero, Option.some.injEq] at h
    exact Or.inl ⟨rfl, h.symm⟩
  | succ k =>
    rw [List.getElem?_cons_succ] at h
    refine Or.inr ?_
    rcases Nat.lt_or_ge k log.updates.length with hlt | hge
    · rw [List.getElem?_append_left (by simpa using hlt), List.getElem?_map, Option.map_eq_some_iff] at h
      obtain ⟨u, hu, rfl⟩ := h
      exact Or.inl ⟨u, hu, by omega, hlt, rfl⟩
    · rw [List.getElem?_append_right (by simpa using hge), List.length_map] at h
      cases hdel : log.deleted with
      | none => simp [hdel] at h
      | some room =>
        rw [hdel] at h
        have hlast := (List.getElem?_eq_some_iff.mp h).1
        simp only [Option.map_some, Option.toList_some, List.length_singleton] at hlast
        have hk : k - log.updates.length = 0 := by omega
        rw [hk] at h
        have hp : deletedMessagePayload log.id room = payload := by simpa using h
        exact Or.inr ⟨room, by unfold lastEdit; omega, hp.symm⟩

theorem MessageLog.length_payloads (log : MessageLog) :
    log.payloads.length = log.lastEdit + 1 + (if log.deleted.isSome then 1 else 0) := by
  unfold payloads lastEdit
  cases log.deleted <;> simp [Nat.add_comm]

section Deliveries

variable {log : MessageLog} {ks : List Nat} {p : Projections} {now : Time} {k : Nat}

/-- An update of the live row, for a row described so far. -/
theorem RowAfter.updateLive (h : RowAfter log ks p) (hks : ks ≠ [])
    (f : MessageProjection → MessageProjection) :
    ∃ r k, p log.id = some r ∧ (rewrites log.lastEdit ks).getLast? = some k ∧
      log.contents[k]? = some r.content ∧ (r.deletedAt.isSome ↔ log.lastEdit + 1 ∈ ks) ∧
      (updateLive log.id f p).2 log.id = some (if log.lastEdit + 1 ∈ ks then r else f r) := by
  obtain ⟨r, k, hr, hk, hc, hd⟩ := h.there hks
  refine ⟨r, k, hr, hk, hc, hd, ?_⟩
  unfold Chat.updateLive
  rw [hr]
  by_cases hdel : log.lastEdit + 1 ∈ ks
  · simp [hd.mpr hdel, hdel, hr]
  · have hlive : r.deletedAt.isSome = false := by
      rw [Bool.eq_false_iff]
      exact fun hsome => hdel (hd.mp hsome)
    simp [hlive, hdel]

theorem rowAfter_created (hname : ¬ 256 < log.created.authorName.length) (h : RowAfter log ks p) :
    RowAfter log (ks ++ [0]) (handle ⟨now, .up⟩ (some log.created.payload) p).2 := by
  have hid : (projectionOf log.created.msg log.created.authorName).id = log.id := log.created.id_eq
  have hshort : ¬ 256 < (projectionOf log.created.msg log.created.authorName).authorName.length := hname
  rw [handle_newMessage log.created.marshalled]
  simp only [finish, Database.run, upsert, if_neg hshort]
  rw [hid]
  refine ⟨fun hnil => by simp at hnil, fun _ => ?_⟩
  rw [rewrites_concat, if_pos (Or.inl rfl), Function.update_self]
  refine ⟨_, 0, rfl, by simp, ?_, ?_⟩
  · unfold upserted
    rw [hid]
    split
    · rfl
    · rfl
  · unfold upserted
    rw [hid]
    by_cases hks : ks = []
    · rw [h.empty hks, hks]
      simp
    · obtain ⟨r, k, hr, -, -, hd⟩ := h.there hks
      rw [hr]
      simpa using hd

theorem rowAfter_updated {u : UpdatedEvent log.id} (hu : log.updates[k - 1]? = some u) (hpos : 0 < k)
    (hle : k ≤ log.lastEdit) (h : RowAfter log ks p) (hks : ks ≠ []) :
    RowAfter log (ks ++ [k]) (handle ⟨now, .up⟩ (some u.payload) p).2 := by
  rw [handle_updatedMessage u.marshalled u.updatedAt_eq, u.id_eq]
  simp only [finish, Database.run, updateContent]
  obtain ⟨r, j, -, hj, hc, hd, hnew⟩ := h.updateLive hks
    (fun row => { row with content := u.msg.content, updatedAt := some u.updatedAt.printed })
  refine ⟨fun hnil => by simp at hnil, fun _ => ?_⟩
  have hmem : log.lastEdit + 1 ∈ ks ++ [k] ↔ log.lastEdit + 1 ∈ ks := by
    have hne : log.lastEdit + 1 ≠ k := by omega
    simp [hne]
  rw [rewrites_concat]
  by_cases hdel : log.lastEdit + 1 ∈ ks
  · rw [if_pos hdel] at hnew
    rw [if_neg (by simp [hdel]; omega)]
    exact ⟨r, j, hnew, hj, hc, hd.trans hmem.symm⟩
  · rw [if_neg hdel] at hnew
    rw [if_pos (Or.inr ⟨hle, hdel⟩)]
    refine ⟨_, k, hnew, by simp, ?_, hd.trans hmem.symm⟩
    obtain ⟨k, rfl⟩ : ∃ j, k = j + 1 := ⟨k - 1, by omega⟩
    rw [Nat.add_sub_cancel] at hu
    simp [MessageLog.contents, hu]

theorem rowAfter_deleted (room : Uuid) (h : RowAfter log ks p) (hks : ks ≠ []) :
    RowAfter log (ks ++ [log.lastEdit + 1])
      (handle ⟨now, .up⟩ (some (deletedMessagePayload log.id room)) p).2 := by
  rw [handle_deletedMessage]
  simp only [finish, Database.run, softDelete]
  obtain ⟨r, j, -, hj, hc, hd, hnew⟩ := h.updateLive hks (fun row => { row with deletedAt := some now })
  refine ⟨fun hnil => by simp at hnil, fun _ => ?_⟩
  rw [rewrites_concat, if_neg (by omega)]
  by_cases hdel : log.lastEdit + 1 ∈ ks
  · rw [if_pos hdel] at hnew
    exact ⟨r, j, hnew, hj, hc, by simp [hd.mpr hdel]⟩
  · rw [if_neg hdel] at hnew
    exact ⟨_, j, hnew, hj, hc, by simp⟩

/-- One more delivery keeps the description of the row, given a name the column can hold. -/
theorem rowAfter_concat (hname : ¬ 256 < log.created.authorName.length) (h : RowAfter log ks p)
    (hfirst : k ≠ 0 → ks ≠ []) (hk : k < log.payloads.length) :
    RowAfter log (ks ++ [k]) (log.deliver p (now, k)) := by
  have hpayload := List.getElem?_eq_getElem hk
  unfold MessageLog.deliver
  rw [hpayload]
  rcases log.payload_cases hpayload with ⟨rfl, hp⟩ | ⟨u, hu, hpos, hle, hp⟩ | ⟨room, rfl, hp⟩
  · simp only [hp]
    exact rowAfter_created hname h
  · simp only [hp]
    exact rowAfter_updated hu hpos hle h (hfirst (by omega))
  · simp only [hp]
    exact rowAfter_deleted room h (hfirst (by omega))

/-- The row after any deliveries; the induction adds one delivery at the end. -/
theorem rowAfter_deliverAll {ds : List (Time × Nat)}
    (hname : ¬ 256 < log.created.authorName.length)
    (hd : Delivers log.payloads.length (ds.map Prod.snd)) :
    RowAfter log (ds.map Prod.snd) (log.deliverAll ds) := by
  have hknown := hd.known
  have horder := hd.inOrder
  clear hd
  induction ds using List.reverseRecOn with
  | nil => exact ⟨fun _ => rfl, fun hne => absurd rfl hne⟩
  | append_singleton ds d ih =>
    rw [List.map_append] at hknown horder ⊢
    have hrow := ih (fun k hk => hknown k (List.mem_append_left _ hk)) fun before k after heq j hj => by
      refine horder before k (after ++ [d.2]) ?_ j hj
      rw [heq]
      simp
    unfold MessageLog.deliverAll at hrow ⊢
    rw [List.foldl_append]
    refine rowAfter_concat hname hrow (fun hne hnil => ?_) (hknown d.2 (by simp))
    have hzero := horder _ d.2 [] rfl 0 (Nat.pos_of_ne_zero hne)
    rw [hnil] at hzero
    cases hzero

/-- With a name too long for its column no row is ever inserted. -/
theorem deliverAll_long_name (hname : 256 < log.created.authorName.length) (ds : List (Time × Nat)) :
    log.deliverAll ds log.id = none := by
  unfold MessageLog.deliverAll
  suffices h : ∀ p : Projections, p log.id = none → ds.foldl log.deliver p log.id = none from h _ rfl
  induction ds with
  | nil => exact fun _ hp => hp
  | cons d ds ih =>
    intro p hp
    refine ih _ ?_
    unfold MessageLog.deliver
    cases hpay : log.payloads[d.2]? with
    | none => exact hp
    | some payload =>
      have hlong : 256 < (projectionOf log.created.msg log.created.authorName).authorName.length := hname
      rcases log.payload_cases hpay with ⟨-, rfl⟩ | ⟨u, -, -, -, rfl⟩ | ⟨room, -, rfl⟩
      · simp only [handle_newMessage log.created.marshalled, finish, Database.run, upsert, if_pos hlong, hp]
      · simp only [handle_updatedMessage u.marshalled u.updatedAt_eq, finish, Database.run, updateContent,
          u.id_eq, updateLive, hp]
      · simp only [handle_deletedMessage, finish, Database.run, softDelete, updateLive, hp]

end Deliveries

/-- Delivered once each, the creation and the edits rewrite in order. -/
theorem rewrites_range (m n : Nat) : (rewrites m (List.range (n + 1))).getLast? = some (min n m) := by
  induction n with
  | zero =>
    have hone := rewrites_concat m 0 []
    rw [if_pos (Or.inl rfl), List.nil_append] at hone
    simp [hone]
  | succ n ih =>
    rw [List.range_succ, rewrites_concat]
    by_cases hle : n + 1 ≤ m
    · have hnew : m + 1 ∉ List.range (n + 1) := by
        rw [List.mem_range]
        omega
      rw [if_pos (Or.inr ⟨hle, hnew⟩), List.getLast?_concat, Nat.min_eq_left hle]
    · rw [if_neg (by omega), ih]
      congr 1
      omega

theorem delivers_range (n : Nat) : Delivers n (List.range n) where
  known _ hk := List.mem_range.mp hk
  inOrder before k after heq j hj := by
    have hlen : before.length < n := by
      have hl := congrArg List.length heq
      simp at hl
      omega
    have hk : k = before.length := by
      have hget := congrArg (fun l => l[before.length]?) heq
      simp only [List.getElem?_range hlen, List.getElem?_append_right (Nat.le_refl _), Nat.sub_self,
        List.getElem?_cons_zero, Option.some.injEq] at hget
      exact hget.symm
    have hbefore : before = List.range before.length := by
      have htake := congrArg (List.take before.length) heq
      rw [List.take_left, List.take_range, Nat.min_eq_left (Nat.le_of_lt hlen)] at htake
      exact htake.symm
    rw [hbefore, List.mem_range, ← hk]
    exact hj
  complete k hk := List.mem_range.mpr hk

/-- The final row has the content of the last rewrite, and is visible unless the message was deleted. -/
theorem row_deliverAll {log : MessageLog} {ds : List (Time × Nat)}
    (hname : ¬ 256 < log.created.authorName.length)
    (hd : Delivers log.payloads.length (ds.map Prod.snd)) :
    ∃ k content, (rewrites log.lastEdit (ds.map Prod.snd)).getLast? = some k ∧
      log.contents[k]? = some content ∧
      log.row (log.deliverAll ds) = some (content, log.deleted.isNone) := by
  have hlen := log.length_payloads
  have hpos : 0 < log.payloads.length := by omega
  obtain ⟨r, k, hr, hk, hc, hdel⟩ :=
    (rowAfter_deliverAll hname hd).there (List.ne_nil_of_mem (hd.complete 0 hpos))
  refine ⟨k, r.content, hk, hc, ?_⟩
  have hvisible : r.deletedAt.isSome ↔ log.deleted.isSome := by
    rw [hdel]
    constructor
    · intro hmem
      have hlt := hd.known _ hmem
      by_contra hnone
      rw [if_neg hnone] at hlen
      omega
    · intro hsome
      rw [if_pos hsome] at hlen
      exact hd.complete _ (by omega)
  simp only [MessageLog.row, hr, Option.map_some, Option.some.injEq, Prod.mk.injEq, true_and]
  rw [← Option.not_isSome, ← Option.not_isSome, Bool.eq_iff_iff.mpr hvisible]

/-- Deliveries in any such order end with the row of one delivery each exactly where the
last rewrite among them carries the content of the last edit, or no row is ever inserted. -/
theorem redelivery_harmless_iff (log : MessageLog) {ds once : List (Time × Nat)}
    (hd : Delivers log.payloads.length (ds.map Prod.snd))
    (honce : once.map Prod.snd = List.range log.payloads.length) :
    log.row (log.deliverAll ds) = log.row (log.deliverAll once) ↔
      256 < log.created.authorName.length ∨
        ∀ k ∈ (rewrites log.lastEdit (ds.map Prod.snd)).getLast?,
          log.contents[k]? = log.contents[log.lastEdit]? := by
  by_cases hname : 256 < log.created.authorName.length
  · refine ⟨fun _ => Or.inl hname, fun _ => ?_⟩
    simp only [MessageLog.row, deliverAll_long_name hname]
  · obtain ⟨k, content, hk, hc, hrow⟩ := row_deliverAll hname hd
    obtain ⟨k', content', hk', hc', hrow'⟩ := row_deliverAll hname (honce ▸ delivers_range _)
    have hlen := log.length_payloads
    obtain ⟨n, hn⟩ : ∃ n, log.payloads.length = n + 1 := ⟨log.payloads.length - 1, by omega⟩
    rw [honce, hn, rewrites_range, Option.some.injEq] at hk'
    have hlast : k' = log.lastEdit := by omega
    subst hlast
    simp only [hrow, hrow', Option.some.injEq, Prod.mk.injEq, and_true, hname, false_or, hk,
      Option.mem_some_iff, forall_eq', hc, hc']

/-- A message created as "hello" and edited once. -/
theorem exists_editedLog : ∃ log : MessageLog, log.payloads.length = 2 ∧
    log.contents = ["hello", "edited"] ∧ log.lastEdit = 1 ∧ log.created.authorName = "Ann" := by
  obtain ⟨payload, hpay⟩ := exists_samplePayload
  obtain ⟨payload', hpay'⟩ := exists_sampleEditPayload
  exact ⟨⟨sampleMessage, ⟨sampleCreated, "Ann", payload, rfl, hpay⟩,
    [⟨editedMessage sampleCreated "edited" sampleTime, "Ann", sampleTime, payload', rfl, rfl, hpay'⟩], none⟩,
    rfl, rfl, rfl, rfl⟩

/-- The order checked position by position. -/
theorem Delivers.of_take {n : Nat} {ks : List Nat} (hknown : ∀ k ∈ ks, k < n)
    (htake : ∀ i < ks.length, ∀ j < ks.getD i 0, j ∈ ks.take i) (hcomplete : ∀ k < n, k ∈ ks) :
    Delivers n ks where
  known := hknown
  inOrder before k after heq j hj := by
    have hget : ks.getD before.length 0 = k := by simp [heq]
    have hbefore : ks.take before.length = before := by simp [heq]
    have hlen : before.length < ks.length := by simp [heq]
    have hmem := htake before.length hlen j (hget ▸ hj)
    rw [hbefore] at hmem
    exact hmem
  complete := hcomplete

theorem redelivery_harmless_edit : ∃ (log : MessageLog) (ds once : List (Time × Nat)),
    ds.map Prod.snd = [0, 0, 1, 0, 1] ∧ once.map Prod.snd = List.range log.payloads.length ∧
      log.row (log.deliverAll ds) = log.row (log.deliverAll once) := by
  obtain ⟨log, hlen, hcontents, hedit, -⟩ := exists_editedLog
  have hd : Delivers log.payloads.length
      (([0, 0, 1, 0, 1].map fun k => (sampleTime, k)).map Prod.snd) := by
    rw [hlen]
    exact .of_take (by decide) (by decide) (by decide)
  have honce : (([0, 1].map fun k => (sampleTime, k)).map Prod.snd) = List.range log.payloads.length := by
    rw [hlen]
    rfl
  have hlast : (rewrites log.lastEdit (([0, 0, 1, 0, 1].map fun k => (sampleTime, k)).map Prod.snd)).getLast?
      = some 1 := by
    rw [hedit]
    decide
  refine ⟨log, _, _, rfl, honce, (redelivery_harmless_iff log hd honce).mpr (Or.inr fun k hk => ?_)⟩
  rw [hlast, Option.mem_some_iff] at hk
  rw [← hk, hedit]

/-- The creation delivered again after the edit brings the first content back. -/
theorem redelivered_creation_reverts_edit : ∃ (log : MessageLog) (ds once : List (Time × Nat)),
    Delivers log.payloads.length (ds.map Prod.snd) ∧ ds.map Prod.snd = [0, 1, 0] ∧
      once.map Prod.snd = List.range log.payloads.length ∧
      log.row (log.deliverAll ds) = some ("hello", true) ∧
      log.row (log.deliverAll once) = some ("edited", true) := by
  obtain ⟨log, hlen, hcontents, hedit, hname⟩ := exists_editedLog
  have hshort : ¬ 256 < log.created.authorName.length := by
    rw [hname]
    decide
  have hkept : log.deleted.isNone = true := by
    have hl := log.length_payloads
    cases hdel : log.deleted with
    | none => rfl
    | some room =>
      rw [hdel, hlen, hedit] at hl
      cases hl
  have hd : Delivers log.payloads.length (([0, 1, 0].map fun k => (sampleTime, k)).map Prod.snd) := by
    rw [hlen]
    exact .of_take (by decide) (by decide) (by decide)
  have hd' : Delivers log.payloads.length (([0, 1].map fun k => (sampleTime, k)).map Prod.snd) := by
    rw [hlen]
    exact .of_take (by decide) (by decide) (by decide)
  obtain ⟨k, content, hk, hc, hrow⟩ := row_deliverAll hshort hd
  obtain ⟨k', content', hk', hc', hrow'⟩ := row_deliverAll hshort hd'
  have hzero : k = 0 := by
    have hlast : (rewrites 1 (([0, 1, 0].map fun k => (sampleTime, k)).map Prod.snd)).getLast? = some 0 := by
      decide
    rw [hedit, hlast] at hk
    exact (Option.some.inj hk).symm
  have hone : k' = 1 := by
    have hlast : (rewrites 1 (([0, 1].map fun k => (sampleTime, k)).map Prod.snd)).getLast? = some 1 := by
      decide
    rw [hedit, hlast] at hk'
    exact (Option.some.inj hk').symm
  rw [hcontents, hzero] at hc
  rw [hcontents, hone] at hc'
  obtain rfl : "hello" = content := Option.some.inj hc
  obtain rfl : "edited" = content' := Option.some.inj hc'
  rw [hkept] at hrow hrow'
  exact ⟨log, _, _, hd, rfl, by rw [hlen]; rfl, hrow, hrow'⟩

end Chinwag.Chat

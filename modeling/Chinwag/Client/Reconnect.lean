import Mathlib.Data.String.Basic
import Chinwag.Lib.Keyset
import Chinwag.Client.MessageList

/-!
# Filling the gap after a reconnect

The server lists what comes after a cursor, the oldest first; the client puts the answer before its
first page. Messages are in the order of their creation times and ids, as the server compares them.
-/
namespace Chinwag.Client

open Keyset

def Message.key (m : Message) : Instant ×ₗ String := toLex (m.createdAt, m.id)

def Cursor.key (c : Cursor) : Instant ×ₗ String := toLex (c.createdAt, c.id)

def maxLimit : ℤ := 200

/-- Of the messages of the room that are not deleted, those after a cursor. -/
def listAfterByRoomId (messages : List Message) (after : Cursor) (limit : ℤ) : List Message :=
  let limit := if limit ≤ 0 ∨ maxLimit < limit then maxLimit else limit
  ((messages.filter fun m => decide (after.key < m.key)).mergeSort fun a b => decide (a.key ≤ b.key)).take limit.toNat

/-- `ListMessages` of the handler, where the request has a cursor to start after. -/
def fetchMessages (messages : List Message) (after : Cursor) : List Message := listAfterByRoomId messages after 50

/-- The effect that follows every change of the list. -/
def trackNewest (cache : MessageCache) : MessageCache :=
  match allMessages cache.data with
  | newestMsg :: _ => { cache with lastMessageCursor := some newestMsg.cursor }
  | [] => cache

/-- The fetched messages that the first page does not have are put before it. -/
def mergeResynced (resyncedMessages : List Message) : MessageQueryData → MessageQueryData
  | some (some first :: later) =>
    some (some ((resyncedMessages.filter fun m => decide (m.id ∉ ids first)) ++ first) :: later)
  | data => data

/-- What `onStatusChange` does with the list once the client is connected. -/
def onConnected (messages : List Message) (cache : MessageCache) : MessageCache :=
  match cache.lastMessageCursor, cache.data with
  | some lastMsg, some (some (_ :: _) :: _) =>
    { cache with data := mergeResynced (fetchMessages messages lastMsg) cache.data }
  | _, _ => cache

/-! ### The property -/

/-- The order in which the list is rendered, from its end to its beginning. -/
abbrev NewestFirst (l : List Message) : Prop := Descending Message.key l

/-- What is missed is there once, and nothing got out of order. -/
structure GapClosed (before missed final : List Message) : Prop where
  once : ∀ m ∈ missed, (ids final).count m.id = 1
  ordered : NewestFirst before → NewestFirst final

/-- The messages of the first page. -/
def firstPage : MessageQueryData → List Message
  | some (some first :: _) => first
  | _ => []

/-- Newer than the first message of a first page that has one, and one of the fifty next to it. -/
def Reached (data : MessageQueryData) (messages : List Message) (m : Message) : Prop :=
  ∃ newestMsg ∈ (firstPage data).head?, newestMsg.key < m.key ∧
    (messages.filter fun r => decide (newestMsg.key < r.key ∧ r.key < m.key)).length < 50

/-- Each missed message is reached unless the list has it, one on a later page is not reached, and one
message at most is reached that the first page does not have. -/
structure GapFits (data : MessageQueryData) (messages missed : List Message) : Prop where
  reached : ∀ m ∈ missed, m.id ∉ ids (allMessages data) → Reached data messages m
  single : ∀ m ∈ missed, m.id ∈ ids (allMessages data) → (ids (allMessages data)).count m.id = 1
  later : ∀ m ∈ missed, m.id ∈ ids (allMessages data) → m.id ∉ ids (firstPage data) → ¬ Reached data messages m
  atMostOne : NewestFirst (allMessages data) → ∀ m ∈ messages, ∀ m' ∈ messages, Reached data messages m →
    Reached data messages m' → m.id ∉ ids (firstPage data) → m'.id ∉ ids (firstPage data) → m = m'

/-! ### What is fetched -/

section Fetch

variable {messages : List Message} {after : Cursor}

/-- The key in the order of the answer, which is that of a page upside down. -/
abbrev Message.dualKey (m : Message) : (Instant ×ₗ String)ᵒᵈ := OrderDual.toDual m.key

theorem fetchMessages_eq (messages : List Message) (after : Cursor) :
    fetchMessages messages after = (newest Message.dualKey (some (OrderDual.toDual after.key)) messages).take 50 := rfl

theorem descending_fetch (h : (ids messages).Nodup) :
    Descending Message.dualKey (newest Message.dualKey (some (OrderDual.toDual after.key)) messages) := by
  have hkeys : ids messages = (messages.map Message.dualKey).map fun k => (ofLex (OrderDual.ofDual k)).2 := by
    rw [List.map_map]
    rfl
  rw [hkeys] at h
  exact descending_newest h.of_map

theorem mem_fetchMessages (h : (ids messages).Nodup) {m : Message} :
    m ∈ fetchMessages messages after ↔ m ∈ messages ∧ after.key < m.key ∧
      (messages.filter fun r => decide (after.key < r.key ∧ r.key < m.key)).length < 50 := by
  have hperm : ((newest Message.dualKey (some (OrderDual.toDual after.key)) messages).filter
      fun r => decide (r.key < m.key)).length =
        (messages.filter fun r => decide (after.key < r.key ∧ r.key < m.key)).length := by
    have hsort := (List.mergeSort_perm (messages.filter fun r => decide (after.key < r.key))
      fun a b => decide (a.key ≤ b.key)).filter fun r => decide (r.key < m.key)
    have hboth : (messages.filter fun r => decide (after.key < r.key)).filter (fun r => decide (r.key < m.key)) =
        messages.filter fun r => decide (after.key < r.key ∧ r.key < m.key) := by
      rw [List.filter_filter]
      refine List.filter_congr fun r _ => ?_
      rw [Bool.and_comm, Bool.decide_and]
    rw [← hboth]
    exact hsort.length_eq
  rw [fetchMessages_eq, Descending.mem_take (descending_fetch h), mem_newest, isBelow_some, and_assoc]
  exact and_congr_right fun _ => and_congr_right fun _ => by rw [← hperm]; rfl

/-- The answer is in the order opposite to that of the list. -/
theorem fetchMessages_ascending (h : (ids messages).Nodup) :
    (fetchMessages messages after).Pairwise fun a b => a.key < b.key :=
  (descending_fetch h).sublist (List.take_sublist 50 _)

end Fetch

/-! ### What the list gains -/

theorem firstPage_sublist (data : MessageQueryData) : (firstPage data).Sublist (allMessages data) := by
  match data with
  | some (some first :: later) => exact List.sublist_append_left _ _
  | some (none :: later) => exact List.nil_sublist _
  | some [] => exact List.nil_sublist _
  | none => exact List.nil_sublist _

theorem onConnected_same {messages : List Message} {cache : MessageCache} (h : firstPage cache.data = []) :
    (onConnected messages cache).data = cache.data := by
  obtain ⟨data, cursor⟩ := cache
  unfold onConnected
  split
  · rename_i hdata
    dsimp only at hdata h
    rw [hdata] at h
    cases h
  · rfl

/-- The messages put before the list: those reached that the first page does not have, the oldest first. -/
structure Gained (data : MessageQueryData) (messages new : List Message) : Prop where
  mem : ∀ m, m ∈ new ↔ m ∈ messages ∧ Reached data messages m ∧ m.id ∉ ids (firstPage data)
  ascending : new.Pairwise fun a b => a.key < b.key
  newer : ∀ m ∈ new, ∀ b ∈ (allMessages data).head?, b.key < m.key

theorem onConnected_gains {messages : List Message} (h : (ids messages).Nodup) (cache : MessageCache) :
    ∃ new, allMessages (onConnected messages (trackNewest cache)).data = new ++ allMessages cache.data ∧
      Gained cache.data messages new := by
  cases hfirst : firstPage cache.data with
  | nil =>
    have hdata : (trackNewest cache).data = cache.data := by
      unfold trackNewest
      split <;> rfl
    refine ⟨[], ?_, ⟨fun m => ?_, List.Pairwise.nil, fun m hm => (nomatch hm)⟩⟩
    · rw [onConnected_same (by rw [hdata, hfirst]), hdata]
      rfl
    · constructor
      · intro hm
        cases hm
      · rintro ⟨-, ⟨newestMsg, hhead, -⟩, -⟩
        rw [hfirst] at hhead
        cases hhead
  | cons newestMsg rest =>
    obtain ⟨data, cursor⟩ := cache
    obtain ⟨later, rfl⟩ : ∃ later, data = some (some (newestMsg :: rest) :: later) := by
      match data, hfirst with
      | some (some first :: later), hfirst => exact ⟨later, by rw [← hfirst]; rfl⟩
    refine ⟨(fetchMessages messages newestMsg.cursor).filter fun m => decide (m.id ∉ ids (newestMsg :: rest)), ?_,
      ⟨fun m => ?_, ?_, ?_⟩⟩
    · exact List.append_assoc _ _ _
    · rw [List.mem_filter, mem_fetchMessages h, decide_eq_true_eq]
      constructor
      · rintro ⟨⟨hm, hlt, hlen⟩, hid⟩
        exact ⟨hm, ⟨newestMsg, rfl, hlt, hlen⟩, hid⟩
      · rintro ⟨hm, ⟨newestMsg', hhead, hlt, hlen⟩, hid⟩
        cases hhead
        exact ⟨⟨hm, hlt, hlen⟩, hid⟩
    · exact (fetchMessages_ascending h).filter _
    · intro m hm b hb
      cases hb
      exact ((mem_fetchMessages h).mp (List.mem_of_mem_filter hm)).2.1

section Counts

variable {data : MessageQueryData} {messages new : List Message}

theorem count_gained (h : (ids messages).Nodup) (hnew : Gained data messages new) {m : Message} (hm : m ∈ messages) :
    (ids new).count m.id = if m ∈ new then 1 else 0 := by
  have hsub : ∀ {a}, a ∈ new → a ∈ messages := fun ha => ((hnew.mem _).mp ha).1
  have hnodup : (ids new).Nodup := by
    have hlt : new.Nodup := hnew.ascending.imp fun hlt heq => absurd (heq ▸ hlt) (lt_irrefl _)
    exact List.Nodup.map_on (fun a ha b hb heq => List.inj_on_of_nodup_map h (hsub ha) (hsub hb) heq) hlt
  split
  · exact List.count_eq_one_of_mem hnodup (List.mem_map_of_mem ‹_›)
  · refine List.count_eq_zero.mpr fun hmem => ?_
    obtain ⟨a, ha, hid⟩ := List.mem_map.mp hmem
    exact ‹m ∉ new› (List.inj_on_of_nodup_map h (hsub ha) hm hid ▸ ha)

/-- What is put before an ordered list keeps its order if it is one message at most. -/
theorem newestFirst_gained (hnew : Gained data messages new) (h : NewestFirst (allMessages data)) :
    NewestFirst (new ++ allMessages data) ↔ ∀ m ∈ new, ∀ m' ∈ new, m = m' := by
  constructor
  · intro hfinal m hm m' hm'
    have hdesc : NewestFirst new := (List.pairwise_append.mp hfinal).1
    match new, hdesc, hnew.ascending with
    | [], _, _ => cases hm
    | [a], _, _ => rw [List.mem_singleton.mp hm, List.mem_singleton.mp hm']
    | a :: b :: l, hdesc, hasc =>
      have hlt := (List.pairwise_cons.mp hasc).1 b List.mem_cons_self
      exact absurd ((List.pairwise_cons.mp hdesc).1 b List.mem_cons_self) (not_lt_of_gt hlt)
  · intro hone
    have hdesc : NewestFirst new := by
      refine hnew.ascending.imp_of_mem fun ha hb hlt => ?_
      exact absurd (hone _ ha _ hb ▸ hlt) (lt_irrefl _)
    refine List.pairwise_append.mpr ⟨hdesc, h, fun m hm b hb => ?_⟩
    have hnewer := hnew.newer m hm
    match allMessages data, h, hb, hnewer with
    | newestMsg :: rest, h, hb, hnewer =>
      have hhead : newestMsg.key < m.key := hnewer newestMsg rfl
      rcases List.mem_cons.mp hb with rfl | hb
      · exact hhead
      · exact ((List.pairwise_cons.mp h).1 b hb).trans hhead

end Counts

/-- Two messages that are fetched at once come into the list in the wrong order. -/
theorem two_out_of_order {cache : MessageCache} {messages : List Message} (h : (ids messages).Nodup) {m m' : Message}
    (hordered : NewestFirst (allMessages cache.data)) (hm : m ∈ messages) (hm' : m' ∈ messages)
    (hreached : Reached cache.data messages m) (hreached' : Reached cache.data messages m')
    (hid : m.id ∉ ids (firstPage cache.data)) (hid' : m'.id ∉ ids (firstPage cache.data)) (hne : m ≠ m') :
    ¬ NewestFirst (allMessages (onConnected messages (trackNewest cache)).data) := by
  obtain ⟨new, hfinal, hnew⟩ := onConnected_gains h cache
  rw [hfinal, newestFirst_gained hnew hordered]
  exact fun hone => hne (hone m ((hnew.mem m).mpr ⟨hm, hreached, hid⟩) m' ((hnew.mem m').mpr ⟨hm', hreached', hid'⟩))

/-- The gap is closed exactly if it is of one message at most, and that one is in reach. -/
theorem gap_closed_iff {cache : MessageCache} {messages missed : List Message} (h : (ids messages).Nodup)
    (hmissed : missed ⊆ messages) :
    GapClosed (allMessages cache.data) missed (allMessages (onConnected messages (trackNewest cache)).data) ↔
      GapFits cache.data messages missed := by
  obtain ⟨new, hfinal, hnew⟩ := onConnected_gains h cache
  have hcount : ∀ m ∈ missed, (ids (new ++ allMessages cache.data)).count m.id =
      (if m ∈ new then 1 else 0) + (ids (allMessages cache.data)).count m.id := by
    intro m hm
    rw [ids_append, List.count_append, count_gained h hnew (hmissed hm)]
  have hfirst : ∀ {id}, id ∈ ids (firstPage cache.data) → id ∈ ids (allMessages cache.data) :=
    fun hid => ((firstPage_sublist cache.data).map _).subset hid
  rw [hfinal]
  constructor
  · intro hclosed
    have honce : ∀ m ∈ missed, (if m ∈ new then 1 else 0) + (ids (allMessages cache.data)).count m.id = 1 :=
      fun m hm => (hcount m hm).symm.trans (hclosed.once m hm)
    refine ⟨fun m hm hid => ?_, fun m hm hid => ?_, fun m hm hid hpage hreached => ?_,
      fun hordered m hm m' hm' hr hr' hid hid' => ?_⟩
    · have hthere := honce m hm
      rw [List.count_eq_zero.mpr hid] at hthere
      have hmem : m ∈ new := by
        by_contra hnot
        rw [if_neg hnot] at hthere
        cases hthere
      exact ((hnew.mem m).mp hmem).2.1
    · have hpos : 0 < (ids (allMessages cache.data)).count m.id := List.count_pos_iff.mpr hid
      have hthere := honce m hm
      omega
    · have hpos : 0 < (ids (allMessages cache.data)).count m.id := List.count_pos_iff.mpr hid
      have hthere := honce m hm
      rw [if_pos ((hnew.mem m).mpr ⟨hmissed hm, hreached, hpage⟩)] at hthere
      omega
    · exact (newestFirst_gained hnew hordered).mp (hclosed.ordered hordered) m ((hnew.mem m).mpr ⟨hm, hr, hid⟩) m'
        ((hnew.mem m').mpr ⟨hm', hr', hid'⟩)
  · intro hfits
    refine ⟨fun m hm => ?_, fun hordered => (newestFirst_gained hnew hordered).mpr fun m hm m' hm' => ?_⟩
    · rw [hcount m hm]
      by_cases hid : m.id ∈ ids (allMessages cache.data)
      · rw [hfits.single m hm hid, if_neg]
        intro hmem
        obtain ⟨-, hreached, hpage⟩ := (hnew.mem m).mp hmem
        exact hfits.later m hm hid hpage hreached
      · rw [List.count_eq_zero.mpr hid, if_pos]
        exact (hnew.mem m).mpr ⟨hmissed hm, hfits.reached m hm hid, fun hpage => hid (hfirst hpage)⟩
    · obtain ⟨hin, hreached, hid⟩ := (hnew.mem m).mp hm
      obtain ⟨hin', hreached', hid'⟩ := (hnew.mem m').mp hm'
      exact hfits.atMostOne hordered m hin m' hin' hreached hreached' hid hid'

/-! ### Two messages missed -/

def oneMessage : MessageCache := ⟨some [some [sampleMessage "a" "old"]], none⟩

theorem gap_closed_one :
    GapClosed (allMessages oneMessage.data) [sampleMessage "b" "new"]
        (allMessages (onConnected [sampleMessage "a" "old", sampleMessage "b" "new"] (trackNewest oneMessage)).data) ↔
      GapFits oneMessage.data [sampleMessage "a" "old", sampleMessage "b" "new"] [sampleMessage "b" "new"] :=
  gap_closed_iff (by decide) (List.subset_cons_self _ _)

/-- Of two missed messages the older one comes first. -/
theorem two_missed_reversed :
    (ids [sampleMessage "a" "old", sampleMessage "b" "new", sampleMessage "c" "newest"]).Nodup ∧
      NewestFirst (allMessages oneMessage.data) ∧
      ¬ GapClosed (allMessages oneMessage.data) [sampleMessage "b" "new", sampleMessage "c" "newest"]
        (allMessages (onConnected [sampleMessage "a" "old", sampleMessage "b" "new", sampleMessage "c" "newest"]
          (trackNewest oneMessage)).data) := by
  have hnodup : (ids [sampleMessage "a" "old", sampleMessage "b" "new", sampleMessage "c" "newest"]).Nodup := by decide
  have hordered : NewestFirst (allMessages oneMessage.data) := List.pairwise_singleton _ _
  refine ⟨hnodup, hordered, fun hclosed => ?_⟩
  have hb : sampleMessage "b" "new" ∈ [sampleMessage "a" "old", sampleMessage "b" "new", sampleMessage "c" "newest"] := by simp
  have hc : sampleMessage "c" "newest" ∈ [sampleMessage "a" "old", sampleMessage "b" "new", sampleMessage "c" "newest"] := by
    simp
  exact two_out_of_order hnodup hordered hb hc ⟨_, rfl, by decide, by decide⟩ ⟨_, rfl, by decide, by decide⟩ (by decide)
    (by decide) (by decide) (hclosed.ordered hordered)

end Chinwag.Client

import Mathlib.Data.List.Induction
import Mathlib.Data.List.Nodup
import Chinwag.Lib.Instant

/-!
# The cached message list under WebSocket events

The list is cached in pages, and `handleWsMessage` writes the first of them. An event that carries no
data with an id is one without data; a creation time is held as the instant its text gives.
-/
namespace Chinwag.Client

structure Message where
  id : String
  roomId : String
  authorId : String
  authorName : String
  messageType : ℤ
  content : String
  createdAt : Instant
  updatedAt : Option Instant
deriving DecidableEq

/-- The data of a page; the server leaves it out where it has no messages to give. -/
abbrev Page := Option (List Message)

/-- The pages of the list, unless nothing is cached yet. -/
abbrev MessageQueryData := Option (List Page)

structure Cursor where
  createdAt : Instant
  id : String
deriving DecidableEq

def Message.cursor (m : Message) : Cursor := ⟨m.createdAt, m.id⟩

structure MessageCache where
  data : MessageQueryData
  lastMessageCursor : Option Cursor
deriving DecidableEq

inductive ServerEvent where
  | newMessage (data : Option Message)
  | updatedMessage (data : Option Message)
  | deletedMessage (id : Option String)
  | pong
deriving DecidableEq

namespace ServerEvent

/-- The id of the message the event is about. -/
def about : ServerEvent → Option String
  | newMessage data => data.map Message.id
  | updatedMessage data => data.map Message.id
  | deletedMessage id => id
  | pong => none

/-- Where the event stands in the life of its message. -/
def rank : ServerEvent → ℕ
  | newMessage _ => 0
  | updatedMessage _ => 1
  | deletedMessage _ => 2
  | pong => 0

/-- The message a `new_message` carries. -/
def msg : ServerEvent → Option Message
  | newMessage data => data
  | _ => none

end ServerEvent

/-- The list that is shown. -/
def allMessages (data : MessageQueryData) : List Message := (data.getD []).flatMap fun page => page.getD []

/-- What an event does to the messages of the first page. -/
def reduceFirst (first : List Message) : ServerEvent → List Message
  | .newMessage (some msg) => msg :: first.filter fun m => m.id ≠ msg.id
  | .updatedMessage (some updated) => first.map fun m => if m.id = updated.id then updated else m
  | .deletedMessage (some id) => first.filter fun m => m.id ≠ id
  | _ => first

def handleWsMessage (cache : MessageCache) (event : ServerEvent) : MessageCache :=
  match cache.data with
  | some (some first :: later) =>
    { data := some (some (reduceFirst first event) :: later)
      lastMessageCursor := (event.msg.map Message.cursor).or cache.lastMessageCursor }
  | _ =>
    match event.msg with
    | none => cache
    | some msg => ⟨some [some [msg]], some msg.cursor⟩

/-! ### The property -/

/-- The last event about a message. -/
def lastAbout (events : List ServerEvent) (id : String) : Option ServerEvent :=
  (events.filter fun e => e.about = some id).getLast?

/-- The events about a message come in the order of its life, some of them repeated. -/
def Causal (events : List ServerEvent) : Prop :=
  events.Pairwise fun e e' => ∀ id, e.about = some id → e'.about = some id → e.rank ≤ e'.rank

def ids (l : List Message) : List String := l.map Message.id

/-- The list after the events, as they say. -/
structure ListFollows (initial : List Message) (events : List ServerEvent) (final : List Message) : Prop where
  unique : (ids final).Nodup
  deleted : ∀ id, .deletedMessage (some id) ∈ events → id ∉ ids final
  created : ∀ id, (id ∈ ids initial ∨ ∃ m, .newMessage (some m) ∈ events ∧ m.id = id) →
    .deletedMessage (some id) ∉ events → id ∈ ids final
  latest : ∀ m ∈ final, ∀ e, lastAbout events m.id = some e → e = .newMessage (some m) ∨ e = .updatedMessage (some m)

/-- A list that is cached: its first page has data, or there is no message yet. -/
def Cached (data : MessageQueryData) : Prop := (∃ first later, data = some (some first :: later)) ∨ allMessages data = []

/-- The messages on the pages after the first. -/
def laterMessages (data : MessageQueryData) : List Message := ((data.getD []).drop 1).flatMap fun page => page.getD []

/-- Of the messages after the first page, none is created or deleted, and one that is updated ends up
as it stands there. -/
def LeavesLater (data : MessageQueryData) (events : List ServerEvent) : Prop :=
  ∀ m ∈ laterMessages data, ∀ e ∈ events, e.about = some m.id →
    (∃ updated, e = .updatedMessage updated) ∧ lastAbout events m.id = some (.updatedMessage (some m))

/-! ### The first page -/

/-- The pages hold the first list on the first page, or there is no message. -/
def Holds (data : MessageQueryData) (first later : List Message) : Prop :=
  (∃ pages : List Page, data = some (some first :: pages) ∧ later = pages.flatMap fun page => page.getD []) ∨
    (first = [] ∧ later = [] ∧ allMessages data = [])

theorem Holds.allMessages_eq {data : MessageQueryData} {first later : List Message} (h : Holds data first later) :
    allMessages data = first ++ later := by
  obtain ⟨pages, rfl, rfl⟩ | ⟨rfl, rfl, hnone⟩ := h
  · rfl
  · exact hnone

theorem Cached.holds {data : MessageQueryData} (h : Cached data) : ∃ first, Holds data first (laterMessages data) := by
  obtain ⟨first, later, rfl⟩ | hnone := h
  · exact ⟨first, .inl ⟨later, rfl, rfl⟩⟩
  · refine ⟨[], .inr ⟨rfl, ?_, hnone⟩⟩
    unfold laterMessages
    unfold allMessages at hnone
    rw [List.flatMap_eq_nil_iff] at hnone ⊢
    exact fun page hpage => hnone page (List.mem_of_mem_drop hpage)

theorem reduceFirst_nil {event : ServerEvent} (h : event.msg = none) : reduceFirst [] event = [] := by
  cases event with
  | newMessage data =>
    cases data with
    | none => rfl
    | some m => cases h
  | updatedMessage data => cases data <;> rfl
  | deletedMessage id => cases id <;> rfl
  | pong => rfl

theorem eq_newMessage {event : ServerEvent} {msg : Message} (h : event.msg = some msg) : event = .newMessage (some msg) := by
  cases event with
  | newMessage data => exact congrArg ServerEvent.newMessage h
  | updatedMessage data => cases h
  | deletedMessage id => cases h
  | pong => cases h

/-- Where the first page has no data, a new message makes the list anew. -/
theorem handle_seeds {cache : MessageCache} (h : ∀ first later, cache.data ≠ some (some first :: later))
    (event : ServerEvent) :
    handleWsMessage cache event =
      match event.msg with
      | none => cache
      | some msg => ⟨some [some [msg]], some msg.cursor⟩ := by
  unfold handleWsMessage
  split
  · exact absurd ‹_› (h _ _)
  · rfl

/-- Events change the first page alone. -/
theorem Holds.handle {cache : MessageCache} {first later : List Message} (h : Holds cache.data first later)
    (event : ServerEvent) : Holds (handleWsMessage cache event).data (reduceFirst first event) later := by
  obtain ⟨data, cursor⟩ := cache
  obtain ⟨pages, rfl, rfl⟩ | ⟨rfl, rfl, hnone⟩ := h
  · exact .inl ⟨pages, rfl, rfl⟩
  · by_cases hfirst : ∃ first later, data = some (some first :: later)
    · obtain ⟨first, later, rfl⟩ := hfirst
      obtain ⟨hnil, hlater⟩ := List.append_eq_nil_iff.mp hnone
      have hnil : first = [] := hnil
      rw [hnil]
      exact .inl ⟨later, rfl, hlater.symm⟩
    · have hother : ∀ first later, data ≠ some (some first :: later) := fun first later heq => hfirst ⟨first, later, heq⟩
      rw [handle_seeds hother]
      cases hmsg : event.msg with
      | none =>
        rw [reduceFirst_nil hmsg]
        exact .inr ⟨rfl, rfl, hnone⟩
      | some msg =>
        refine .inl ⟨[], ?_, rfl⟩
        rw [eq_newMessage hmsg]
        rfl

theorem Holds.handle_all {cache : MessageCache} {first later : List Message} (h : Holds cache.data first later)
    (events : List ServerEvent) :
    Holds (events.foldl handleWsMessage cache).data (events.foldl reduceFirst first) later := by
  induction events generalizing cache first with
  | nil => exact h
  | cons event events ih => exact ih (h.handle event)

/-! ### One message under the events -/

def find (id : String) (l : List Message) : Option Message := l.find? fun m => m.id = id

theorem find_eq_some {l : List Message} (hl : (ids l).Nodup) {id : String} {m : Message} :
    find id l = some m ↔ m ∈ l ∧ m.id = id := by
  unfold find
  constructor
  · intro h
    exact ⟨List.mem_of_find?_eq_some h, by simpa using List.find?_some h⟩
  · rintro ⟨hm, rfl⟩
    cases hfound : l.find? fun x => x.id = m.id with
    | none => simpa using List.find?_eq_none.mp hfound m hm
    | some x =>
      have hx : x.id = m.id := by simpa using List.find?_some hfound
      rw [List.inj_on_of_nodup_map hl (List.mem_of_find?_eq_some hfound) hm hx]

theorem find_eq_none {l : List Message} {id : String} : find id l = none ↔ id ∉ ids l := by
  unfold find ids
  rw [List.find?_eq_none]
  simp

/-- What an event does to the message of an id. -/
def reduceOne (id : String) (held : Option Message) : ServerEvent → Option Message
  | .newMessage (some msg) => if msg.id = id then some msg else held
  | .updatedMessage (some updated) => if updated.id = id then held.map fun _ => updated else held
  | .deletedMessage (some deleted) => if deleted = id then none else held
  | _ => held

theorem ids_filter (l : List Message) (id : String) :
    ids (l.filter fun m => m.id ≠ id) = (ids l).filter (· ≠ id) := by
  unfold ids
  rw [List.filter_map]
  rfl

theorem ids_map_updated (l : List Message) (updated : Message) :
    ids (l.map fun m => if m.id = updated.id then updated else m) = ids l := by
  unfold ids
  rw [List.map_map]
  refine List.map_congr_left fun m _ => ?_
  show (if m.id = updated.id then updated else m).id = m.id
  split
  · exact (‹m.id = updated.id›).symm
  · rfl

theorem nodup_reduceFirst {l : List Message} (h : (ids l).Nodup) (event : ServerEvent) : (ids (reduceFirst l event)).Nodup := by
  match event with
  | .newMessage (some msg) =>
    show (msg.id :: ids (l.filter fun m => m.id ≠ msg.id)).Nodup
    rw [ids_filter]
    exact List.nodup_cons.mpr ⟨fun hmem => by simpa using List.of_mem_filter hmem, h.filter _⟩
  | .updatedMessage (some updated) =>
    show (ids (l.map fun m => if m.id = updated.id then updated else m)).Nodup
    rwa [ids_map_updated]
  | .deletedMessage (some id) =>
    show (ids (l.filter fun m => m.id ≠ id)).Nodup
    rw [ids_filter]
    exact h.filter _
  | .newMessage none => exact h
  | .updatedMessage none => exact h
  | .deletedMessage none => exact h
  | .pong => exact h

theorem find_filter (l : List Message) (id id' : String) :
    find id (l.filter fun m => m.id ≠ id') = if id' = id then none else find id l := by
  unfold find
  rw [List.find?_filter]
  split
  · rename_i heq
    rw [List.find?_eq_none]
    intro m _
    simp [heq]
  · rename_i hne
    congr 1
    funext m
    by_cases hm : m.id = id
    · simp [hm, Ne.symm hne]
    · simp [hm]

theorem find_updated (l : List Message) (updated : Message) (id : String) :
    find id (l.map fun m => if m.id = updated.id then updated else m) =
      if updated.id = id then (find id l).map fun _ => updated else find id l := by
  have hid : ∀ m : Message, (if m.id = updated.id then updated else m).id = m.id := by
    intro m
    split
    · exact (‹m.id = updated.id›).symm
    · rfl
  have hfind : find id (l.map fun m => if m.id = updated.id then updated else m) =
      (find id l).map fun m => if m.id = updated.id then updated else m := by
    unfold find
    rw [List.find?_map]
    congr 2
    funext m
    show decide ((if m.id = updated.id then updated else m).id = id) = _
    rw [hid]
  rw [hfind]
  cases hfound : find id l with
  | none => simp
  | some m =>
    have hm : m.id = id := by simpa using List.find?_some hfound
    rw [Option.map_some, Option.map_some, hm]
    by_cases heq : updated.id = id
    · rw [if_pos heq.symm, if_pos heq]
    · rw [if_neg (Ne.symm heq), if_neg heq]

/-- The first page is a table of messages by id. -/
theorem find_reduceFirst (l : List Message) (event : ServerEvent) (id : String) :
    find id (reduceFirst l event) = reduceOne id (find id l) event := by
  match event with
  | .newMessage (some msg) =>
    show find id (msg :: l.filter fun m => m.id ≠ msg.id) = if msg.id = id then some msg else find id l
    have hcons : find id (msg :: l.filter fun m => m.id ≠ msg.id) =
        if msg.id = id then some msg else find id (l.filter fun m => m.id ≠ msg.id) := by
      unfold find
      rw [List.find?_cons]
      by_cases heq : msg.id = id <;> simp [heq]
    rw [hcons, find_filter]
    split <;> rfl
  | .updatedMessage (some updated) => exact find_updated l updated id
  | .deletedMessage (some id') => exact find_filter l id id'
  | .newMessage none => rfl
  | .updatedMessage none => rfl
  | .deletedMessage none => rfl
  | .pong => rfl

theorem find_reduce_all (l : List Message) (events : List ServerEvent) (id : String) :
    find id (events.foldl reduceFirst l) = events.foldl (reduceOne id) (find id l) := by
  induction events generalizing l with
  | nil => rfl
  | cons event events ih => rw [List.foldl_cons, ih, find_reduceFirst]; rfl

theorem nodup_reduce_all {l : List Message} (h : (ids l).Nodup) (events : List ServerEvent) :
    (ids (events.foldl reduceFirst l)).Nodup := by
  induction events generalizing l with
  | nil => exact h
  | cons event events ih => exact ih (nodup_reduceFirst h event)

/-! ### The last event about a message -/

section One

variable {id : String} {held : Option Message} {events : List ServerEvent}

theorem reduceOne_other {event : ServerEvent} (h : event.about ≠ some id) : reduceOne id held event = held := by
  match event with
  | .newMessage (some msg) => exact if_neg fun heq => h (congrArg some heq)
  | .updatedMessage (some updated) => exact if_neg fun heq => h (congrArg some heq)
  | .deletedMessage (some deleted) => exact if_neg fun heq => h (congrArg some heq)
  | .newMessage none => rfl
  | .updatedMessage none => rfl
  | .deletedMessage none => rfl
  | .pong => rfl

theorem lastAbout_concat (events : List ServerEvent) (event : ServerEvent) :
    lastAbout (events ++ [event]) id = if event.about = some id then some event else lastAbout events id := by
  unfold lastAbout
  rw [List.filter_append]
  split
  · rename_i h
    rw [List.filter_cons_of_pos (by simpa using h), List.filter_nil, List.getLast?_concat]
  · rename_i h
    rw [List.filter_cons_of_neg (by simpa using h), List.filter_nil, List.append_nil]

/-- What the last event about a message leaves of it. -/
theorem reduceOne_last (held : Option Message) {event : ServerEvent} (h : lastAbout events id = some event) :
    ∃ before, events.foldl (reduceOne id) held = reduceOne id before event ∧ event.about = some id := by
  induction events using List.reverseRecOn with
  | nil => cases h
  | append_singleton events last ih =>
    rw [List.foldl_append, List.foldl_cons, List.foldl_nil]
    rw [lastAbout_concat] at h
    split at h
    · cases h
      exact ⟨_, rfl, ‹_›⟩
    · rw [reduceOne_other ‹_›]
      exact ih h

theorem exists_lastAbout {event : ServerEvent} (h : event ∈ events) (habout : event.about = some id) :
    ∃ last, lastAbout events id = some last ∧ last ∈ events := by
  have hne : events.filter (fun e => e.about = some id) ≠ [] := fun hnil => by
    have hmem : event ∈ events.filter fun e => e.about = some id := List.mem_filter.mpr ⟨h, by simpa using habout⟩
    rw [hnil] at hmem
    cases hmem
  exact ⟨_, List.getLast?_eq_some_getLast hne, List.mem_of_mem_filter (List.getLast_mem hne)⟩

/-- In causal order, no event about a message comes from later in its life than the last. -/
theorem Causal.rank_le_last (h : Causal events) {event last : ServerEvent} (hevent : event ∈ events)
    (habout : event.about = some id) (hlast : lastAbout events id = some last) : event.rank ≤ last.rank := by
  induction events using List.reverseRecOn with
  | nil => cases hevent
  | append_singleton events e ih =>
    obtain ⟨hrest, -, hcross⟩ := List.pairwise_append.mp h
    rw [lastAbout_concat] at hlast
    split at hlast
    · rename_i he
      cases hlast
      rcases List.mem_append.mp hevent with hbefore | hend
      · exact hcross event hbefore _ (List.mem_singleton_self _) id habout he
      · rw [List.mem_singleton.mp hend]
    · rename_i he
      rcases List.mem_append.mp hevent with hbefore | hend
      · exact ih hrest hbefore hlast
      · rw [List.mem_singleton.mp hend] at habout
        exact absurd habout he

/-- A message that is there or created stays while nothing deletes it. -/
theorem reduceOne_stays (hdeleted : .deletedMessage (some id) ∉ events)
    (h : held ≠ none ∨ ∃ m, .newMessage (some m) ∈ events ∧ m.id = id) : events.foldl (reduceOne id) held ≠ none := by
  induction events using List.reverseRecOn with
  | nil =>
    obtain hheld | ⟨m, hm, -⟩ := h
    · exact hheld
    · cases hm
  | append_singleton events e ih =>
    rw [List.foldl_append, List.foldl_cons, List.foldl_nil]
    rw [List.mem_append, not_or] at hdeleted
    by_cases hnew : ∃ m, e = .newMessage (some m) ∧ m.id = id
    · obtain ⟨m, rfl, hm⟩ := hnew
      show (if m.id = id then some m else _) ≠ none
      rw [if_pos hm]
      exact Option.some_ne_none m
    · have hbefore : events.foldl (reduceOne id) held ≠ none := by
        refine ih hdeleted.1 (h.imp_right ?_)
        rintro ⟨m, hm, hid⟩
        rcases List.mem_append.mp hm with hm | hm
        · exact ⟨m, hm, hid⟩
        · exact absurd ⟨m, (List.mem_singleton.mp hm).symm, hid⟩ hnew
      by_cases habout : e.about = some id
      · match e, habout with
        | .newMessage (some m), habout => exact absurd ⟨m, rfl, Option.some.inj habout⟩ hnew
        | .updatedMessage (some updated), habout =>
          show (if updated.id = id then _ else _) ≠ none
          rw [if_pos (Option.some.inj habout)]
          simpa using hbefore
        | .deletedMessage (some deleted), habout =>
          refine absurd (List.mem_singleton.mpr ?_) hdeleted.2
          rw [Option.some.inj habout]
      · rwa [reduceOne_other habout]

/-- No event about it, and nothing held: there is nothing. -/
theorem reduceOne_absent (h : ∀ m, .newMessage (some m) ∈ events → m.id ≠ id) : events.foldl (reduceOne id) none = none := by
  induction events using List.reverseRecOn with
  | nil => rfl
  | append_singleton events e ih =>
    rw [List.foldl_append, List.foldl_cons, List.foldl_nil, ih fun m hm => h m (List.mem_append_left _ hm)]
    match e with
    | .newMessage (some m) => exact if_neg (h m (List.mem_append_right _ (List.mem_singleton_self _)))
    | .updatedMessage (some updated) =>
      show (if updated.id = id then _ else _) = none
      split <;> rfl
    | .deletedMessage (some deleted) =>
      show (if deleted = id then _ else _) = none
      split <;> rfl
    | .newMessage none => rfl
    | .updatedMessage none => rfl
    | .deletedMessage none => rfl
    | .pong => rfl

/-- In causal order a message that is deleted is gone in the end. -/
theorem reduceOne_deleted (h : Causal events) (hdeleted : .deletedMessage (some id) ∈ events) :
    events.foldl (reduceOne id) held = none := by
  obtain ⟨last, hlast, -⟩ := exists_lastAbout hdeleted
    (show ServerEvent.about (.deletedMessage (some id)) = some id from rfl)
  obtain ⟨before, hfold, habout⟩ := reduceOne_last held hlast
  have hrank : 2 ≤ last.rank := h.rank_le_last hdeleted rfl hlast
  rw [hfold]
  match last, habout, hrank with
  | .deletedMessage (some deleted), habout, _ => exact if_pos (Option.some.inj habout)

/-- The message that is there in the end is the one of the last event about it. -/
theorem reduceOne_latest (held : Option Message) {m : Message} {last : ServerEvent} (hlast : lastAbout events id = some last)
    (h : events.foldl (reduceOne id) held = some m) : last = .newMessage (some m) ∨ last = .updatedMessage (some m) := by
  obtain ⟨before, hfold, habout⟩ := reduceOne_last held hlast
  rw [hfold] at h
  match last, habout with
  | .newMessage (some msg), habout =>
    rw [show reduceOne id before (.newMessage (some msg)) = some msg from if_pos (Option.some.inj habout)] at h
    cases h
    exact .inl rfl
  | .updatedMessage (some updated), habout =>
    rw [show reduceOne id before (.updatedMessage (some updated)) = before.map fun _ => updated from
      if_pos (Option.some.inj habout)] at h
    obtain ⟨-, -, rfl⟩ := Option.map_eq_some_iff.mp h
    exact .inr rfl
  | .deletedMessage (some deleted), habout =>
    rw [show reduceOne id before (.deletedMessage (some deleted)) = none from if_pos (Option.some.inj habout)] at h
    cases h

end One

/-! ### The whole list -/

theorem ids_append (first later : List Message) : ids (first ++ later) = ids first ++ ids later := List.map_append

section Lists

variable {first later : List Message} {events : List ServerEvent}

theorem mem_ids_reduce {id : String} :
    id ∈ ids (events.foldl reduceFirst first) ↔ events.foldl (reduceOne id) (find id first) ≠ none := by
  rw [← find_reduce_all, ne_eq, find_eq_none, not_not]

theorem follows_of_leaves (hnodup : (ids (first ++ later)).Nodup) (hcausal : Causal events)
    (hleaves : ∀ m ∈ later, ∀ e ∈ events, e.about = some m.id →
      (∃ updated, e = .updatedMessage updated) ∧ lastAbout events m.id = some (.updatedMessage (some m))) :
    ListFollows (first ++ later) events (events.foldl reduceFirst first ++ later) := by
  rw [ids_append] at hnodup
  obtain ⟨hfirst, hlater, hdisjoint⟩ := List.nodup_append.mp hnodup
  -- nothing creates a message of the later pages, so none of them comes onto the first
  have habsent : ∀ m ∈ later, m.id ∉ ids (events.foldl reduceFirst first) := by
    intro m hm hmem
    have hnone : find m.id first = none := find_eq_none.mpr fun hin => hdisjoint _ hin _ (List.mem_map_of_mem hm) rfl
    rw [mem_ids_reduce, hnone] at hmem
    refine hmem (reduceOne_absent fun msg hmsg heq => ?_)
    obtain ⟨⟨updated, hupdated⟩, -⟩ := hleaves m hm _ hmsg (congrArg some heq)
    cases hupdated
  refine ⟨?_, fun id hdeleted => ?_, fun id hcreated hdeleted => ?_, fun m hm e hlast => ?_⟩
  · rw [ids_append]
    refine List.nodup_append.mpr ⟨nodup_reduce_all hfirst events, hlater, ?_⟩
    rintro a ha b hb rfl
    obtain ⟨m, hm, rfl⟩ := List.mem_map.mp hb
    exact habsent m hm ha
  · rw [ids_append, List.mem_append, not_or]
    refine ⟨fun hmem => mem_ids_reduce.mp hmem (reduceOne_deleted hcausal hdeleted), fun hmem => ?_⟩
    obtain ⟨m, hm, rfl⟩ := List.mem_map.mp hmem
    obtain ⟨⟨updated, hupdated⟩, -⟩ := hleaves m hm _ hdeleted rfl
    cases hupdated
  · rw [ids_append, List.mem_append]
    by_cases hin : id ∈ ids later
    · exact .inr hin
    · refine .inl (mem_ids_reduce.mpr (reduceOne_stays hdeleted (hcreated.imp_left fun hmem => ?_)))
      rw [ids_append, List.mem_append] at hmem
      exact fun hnone => find_eq_none.mp hnone (hmem.resolve_right hin)
  · rcases List.mem_append.mp hm with hm | hm
    · refine reduceOne_latest (find m.id first) hlast ?_
      rw [← find_reduce_all]
      exact (find_eq_some (nodup_reduce_all hfirst events)).mpr ⟨hm, rfl⟩
    · obtain ⟨-, -, habout⟩ := reduceOne_last none hlast
      have hmem : e ∈ events := List.mem_of_mem_filter (List.mem_of_getLast? hlast)
      obtain ⟨-, hsame⟩ := hleaves m hm e hmem habout
      rw [hsame] at hlast
      cases hlast
      exact .inr rfl

theorem leaves_of_follows (h : ListFollows (first ++ later) events (events.foldl reduceFirst first ++ later))
    {m : Message} (hm : m ∈ later) {e : ServerEvent} (he : e ∈ events) (habout : e.about = some m.id) :
    (∃ updated, e = .updatedMessage updated) ∧ lastAbout events m.id = some (.updatedMessage (some m)) := by
  have hfinal : m.id ∈ ids (events.foldl reduceFirst first ++ later) := List.mem_map_of_mem (List.mem_append_right _ hm)
  have hdeleted : .deletedMessage (some m.id) ∉ events := fun hdeleted => h.deleted m.id hdeleted hfinal
  -- a message that was created again would stand on two pages
  have hnew : ∀ msg, .newMessage (some msg) ∈ events → msg.id ≠ m.id := by
    intro msg hmsg heq
    have hunique := h.unique
    rw [ids_append] at hunique
    have hin : m.id ∈ ids (events.foldl reduceFirst first) :=
      mem_ids_reduce.mpr (reduceOne_stays hdeleted (.inr ⟨msg, hmsg, heq⟩))
    exact (List.nodup_append.mp hunique).2.2 _ hin _ (List.mem_map_of_mem hm) rfl
  constructor
  · match e, habout with
    | .newMessage (some msg), habout => exact absurd (Option.some.inj habout) (hnew msg he)
    | .updatedMessage (some updated), _ => exact ⟨_, rfl⟩
    | .deletedMessage (some deleted), habout =>
      rw [Option.some.inj habout] at he
      exact absurd he hdeleted
  · obtain ⟨last, hlast, hmem⟩ := exists_lastAbout he habout
    rcases h.latest m (List.mem_append_right _ hm) last hlast with rfl | rfl
    · exact absurd rfl (hnew m hmem)
    · exact hlast

end Lists

/-- The list follows the events exactly if they leave what is beyond the first page. -/
theorem list_follows_iff {cache : MessageCache} (hcached : Cached cache.data) (hnodup : (ids (allMessages cache.data)).Nodup)
    {events : List ServerEvent} (hcausal : Causal events) :
    ListFollows (allMessages cache.data) events (allMessages (events.foldl handleWsMessage cache).data) ↔
      LeavesLater cache.data events := by
  obtain ⟨first, hholds⟩ := hcached.holds
  rw [(hholds.handle_all events).allMessages_eq, hholds.allMessages_eq]
  rw [hholds.allMessages_eq] at hnodup
  constructor
  · exact fun h m hm e he habout => leaves_of_follows h hm he habout
  · exact follows_of_leaves hnodup hcausal

/-! ### Two pages -/

def sampleMessage (id content : String) : Message := ⟨id, "r", "u", "Ada", 0, content, epoch, none⟩

def twoPages : MessageCache := ⟨some [some [sampleMessage "b" "new"], some [sampleMessage "a" "old"]], none⟩

theorem list_follows_first :
    ListFollows (allMessages twoPages.data) [.updatedMessage (some (sampleMessage "b" "newer"))]
        (allMessages ([.updatedMessage (some (sampleMessage "b" "newer"))].foldl handleWsMessage twoPages).data) ↔
      LeavesLater twoPages.data [.updatedMessage (some (sampleMessage "b" "newer"))] :=
  list_follows_iff (.inl ⟨_, _, rfl⟩) (by decide) (List.pairwise_singleton _ _)

/-- A message on the second page that is deleted stays in the list. -/
theorem second_page_keeps_deleted :
    Cached twoPages.data ∧ (ids (allMessages twoPages.data)).Nodup ∧ Causal [.deletedMessage (some "a")] ∧
      ¬ ListFollows (allMessages twoPages.data) [.deletedMessage (some "a")]
        (allMessages ([.deletedMessage (some "a")].foldl handleWsMessage twoPages).data) := by
  refine ⟨.inl ⟨_, _, rfl⟩, by decide, List.pairwise_singleton _ _, fun h => ?_⟩
  exact h.deleted "a" List.mem_cons_self (by decide)

end Chinwag.Client

import Mathlib.Logic.Function.Basic
import Chinwag.Client.MessageList

/-!
# Sending with an optimistic entry

A send puts its message into the list before the request is made and keeps the list as it was. If the
request fails, that list is put back, whatever has come in between; where there was no list to keep,
nothing is put back.
-/
namespace Chinwag.Client

/-- The cached list, and for each send in flight the list its context holds. -/
structure Sends where
  cache : MessageCache
  previous : String → MessageQueryData

def Sends.setData (s : Sends) (data : MessageQueryData) : Sends := { s with cache := { s.cache with data := data } }

def insertOptimistic (optimistic : Message) : MessageQueryData → MessageQueryData
  | some (some first :: later) => some (some (optimistic :: first) :: later)
  | _ => some [some [optimistic]]

/-- `onMutate`; the id of the message is drawn for this send. -/
def onMutate (optimistic : Message) (s : Sends) : Sends :=
  { s.setData (insertOptimistic optimistic s.cache.data) with
    previous := Function.update s.previous optimistic.id s.cache.data }

def onError (id : String) (s : Sends) : Sends :=
  match s.previous id with
  | some data => s.setData (some data)
  | none => s

/-- What happens to the list: an event, another send with its failure, or the pages that the server
gives after a send went through. -/
inductive Action where
  | event (e : ServerEvent)
  | sent (optimistic : Message)
  | failed (id : String)
  | refetched (pages : List Page)

namespace Action

def apply (s : Sends) : Action → Sends
  | event e => { s with cache := handleWsMessage s.cache e }
  | sent optimistic => onMutate optimistic s
  | failed id => onError id s
  | refetched pages => s.setData (some pages)

/-- The id of the send. -/
def sender : Action → Option String
  | sent optimistic => some optimistic.id
  | failed id => some id
  | _ => none

end Action

/-! ### The property -/

/-- The list after the send has failed is the one there would be without its entry. -/
def RollsBackOnlyItself (s : Sends) (optimistic : Message) (actions : List Action) : Prop :=
  allMessages (onError optimistic.id (actions.foldl Action.apply (onMutate optimistic s))).cache.data =
    allMessages (actions.foldl Action.apply s).cache.data

/-- How far the actions have come where nothing was cached: whether a list is cached without the entry
too, whether the entry is gone, whether a send that found no such list has failed, and the first two
as they were when the sends in flight began. -/
structure Progress where
  listed : Bool
  gone : Bool
  spoiled : Bool
  begun : String → Option (Bool × Bool)

namespace Progress

def start (s : Sends) : Progress := ⟨false, false, false, fun id => (s.previous id).map fun _ => (true, true)⟩

/-- A new message takes the place of the entry, a deleted one takes it away. -/
def removes (id : String) : ServerEvent → Bool
  | .newMessage (some msg) => msg.id = id
  | .deletedMessage (some deleted) => deleted = id
  | _ => false

def next (id : String) (p : Progress) : Action → Progress
  | .event e => { p with listed := p.listed || e.msg.isSome, gone := p.gone || removes id e }
  | .sent optimistic => { p with listed := true, begun := Function.update p.begun optimistic.id (some (p.listed, p.gone)) }
  | .failed other =>
    match p.begun other with
    | none => p
    | some (listed, gone) => { p with listed := true, gone := gone, spoiled := p.spoiled || !listed }
  | .refetched _ => { p with listed := true, gone := true }

def after (s : Sends) (id : String) (actions : List Action) : Progress := actions.foldl (next id) (start s)

end Progress

/-- Of a list that is cached the actions leave what was there; where none is, they take the entry away
and no send fails that found none either. -/
def Harmless (s : Sends) (optimistic : Message) (actions : List Action) : Prop :=
  match s.cache.data with
  | some pages => allMessages (actions.foldl Action.apply s).cache.data = allMessages (some pages)
  | none => (Progress.after s optimistic.id actions).gone = true ∧ (Progress.after s optimistic.id actions).spoiled = false

/-! ### One change of the two lists -/

/-- A list with the entry somewhere on its first page, and the list without it. -/
def Extra (id : String) (shown plain : MessageQueryData) : Prop :=
  ∃ front entry back later, shown = some (some (front ++ entry :: back) :: later) ∧
    plain = some (some (front ++ back) :: later) ∧ entry.id = id ∧ id ∉ ids (front ++ back)

/-- The list of the run with the entry against that of the run without, where the latter is cached or
not and the entry is gone or not. -/
def Agrees (id : String) (shown plain : MessageQueryData) : Bool → Bool → Prop
  | true, true => shown = plain ∧ plain ≠ none
  | true, false => Extra id shown plain
  | false, true => shown = some [some []] ∧ plain = none
  | false, false => (∃ entry : Message, shown = some [some [entry]] ∧ entry.id = id) ∧ plain = none

def handled (data : MessageQueryData) (e : ServerEvent) : MessageQueryData := (handleWsMessage ⟨data, none⟩ e).data

theorem handle_data (cache : MessageCache) (e : ServerEvent) : (handleWsMessage cache e).data = handled cache.data e := by
  obtain ⟨data, cursor⟩ := cache
  unfold handled handleWsMessage
  dsimp only
  split
  · rfl
  · split <;> rfl

theorem handled_none (e : ServerEvent) : handled none e = e.msg.map fun msg => [some [msg]] := by
  unfold handled handleWsMessage
  dsimp only
  split
  · rename_i hmsg
    rw [hmsg]
    rfl
  · rename_i hmsg
    rw [hmsg]
    rfl

theorem handled_ne_none {data : MessageQueryData} (h : data ≠ none) (e : ServerEvent) : handled data e ≠ none := by
  unfold handled handleWsMessage
  dsimp only
  split
  · exact Option.some_ne_none _
  · split
    · exact h
    · exact Option.some_ne_none _

section OneChange

variable {id : String} {front back : List Message} {entry : Message}

theorem filter_other (hentry : entry.id = id) (l : List Message) :
    (entry :: l).filter (fun m => m.id ≠ id) = l.filter fun m => m.id ≠ id :=
  List.filter_cons_of_neg (by simpa using hentry)

/-- An event that removes the entry leaves the same list as without it. -/
theorem reduceFirst_removes (hentry : entry.id = id) {e : ServerEvent} (h : Progress.removes id e = true) :
    reduceFirst (front ++ entry :: back) e = reduceFirst (front ++ back) e := by
  match e, h with
  | .newMessage (some msg), h =>
    obtain rfl : msg.id = id := of_decide_eq_true h
    show msg :: (front ++ entry :: back).filter _ = msg :: (front ++ back).filter _
    rw [List.filter_append, List.filter_append, filter_other hentry]
  | .deletedMessage (some deleted), h =>
    obtain rfl : deleted = id := of_decide_eq_true h
    show (front ++ entry :: back).filter _ = (front ++ back).filter _
    rw [List.filter_append, List.filter_append, filter_other hentry]

/-- Any other event leaves the entry in the list. -/
theorem reduceFirst_extra (hentry : entry.id = id) (hid : id ∉ ids (front ++ back)) {e : ServerEvent}
    (h : Progress.removes id e = false) :
    ∃ front' entry' back', reduceFirst (front ++ entry :: back) e = front' ++ entry' :: back' ∧
      reduceFirst (front ++ back) e = front' ++ back' ∧ entry'.id = id ∧ id ∉ ids (front' ++ back') := by
  have hfilter : ∀ other, other ≠ id → (front ++ entry :: back).filter (fun m => m.id ≠ other) =
      front.filter (fun m => m.id ≠ other) ++ entry :: back.filter fun m => m.id ≠ other := by
    intro other hother
    have hkeep : decide (entry.id ≠ other) = true := decide_eq_true (hentry ▸ hother.symm)
    rw [List.filter_append, List.filter_cons, if_pos hkeep]
  have hsub : ∀ other, id ∉ ids (front.filter (fun m => m.id ≠ other) ++ back.filter fun m => m.id ≠ other) := by
    intro other hmem
    rw [← List.filter_append] at hmem
    exact hid ((List.filter_sublist.map _).subset hmem)
  match e, h with
  | .newMessage (some msg), h =>
    have hother : msg.id ≠ id := of_decide_eq_false h
    refine ⟨msg :: front.filter (fun m => m.id ≠ msg.id), entry, back.filter (fun m => m.id ≠ msg.id), ?_, ?_, hentry, ?_⟩
    · exact congrArg (msg :: ·) (hfilter msg.id hother)
    · exact congrArg (msg :: ·) (List.filter_append ..)
    · exact fun hmem => (List.mem_cons.mp hmem).elim hother.symm (hsub msg.id)
  | .updatedMessage (some updated), _ =>
    have hids : ids ((front ++ back).map fun m => if m.id = updated.id then updated else m) = ids (front ++ back) :=
      ids_map_updated _ updated
    rw [List.map_append] at hids
    refine ⟨_, if entry.id = updated.id then updated else entry, _, List.map_append, List.map_append, ?_, hids ▸ hid⟩
    split
    · exact (‹entry.id = updated.id›).symm.trans hentry
    · exact hentry
  | .deletedMessage (some deleted), h =>
    have hother : deleted ≠ id := of_decide_eq_false h
    exact ⟨_, entry, _, hfilter deleted hother, List.filter_append .., hentry, hsub deleted⟩
  | .newMessage none, _ => exact ⟨front, entry, back, rfl, rfl, hentry, hid⟩
  | .updatedMessage none, _ => exact ⟨front, entry, back, rfl, rfl, hentry, hid⟩
  | .deletedMessage none, _ => exact ⟨front, entry, back, rfl, rfl, hentry, hid⟩
  | .pong, _ => exact ⟨front, entry, back, rfl, rfl, hentry, hid⟩

end OneChange

theorem handled_nil (e : ServerEvent) (h : e.msg = none) : handled (some [some []]) e = some [some []] := by
  show some [some (reduceFirst [] e)] = _
  rw [reduceFirst_nil h]

section Lists

variable {id : String} {shown plain : MessageQueryData} {listed gone : Bool}

theorem Agrees.event (h : Agrees id shown plain listed gone) (e : ServerEvent) :
    Agrees id (handled shown e) (handled plain e) (listed || e.msg.isSome) (gone || Progress.removes id e) := by
  match listed, gone, h with
  | true, true, ⟨heq, hsome⟩ => exact ⟨heq ▸ rfl, handled_ne_none hsome e⟩
  | true, false, ⟨front, entry, back, later, hshown, hplain, hentry, hid⟩ =>
    subst hshown hplain
    cases hrem : Progress.removes id e with
    | true => exact ⟨congrArg (fun first => some (some first :: later)) (reduceFirst_removes hentry hrem), Option.some_ne_none _⟩
    | false =>
      obtain ⟨front', entry', back', hshown, hplain, hentry', hid'⟩ := reduceFirst_extra hentry hid hrem
      exact ⟨front', entry', back', later, congrArg (fun first => some (some first :: later)) hshown,
        congrArg (fun first => some (some first :: later)) hplain, hentry', hid'⟩
  | false, true, ⟨hshown, hplain⟩ =>
    subst hshown hplain
    rw [handled_none]
    cases hmsg : e.msg with
    | none => exact ⟨handled_nil e hmsg, rfl⟩
    | some msg =>
      obtain rfl := eq_newMessage hmsg
      exact ⟨rfl, Option.some_ne_none _⟩
  | false, false, ⟨⟨entry, hshown, hentry⟩, hplain⟩ =>
    subst hshown hplain
    rw [handled_none]
    have hshown : handled (some [some [entry]]) e = some [some (reduceFirst ([] ++ entry :: []) e)] := rfl
    rw [hshown]
    cases hrem : Progress.removes id e with
    | true =>
      rw [reduceFirst_removes hentry hrem]
      cases hmsg : e.msg with
      | none => exact ⟨congrArg (fun first => some [some first]) (reduceFirst_nil hmsg), rfl⟩
      | some msg =>
        obtain rfl := eq_newMessage hmsg
        exact ⟨rfl, Option.some_ne_none _⟩
    | false =>
      obtain ⟨front', entry', back', hentered, hplain, hentry', hid'⟩ :=
        reduceFirst_extra hentry (show id ∉ ids ([] ++ []) from List.not_mem_nil) hrem
      rw [hentered]
      cases hmsg : e.msg with
      | none =>
        rw [List.append_nil, reduceFirst_nil hmsg] at hplain
        obtain ⟨rfl, rfl⟩ := List.append_eq_nil_iff.mp hplain.symm
        exact ⟨⟨entry', rfl, hentry'⟩, rfl⟩
      | some msg =>
        obtain rfl := eq_newMessage hmsg
        exact ⟨front', entry', back', [], rfl, congrArg (fun first => some [some first]) hplain, hentry', hid'⟩

theorem Agrees.sent (h : Agrees id shown plain listed gone) {optimistic : Message} (hother : optimistic.id ≠ id) :
    Agrees id (insertOptimistic optimistic shown) (insertOptimistic optimistic plain) true gone := by
  have hsome : ∀ data, insertOptimistic optimistic data ≠ none := by
    intro data
    unfold insertOptimistic
    split <;> exact Option.some_ne_none _
  match listed, gone, h with
  | true, true, ⟨heq, _⟩ => exact ⟨heq ▸ rfl, hsome plain⟩
  | true, false, ⟨front, entry, back, later, hshown, hplain, hentry, hid⟩ =>
    subst hshown hplain
    refine ⟨optimistic :: front, entry, back, later, rfl, rfl, hentry, fun hmem => ?_⟩
    exact (List.mem_cons.mp hmem).elim hother.symm hid
  | false, true, ⟨hshown, hplain⟩ =>
    subst hshown hplain
    exact ⟨rfl, Option.some_ne_none _⟩
  | false, false, ⟨⟨entry, hshown, hentry⟩, hplain⟩ =>
    subst hshown hplain
    refine ⟨[optimistic], entry, [], [], rfl, rfl, hentry, fun hmem => ?_⟩
    exact hother.symm (List.mem_singleton.mp hmem)

/-- A list that is cached without the entry is cached with it. -/
theorem Agrees.cached (h : Agrees id shown plain true gone) : shown ≠ none ∧ plain ≠ none := by
  match gone, h with
  | true, ⟨heq, hsome⟩ => exact ⟨heq ▸ hsome, hsome⟩
  | false, ⟨front, entry, back, later, hshown, hplain, _⟩ =>
    exact ⟨hshown ▸ Option.some_ne_none _, hplain ▸ Option.some_ne_none _⟩

/-- The lists are the same exactly if the entry is gone. -/
theorem Agrees.allMessages_iff (h : Agrees id shown plain listed gone) : allMessages shown = allMessages plain ↔ gone = true := by
  match listed, gone, h with
  | true, true, ⟨heq, _⟩ => simp [heq]
  | false, true, ⟨hshown, hplain⟩ =>
    subst hshown hplain
    exact iff_of_true rfl rfl
  | true, false, ⟨front, entry, back, later, hshown, hplain, _⟩ =>
    subst hshown hplain
    refine iff_of_false (fun heq => ?_) Bool.false_ne_true
    have hlen := congrArg List.length heq
    simp only [allMessages, Option.getD_some, List.flatMap_cons, List.length_append, List.length_cons] at hlen
    omega
  | false, false, ⟨⟨entry, hshown, _⟩, hplain⟩ =>
    subst hshown hplain
    exact iff_of_false (fun heq => nomatch congrArg List.length heq) Bool.false_ne_true

end Lists

/-! ### The two runs -/

/-- The lists that the contexts of a send hold in the two runs. -/
def AgreesBegun (id : String) (shown plain : MessageQueryData) : Option (Bool × Bool) → Prop
  | none => shown = none ∧ plain = none
  | some (listed, gone) => Agrees id shown plain listed gone

structure Simulates (id : String) (p : Progress) (shown plain : Sends) : Prop where
  data : Agrees id shown.cache.data plain.cache.data p.listed p.gone
  previous : ∀ other, other ≠ id → AgreesBegun id (shown.previous other) (plain.previous other) (p.begun other)

section Runs

variable {id : String} {p : Progress} {shown plain : Sends}

theorem Simulates.apply (h : Simulates id p shown plain) {a : Action} (hother : a.sender ≠ some id)
    (hunspoiled : (p.next id a).spoiled = false) : Simulates id (p.next id a) (a.apply shown) (a.apply plain) := by
  cases a with
  | event e =>
    refine ⟨?_, h.previous⟩
    show Agrees id (handleWsMessage shown.cache e).data (handleWsMessage plain.cache e).data _ _
    rw [handle_data, handle_data]
    exact h.data.event e
  | sent optimistic =>
    have hid : optimistic.id ≠ id := fun heq => hother (congrArg some heq)
    refine ⟨h.data.sent hid, fun other hne => ?_⟩
    by_cases heq : other = optimistic.id
    · subst heq
      simpa only [Action.apply, onMutate, Progress.next, Function.update_self, AgreesBegun] using h.data
    · simpa only [Action.apply, onMutate, Progress.next, Function.update_of_ne heq] using h.previous other hne
  | refetched pages => exact ⟨⟨rfl, Option.some_ne_none _⟩, h.previous⟩
  | failed other =>
    have hne : other ≠ id := fun heq => hother (congrArg some heq)
    have hprevious := h.previous other hne
    cases hbegun : p.begun other with
    | none =>
      rw [hbegun] at hprevious
      have hnext : p.next id (.failed other) = p := by simp only [Progress.next, hbegun]
      have hshown : onError other shown = shown := by simp only [onError, hprevious.1]
      have hplain : onError other plain = plain := by simp only [onError, hprevious.2]
      rw [hnext]
      show Simulates id p (onError other shown) (onError other plain)
      rwa [hshown, hplain]
    | some begun =>
      obtain ⟨listed, gone⟩ := begun
      rw [hbegun] at hprevious
      have hnext : p.next id (.failed other) = { p with listed := true, gone := gone, spoiled := p.spoiled || !listed } := by
        simp only [Progress.next, hbegun]
      rw [hnext] at hunspoiled ⊢
      obtain rfl : listed = true := by simpa using (Bool.or_eq_false_iff.mp hunspoiled).2
      have hagrees : Agrees id (shown.previous other) (plain.previous other) true gone := hprevious
      obtain ⟨data, hdata⟩ := Option.ne_none_iff_exists'.mp hagrees.cached.1
      obtain ⟨data', hdata'⟩ := Option.ne_none_iff_exists'.mp hagrees.cached.2
      have hshown : onError other shown = shown.setData (some data) := by simp only [onError, hdata]
      have hplain : onError other plain = plain.setData (some data') := by simp only [onError, hdata']
      rw [hdata, hdata'] at hagrees
      show Simulates id _ (onError other shown) (onError other plain)
      rw [hshown, hplain]
      exact ⟨hagrees, h.previous⟩

theorem spoiled_next {a : Action} (h : (p.next id a).spoiled = false) : p.spoiled = false := by
  cases a with
  | event e => exact h
  | sent optimistic => exact h
  | refetched pages => exact h
  | failed other =>
    unfold Progress.next at h
    dsimp only at h
    split at h
    · exact h
    · exact (Bool.or_eq_false_iff.mp h).1

theorem spoiled_foldl {actions : List Action} (h : (actions.foldl (Progress.next id) p).spoiled = false) :
    p.spoiled = false := by
  induction actions generalizing p with
  | nil => exact h
  | cons a actions ih => exact spoiled_next (ih h)

theorem Simulates.run (h : Simulates id p shown plain) {actions : List Action} (hother : ∀ a ∈ actions, a.sender ≠ some id)
    (hunspoiled : (actions.foldl (Progress.next id) p).spoiled = false) :
    Simulates id (actions.foldl (Progress.next id) p) (actions.foldl Action.apply shown) (actions.foldl Action.apply plain) := by
  induction actions generalizing p shown plain with
  | nil => exact h
  | cons a actions ih =>
    have hstep := h.apply (hother a List.mem_cons_self) (spoiled_foldl hunspoiled)
    exact ih hstep (fun b hb => hother b (List.mem_cons_of_mem _ hb)) hunspoiled

/-- Nobody else touches the context of a send. -/
theorem previous_run {s : Sends} {actions : List Action} (hother : ∀ a ∈ actions, a.sender ≠ some id) :
    (actions.foldl Action.apply s).previous id = s.previous id := by
  induction actions generalizing s with
  | nil => rfl
  | cons a actions ih =>
    refine (ih fun b hb => hother b (List.mem_cons_of_mem _ hb)).trans ?_
    cases a with
    | event e => rfl
    | refetched pages => rfl
    | sent optimistic =>
      have hid : optimistic.id ≠ id := fun heq => hother (.sent optimistic) List.mem_cons_self (congrArg some heq)
      exact Function.update_of_ne hid.symm _ _
    | failed other =>
      show (onError other s).previous id = s.previous id
      unfold onError
      split <;> rfl

end Runs

/-- Where nothing is cached, the two runs begin with the entry alone and with nothing. -/
theorem simulates_start {s : Sends} (hnone : s.cache.data = none) (optimistic : Message) :
    Simulates optimistic.id (Progress.start s) (onMutate optimistic s) s := by
  refine ⟨⟨⟨optimistic, ?_, rfl⟩, hnone⟩, fun other hne => ?_⟩
  · show insertOptimistic optimistic s.cache.data = _
    rw [hnone]
    rfl
  · show AgreesBegun optimistic.id (Function.update s.previous optimistic.id s.cache.data other) (s.previous other)
      ((s.previous other).map fun _ => (true, true))
    rw [Function.update_of_ne hne]
    cases s.previous other with
    | none => exact ⟨rfl, rfl⟩
    | some data => exact ⟨rfl, Option.some_ne_none _⟩

section Failure

variable {s : Sends} {optimistic : Message} {actions : List Action}

theorem onError_cached {pages : List Page} (hcached : s.cache.data = some pages)
    (hother : ∀ a ∈ actions, a.sender ≠ some optimistic.id) :
    (onError optimistic.id (actions.foldl Action.apply (onMutate optimistic s))).cache.data = some pages := by
  have hprevious : (actions.foldl Action.apply (onMutate optimistic s)).previous optimistic.id = some pages := by
    rw [previous_run hother, ← hcached]
    exact Function.update_self ..
  unfold onError
  rw [hprevious]
  rfl

theorem onError_uncached (hnone : s.cache.data = none) (hother : ∀ a ∈ actions, a.sender ≠ some optimistic.id) :
    onError optimistic.id (actions.foldl Action.apply (onMutate optimistic s)) =
      actions.foldl Action.apply (onMutate optimistic s) := by
  have hprevious : (actions.foldl Action.apply (onMutate optimistic s)).previous optimistic.id = none := by
    rw [previous_run hother, ← hnone]
    exact Function.update_self ..
  unfold onError
  rw [hprevious]

theorem rollsBack_cached {pages : List Page} (hcached : s.cache.data = some pages)
    (hother : ∀ a ∈ actions, a.sender ≠ some optimistic.id) :
    RollsBackOnlyItself s optimistic actions ↔
      allMessages (actions.foldl Action.apply s).cache.data = allMessages (some pages) := by
  unfold RollsBackOnlyItself
  rw [onError_cached hcached hother]
  exact eq_comm

theorem rollsBack_uncached (hnone : s.cache.data = none) (hother : ∀ a ∈ actions, a.sender ≠ some optimistic.id)
    (hunspoiled : (Progress.after s optimistic.id actions).spoiled = false) :
    RollsBackOnlyItself s optimistic actions ↔ (Progress.after s optimistic.id actions).gone = true := by
  unfold RollsBackOnlyItself
  rw [onError_uncached hnone hother]
  exact ((simulates_start hnone optimistic).run hother hunspoiled).data.allMessages_iff

end Failure

/-- A failed send takes back itself alone if what came in between is harmless, and only then, as long as
no other send fails that found no list either. -/
theorem rollback_only_itself {s : Sends} {optimistic : Message} {actions : List Action}
    (hother : ∀ a ∈ actions, a.sender ≠ some optimistic.id) :
    (Harmless s optimistic actions → RollsBackOnlyItself s optimistic actions) ∧
      (RollsBackOnlyItself s optimistic actions → Harmless s optimistic actions ∨
        s.cache.data = none ∧ (Progress.after s optimistic.id actions).spoiled = true) := by
  unfold Harmless
  cases hdata : s.cache.data with
  | some pages =>
    have hiff := rollsBack_cached hdata hother
    exact ⟨hiff.mpr, fun h => .inl (hiff.mp h)⟩
  | none =>
    refine ⟨fun ⟨hgone, hunspoiled⟩ => (rollsBack_uncached hdata hother hunspoiled).mpr hgone, fun h => ?_⟩
    cases hspoiled : (Progress.after s optimistic.id actions).spoiled with
    | true => exact .inr ⟨rfl, rfl⟩
    | false => exact .inl ⟨(rollsBack_uncached hdata hother hspoiled).mp h, rfl⟩

/-! ### A message that comes in between -/

def firstSend : Sends := ⟨⟨none, none⟩, fun _ => none⟩

theorem rollback_only_itself_delivered :
    (Harmless firstSend (sampleMessage "a" "sent") [.event (.newMessage (some (sampleMessage "a" "stored")))] →
        RollsBackOnlyItself firstSend (sampleMessage "a" "sent") [.event (.newMessage (some (sampleMessage "a" "stored")))]) ∧
      (RollsBackOnlyItself firstSend (sampleMessage "a" "sent") [.event (.newMessage (some (sampleMessage "a" "stored")))] →
        Harmless firstSend (sampleMessage "a" "sent") [.event (.newMessage (some (sampleMessage "a" "stored")))] ∨
          firstSend.cache.data = none ∧ (Progress.after firstSend "a"
            [.event (.newMessage (some (sampleMessage "a" "stored")))]).spoiled = true) :=
  rollback_only_itself (by simp [Action.sender])

def cachedSend : Sends := ⟨⟨some [some [sampleMessage "a" "old"]], none⟩, fun _ => none⟩

/-- The message of somebody else is dropped with the one that failed. -/
theorem rollback_drops_other :
    ¬ RollsBackOnlyItself cachedSend (sampleMessage "b" "sent") [.event (.newMessage (some (sampleMessage "c" "other")))] := by
  intro h
  cases congrArg List.length h

end Chinwag.Client

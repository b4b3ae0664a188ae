import Chinwag.Chat.ProjectionRefines
import Chinwag.Chat.RepairThreads
import Chinwag.Chat.SyncMark
import Chinwag.Lib.Slots

/-!
# When a repair sets a row back

The tools overwrite whatever row there is with what they once read, and the consumer writes whatever
event it is given. A row shows the state that was written last, which is the newest one as long as
nobody writes a state older than one that was handled or copied before.
-/
namespace Chinwag.Repair

open Chat Program Redis Rfc3339 Transition

section States

variable {s t : RepairState} {id : Uuid} {j k : Nat} {row row' : MessageProjection}

/-- The row of a message after the first `k` changes since the run began. -/
def RepairState.stateAt (s : RepairState) (id : Uuid) (k : Nat) : Option MessageRow :=
  ((s.history id).take k).foldl (fun r c => c.1.on r) (s.origin id)

/-- To readers the row of the projection is the state of the message after `k` changes. -/
def RepairState.Shows (s : RepairState) (id : Uuid) (k : Nat) (row : MessageProjection) : Prop :=
  ∃ r, s.stateAt id k = some r ∧ shownProjection row = shownMessage id r

/-- Each change in the history found the state before it, and was announced by its event. -/
def Recorded (s : RepairState) : Prop :=
  ∀ id k w e, (s.history id)[k]? = some (w, e) → w.target = id ∧
    ∃ m : Messages, m id = s.stateAt id k ∧ w.Enabled m ∧ Coupled m w e

theorem shownProjection_eq_none : shownProjection row = none ↔ row.deletedAt.isSome := by
  unfold shownProjection
  split
  · rename_i h
    exact ⟨fun _ => h, fun _ => rfl⟩
  · rename_i h
    exact ⟨fun heq => (nomatch heq), fun hd => absurd hd h⟩

theorem shownMessage_eq_none {r : MessageRow} : shownMessage id r = none ↔ r.deletedAt.isSome := by
  unfold shownMessage
  split
  · rename_i h
    exact ⟨fun _ => h, fun _ => rfl⟩
  · rename_i h
    exact ⟨fun heq => (nomatch heq), fun hd => absurd hd h⟩

theorem stateAt_succ {w : Mutation} {e : OutboxEvent} (hk : (s.history id)[k]? = some (w, e)) :
    s.stateAt id (k + 1) = w.on (s.stateAt id k) := by
  unfold RepairState.stateAt
  rw [List.take_add_one, hk]
  simp

/-- Columns that no change of a message touches. -/
structure SameMessage (r r' : MessageRow) : Prop where
  roomId : r'.roomId = r.roomId
  authorId : r'.authorId = r.authorId
  messageType : r'.messageType = r.messageType

theorem sameMessage_on {w : Mutation} {m : Messages} {r : MessageRow} (hw : w.Enabled m) (hr : m w.target = some r) :
    ∃ r', w.on (some r) = some r' ∧ SameMessage r r' ∧ r.deletedAt = none := by
  cases w with
  | insert _ new => cases hr.symm.trans hw.1
  | setContent _ content now =>
    obtain ⟨old, hold, hlive⟩ := hw
    obtain rfl := Option.some.inj (hr.symm.trans hold)
    exact ⟨_, rfl, ⟨rfl, rfl, rfl⟩, hlive⟩
  | softDelete _ now =>
    obtain ⟨old, hold, hlive⟩ := hw
    obtain rfl := Option.some.inj (hr.symm.trans hold)
    exact ⟨_, rfl, ⟨rfl, rfl, rfl⟩, hlive⟩

/-- A message that is there stays there, and a deleted one is changed no more: the induction is on the
changes in between. -/
theorem stateAt_later (h : Recorded s) {r : MessageRow} (hr : s.stateAt id j = some r) (hjk : j ≤ k)
    (hk : k ≤ (s.history id).length) :
    ∃ r', s.stateAt id k = some r' ∧ SameMessage r r' ∧ (r.deletedAt.isSome → r' = r) := by
  induction k, hjk using Nat.le_induction with
  | base => exact ⟨r, hr, ⟨rfl, rfl, rfl⟩, fun _ => rfl⟩
  | succ k hjk ih =>
    obtain ⟨r', hr', hsame, hdeleted⟩ := ih (Nat.le_of_succ_le hk)
    have hlt : k < (s.history id).length := hk
    obtain ⟨⟨w, e⟩, hget⟩ : ∃ c, (s.history id)[k]? = some c := ⟨_, List.getElem?_eq_getElem hlt⟩
    obtain ⟨htarget, m, hm, hw, -⟩ := h id k w e hget
    have hat : m w.target = some r' := by rw [htarget, hm, hr']
    obtain ⟨new, hnew, hsame', hlive⟩ := sameMessage_on hw hat
    refine ⟨new, by rw [stateAt_succ hget, hr', hnew], ?_, fun hsome => ?_⟩
    · exact ⟨hsame'.roomId.trans hsame.roomId, hsame'.authorId.trans hsame.authorId,
        hsame'.messageType.trans hsame.messageType⟩
    · rw [hdeleted hsome] at hlive
      rw [hlive] at hsome
      cases hsome

theorem deleted_of_shows (h : Recorded s) (hrow : s.Shows id j row) (hrow' : s.Shows id k row') (hjk : j ≤ k)
    (hk : k ≤ (s.history id).length) (hdeleted : row.deletedAt.isSome) : row'.deletedAt.isSome := by
  obtain ⟨r, hr, hshown⟩ := hrow
  obtain ⟨r', hr', hshown'⟩ := hrow'
  have hgone : r.deletedAt.isSome := shownMessage_eq_none.mp (hshown.symm.trans (shownProjection_eq_none.mpr hdeleted))
  obtain ⟨later, hlater, -, hsame⟩ := stateAt_later h hr hjk hk
  obtain rfl := Option.some.inj (hr'.symm.trans hlater)
  rw [hsame hgone] at hshown'
  exact shownProjection_eq_none.mp (hshown'.trans (shownMessage_eq_none.mpr hgone))

end States

section Events

variable {m : Messages} {w : Mutation} {e : OutboxEvent} {p : Projections} {a : Attempt} {new : MessageRow}

/-- What the event of a change makes of a row of the projection, `new` being the row it announces. -/
inductive Applied (id : Uuid) (new : MessageRow) : Mutation → Option MessageProjection → MessageProjection → Prop where
  | created {r : MessageRow} {row : MessageProjection} (h : shownProjection row = shownMessage id new) :
      Applied id new (.insert id r) none row
  | again {r : MessageRow} {row : MessageProjection} (now : Option Time) :
      Applied id new (.insert id r) (some row) { row with content := new.content, updatedAt := now }
  | edited {content : String} {at_ : Nat} {row : MessageProjection} (now : Option Time) (hlive : row.deletedAt = none) :
      Applied id new (.setContent id content at_) (some row) { row with content := new.content, updatedAt := now }
  | deleted {at_ : Nat} {row : MessageProjection} (now : Time) (hlive : row.deletedAt = none) :
      Applied id new (.softDelete id at_) (some row) { row with deletedAt := some now }

/-- A delivery changes nothing, or one row as the change says. -/
def Delivered (w : Mutation) (new : MessageRow) (p p' : Projections) : Prop :=
  p' = p ∨ ∃ row, p' = Function.update p w.target (some row) ∧ Applied w.target new w (p w.target) row

theorem delivered_finish {effect : Except RepoError Unit × Projections} (db : Database)
    (h : Delivered w new p effect.2) : Delivered w new p (finish db p effect).2 := by
  cases db with
  | up => exact h
  | down => exact .inl rfl
  | replyLost => exact h

theorem delivered_updateLive {f : MessageProjection → MessageProjection}
    (h : ∀ row, p w.target = some row → row.deletedAt = none → Applied w.target new w (some row) (f row)) :
    Delivered w new p (updateLive w.target f p).2 := by
  unfold updateLive
  split
  · exact .inl rfl
  · rename_i row hrow
    split
    · exact .inl rfl
    · rename_i hlive
      refine .inr ⟨f row, rfl, ?_⟩
      rw [hrow]
      exact h row hrow (Option.not_isSome_iff_eq_none.mp hlive)

theorem delivered_handle (hw : w.Enabled m) (hnew : w.apply m w.target = some new) (hann : Announces w new e) :
    Delivered w new p (handle a (some e.payload) p).2 := by
  cases w with
  | insert id r =>
    obtain ⟨msg, name, payload, hd, hpay, he⟩ := hann
    have hpayload : e.payload = payload := congrArg OutboxEvent.payload he
    rw [hpayload, handle_newMessage hpay]
    refine delivered_finish _ ?_
    have hr : r = new := by simpa [Mutation.apply_target, Mutation.on] using hnew
    unfold upsert
    split
    · exact .inl rfl
    · refine .inr ⟨_, congrArg (fun target => Function.update p target _) hd.id, ?_⟩
      unfold upserted
      show Applied id new (.insert id r) (p id) _
      rw [show (projectionOf msg name).id = id from hd.id]
      cases p id with
      | none =>
        refine .created ?_
        have hlive : new.deletedAt.isSome = false := by rw [← hr, hw.2]; rfl
        simp [shownProjection, shownMessage, hlive, projectionOf, hd.id, hd.roomId, hd.authorId, hd.content,
          hd.messageType]
      | some row =>
        dsimp only
        rw [show (projectionOf msg name).content = new.content from hd.content]
        exact .again _
  | setContent id content at_ =>
    obtain ⟨msg, name, payload, t, hd, ht, hpay, he⟩ := hann
    have hpayload : e.payload = payload := congrArg OutboxEvent.payload he
    rw [hpayload, handle_updatedMessage hpay ht, hd.id]
    refine delivered_finish _ ?_
    rw [show msg.content = new.content from hd.content]
    exact delivered_updateLive fun row _ hlive => .edited _ hlive
  | softDelete id at_ =>
    have hpayload : e.payload = deletedMessagePayload id new.roomId := congrArg OutboxEvent.payload hann
    rw [hpayload, handle_deletedMessage]
    exact delivered_finish _ (delivered_updateLive fun row _ hlive => .deleted _ hlive)

theorem Delivered.other {p' : Projections} (h : Delivered w new p p') {id : Uuid} (hid : id ≠ w.target) : p' id = p id := by
  rcases h with rfl | ⟨row, rfl, -⟩
  · rfl
  · exact Function.update_of_ne hid _ _

theorem Delivered.target {p' : Projections} (h : Delivered w new p p') (hne : p' w.target ≠ p w.target) :
    ∃ row, p' w.target = some row ∧ Applied w.target new w (p w.target) row := by
  rcases h with rfl | ⟨row, rfl, happlied⟩
  · exact absurd rfl hne
  · exact ⟨row, Function.update_self _ _ _, happlied⟩

end Events

section Steps

variable {clock : Clock} {s t : RepairState} {id : Uuid} {i j k : Nat} {row : MessageProjection}

/-- What holds of the tables: the history leads to the write model, what was read is a state of it, and
a row of the projection shows a state that the consumer has come to. -/
structure RepairInv (s : RepairState) : Prop where
  recorded : Recorded s
  source : ∀ id, s.source id = s.stateAt id (s.history id).length
  reads : ∀ i rd, s.reads i = some rd → ∀ id, rd.version id ≤ (s.history id).length ∧
    rd.source id = s.stateAt id (rd.version id)
  reached : ∀ id, s.reached id ≤ (s.history id).length
  shown : ∀ id row, s.projections id = some row → s.shows id ≤ s.reached id ∧ s.Shows id (s.shows id) row

/-- A row that was there is there still, shows a state of its message, none older than before, and is
not visible again where it was deleted. -/
def NeverOlder (s t : RepairState) : Prop :=
  ∀ id row, s.projections id = some row → ∃ row', t.projections id = some row' ∧ s.Shows id (s.shows id) row ∧
    t.Shows id (t.shows id) row' ∧ s.shows id ≤ t.shows id ∧ (row.deletedAt.isSome → row'.deletedAt.isSome)

theorem NeverOlder.trans {u : RepairState} (h : NeverOlder s t) (h' : NeverOlder t u) : NeverOlder s u := by
  intro id row hrow
  obtain ⟨mid, hmid, hshows, -, hle, hdeleted⟩ := h id row hrow
  obtain ⟨last, hlast, -, hshows', hle', hdeleted'⟩ := h' id mid hmid
  exact ⟨last, hlast, hshows, hshows', hle.trans hle', fun hd => hdeleted' (hdeleted hd)⟩

/-- A step that touches no row. -/
theorem RepairInv.neverOlder_refl (h : RepairInv s) : NeverOlder s s :=
  fun id row hrow => ⟨row, hrow, (h.shown id row hrow).2, (h.shown id row hrow).2, Nat.le_refl _, fun hd => hd⟩

theorem stateAt_changeSource {w : Mutation} {e : OutboxEvent} (hk : k ≤ (s.history id).length) :
    (s.changeSource w e).stateAt id k = s.stateAt id k := by
  show ((Function.update s.history w.target (s.history w.target ++ [(w, e)]) id).take k).foldl _ _ = _
  by_cases hid : id = w.target
  · subst hid
    rw [Function.update_self, List.take_append_of_le_length hk]
    rfl
  · rw [Function.update_of_ne hid]
    rfl

theorem length_changeSource (s : RepairState) (w : Mutation) (e : OutboxEvent) (id : Uuid) :
    (s.history id).length ≤ ((s.changeSource w e).history id).length := by
  show _ ≤ (Function.update s.history w.target (s.history w.target ++ [(w, e)]) id).length
  by_cases hid : id = w.target
  · subst hid
    rw [Function.update_self, List.length_append]
    exact Nat.le_add_right _ _
  · rw [Function.update_of_ne hid]

theorem RepairInv.changeSource (h : RepairInv s) {w : Mutation} {e : OutboxEvent} (hw : w.Enabled s.source)
    (hc : Coupled s.source w e) : RepairInv (s.changeSource w e) ∧ NeverOlder s (s.changeSource w e) := by
  have hlast : (s.changeSource w e).history w.target = s.history w.target ++ [(w, e)] := s.history_changeSource w e
  have hat : ∀ id k, k ≤ (s.history id).length → (s.changeSource w e).stateAt id k = s.stateAt id k :=
    fun _ _ hk => stateAt_changeSource hk
  have hshows : ∀ id row, s.projections id = some row → (s.changeSource w e).Shows id (s.shows id) row := by
    intro id row hrow
    obtain ⟨hle, r, hr, hshown⟩ := h.shown id row hrow
    exact ⟨r, (hat id _ (hle.trans (h.reached id))).trans hr, hshown⟩
  refine ⟨⟨?_, ?_, ?_, ?_, ?_⟩, fun id row hrow => ⟨row, hrow, (h.shown id row hrow).2, hshows id row hrow,
    Nat.le_refl _, fun hd => hd⟩⟩
  · intro id k w' e' hk
    by_cases hid : id = w.target
    · subst hid
      rw [hlast] at hk
      rcases Slots.slot_concat hk with hold | ⟨rfl, heq⟩
      · have hlt := (List.getElem?_eq_some_iff.mp hold).1
        rw [hat _ _ (Nat.le_of_lt hlt)]
        exact h.recorded _ k w' e' hold
      · obtain ⟨rfl, rfl⟩ : w' = w ∧ e' = e := Prod.ext_iff.mp heq
        rw [hat _ _ (Nat.le_refl _)]
        exact ⟨rfl, s.source, h.source _, hw, hc⟩
    · have hsame : (s.changeSource w e).history id = s.history id := Function.update_of_ne hid _ _
      rw [hsame] at hk
      rw [hat id k (Nat.le_of_lt (List.getElem?_eq_some_iff.mp hk).1)]
      exact h.recorded id k w' e' hk
  · intro id
    show w.apply s.source id = _
    by_cases hid : id = w.target
    · subst hid
      have hget : ((s.changeSource w e).history w.target)[(s.history w.target).length]? = some (w, e) := by
        rw [hlast]
        exact List.getElem?_concat_length
      rw [hlast, List.length_append, List.length_singleton, stateAt_succ hget, hat _ _ (Nat.le_refl _),
        Mutation.apply_target, h.source]
    · have hsame : (s.changeSource w e).history id = s.history id := Function.update_of_ne hid _ _
      rw [Mutation.apply_ne w s.source hid, hsame, hat id _ (Nat.le_refl _)]
      exact h.source id
  · intro i rd hrd id
    obtain ⟨hle, hread⟩ := h.reads i rd hrd id
    exact ⟨hle.trans (length_changeSource s w e id), hread.trans (hat id _ hle).symm⟩
  · exact fun id => (h.reached id).trans (length_changeSource s w e id)
  · exact fun id row hrow => ⟨(h.shown id row hrow).1, hshows id row hrow⟩

/-- A visible row and the state it shows have the same columns. -/
theorem columns_of_shown {r : MessageRow} (hlive : row.deletedAt = none) (h : shownProjection row = shownMessage id r) :
    row.id = id ∧ row.roomId = r.roomId ∧ row.authorId = r.authorId ∧ row.messageType = r.messageType ∧
      row.content = r.content := by
  have hnot : ¬ r.deletedAt.isSome := by
    intro hdeleted
    have hnone := shownProjection_eq_none.mp (h.trans (shownMessage_eq_none.mpr hdeleted))
    rw [hlive] at hnone
    cases hnone
  unfold shownProjection shownMessage at h
  rw [hlive, if_neg hnot] at h
  simpa using h

theorem RepairInv.shows_le (h : RepairInv s) (hfresh : s.Fresh id k) (hrow : s.projections id = some row) :
    s.shows id ≤ k := by
  rcases hfresh with hle | hnone
  · exact (h.shown id row hrow).1.trans hle
  · cases hnone.symm.trans hrow

/-- Given an event no older than what the row was written from, the consumer writes the state after the
change it announces. -/
theorem RepairInv.shows_applied (h : RepairInv s) {m : Messages} {w : Mutation} {new : MessageRow} {e : OutboxEvent}
    {row' : MessageProjection} (hk : (s.history id)[k]? = some (w, e)) (htarget : w.target = id)
    (hm : m id = s.stateAt id k) (hw : w.Enabled m) (hnew : w.on (m id) = some new) (horder : s.Fresh id (k + 1))
    (happlied : Applied id new w (s.projections id) row') : s.Shows id (k + 1) row' := by
  have hlt : k < (s.history id).length := (List.getElem?_eq_some_iff.mp hk).1
  have hstate : s.stateAt id (k + 1) = some new := by
    rw [stateAt_succ hk, ← hm, hnew]
  refine ⟨new, hstate, ?_⟩
  cases hrow : s.projections id with
  | none =>
    rw [hrow] at happlied
    cases happlied with
    | created h => exact h
  | some row =>
    rw [hrow] at happlied
    obtain ⟨-, r, hr, hshown⟩ := h.shown id row hrow
    have hj : s.shows id ≤ k + 1 := h.shows_le horder hrow
    obtain ⟨r', hr', hsame, -⟩ := stateAt_later h.recorded hr hj hlt
    obtain rfl := Option.some.inj (hr'.symm.trans hstate)
    cases happlied with
    | again now =>
      -- there was no message before, so the row shows this very state
      have hfirst : s.shows id = k + 1 := by
        refine Nat.le_antisymm hj (Nat.lt_of_not_le fun hbefore => ?_)
        obtain ⟨old, hold, -⟩ := stateAt_later h.recorded hr hbefore (Nat.le_of_lt hlt)
        cases (hm.trans hold).symm.trans hw.1
      rw [hfirst] at hr
      obtain rfl := Option.some.inj (hr.symm.trans hstate)
      by_cases hlive : row.deletedAt = none
      · have hcontent := (columns_of_shown hlive hshown).2.2.2.2
        rw [← hshown, ← hcontent]
        rfl
      · have hdeleted : row.deletedAt.isSome := Option.isSome_iff_ne_none.mpr hlive
        rw [← hshown, shownProjection_eq_none.mpr hdeleted]
        exact shownProjection_eq_none.mpr hdeleted
    | edited now hlive =>
      obtain ⟨hid, hroom, hauthor, htype, -⟩ := columns_of_shown hlive hshown
      obtain ⟨old, hold, holdlive⟩ := hw
      have hnewlive : r'.deletedAt = none := by
        rw [show m id = some old from hold] at hnew
        rw [← Option.some.inj hnew]
        exact holdlive
      unfold shownProjection shownMessage
      simp [hlive, hnewlive, hid, hroom, hauthor, htype, hsame.roomId, hsame.authorId, hsame.messageType]
    | deleted now hlive =>
      obtain ⟨old, hold, -⟩ := hw
      have hgone : r'.deletedAt.isSome := by
        rw [show m id = some old from hold] at hnew
        rw [← Option.some.inj hnew]
        rfl
      rw [shownMessage_eq_none.mpr hgone]
      exact shownProjection_eq_none.mpr rfl

/-- A step that leaves the history alone, given what it makes of each row. -/
theorem RepairInv.of_rows (h : RepairInv s) (horigin : t.origin = s.origin) (hhistory : t.history = s.history)
    (hsource : t.source = s.source) (hreads : ∀ i rd, t.reads i = some rd → ∀ id,
      rd.version id ≤ (s.history id).length ∧ rd.source id = s.stateAt id (rd.version id))
    (hreached : ∀ id, s.reached id ≤ t.reached id ∧ t.reached id ≤ (s.history id).length)
    (hkept : Keeps s.projections t.projections)
    (hrows : ∀ id row', t.projections id = some row' → t.projections id = s.projections id ∧ t.shows id = s.shows id ∨
      t.shows id ≤ t.reached id ∧ s.Shows id (t.shows id) row' ∧
        ∀ row, s.projections id = some row → s.shows id ≤ t.shows id) :
    RepairInv t ∧ NeverOlder s t := by
  have hat : ∀ id k, t.stateAt id k = s.stateAt id k := by
    intro id k
    unfold RepairState.stateAt
    rw [horigin, hhistory]
  have hshows : ∀ id k row, s.Shows id k row → t.Shows id k row := fun id k row ⟨r, hr, hshown⟩ =>
    ⟨r, (hat id k).trans hr, hshown⟩
  have hnew : ∀ id row', t.projections id = some row' → t.shows id ≤ t.reached id ∧ s.Shows id (t.shows id) row' ∧
      ∀ row, s.projections id = some row → s.shows id ≤ t.shows id := by
    intro id row' hrow'
    rcases hrows id row' hrow' with ⟨hsame, hshow⟩ | hother
    · rw [hsame] at hrow'
      obtain ⟨hle, hshown⟩ := h.shown id row' hrow'
      rw [hshow]
      exact ⟨hle.trans (hreached id).1, hshown, fun _ _ => Nat.le_refl _⟩
    · exact hother
  refine ⟨⟨?_, ?_, ?_, ?_, ?_⟩, ?_⟩
  · intro id k w e hk
    rw [hhistory] at hk
    rw [hat]
    exact h.recorded id k w e hk
  · intro id
    rw [hsource, hhistory, hat]
    exact h.source id
  · intro i rd hrd id
    rw [hhistory, hat]
    exact hreads i rd hrd id
  · intro id
    rw [hhistory]
    exact (hreached id).2
  · intro id row' hrow'
    obtain ⟨hle, hshown, -⟩ := hnew id row' hrow'
    exact ⟨hle, hshows id _ row' hshown⟩
  · intro id row hrow
    obtain ⟨row', hrow'⟩ := Option.ne_none_iff_exists'.mp (hkept id (by rw [hrow]; exact Option.some_ne_none row))
    obtain ⟨hle, hshown, hmono⟩ := hnew id row' hrow'
    obtain ⟨-, hbefore⟩ := h.shown id row hrow
    refine ⟨row', hrow', hbefore, hshows id _ row' hshown, hmono row hrow, ?_⟩
    exact deleted_of_shows h.recorded hbefore hshown (hmono row hrow) (hle.trans (hreached id).2)

theorem RepairInv.deliver (h : RepairInv s) {w : Mutation} {e : OutboxEvent} (a : Attempt)
    (hk : (s.history id)[k]? = some (w, e)) (horder : s.Fresh id (k + 1)) :
    RepairInv (s.deliver id k e a) ∧ NeverOlder s (s.deliver id k e a) := by
  obtain ⟨rfl, m, hm, hw, new, hnew, hann⟩ := h.recorded id k w e hk
  have hlt : k < (s.history w.target).length := (List.getElem?_eq_some_iff.mp hk).1
  have hdelivered : Delivered w new s.projections (handle a (some e.payload) s.projections).2 :=
    delivered_handle hw hnew hann
  refine h.of_rows rfl rfl rfl (fun i rd hrd => h.reads i rd hrd) (fun id => ?_) (keeps_handle a _ _) fun id row' hrow' => ?_
  · by_cases hid : id = w.target
    · subst hid
      rw [s.reached_deliver]
      exact ⟨Nat.le_max_left _ _, Nat.max_le.mpr ⟨h.reached _, hlt⟩⟩
    · have hsame : (s.deliver w.target k e a).reached id = s.reached id := Function.update_of_ne hid _ _
      rw [hsame]
      exact ⟨Nat.le_refl _, h.reached id⟩
  · by_cases hid : id = w.target
    · subst hid
      by_cases hsame : (handle a (some e.payload) s.projections).2 w.target = s.projections w.target
      · refine .inl ⟨hsame, ?_⟩
        rw [s.shows_deliver, if_pos hsame]
      · have hshows : (s.deliver w.target k e a).shows w.target = k + 1 := by
          show Function.update s.shows w.target _ w.target = _
          rw [Function.update_self, if_neg hsame]
        obtain ⟨row, hrow, happlied⟩ := hdelivered.target hsame
        obtain rfl : row = row' := Option.some.inj (hrow.symm.trans hrow')
        rw [hshows, s.reached_deliver]
        rw [Mutation.apply_target] at hnew
        exact .inr ⟨Nat.le_max_right _ _, h.shows_applied hk rfl hm hw hnew horder happlied,
          fun old hold => h.shows_le horder hold⟩
    · exact .inl ⟨hdelivered.other hid, Function.update_of_ne hid _ _⟩

/-- The row a run is about to write shows the state it has read. -/
theorem shows_copy (h : RepairInv s) {rd : Read} (hrd : s.reads i = some rd) (hcopy : CopiedFrom clock rd row) :
    s.Shows row.id (rd.version row.id) row := by
  obtain ⟨r, hr, heq⟩ := hcopy
  refine ⟨r, (h.reads i rd hrd row.id).2.symm.trans hr, ?_⟩
  rw [heq]
  simp [shownProjection, shownMessage, copyOf]

theorem RepairInv.commitTx (h : RepairInv s) {rows : List MessageProjection} {rd : Read} (hrd : s.reads i = some rd)
    (hcopies : ∀ row ∈ rows, CopiedFrom clock rd row)
    (horder : ∀ row ∈ rows, s.Fresh row.id (s.versionRead i row.id)) :
    RepairInv (s.commitTx i rows) ∧ NeverOlder s (s.commitTx i rows) := by
  have hversion : ∀ id, s.versionRead i id = rd.version id := by
    intro id
    unfold RepairState.versionRead
    rw [hrd]
    rfl
  refine h.of_rows rfl rfl rfl (fun j rd' hrd' => h.reads j rd' hrd') (fun id => ?_)
    (fun _ hid => overwriteAll_ne_none hid) fun id row' hrow' => ?_
  · show s.reached id ≤ (if id ∈ rows.map (·.id) then _ else _) ∧ (if id ∈ rows.map (·.id) then _ else _) ≤ _
    rw [hversion]
    split
    · exact ⟨Nat.le_max_left _ _, Nat.max_le.mpr ⟨h.reached id, (h.reads i rd hrd id).1⟩⟩
    · exact ⟨Nat.le_refl _, h.reached id⟩
  · rcases overwriteAll_cases rows s.projections id with ⟨row, hrow, rfl, heq⟩ | ⟨hnot, heq⟩
    · obtain rfl : row = row' := Option.some.inj (heq.symm.trans hrow')
      have hmem : row.id ∈ rows.map (·.id) := List.mem_map_of_mem hrow
      have hshow : (s.commitTx i rows).shows row.id = rd.version row.id := by
        show (if row.id ∈ rows.map (·.id) then _ else _) = _
        rw [if_pos hmem, hversion]
      have hreached : (s.commitTx i rows).reached row.id = max (s.reached row.id) (rd.version row.id) := by
        show (if row.id ∈ rows.map (·.id) then _ else _) = _
        rw [if_pos hmem, hversion]
      rw [hshow, hreached]
      have hordered := horder row hrow
      rw [hversion] at hordered
      exact .inr ⟨Nat.le_max_right _ _, shows_copy h hrd (hcopies row hrow), fun old hold => h.shows_le hordered hold⟩
    · refine .inl ⟨heq, ?_⟩
      show (if id ∈ rows.map (·.id) then _ else _) = _
      rw [if_neg hnot]

end Steps

section Runs

variable {clock : Clock} {pool p p' : RepairPool} {s t : RepairState} {i : Nat} {trace later : List RepairLabel}

/-- An event that the consumer handles, and a row that a tool commits, is no older than what was handled
or copied before, or there is no row to replace. -/
def InOrder (pool : RepairPool) : RepairLabel → Prop
  | .env (.deliver id k _) => pool.shared.Fresh id (k + 1)
  | .cmd i .commit _ => ∀ rows, pool.shared.txs i = some rows →
    ∀ row ∈ rows, pool.shared.Fresh row.id (pool.shared.versionRead i row.id)
  | _ => True

def OrderlyStep (clock : Clock) (p : RepairPool) (l : RepairLabel) (p' : RepairPool) : Prop :=
  RepairStep clock p l p' ∧ InOrder p l

/-- No tool is running, and every row of the projection is up to date. -/
structure InSync (pool : RepairPool) : Prop where
  idle : Idle pool
  source : pool.shared.source = pool.shared.origin
  history : ∀ id, pool.shared.history id = []
  reached : ∀ id, pool.shared.reached id = 0
  shows : ∀ id, pool.shared.shows id = 0
  reads : ∀ i, pool.shared.reads i = none
  rows : ∀ id row, pool.shared.projections id = some row →
    ∃ r, pool.shared.origin id = some r ∧ shownProjection row = shownMessage id r

theorem InSync.inv (h : InSync pool) : RepairInv pool.shared := by
  have hat : ∀ id k, pool.shared.stateAt id k = pool.shared.origin id := by
    intro id k
    unfold RepairState.stateAt
    rw [h.history, List.take_nil]
    rfl
  constructor
  · intro id k w e hk
    rw [h.history] at hk
    cases hk
  · intro id
    rw [hat, h.source]
  · intro i rd hrd
    rw [h.reads] at hrd
    cases hrd
  · intro id
    rw [h.reached]
    exact Nat.zero_le _
  · intro id row hrow
    obtain ⟨r, hr, hshown⟩ := h.rows id row hrow
    rw [h.shows, h.reached]
    exact ⟨Nat.le_refl _, r, (hat id 0).trans hr, hshown⟩

/-- A step that touches neither table nor what was read. -/
theorem RepairInv.quiet (h : RepairInv s) (horigin : t.origin = s.origin) (hhistory : t.history = s.history)
    (hsource : t.source = s.source) (hreads : t.reads = s.reads) (hreached : t.reached = s.reached)
    (hprojections : t.projections = s.projections) (hshows : t.shows = s.shows) : RepairInv t ∧ NeverOlder s t := by
  refine h.of_rows horigin hhistory hsource (fun i rd hrd => h.reads i rd (hreads ▸ hrd)) (fun id => ?_)
    (hprojections ▸ .refl _) fun id _ _ => .inl ⟨by rw [hprojections], by rw [hshows]⟩
  rw [hreached]
  exact ⟨Nat.le_refl _, h.reached id⟩

theorem exec_neverOlder {c : RepairCmd} {r : RepairReply c} (h : RepairInv s) (hcopies : CopiesRead clock s)
    (horder : c = .commit → ∀ rows, s.txs i = some rows → ∀ row ∈ rows, s.Fresh row.id (s.versionRead i row.id))
    (hexec : Exec i c s r t) : RepairInv t ∧ NeverOlder s t := by
  cases hexec with
  | select hl =>
    refine h.of_rows rfl rfl rfl (fun j rd hrd id => ?_) (fun id => ⟨Nat.le_refl _, h.reached id⟩) (.refl _)
      fun _ _ _ => .inl ⟨rfl, rfl⟩
    by_cases hij : j = i
    · subst hij
      simp only [Function.update_self, Option.some.injEq] at hrd
      subst hrd
      exact ⟨Nat.le_refl _, h.source id⟩
    · simp only [Function.update_of_ne hij] at hrd
      exact h.reads j rd hrd id
  | commit htx =>
    obtain ⟨rd, hrd, hrows⟩ := hcopies i _ htx
    exact h.commitTx hrd hrows (horder rfl _ htx)
  | commitLost e htx =>
    obtain ⟨rd, hrd, hrows⟩ := hcopies i _ htx
    exact h.commitTx hrd hrows (horder rfl _ htx)
  | now | getMark | getMarkFailed | selectFailed | begin | beginFailed | getUserName | upsert | upsertFailed
  | commitFailed | rollback | setMark | setMarkNotDone | setMarkLost => exact h.quiet rfl rfl rfl rfl rfl rfl rfl

theorem orderly_step {l : RepairLabel} (hgood : RunsGood clock p) (h : RepairInv p.shared)
    (hstep : OrderlyStep clock p l p') : RepairInv p'.shared ∧ NeverOlder p.shared p'.shared := by
  obtain ⟨hst, horder⟩ := hstep
  cases hst with
  | cmd hi hexec =>
    refine exec_neverOlder h hgood.good.shared (fun hc => ?_) hexec
    subst hc
    exact horder
  | spawn => exact ⟨h, h.neverOlder_refl⟩
  | env hamb =>
    cases hamb with
    | write henabled hcoupled => exact h.changeSource henabled hcoupled
    | deliver a hk => exact h.deliver a hk horder

/-- Over a whole run: the induction is on its steps. -/
theorem orderly_run (hgood : RunsGood clock p) (h : RepairInv p.shared) (hrun : Run (OrderlyStep clock) p trace p') :
    RunsGood clock p' ∧ RepairInv p'.shared ∧ NeverOlder p.shared p'.shared := by
  induction hrun with
  | nil => exact ⟨hgood, h, h.neverOlder_refl⟩
  | cons hstep _ ih =>
    obtain ⟨hinv, holder⟩ := orderly_step hgood h hstep
    obtain ⟨hgood', hinv', hrest⟩ := ih (hgood.step hstep.1) hinv
    exact ⟨hgood', hinv', holder.trans hrest⟩

theorem never_regresses (hsync : InSync pool) (hrun : Run (OrderlyStep clock) pool trace p)
    (hlater : Run (OrderlyStep clock) p later p') : NeverOlder p.shared p'.shared := by
  obtain ⟨hgood, hinv, -⟩ := orderly_run hsync.idle.good hsync.inv hrun
  exact (orderly_run hgood hinv hlater).2.2

end Runs

section Sample

/-- The rest of a backfill after its `SELECT`. -/
def copying (clock : Clock) (msgs : List SourceMessage) : RepairProg Unit := do
  let _ ← writeCopies clock true msgs
  return ()

theorem prog_backfill (clock : Clock) : ∃ f, backfill clock = .call (.select .everything) f ∧
    ∀ msgs, f (.ok msgs) = copying clock msgs := ⟨_, rfl, fun _ => rfl⟩

theorem prog_copying (m : SourceMessage) : ∃ f₁ f₂ f₃ f₄, copying sampleClock [m] = .call .begin f₁ ∧
    f₁ (.ok ()) = .call (.getUserName m.row.authorId) f₂ ∧
    f₂ (some "Ann") = .call (.upsert (copyOf sampleClock m "Ann")) f₃ ∧ f₃ (.ok ()) = .call .commit f₄ :=
  ⟨_, _, _, _, rfl, rfl, rfl, rfl⟩

def copiedState (s : RepairState) (m : SourceMessage) : RepairState :=
  (s.setTx 0 (some [])).setTx 0 (some [copyOf sampleClock m "Ann"])

/-- A backfill that has read one message comes to its commit. -/
theorem copying_run (s : RepairState) (m : SourceMessage) : ∃ trace f,
    Run (OrderlyStep sampleClock) ⟨s, [copying sampleClock [m]]⟩ trace ⟨copiedState s m, [.call .commit f]⟩ := by
  obtain ⟨f₁, f₂, f₃, f₄, h₁, h₂, h₃, h₄⟩ := prog_copying m
  let s₁ := s.setTx 0 (some [])
  have hstep₁ : OrderlyStep sampleClock ⟨s, [copying sampleClock [m]]⟩ (.cmd 0 .begin (.ok ())) ⟨s₁, [f₁ (.ok ())]⟩ :=
    ⟨.cmd (congrArg some h₁) .begin, trivial⟩
  have hstep₂ : OrderlyStep sampleClock ⟨s₁, [f₁ (.ok ())]⟩ (.cmd 0 (.getUserName m.row.authorId) (some "Ann"))
      ⟨s₁, [f₂ (some "Ann")]⟩ := ⟨.cmd (congrArg some h₂) (.getUserName _ _), trivial⟩
  have hstep₃ : OrderlyStep sampleClock ⟨s₁, [f₂ (some "Ann")]⟩ (.cmd 0 (.upsert (copyOf sampleClock m "Ann")) (.ok ()))
      ⟨copiedState s m, [f₃ (.ok ())]⟩ :=
    ⟨.cmd (congrArg some h₃) (.upsert _ (txs_setTx_self s 0 _) (show "Ann".length ≤ 256 by decide)), trivial⟩
  rw [h₄] at hstep₃
  exact ⟨_, f₄, .cons hstep₁ (.cons hstep₂ (.single hstep₃))⟩

theorem commit_step (s : RepairState) (m : SourceMessage) (f : Except RepoError Unit → RepairProg Unit) :
    RepairStep sampleClock ⟨copiedState s m, [.call .commit f]⟩ (.cmd 0 .commit (.ok ()))
      ⟨(copiedState s m).commitTx 0 [copyOf sampleClock m "Ann"], [f (.ok ())]⟩ :=
  .cmd rfl (.commit (txs_setTx_self _ 0 _))

/-- The row of the message that is in both tables. -/
def helloRow : MessageProjection := copyOf sampleClock ⟨sampleMessage, earlyRow⟩ "Ann"

def syncedState : RepairState :=
  { oneMessage sampleMessage earlyRow with
    projections := Function.update (fun _ => none) sampleMessage (some helloRow) }

theorem inSync_syncedState : InSync ⟨syncedState, []⟩ where
  idle := ⟨fun _ => rfl, rfl⟩
  source := rfl
  history _ := rfl
  reached _ := rfl
  shows _ := rfl
  reads _ := rfl
  rows id row hrow := by
    by_cases hid : id = sampleMessage
    · subst hid
      have heq : helloRow = row := by simpa [syncedState] using hrow
      subst heq
      exact ⟨earlyRow, source_oneMessage sampleMessage earlyRow, rfl⟩
    · simp [syncedState, hid] at hrow

def readState : RepairState :=
  { syncedState with
    reads := Function.update syncedState.reads 0
      (some ⟨.everything, syncedState.source, fun id => (syncedState.history id).length⟩) }

/-- A backfill starts and reads the message. -/
theorem reading_run : ∃ trace, Run (OrderlyStep sampleClock) ⟨syncedState, []⟩ trace
    ⟨readState, [copying sampleClock [⟨sampleMessage, earlyRow⟩]]⟩ := by
  obtain ⟨f, hf, hcopying⟩ := prog_backfill sampleClock
  have hselect : SourceQuery.everything.Returns syncedState.source [⟨sampleMessage, earlyRow⟩] :=
    returns_oneMessage _ _ trivial rfl
  have hspawn : OrderlyStep sampleClock ⟨syncedState, []⟩ (.spawn (backfill sampleClock))
      ⟨syncedState, [backfill sampleClock]⟩ := ⟨.spawn ⟨.backfill, rfl⟩, trivial⟩
  have hread : OrderlyStep sampleClock ⟨syncedState, [backfill sampleClock]⟩ (.cmd 0 (.select .everything) (.ok _))
      ⟨readState, [f (.ok [⟨sampleMessage, earlyRow⟩])]⟩ := ⟨.cmd (congrArg some hf) (.select hselect), trivial⟩
  rw [hcopying] at hread
  exact ⟨_, .cons hspawn (.single hread)⟩

/-- The message is edited and the consumer told of it before the copy is written. -/
def sampleEdit : Mutation := .setContent sampleMessage "edited" 0

def editedState (payload : Json) : RepairState :=
  readState.changeSource sampleEdit (updatedEvent sampleEvent sampleRoom payload)

def editSeen : Attempt := ⟨sampleTime, .up⟩

def shownState (payload : Json) : RepairState :=
  (editedState payload).deliver sampleMessage 0 (updatedEvent sampleEvent sampleRoom payload) editSeen

theorem editing_run (threads : List (RepairProg Unit)) {payload : Json}
    (hpay : updatedMessagePayload (toResponse (editedMessage sampleCreated "edited" sampleTime) "Ann") = some payload) :
    ∃ trace, Run (OrderlyStep sampleClock) ⟨readState, threads⟩ trace ⟨shownState payload, threads⟩ := by
  let e : OutboxEvent := updatedEvent sampleEvent sampleRoom payload
  have hrow : readState.source sampleMessage = some earlyRow := source_oneMessage sampleMessage earlyRow
  have hcoupled : Coupled readState.source sampleEdit e := by
    refine ⟨{ earlyRow with content := "edited", updatedAt := some 0 }, ?_, editedMessage sampleCreated "edited" sampleTime,
      "Ann", payload, sampleTime, ⟨rfl, rfl, rfl, rfl, rfl⟩, rfl, hpay, rfl⟩
    rw [Mutation.apply_target]
    exact congrArg sampleEdit.on hrow
  have hhistory : ((editedState payload).history sampleMessage)[0]? = some (sampleEdit, e) := by
    have hlast : (editedState payload).history sampleMessage = [(sampleEdit, e)] := readState.history_changeSource _ e
    rw [hlast]
    rfl
  have hedit : OrderlyStep sampleClock ⟨readState, threads⟩ (.env (.write sampleEdit e)) ⟨editedState payload, threads⟩ :=
    ⟨.env (.write ⟨earlyRow, hrow, rfl⟩ hcoupled), trivial⟩
  have hdeliver : OrderlyStep sampleClock ⟨editedState payload, threads⟩ (.env (.deliver sampleMessage 0 editSeen))
      ⟨shownState payload, threads⟩ := ⟨.env (.deliver editSeen hhistory), .inl (Nat.zero_le _)⟩
  exact ⟨_, .cons hedit (.single hdeliver)⟩

/-- The row is that of the edited message. -/
theorem shows_shownState {payload : Json}
    (hpay : updatedMessagePayload (toResponse (editedMessage sampleCreated "edited" sampleTime) "Ann") = some payload) :
    (∃ row, (shownState payload).projections sampleMessage = some row) ∧ (shownState payload).shows sampleMessage = 1 := by
  let new : MessageProjection := { helloRow with content := "edited", updatedAt := some sampleTime.printed }
  have hold : (editedState payload).projections sampleMessage = some helloRow := by
    simp [editedState, RepairState.changeSource, readState, syncedState]
  have hnew : (handle editSeen (some payload) (editedState payload).projections).2 sampleMessage = some new := by
    rw [handle_updatedMessage hpay rfl]
    have hlive : ¬ helloRow.deletedAt.isSome := by decide
    show (updateContent sampleMessage "edited" sampleTime.printed (editedState payload).projections).2 sampleMessage = _
    rw [updateContent, updateLive, hold]
    simp only [if_neg hlive, Function.update_self]
    rfl
  have hne : some new ≠ some helloRow := by
    intro heq
    exact absurd (congrArg (fun row => row.map MessageProjection.content) heq) (by decide)
  refine ⟨⟨new, hnew⟩, ?_⟩
  have hshows := (editedState payload).shows_deliver sampleMessage 0 (updatedEvent sampleEvent sampleRoom payload) editSeen
  rwa [show (updatedEvent sampleEvent sampleRoom payload).payload = payload from rfl, hnew, hold, if_neg hne] at hshows

end Sample

theorem never_regresses_backfill : ∃ trace p, Run (OrderlyStep sampleClock) ⟨syncedState, []⟩ trace p ∧
    .cmd 0 .commit (.ok ()) ∈ trace ∧ NeverOlder syncedState p.shared := by
  obtain ⟨trace, hread⟩ := reading_run
  obtain ⟨trace', f, hcopy⟩ := copying_run readState ⟨sampleMessage, earlyRow⟩
  have hfresh : InOrder ⟨copiedState readState ⟨sampleMessage, earlyRow⟩, [.call .commit f]⟩
      (.cmd 0 .commit (.ok ())) := fun _ _ _ _ => .inl (Nat.zero_le _)
  have hrun := (hread.append hcopy).append (.single ⟨commit_step readState _ f, hfresh⟩)
  exact ⟨_, _, hrun, List.mem_append_right _ List.mem_cons_self, never_regresses inSync_syncedState (.nil _) hrun⟩

/-- An edit is undone by a backfill that had read the message before. -/
theorem edit_undone : ¬ ∀ (clock : Clock) (pool p p' : RepairPool) (trace later : List RepairLabel), InSync pool →
    Run (RepairStep clock) pool trace p → Run (RepairStep clock) p later p' → NeverOlder p.shared p'.shared := by
  intro hall
  obtain ⟨payload, hpay⟩ := exists_sampleEditPayload
  obtain ⟨⟨row, hrow⟩, hshows⟩ := shows_shownState hpay
  obtain ⟨trace, hread⟩ := reading_run
  obtain ⟨trace', hedit⟩ := editing_run [copying sampleClock [⟨sampleMessage, earlyRow⟩]] hpay
  obtain ⟨trace'', f, hcopy⟩ := copying_run (shownState payload) ⟨sampleMessage, earlyRow⟩
  have hrun := (hread.append hedit).mono fun _ _ _ hstep => hstep.1
  have hlater := (hcopy.mono fun _ _ _ hstep => hstep.1).append (.single (commit_step (shownState payload) _ f))
  obtain ⟨row', -, -, -, holder, -⟩ := hall sampleClock _ _ _ _ _ inSync_syncedState hrun hlater sampleMessage row hrow
  have hcopied : ((copiedState (shownState payload) ⟨sampleMessage, earlyRow⟩).commitTx 0
      [copyOf sampleClock ⟨sampleMessage, earlyRow⟩ "Ann"]).shows sampleMessage = 0 := rfl
  rw [hcopied, hshows] at holder
  cases holder

end Chinwag.Repair

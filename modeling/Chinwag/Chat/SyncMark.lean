import Chinwag.Chat.RepairThreads
import Chinwag.Chat.SoloRuns

/-!
# How far the mark of the gap sync may be ahead

`syncGaps` marks the time at which it has finished, and a message has the time at which its transaction
began. What is committed in between, or was left out of the first run, is never looked for again.
-/
namespace Chinwag.Repair

open Chat Program Redis Rfc3339 Transition

variable {clock : Clock} {pool pool' : RepairPool} {s t : RepairState} {i : Nat}

/-- Every committed message up to the mark is in the projection, or the next run will select it. -/
def MarkBehind (s : RepairState) : Prop :=
  ∀ m, s.mark = some (some m) → ∀ id row, s.source id = some row → (row.createdAt : Int) ≤ m →
    s.projections id ≠ none ∨ (SourceQuery.since m).Matches ⟨id, row⟩

/-- No transaction commits a message that the mark has passed, and a clock reading that a run stores has
passed no message that its `SELECT` could not return, those in the projection apart. -/
def InStep (pool : RepairPool) : RepairLabel → Prop
  | .env (.write (.insert id row) _) => ∀ m, pool.shared.mark = some (some m) → pool.shared.projections id = none →
    m < row.createdAt
  | .cmd i (.setMark (some m)) r => r ≠ .error .notDone → ∀ id row, pool.shared.source id = some row →
    (row.createdAt : Int) ≤ m → (∀ rd, pool.shared.reads i = some rd → ¬ rd.Covers id) →
    pool.shared.projections id ≠ none
  | _ => True

/-- A mark that has passed a message will not have it selected again. -/
theorem markBehind_iff : MarkBehind s ↔ ∀ m, s.mark = some (some m) → ∀ id row, s.source id = some row →
    (row.createdAt : Int) ≤ m → s.projections id ≠ none := by
  refine ⟨fun h m hm id row hrow hle => ?_, fun h m hm id row hrow hle => .inl (h m hm id row hrow hle)⟩
  rcases h m hm id row hrow hle with hin | hlater
  · exact hin
  · exact absurd hlater (not_lt.mpr hle)

/-- A step that moves neither the mark nor the write model. -/
theorem markBehind_keeps (hmark : t.mark = s.mark) (hsource : t.source = s.source)
    (hkept : Keeps s.projections t.projections) (h : MarkBehind s) : MarkBehind t := by
  rw [markBehind_iff] at h ⊢
  intro m hm id row hrow hle
  rw [hmark] at hm
  rw [hsource] at hrow
  exact hkept id (h m hm id row hrow hle)

/-- Setting the mark is in step exactly if it leaves no message behind; what the run has selected is not. -/
theorem markBehind_setMark {text : Option Int} (howes : Owes clock i (.setMark text) s) :
    MarkBehind { s with mark := some text } ↔ ∀ m, text = some m → ∀ id row, s.source id = some row →
      (row.createdAt : Int) ≤ m → (∀ rd, s.reads i = some rd → ¬ rd.Covers id) → s.projections id ≠ none := by
  rw [markBehind_iff]
  constructor
  · intro h m hm id row hrow hle _
    exact h m (congrArg some hm) id row hrow hle
  · intro h m hm id row hrow hle
    obtain ⟨rd, hrd, hcovered⟩ := howes
    by_cases hcovers : rd.Covers id
    · exact hcovered id hcovers
    · refine h m (Option.some.inj hm) id row hrow hle fun rd' hrd' => ?_
      obtain rfl := Option.some.inj (hrd.symm.trans hrd')
      exact hcovers

theorem setMark_inStep {text : Option Int} {r : RepairReply (.setMark text)} (hdone : r ≠ .error .notDone) :
    InStep pool (.cmd i (.setMark text) r) ↔ ∀ m, text = some m → ∀ id row, pool.shared.source id = some row →
      (row.createdAt : Int) ≤ m → (∀ rd, pool.shared.reads i = some rd → ¬ rd.Covers id) →
      pool.shared.projections id ≠ none := by
  cases text with
  | none => exact ⟨fun _ m hm => (nomatch hm), fun _ => trivial⟩
  | some m =>
    constructor
    · intro h m' hm'
      cases hm'
      exact h hdone
    · exact fun h _ => h m rfl

theorem cmd_markBehind {c : RepairCmd} {r : RepairReply c} (howes : Owes clock i c pool.shared)
    (hexec : Exec i c pool.shared r t) (h : MarkBehind pool.shared) : MarkBehind t ↔ InStep pool (.cmd i c r) := by
  have hother : t.mark = pool.shared.mark → t.source = pool.shared.source → Keeps pool.shared.projections t.projections →
      InStep pool (.cmd i c r) → (MarkBehind t ↔ InStep pool (.cmd i c r)) := fun hmark hsource hkept hstep =>
    ⟨fun _ => hstep, fun _ => markBehind_keeps hmark hsource hkept h⟩
  cases hexec with
  | setMark text => exact (markBehind_setMark howes).trans (setMark_inStep (r := .ok ()) nofun).symm
  | setMarkLost text => exact (markBehind_setMark howes).trans (setMark_inStep (r := .error .replyLost) nofun).symm
  | setMarkNotDone text =>
    refine hother rfl rfl (.refl _) ?_
    cases text with
    | none => trivial
    | some m => exact fun hdone => absurd rfl hdone
  | commit => exact hother rfl rfl (fun _ hid => overwriteAll_ne_none hid) trivial
  | commitLost => exact hother rfl rfl (fun _ hid => overwriteAll_ne_none hid) trivial
  | now | getMark | getMarkFailed | select | selectFailed | begin | beginFailed | getUserName | upsert | upsertFailed
  | commitFailed | rollback => exact hother rfl rfl (.refl _) trivial

/-- A change of a message leaves its `created_at` alone. -/
theorem createdAt_on {w : Mutation} {m : Messages} {row : MessageRow} (hw : w.Enabled m)
    (hrow : w.apply m w.target = some row) :
    (∃ old, m w.target = some old ∧ old.createdAt = row.createdAt) ∨ ∃ id, w = .insert id row := by
  rw [Mutation.apply_target] at hrow
  cases w with
  | insert id new =>
    obtain rfl : new = row := by simpa [Mutation.on] using hrow
    exact .inr ⟨id, rfl⟩
  | setContent id content now =>
    obtain ⟨old, hold, -⟩ := hw
    have htarget : m (Mutation.setContent id content now).target = some old := hold
    rw [htarget] at hrow
    obtain rfl := Option.some.inj hrow
    exact .inl ⟨old, htarget, rfl⟩
  | softDelete id now =>
    obtain ⟨old, hold, -⟩ := hw
    have htarget : m (Mutation.softDelete id now).target = some old := hold
    rw [htarget] at hrow
    obtain rfl := Option.some.inj hrow
    exact .inl ⟨old, htarget, rfl⟩

theorem write_markBehind {w : Mutation} {e : OutboxEvent} (hw : w.Enabled pool.shared.source) (h : MarkBehind pool.shared) :
    MarkBehind (pool.shared.changeSource w e) ↔ InStep pool (.env (.write w e)) := by
  rw [markBehind_iff] at h ⊢
  constructor
  · intro hall
    cases w with
    | insert id row =>
      intro m hm hnone
      refine not_le.mp fun hle => hall m hm id row ?_ hle hnone
      show (Mutation.insert id row).apply pool.shared.source id = some row
      exact Function.update_self _ _ _
    | setContent => trivial
    | softDelete => trivial
  · intro hstep m hm id row hrow hle
    by_cases hid : id = w.target
    · subst hid
      rcases createdAt_on hw hrow with ⟨old, hold, hcreated⟩ | ⟨id, rfl⟩
      · exact h m hm _ old hold (hcreated ▸ hle)
      · exact fun hnone => absurd hle (not_le.mpr (hstep m hm hnone))
    · exact h m hm id row ((Mutation.apply_ne w pool.shared.source hid).symm.trans hrow) hle

/-- One step leaves a message behind exactly if it is out of step. -/
theorem step_markBehind {l : RepairLabel} (hgood : RunsGood clock pool) (h : MarkBehind pool.shared)
    (hstep : RepairStep clock pool l pool') : MarkBehind pool'.shared ↔ InStep pool l := by
  cases hstep with
  | cmd hi hexec => exact cmd_markBehind (hgood.good.guar repairContract_sound hi) hexec h
  | spawn => exact ⟨fun _ => trivial, fun _ => h⟩
  | env hamb =>
    cases hamb with
    | write henabled => exact write_markBehind henabled h
    | deliver a => exact ⟨fun _ => trivial, fun _ => markBehind_keeps (s := pool.shared) rfl rfl (keeps_handle a _ _) h⟩

theorem mark_behind_iff {trace : List RepairLabel} (hidle : Idle pool) (hmark : pool.shared.mark = none) :
    (∀ before after p, trace = before ++ after → Run (RepairStep clock) pool before p →
      Run (RepairStep clock) p after pool' → MarkBehind p.shared) ↔
    ∀ before l after p p', trace = before ++ l :: after → Run (RepairStep clock) pool before p →
      RepairStep clock p l p' → Run (RepairStep clock) p' after pool' → InStep p l := by
  have hnone : MarkBehind pool.shared := by
    intro m hm
    rw [hmark] at hm
    cases hm
  have hinv : ∀ p l p', RunsGood clock p → RepairStep clock p l p' → RunsGood clock p' :=
    fun _ _ _ hp hstep => hp.step hstep
  have hgood : ∀ p l p', RunsGood clock p → MarkBehind p.shared → RepairStep clock p l p' →
      (MarkBehind p'.shared ↔ InStep p l) := fun _ _ _ hp hbehind hstep => step_markBehind hp hbehind hstep
  exact Run.always_good_iff hinv hgood hidle.good hnone

section Sample

/-- A row committed before the run, and one whose transaction began just as early. -/
def earlyRow : MessageRow := createdRow sampleRoom sampleAuthor sampleRequest 0

def sampleClock : Clock := ⟨fun _ => sampleTime, fun _ => true⟩

/-- One message is committed, and nothing is in the projection. -/
def oneMessage (id : Uuid) (row : MessageRow) : RepairState :=
  { source := Function.update (fun _ => none) id (some row)
    origin := Function.update (fun _ => none) id (some row)
    history := fun _ => []
    projections := fun _ => none
    shows := fun _ => 0
    reached := fun _ => 0
    mark := none
    txs := fun _ => none
    reads := fun _ => none }

@[simp] theorem source_oneMessage (id : Uuid) (row : MessageRow) : (oneMessage id row).source id = some row := by
  simp [oneMessage]

theorem source_oneMessage_ne {id other : Uuid} (h : other ≠ id) (row : MessageRow) :
    (oneMessage id row).source other = none := by
  simp [oneMessage, h]

theorem returns_oneMessage {q : SourceQuery} (id : Uuid) (row : MessageRow) (hmatch : q.Matches ⟨id, row⟩)
    (hlimited : q.Limited [⟨id, row⟩] [⟨id, row⟩]) : q.Returns (oneMessage id row).source [⟨id, row⟩] := by
  refine ⟨[⟨id, row⟩], List.nodup_singleton _, List.pairwise_singleton _ _, fun m => ?_, hlimited⟩
  rw [List.mem_singleton]
  constructor
  · rintro rfl
    exact ⟨source_oneMessage id row, hmatch⟩
  · rintro ⟨hrow, -⟩
    obtain ⟨mid, mrow⟩ := m
    by_cases hid : mid = id
    · subst hid
      rw [source_oneMessage] at hrow
      rw [Option.some.inj hrow]
    · rw [source_oneMessage_ne hid] at hrow
      cases hrow

/-- What `syncGaps` does with one message, and no mark so far. -/
theorem prog_syncGaps (m : SourceMessage) : ∃ f₀ f₁ f₂ f₃ f₄ f₅ f₆ f₇ f₈, syncGaps sampleClock = .call .getMark f₀ ∧
    f₀ (.ok none) = .call .now f₁ ∧ f₁ 0 = .call (.select (.since (0 - firstRunWindow))) f₂ ∧
    f₂ (.ok [m]) = .call .begin f₃ ∧ f₃ (.ok ()) = .call (.getUserName m.row.authorId) f₄ ∧
    f₄ (some "Ann") = .call (.upsert (copyOf sampleClock m "Ann")) f₅ ∧ f₅ (.ok ()) = .call .commit f₆ ∧
    f₆ (.ok ()) = .call .now f₇ ∧ f₇ 0 = .call (.setMark (some 0)) f₈ :=
  ⟨_, _, _, _, _, _, _, _, _, rfl, rfl, rfl, rfl, rfl, rfl, rfl, rfl, rfl⟩

def earlyMessage : Uuid := ⟨"ffffffff-0000-4000-8000-000000000000", by decide⟩

/-- The late message is committed between the `SELECT` and the end of the run. -/
theorem late_commit_run : ∃ trace pool', Run (RepairStep sampleClock) ⟨oneMessage earlyMessage earlyRow, []⟩ trace pool' ∧
    pool'.shared.mark = some (some 0) ∧ pool'.shared.source sampleMessage = some earlyRow ∧
    pool'.shared.projections sampleMessage = none := by
  obtain ⟨payload, hpay⟩ := exists_samplePayload
  obtain ⟨f₀, f₁, f₂, f₃, f₄, f₅, f₆, f₇, f₈, h₀, h₁, h₂, h₃, h₄, h₅, h₆, h₇, h₈⟩ :=
    prog_syncGaps ⟨earlyMessage, earlyRow⟩
  let e : OutboxEvent := createdEvent sampleEvent sampleRoom payload
  let copy := copyOf sampleClock ⟨earlyMessage, earlyRow⟩ "Ann"
  let s := oneMessage earlyMessage earlyRow
  have hne : sampleMessage ≠ earlyMessage := by decide
  have hselect : (SourceQuery.since (0 - firstRunWindow)).Returns s.source [⟨earlyMessage, earlyRow⟩] :=
    returns_oneMessage _ _ (show (0 : Int) - firstRunWindow < (0 : Nat) by decide) rfl
  have henabled : (Mutation.insert sampleMessage earlyRow).Enabled s.source :=
    ⟨source_oneMessage_ne hne earlyRow, rfl⟩
  have hcoupled : Coupled s.source (.insert sampleMessage earlyRow) e :=
    ⟨earlyRow, by simp [Mutation.apply, Mutation.target, Mutation.on], sampleCreated, "Ann", payload,
      ⟨rfl, rfl, rfl, rfl, rfl⟩, hpay, rfl⟩
  let s₁ : RepairState := { s with
    reads := Function.update s.reads 0 (some ⟨.since (0 - firstRunWindow), s.source, fun id => (s.history id).length⟩) }
  let s₂ := s₁.changeSource (.insert sampleMessage earlyRow) e
  let s₃ := s₂.setTx 0 (some [])
  let s₄ := s₃.setTx 0 (some [copy])
  let s₅ := s₄.commitTx 0 [copy]
  have hstep₁ : RepairStep sampleClock ⟨s, [f₁ 0]⟩ (.cmd 0 (.select _) (.ok _)) ⟨s₁, [f₂ (.ok _)]⟩ :=
    .cmd (congrArg some h₂) (.select hselect)
  have hstep₂ : RepairStep sampleClock ⟨s₁, [f₂ (.ok [⟨earlyMessage, earlyRow⟩])]⟩ (.env _) ⟨s₂, _⟩ :=
    .env (.write henabled hcoupled)
  have hstep₃ : RepairStep sampleClock ⟨s₂, [f₂ (.ok [⟨earlyMessage, earlyRow⟩])]⟩ (.cmd 0 .begin (.ok ()))
      ⟨s₃, [f₃ (.ok ())]⟩ := .cmd (congrArg some h₃) .begin
  have hstep₄ : RepairStep sampleClock ⟨s₃, [f₃ (.ok ())]⟩ (.cmd 0 (.getUserName _) (some "Ann"))
      ⟨s₃, [f₄ (some "Ann")]⟩ := .cmd (congrArg some h₄) (.getUserName _ _)
  have hstep₅ : RepairStep sampleClock ⟨s₃, [f₄ (some "Ann")]⟩ (.cmd 0 (.upsert copy) (.ok ()))
      ⟨s₄, [f₅ (.ok ())]⟩ := .cmd (congrArg some h₅) (.upsert copy (txs_setTx_self s₂ 0 _) (by decide))
  have hstep₆ : RepairStep sampleClock ⟨s₄, [f₅ (.ok ())]⟩ (.cmd 0 .commit (.ok ())) ⟨s₅, [f₆ (.ok ())]⟩ :=
    .cmd (congrArg some h₆) (.commit (txs_setTx_self s₃ 0 _))
  have hstep₇ : RepairStep sampleClock ⟨s₅, [f₆ (.ok ())]⟩ (.cmd 0 .now 0) ⟨s₅, [f₇ 0]⟩ :=
    .cmd (congrArg some h₇) (.now 0)
  have hstep₈ : RepairStep sampleClock ⟨s₅, [f₇ 0]⟩ (.cmd 0 (.setMark (some 0)) (.ok ()))
      ⟨{ s₅ with mark := some (some 0) }, [f₈ (.ok ())]⟩ := .cmd (congrArg some h₈) (.setMark _)
  have hspawn : RepairStep sampleClock ⟨s, []⟩ (.spawn (.call .getMark f₀)) ⟨s, [.call .getMark f₀]⟩ :=
    .spawn ⟨.syncGaps, h₀.symm⟩
  have hmark : RepairStep sampleClock ⟨s, [.call .getMark f₀]⟩ (.cmd 0 .getMark (.ok none)) ⟨s, [f₀ (.ok none)]⟩ :=
    .cmd rfl .getMark
  have hnow : RepairStep sampleClock ⟨s, [f₀ (.ok none)]⟩ (.cmd 0 .now 0) ⟨s, [f₁ 0]⟩ :=
    .cmd (congrArg some h₁) (.now 0)
  refine ⟨_, _, .cons hspawn (.cons hmark (.cons hnow (.cons hstep₁ (.cons hstep₂ (.cons hstep₃ (.cons hstep₄
    (.cons hstep₅ (.cons hstep₆ (.cons hstep₇ (.single hstep₈)))))))))), rfl, ?_, ?_⟩
  · show (Mutation.insert sampleMessage earlyRow).apply s.source sampleMessage = some earlyRow
    simp [Mutation.apply, Mutation.target, Mutation.on]
  · show Function.update (fun _ => none) earlyMessage (some copy) sampleMessage = none
    simp [hne]

theorem idle_oneMessage (id : Uuid) (row : MessageRow) : Idle ⟨oneMessage id row, []⟩ := ⟨fun _ => rfl, rfl⟩

theorem late_commit_passed {s : RepairState} (hmark : s.mark = some (some 0)) (hrow : s.source sampleMessage = some earlyRow)
    (hnone : s.projections sampleMessage = none) : ¬ MarkBehind s := by
  intro h
  exact markBehind_iff.mp h 0 hmark sampleMessage earlyRow hrow (by decide) hnone

end Sample

theorem mark_behind_late_commit : ∃ trace pool',
    Run (RepairStep sampleClock) ⟨oneMessage earlyMessage earlyRow, []⟩ trace pool' ∧
    ¬ ∀ before l after p p', trace = before ++ l :: after →
      Run (RepairStep sampleClock) ⟨oneMessage earlyMessage earlyRow, []⟩ before p → RepairStep sampleClock p l p' →
      Run (RepairStep sampleClock) p' after pool' → InStep p l := by
  obtain ⟨trace, pool', hrun, hmark, hrow, hnone⟩ := late_commit_run
  refine ⟨trace, pool', hrun, fun hall => late_commit_passed hmark hrow hnone ?_⟩
  exact (mark_behind_iff (idle_oneMessage _ _) rfl).mpr hall trace [] pool' (List.append_nil _).symm hrun (.nil _)

/-- A message can be lost for good. -/
theorem mark_ahead : ¬ ∀ (clock : Clock) (pool pool' : RepairPool) (trace : List RepairLabel), Idle pool →
    pool.shared.mark = none → Run (RepairStep clock) pool trace pool' → MarkBehind pool'.shared := by
  intro h
  obtain ⟨trace, pool', hrun, hmark, hrow, hnone⟩ := late_commit_run
  exact late_commit_passed hmark hrow hnone (h _ _ _ _ (idle_oneMessage _ _) rfl hrun)

end Chinwag.Repair

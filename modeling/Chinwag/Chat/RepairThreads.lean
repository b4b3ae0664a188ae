import Chinwag.Chat.RepairSystem

/-!
# What a run of a tool may be relied on for

It writes only rows it has read, unchanged, and moves the mark only after all of them are in the
projection. No row of the projection is ever removed.
-/
namespace Chinwag.Repair

open Chat Program Redis Rfc3339 Transition

section Keeps

variable {p p' : Projections}

/-- No row is lost. -/
def Keeps (p p' : Projections) : Prop := ∀ id, p id ≠ none → p' id ≠ none

theorem Keeps.refl (p : Projections) : Keeps p p := fun _ h => h

theorem keeps_update (p : Projections) (id : Uuid) (row : MessageProjection) :
    Keeps p (Function.update p id (some row)) := by
  intro other h
  by_cases hid : other = id
  · subst hid
    rw [Function.update_self]
    exact Option.some_ne_none row
  · rwa [Function.update_of_ne hid]

theorem keeps_upsert (msg : MessageProjection) (now : Time) (p : Projections) : Keeps p (upsert msg now p).2 := by
  unfold upsert
  split
  · exact .refl p
  · exact keeps_update p _ _

theorem keeps_updateLive (id : Uuid) (f : MessageProjection → MessageProjection) (p : Projections) :
    Keeps p (updateLive id f p).2 := by
  unfold updateLive
  split
  · exact .refl p
  · split
    · exact .refl p
    · exact keeps_update p _ _

theorem keeps_finish {effect : Except RepoError Unit × Projections} (db : Database) (h : Keeps p effect.2) :
    Keeps p (finish db p effect).2 := by
  cases db with
  | up => exact h
  | down => exact .refl p
  | replyLost => exact h

theorem keeps_handle (a : Attempt) (payload : Option Json) (p : Projections) : Keeps p (handle a payload p).2 := by
  unfold handle
  split
  · exact .refl p
  · rename_i ev _
    split
    · unfold handleCreated
      split
      · exact .refl p
      · split
        · exact .refl p
        · exact keeps_finish _ (keeps_upsert _ _ p)
    · split
      · unfold handleUpdated
        split
        · exact .refl p
        · split
          · exact .refl p
          · exact keeps_finish _ (keeps_updateLive _ _ p)
      · split
        · unfold handleDeleted
          split
          · exact .refl p
          · exact keeps_finish _ (keeps_updateLive _ _ p)
        · exact .refl p

end Keeps

section Contract

variable {clock : Clock} {s t u : RepairState} {i : Nat}

/-- The row is one that the run has read. -/
def CopiedFrom (clock : Clock) (rd : Read) (row : MessageProjection) : Prop :=
  ∃ r, rd.source row.id = some r ∧ row = copyOf clock ⟨row.id, r⟩ row.authorName

/-- What a run has in its transaction is what it has read. -/
def CopiesRead (clock : Clock) (s : RepairState) : Prop :=
  ∀ i rows, s.txs i = some rows → ∃ rd, s.reads i = some rd ∧ ∀ row ∈ rows, CopiedFrom clock rd row

/-- What the others leave of run `i`. -/
structure Leaves (i : Nat) (s t : RepairState) : Prop where
  tx : t.txs i = s.txs i
  reads : t.reads i = s.reads i
  kept : Keeps s.projections t.projections

theorem Leaves.refl (i : Nat) (s : RepairState) : Leaves i s s := ⟨rfl, rfl, .refl _⟩

theorem Leaves.trans (h : Leaves i s t) (h' : Leaves i t u) : Leaves i s u :=
  ⟨h'.tx.trans h.tx, h'.reads.trans h.reads, fun id hid => h'.kept id (h.kept id hid)⟩

/-- What a run has done before each of its calls. -/
def Owes (clock : Clock) (i : Nat) : RepairCmd → RepairState → Prop
  | .select _, s => s.txs i = none
  | .begin, s => ∃ rd, s.reads i = some rd
  | .upsert row, s => ∃ rd, s.reads i = some rd ∧ CopiedFrom clock rd row
  | .setMark _, s => ∃ rd, s.reads i = some rd ∧ ∀ id, rd.Covers id → s.projections id ≠ none
  | _, _ => True

@[simp] theorem txs_setTx_self (s : RepairState) (i : Nat) (tx : Option (List MessageProjection)) :
    (s.setTx i tx).txs i = tx := Function.update_self _ _ _

theorem txs_setTx_ne (s : RepairState) {i j : Nat} (hij : j ≠ i) (tx : Option (List MessageProjection)) :
    (s.setTx i tx).txs j = s.txs j := Function.update_of_ne hij _ _

/-- A transaction that is ended, or one of rows read. -/
theorem copiesRead_setTx (h : CopiesRead clock s) {tx : Option (List MessageProjection)}
    (htx : ∀ rows, tx = some rows → ∃ rd, s.reads i = some rd ∧ ∀ row ∈ rows, CopiedFrom clock rd row) :
    CopiesRead clock (s.setTx i tx) := by
  intro j rows hrows
  by_cases hij : j = i
  · subst hij
    rw [txs_setTx_self] at hrows
    exact htx rows hrows
  · rw [txs_setTx_ne s hij] at hrows
    exact h j rows hrows

theorem copiesRead_commitTx (h : CopiesRead clock s) (rows : List MessageProjection) :
    CopiesRead clock (s.commitTx i rows) :=
  copiesRead_setTx (s := s) (i := i) h fun _ heq => nomatch heq

theorem exec_copies {c : RepairCmd} {r : RepairReply c} (h : CopiesRead clock s) (howes : Owes clock i c s)
    (hexec : Exec i c s r t) : CopiesRead clock t := by
  cases hexec with
  | select hl =>
    intro j rows hrows
    have hne : j ≠ i := by
      rintro rfl
      cases howes.symm.trans hrows
    obtain ⟨rd, hrd, hcopies⟩ := h j rows hrows
    exact ⟨rd, (Function.update_of_ne hne _ _).trans hrd, hcopies⟩
  | begin =>
    obtain ⟨rd, hrd⟩ := howes
    refine copiesRead_setTx h fun rows heq => ⟨rd, hrd, ?_⟩
    cases heq
    exact nofun
  | upsert row htx hfit =>
    obtain ⟨rd, hrd, hcopy⟩ := howes
    obtain ⟨rd', hrd', hcopies⟩ := h i _ htx
    obtain rfl := Option.some.inj (hrd.symm.trans hrd')
    refine copiesRead_setTx h fun rows heq => ⟨rd, hrd, ?_⟩
    cases heq
    intro row' hrow'
    cases List.mem_append.mp hrow' with
    | inl hold => exact hcopies row' hold
    | inr hnew => exact List.mem_singleton.mp hnew ▸ hcopy
  | commit => exact copiesRead_commitTx h _
  | commitLost => exact copiesRead_commitTx h _
  | commitFailed => exact copiesRead_setTx h fun _ heq => nomatch heq
  | rollback => exact copiesRead_setTx h fun _ heq => nomatch heq
  | now | getMark | getMarkFailed | selectFailed | beginFailed | getUserName | upsertFailed | setMark | setMarkNotDone
  | setMarkLost => exact h

theorem leaves_setTx {j : Nat} (hij : i ≠ j) (s : RepairState) (tx : Option (List MessageProjection)) :
    Leaves i s (s.setTx j tx) :=
  ⟨Function.update_of_ne hij _ _, rfl, .refl _⟩

theorem leaves_commitTx {j : Nat} (hij : i ≠ j) (s : RepairState) (rows : List MessageProjection) :
    Leaves i s (s.commitTx j rows) :=
  ⟨Function.update_of_ne hij _ _, rfl, fun _ hid => overwriteAll_ne_none hid⟩

theorem exec_leaves {c : RepairCmd} {r : RepairReply c} {j : Nat} (hij : i ≠ j) (hexec : Exec j c s r t) :
    Leaves i s t := by
  cases hexec with
  | select => exact ⟨rfl, Function.update_of_ne hij _ _, .refl _⟩
  | begin => exact leaves_setTx hij s _
  | upsert => exact leaves_setTx hij s _
  | commit => exact leaves_commitTx hij s _
  | commitLost => exact leaves_commitTx hij s _
  | commitFailed => exact leaves_setTx hij s _
  | rollback => exact leaves_setTx hij s _
  | setMark | setMarkLost => exact ⟨rfl, rfl, .refl _⟩
  | now | getMark | getMarkFailed | selectFailed | beginFailed | getUserName | upsertFailed | setMarkNotDone =>
    exact .refl i s

theorem leaves_ambient {e : RepairEvent} (hamb : Ambient s e t) (i : Nat) : Leaves i s t := by
  cases hamb with
  | write => exact ⟨rfl, rfl, .refl _⟩
  | deliver a hk => exact ⟨rfl, rfl, keeps_handle a _ _⟩

theorem copiesRead_ambient {e : RepairEvent} (h : CopiesRead clock s) (hamb : Ambient s e t) : CopiesRead clock t := by
  cases hamb with
  | write => exact h
  | deliver => exact h

def repairContract (clock : Clock) : Contract RepairState RepairCmd where
  inv := CopiesRead clock
  rely := Leaves
  guar := Owes clock

theorem repairContract_sound : (repairContract clock).Sound repairSemantics where
  rely_refl := Leaves.refl
  rely_trans _ _ _ _ := Leaves.trans
  env _ _ _ h hamb := ⟨copiesRead_ambient h hamb, leaves_ambient hamb⟩
  cmd _ _ _ _ _ h howes hexec := ⟨exec_copies h howes hexec, fun _ hij => exec_leaves hij hexec⟩

end Contract

section Programs

variable {clock : Clock} {s t : RepairState} {i : Nat} {rd : Read} {q : SourceQuery} {l : List SourceMessage}

theorem returns_mem {source : Messages} (h : q.Returns source l) {m : SourceMessage} (hm : m ∈ l) :
    source m.id = some m.row := by
  obtain ⟨all, -, -, hall, hlimited⟩ := h
  have hin : m ∈ all := by
    cases q with
    | since => exact hlimited ▸ hm
    | everything => exact hlimited ▸ hm
    | after => exact List.mem_of_mem_take (hlimited.2 ▸ hm)
    | first => exact List.mem_of_mem_take (hlimited.2 ▸ hm)
  exact ((hall m).mp hin).1

/-- The scheduler asks for all there is after its bound. -/
theorem returns_since {source : Messages} {bound : Int} (h : (SourceQuery.since bound).Returns source l)
    {m : SourceMessage} (hm : source m.id = some m.row) (hmatch : (SourceQuery.since bound).Matches m) : m ∈ l := by
  obtain ⟨all, -, -, hall, hlimited⟩ := h
  have heq : l = all := hlimited
  subst heq
  exact (hall m).mpr ⟨hm, hmatch⟩

abbrev ToolSafe {α : Type} (clock : Clock) (i : Nat) (Q : α → RepairState → Prop) (p : RepairProg α)
    (s : RepairState) : Prop :=
  Safe repairSemantics (repairContract clock) i Q p s

/-- All these messages are in the transaction of the run. -/
def Written (i : Nat) (msgs : List SourceMessage) (s : RepairState) : Prop :=
  ∃ rows, s.txs i = some rows ∧ ∀ m ∈ msgs, ∃ row ∈ rows, row.id = m.id

/-- The loop, after the rows `done`: the induction is on the messages left. -/
theorem safe_copyRows (strict : Bool) {done msgs : List SourceMessage}
    (hmsgs : ∀ m ∈ msgs, rd.source m.id = some m.row) (hreads : s.reads i = some rd) (hdone : Written i done s) :
    ToolSafe clock i (fun ok t => t.reads i = some rd ∧ (ok = true → Written i (done ++ msgs) t))
      (copyRows clock strict msgs) s := by
  induction msgs generalizing done s with
  | nil =>
    rw [List.append_nil]
    exact ⟨hreads, fun _ => hdone⟩
  | cons m rest ih =>
    unfold copyRows
    intro s₁ _ h₁
    refine ⟨trivial, fun name s₂ hexec _ => ?_⟩
    cases hexec
    have hreads₁ : s₁.reads i = some rd := h₁.reads.trans hreads
    show ToolSafe _ _ _ (if strict && name.isNone then return false else _) _
    split
    · exact ⟨hreads₁, nofun⟩
    · intro s₃ _ h₃
      have hreads₃ : s₃.reads i = some rd := h₃.reads.trans hreads₁
      have hcopied : CopiedFrom clock rd (copyOf clock m (name.getD "")) := ⟨m.row, hmsgs m List.mem_cons_self, rfl⟩
      refine ⟨⟨rd, hreads₃, hcopied⟩, fun reply s₄ hexec _ => ?_⟩
      cases hexec with
      | upsertFailed => exact ⟨hreads₃, nofun⟩
      | @upsert _ rows _ htx hfit =>
        obtain ⟨old, hold, hall⟩ := hdone
        rw [h₃.tx, h₁.tx, hold] at htx
        obtain rfl := Option.some.inj htx
        have hnext : Written i (done ++ [m]) (s₃.setTx i (some (old ++ [copyOf clock m (name.getD "")]))) := by
          refine ⟨_, txs_setTx_self _ _ _, fun m' hm' => ?_⟩
          cases List.mem_append.mp hm' with
          | inl hm' =>
            obtain ⟨row, hrow, hid⟩ := hall m' hm'
            exact ⟨row, List.mem_append_left _ hrow, hid⟩
          | inr hm' =>
            obtain rfl := List.mem_singleton.mp hm'
            exact ⟨_, List.mem_append_right _ (List.mem_singleton_self _), rfl⟩
        have hreads₄ : (s₃.setTx i (some (old ++ [copyOf clock m (name.getD "")]))).reads i = some rd := hreads₃
        have hrest := ih (fun m' hm' => hmsgs m' (List.mem_cons_of_mem _ hm')) hreads₄ hnext
        rwa [List.append_assoc] at hrest

theorem safe_writeCopies (strict : Bool) {msgs : List SourceMessage}
    (hmsgs : ∀ m ∈ msgs, rd.source m.id = some m.row) (hreads : s.reads i = some rd) :
    ToolSafe clock i
      (fun ok t => t.reads i = some rd ∧ (ok = true → ∀ m ∈ msgs, t.projections m.id ≠ none))
      (writeCopies clock strict msgs) s := by
  unfold writeCopies
  intro s₁ _ h₁
  have hreads₁ : s₁.reads i = some rd := h₁.reads.trans hreads
  refine ⟨⟨rd, hreads₁⟩, fun reply s₂ hexec _ => ?_⟩
  cases hexec with
  | beginFailed => exact ⟨hreads₁, nofun⟩
  | begin =>
    have hempty : Written i [] (s₁.setTx i (some [])) := ⟨[], txs_setTx_self _ _ _, fun m hm => absurd hm List.not_mem_nil⟩
    have hreads₂ : (s₁.setTx i (some [])).reads i = some rd := hreads₁
    refine (safe_copyRows strict hmsgs hreads₂ hempty).bind fun ok t ht => ?_
    cases ok with
    | false =>
      intro s₃ _ h₃
      refine ⟨trivial, fun _ s₄ hexec _ => ?_⟩
      cases hexec
      exact ⟨h₃.reads.trans ht.1, nofun⟩
    | true =>
      intro s₃ _ h₃
      refine ⟨trivial, fun reply s₄ hexec _ => ?_⟩
      have hreads₃ : s₃.reads i = some rd := h₃.reads.trans ht.1
      cases hexec with
      | commitFailed => exact ⟨hreads₃, nofun⟩
      | commitLost => exact ⟨hreads₃, nofun⟩
      | commit htx =>
        obtain ⟨rows, hrows, hall⟩ := ht.2 rfl
        rw [h₃.tx, hrows] at htx
        obtain rfl := Option.some.inj htx
        refine ⟨hreads₃, fun _ m hm => ?_⟩
        obtain ⟨row, hrow, hid⟩ := hall m hm
        rw [← hid]
        exact overwriteAll_copied hrow

/-- A read by a run that has no transaction open. -/
theorem safe_select {α : Type} {Q : α → RepairState → Prop} {next : Except RepoError (List SourceMessage) → RepairProg α}
    (htx : s.txs i = none) (herror : ∀ e t, ToolSafe clock i Q (next (.error e)) t)
    (hok : ∀ rd l t, q.Returns rd.source l → rd.query = q → t.reads i = some rd → ToolSafe clock i Q (next (.ok l)) t) :
    ToolSafe clock i Q (.call (.select q) next) s := by
  intro s₁ _ h₁
  refine ⟨h₁.tx.trans htx, fun reply s₂ hexec _ => ?_⟩
  cases hexec with
  | selectFailed => exact herror _ _
  | select hl => exact hok ⟨q, s₁.source, _⟩ _ _ hl rfl (Function.update_self _ _ _)

theorem safe_gapSync (after : Option (Int × Uuid)) (limit : Int) (htx : s.txs i = none) :
    ToolSafe clock i (fun _ _ => True) (gapSync clock after limit) s := by
  unfold gapSync
  refine safe_select htx (fun _ _ => trivial) fun rd l t hl _ hreads => ?_
  show ToolSafe _ _ _ (if l = [] then return () else _) _
  split
  · trivial
  · exact (safe_writeCopies true (fun m hm => returns_mem hl hm) hreads).bind fun _ _ _ => trivial

theorem safe_backfill (htx : s.txs i = none) : ToolSafe clock i (fun _ _ => True) (backfill clock) s := by
  unfold backfill
  refine safe_select htx (fun _ _ => trivial) fun rd l t hl _ hreads => ?_
  exact (safe_writeCopies true (fun m hm => returns_mem hl hm) hreads).bind fun _ _ _ => trivial

theorem safe_updateMark (hreads : s.reads i = some rd) (hall : ∀ id, rd.Covers id → s.projections id ≠ none) :
    ToolSafe clock i (fun _ _ => True) (updateMark clock) s := by
  unfold updateMark
  intro s₁ _ h₁
  refine ⟨trivial, fun now s₂ hexec _ => ?_⟩
  cases hexec
  intro s₃ _ h₃
  have hkept : ∀ id, rd.Covers id → s₃.projections id ≠ none := fun id hid => h₃.kept id (h₁.kept id (hall id hid))
  exact ⟨⟨rd, h₃.reads.trans (h₁.reads.trans hreads), hkept⟩, fun _ _ _ _ => trivial⟩

theorem safe_lastSyncTime (htx : s.txs i = none) :
    ToolSafe clock i (fun _ t => t.txs i = none) lastSyncTime s := by
  unfold lastSyncTime
  intro s₁ _ h₁
  refine ⟨trivial, fun reply s₂ hexec _ => ?_⟩
  have htx₁ : s₁.txs i = none := h₁.tx.trans htx
  -- both a missing and an unreadable mark make it read the clock
  have hclock : ToolSafe clock i (fun _ t => t.txs i = none)
      (.call .now fun now => .ret (some (now - firstRunWindow))) s₁ := by
    intro s₃ _ h₃
    refine ⟨trivial, fun now s₄ hexec _ => ?_⟩
    cases hexec
    exact h₃.tx.trans htx₁
  cases hexec with
  | getMarkFailed => exact htx₁
  | getMark =>
    match s₁.mark with
    | none => exact hclock
    | some none => exact hclock
    | some (some t) => exact htx₁

theorem safe_syncGaps (htx : s.txs i = none) : ToolSafe clock i (fun _ _ => True) (syncGaps clock) s := by
  unfold syncGaps
  refine (safe_lastSyncTime htx).bind fun since t ht => ?_
  cases since with
  | none => trivial
  | some bound =>
    refine safe_select ht (fun _ _ => trivial) fun rd l t hl hquery hreads => ?_
    show ToolSafe _ _ _ (if l = [] then return () else _) _
    split
    · trivial
    · refine (safe_writeCopies false (fun m hm => returns_mem hl hm) hreads).bind fun ok u hu => ?_
      cases ok with
      | false => trivial
      | true =>
        refine safe_updateMark hu.1 fun id hid => ?_
        obtain ⟨row, hrow, hmatch⟩ := hid
        rw [hquery] at hmatch
        exact hu.2 rfl ⟨id, row⟩ (returns_since hl hrow hmatch)

theorem safe_tool (tool : Tool) (htx : s.txs i = none) : ToolSafe clock i (fun _ _ => True) (tool.prog clock) s := by
  cases tool with
  | gapSync after limit => exact safe_gapSync after limit htx
  | backfill => exact safe_backfill htx
  | syncGaps => exact safe_syncGaps htx

end Programs

section Runs

variable {clock : Clock} {pool pool' : RepairPool} {trace : List RepairLabel}

/-- No tool is running. -/
structure Idle (pool : RepairPool) : Prop where
  txs : ∀ i, pool.shared.txs i = none
  threads : pool.threads = []

abbrev RepairGood (clock : Clock) (pool : RepairPool) : Prop :=
  Good repairSemantics (repairContract clock) (fun _ _ _ => True) pool

/-- Besides, a run that has not begun has no transaction. -/
structure RunsGood (clock : Clock) (pool : RepairPool) : Prop where
  good : RepairGood clock pool
  fresh : ∀ i, pool.threads.length ≤ i → pool.shared.txs i = none

theorem Idle.good (h : Idle pool) : RunsGood clock pool where
  good := by
    refine ⟨fun i rows hrows => ?_, fun i p hp => ?_⟩
    · rw [h.txs i] at hrows
      cases hrows
    · rw [h.threads] at hp
      cases hp
  fresh i _ := h.txs i

theorem RunsGood.step {l : RepairLabel} (h : RunsGood clock pool) (hstep : RepairStep clock pool l pool') :
    RunsGood clock pool' where
  good := by
    refine h.good.step_spawn repairContract_sound (fun _ _ _ _ _ _ => trivial) ?_ hstep
    rintro _ ⟨tool, rfl⟩
    exact safe_tool tool (h.fresh _ (Nat.le_refl _))
  fresh := h.good.unmarked repairContract_sound (fun _ _ _ htx hleaves => hleaves.tx.trans htx) hstep h.fresh

theorem RunsGood.run (h : RunsGood clock pool) (hrun : Run (RepairStep clock) pool trace pool') :
    RunsGood clock pool' :=
  hrun.invariant (fun _ _ _ hp hstep => hp.step hstep) h

end Runs

end Chinwag.Repair

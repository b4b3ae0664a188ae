import Mathlib.Logic.Function.Basic
import Chinwag.Lib.Program

/-!
# Two clients that read a row, change some columns and write all of it back

A client that writes puts back what it has read of the columns it does not change. If the two
change disjoint columns, both changes are in the final row when one client reads after the other
has written; when both read first, the second to write undoes what the first one did.
-/
namespace Chinwag.ReadModifyWrite

open Transition Program

variable {κ : Type} {ν : κ → Type} {ι : Type}

abbrev Row (ν : κ → Type) := (c : κ) → ν c

/-- The new values of some columns. -/
abbrev Patch (ν : κ → Type) := (c : κ) → Option (ν c)

namespace Patch

variable (p q : Patch ν) (row : Row ν)

def on : Row ν := fun c => (p c).getD (row c)

/-- The row has the values of the patch. -/
def In : Prop := ∀ c v, p c = some v → row c = v

def Disjoint : Prop := ∀ c, p c = none ∨ q c = none

variable {p q row}

theorem Disjoint.symm (h : p.Disjoint q) : q.Disjoint p := fun c => (h c).symm

theorem in_on : p.In (p.on row) := by
  intro c v hv
  simp [on, hv]

/-- Another patch does not reach the columns. -/
theorem Disjoint.in_on (h : p.Disjoint q) : p.In (q.on row) ↔ p.In row := by
  refine forall_congr' fun c => forall_congr' fun v => imp_congr_right fun hv => ?_
  have hq : q c = none := (h c).resolve_left (by rw [hv]; exact Option.some_ne_none v)
  simp [on, hq]

end Patch

/-- How far a client has come. -/
inductive Phase (ν : κ → Type) where
  | start
  | read (copy : Row ν)
  | done (p : Patch ν)

structure State (ι : Type) (ν : κ → Type) where
  row : Row ν
  phase : ι → Phase ν

inductive Access (ι : Type) where
  | read (i : ι)
  | write (i : ι)
  deriving DecidableEq

namespace Access

def client : Access ι → ι
  | .read i => i
  | .write i => i

def isWrite : Access ι → Bool
  | .read _ => false
  | .write _ => true

end Access

section Clients

variable [DecidableEq ι]

inductive Step : State ι ν → Access ι → State ι ν → Prop where
  | read {s : State ι ν} {i : ι} (h : s.phase i = .start) :
      Step s (.read i) ⟨s.row, Function.update s.phase i (.read s.row)⟩
  | write {s : State ι ν} {i : ι} {copy : Row ν} (p : Patch ν) (h : s.phase i = .read copy) :
      Step s (.write i) ⟨p.on copy, Function.update s.phase i (.done p)⟩

/-- One client reads after another has written. -/
def Serial (trace : List (Access ι)) : Prop := ∃ i j, i ≠ j ∧ [Access.write i, Access.read j].Sublist trace

def FirstWriter (i : ι) (trace : List (Access ι)) : Prop := trace.find? Access.isWrite = some (.write i)

/-- The runs of two clients, `x` the first to read. -/
inductive Stage (row : Row ν) (x y : ι) : List (Access ι) → Row ν → Phase ν → Phase ν → Prop where
  | fresh : Stage row x y [] row .start .start
  | read : Stage row x y [.read x] row (.read row) .start
  | written (p : Patch ν) : Stage row x y [.read x, .write x] (p.on row) (.done p) .start
  | reread (p : Patch ν) : Stage row x y [.read x, .write x, .read y] (p.on row) (.done p) (.read (p.on row))
  | serial (p q : Patch ν) :
      Stage row x y [.read x, .write x, .read y, .write y] (q.on (p.on row)) (.done p) (.done q)
  | both : Stage row x y [.read x, .read y] row (.read row) (.read row)
  | first (p : Patch ν) : Stage row x y [.read x, .read y, .write x] (p.on row) (.done p) (.read row)
  | second (q : Patch ν) : Stage row x y [.read x, .read y, .write y] (q.on row) (.read row) (.done q)
  | lostFirst (p q : Patch ν) :
      Stage row x y [.read x, .read y, .write x, .write y] (q.on row) (.done p) (.done q)
  | lostSecond (p q : Patch ν) :
      Stage row x y [.read x, .read y, .write y, .write x] (p.on row) (.done p) (.done q)

variable {row : Row ν} {x y a b : ι} {past trace : List (Access ι)} {s t : State ι ν} {e : Access ι} {p q : Patch ν}

/-- In either order. -/
def Staged (row : Row ν) (a b : ι) (trace : List (Access ι)) (s : State ι ν) : Prop :=
  Stage row a b trace s.row (s.phase a) (s.phase b) ∨ Stage row b a trace s.row (s.phase b) (s.phase a)

section Moves

variable {r copy : Row ν} {px py : Phase ν}

omit [DecidableEq ι] in
theorem stage_read (h : Stage row x y past r .start py) : Stage row x y (past ++ [.read x]) r (.read r) py := by
  cases h
  exact .read

omit [DecidableEq ι] in
theorem stage_read_other (h : Stage row x y past r px .start) :
    Stage row x y (past ++ [.read y]) r px (.read r) ∨ Stage row y x (past ++ [.read y]) r (.read r) px := by
  cases h with
  | fresh => exact .inr .read
  | read => exact .inl .both
  | written p => exact .inl (.reread p)

omit [DecidableEq ι] in
theorem stage_write (h : Stage row x y past r (.read copy) py) (p : Patch ν) :
    Stage row x y (past ++ [.write x]) (p.on copy) (.done p) py := by
  cases h with
  | read => exact .written p
  | both => exact .first p
  | second q => exact .lostSecond p q

omit [DecidableEq ι] in
theorem stage_write_other (h : Stage row x y past r px (.read copy)) (q : Patch ν) :
    Stage row x y (past ++ [.write y]) (q.on copy) px (.done q) := by
  cases h with
  | reread p => exact .serial p q
  | both => exact .second q
  | first p => exact .lostFirst p q

end Moves

theorem stage_step (hab : a ≠ b) (h : Stage row a b past s.row (s.phase a) (s.phase b)) (hstep : Step s e t)
    (he : e.client = a ∨ e.client = b) : Staged row a b (past ++ [e]) t := by
  unfold Staged
  cases hstep with
  | @read i hi =>
    obtain rfl | rfl : i = a ∨ i = b := he
    · rw [hi] at h
      left
      simpa [Function.update_of_ne hab.symm] using stage_read h
    · rw [hi] at h
      simpa [Function.update_of_ne hab] using stage_read_other h
  | @write i copy p hi =>
    obtain rfl | rfl : i = a ∨ i = b := he
    · rw [hi] at h
      left
      simpa [Function.update_of_ne hab.symm] using stage_write h p
    · rw [hi] at h
      left
      simpa [Function.update_of_ne hab] using stage_write_other h p

theorem staged_step (hab : a ≠ b) (h : Staged row a b past s) (hstep : Step s e t)
    (he : e.client = a ∨ e.client = b) : Staged row a b (past ++ [e]) t := by
  rcases h with h | h
  · exact stage_step hab h hstep he
  · exact (stage_step hab.symm h hstep he.symm).symm

theorem staged_run (hab : a ≠ b) (h : Run Step ⟨row, fun _ => .start⟩ trace s)
    (hclients : ∀ e ∈ trace, e.client = a ∨ e.client = b) : Staged row a b trace s := by
  have hkeep : (∀ e ∈ [] ++ trace, e.client = a ∨ e.client = b) → Staged row a b ([] ++ trace) s := by
    refine h.history (P := fun past s => (∀ e ∈ past, e.client = a ∨ e.client = b) → Staged row a b past s)
      ?_ [] fun _ => .inl .fresh
    intro past s e t ih hstep hpast
    refine staged_step hab (ih fun e' he' => hpast e' (List.mem_append_left _ he')) hstep ?_
    exact hpast e (List.mem_append_right _ (List.mem_singleton_self e))
  exact hkeep hclients

omit [DecidableEq ι] in
theorem serial_served (hxy : x ≠ y) : Serial [Access.read x, .write x, .read y, .write y] :=
  ⟨x, y, hxy, .cons _ (.cons_cons _ (.cons_cons _ (.cons _ .slnil)))⟩

omit [DecidableEq ι] in
/-- Nobody reads after two writes that end the run. -/
theorem not_serial_lost {i j k l : ι} : ¬ Serial [Access.read i, .read j, .write k, .write l] := by
  rintro ⟨m, n, -, h⟩
  simp [List.sublist_cons_iff] at h

omit [DecidableEq ι] in
theorem kept_iff_of_stage (hxy : x ≠ y) (hdis : p.Disjoint q) (h : Stage row x y trace s.row (.done p) (.done q)) :
    p.In s.row ∧ q.In s.row ↔
      Serial trace ∨ (FirstWriter x trace ∧ p.In row) ∨ (FirstWriter y trace ∧ q.In row) := by
  generalize s.row = r at h
  cases h with
  | serial => exact ⟨fun _ => .inl (serial_served hxy), fun _ => ⟨hdis.in_on.mpr Patch.in_on, Patch.in_on⟩⟩
  | lostFirst =>
    have hfirst : FirstWriter x [Access.read x, .read y, .write x, .write y] := rfl
    have hsecond : ¬ FirstWriter y [Access.read x, .read y, .write x, .write y] := fun h =>
      hxy (Access.write.inj (Option.some.inj h))
    simp [hfirst, hsecond, not_serial_lost, hdis.in_on, Patch.in_on]
  | lostSecond =>
    have hfirst : ¬ FirstWriter x [Access.read x, .read y, .write y, .write x] := fun h =>
      hxy.symm (Access.write.inj (Option.some.inj h))
    have hsecond : FirstWriter y [Access.read x, .read y, .write y, .write x] := rfl
    simp [hfirst, hsecond, not_serial_lost, hdis.symm.in_on, Patch.in_on]

/-- Both changes are in the final row exactly if the clients came one after the other, or what the
first one wrote was there before. -/
theorem kept_iff (hab : a ≠ b) (h : Run Step ⟨row, fun _ => .start⟩ trace s)
    (hclients : ∀ e ∈ trace, e.client = a ∨ e.client = b) (ha : s.phase a = .done p) (hb : s.phase b = .done q)
    (hdis : p.Disjoint q) :
    p.In s.row ∧ q.In s.row ↔
      Serial trace ∨ (FirstWriter a trace ∧ p.In row) ∨ (FirstWriter b trace ∧ q.In row) := by
  rcases staged_run hab h hclients with h | h
  · rw [ha, hb] at h
    exact kept_iff_of_stage hab hdis h
  · rw [ha, hb] at h
    rw [and_comm, or_comm (a := FirstWriter a trace ∧ _)]
    exact kept_iff_of_stage hab.symm hdis.symm h

end Clients

section Pools

variable {σ ε Cmd α : Type} {Reply : Cmd → Type}

inductive Kind where
  | read
  | write

def Kind.access (i : ι) : Kind → Access ι
  | .read => .read i
  | .write => .write i

/-- The accesses to the row in a run of programs. -/
def accesses (kind : Cmd → Option Kind) : List (Label ε Cmd Reply α) → List (Access Nat)
  | [] => []
  | .cmd i c _ :: trace => ((kind c).map (Kind.access i)).toList ++ accesses kind trace
  | .spawn _ :: trace => accesses kind trace
  | .env _ :: trace => accesses kind trace

/-- What a command does to the row and to the client that issues it. -/
inductive Moves (row : σ → Option (Row ν)) (at_ : Prog Cmd Reply α → Phase ν → Prop) (p : Prog Cmd Reply α)
    (s t : σ) : Option Kind → Phase ν → Prop where
  | silent {ph : Phase ν} (hat : at_ p ph) (hrow : row t = row s) : Moves row at_ p s t none ph
  | read {v : Row ν} (hv : row s = some v) (hat : at_ p (.read v)) (hrow : row t = row s) :
      Moves row at_ p s t (some .read) .start
  | write {copy : Row ν} (q : Patch ν) (hat : at_ p (.done q)) (hrow : row t = some (q.on copy)) :
      Moves row at_ p s t (some .write) (.read copy)

/-- Programs that are clients of a row of the shared state, as long as they do not fail. -/
structure Clients (S : Semantics σ ε Cmd Reply) (row : σ → Option (Row ν)) (kind : Cmd → Option Kind)
    (failed : α → Prop) (at_ : Nat → Prog Cmd Reply α → Phase ν → Prop) : Prop where
  env : ∀ s e t, S.env s e t → row t = row s
  cmd : ∀ i c next ph s r t, at_ i (.call c next) ph → S.exec i c s r t → (row s).isSome = true →
    (∃ a, next r = .ret a ∧ failed a) ∨ Moves row (at_ i) (next r) s t (kind c) ph

variable {S : Semantics σ ε Cmd Reply} {row : σ → Option (Row ν)} {kind : Cmd → Option Kind} {failed : α → Prop}
  {at_ : Nat → Prog Cmd Reply α → Phase ν → Prop} {past trace : List (Label ε Cmd Reply α)}
  {pool pool' : Pool σ Cmd Reply α} {l : Label ε Cmd Reply α} {v : Row ν} {n : Nat}

theorem accesses_append (past trace : List (Label ε Cmd Reply α)) :
    accesses kind (past ++ trace) = accesses kind past ++ accesses kind trace := by
  induction past with
  | nil => rfl
  | cons l past ih => cases l <;> simp [accesses, ih]

/-- The programs are where a run of clients has come to. -/
structure Follow (row : σ → Option (Row ν)) (kind : Cmd → Option Kind)
    (at_ : Nat → Prog Cmd Reply α → Phase ν → Prop) (v : Row ν) (past : List (Label ε Cmd Reply α))
    (pool : Pool σ Cmd Reply α) (st : State Nat ν) : Prop where
  run : Run Step ⟨v, fun _ => .start⟩ (accesses kind past) st
  row : row pool.shared = some st.row
  threads : ∀ i p, pool.threads[i]? = some p → at_ i p (st.phase i)
  clients : ∀ e ∈ accesses kind past, e.client < pool.threads.length

/-- A failure stays; short of one, a step of the programs is a step of the clients or none. -/
def Tracks (row : σ → Option (Row ν)) (kind : Cmd → Option Kind) (failed : α → Prop)
    (at_ : Nat → Prog Cmd Reply α → Phase ν → Prop) (v : Row ν) (past : List (Label ε Cmd Reply α))
    (pool : Pool σ Cmd Reply α) : Prop :=
  (∃ (i : Nat) (a : α), pool.threads[i]? = some (.ret a) ∧ failed a) ∨ ∃ st, Follow row kind at_ v past pool st

theorem at_set {threads : List (Prog Cmd Reply α)} {phase : Nat → Phase ν} {i : Nat} {p : Prog Cmd Reply α}
    {ph : Phase ν} (h : ∀ j q, threads[j]? = some q → at_ j q (phase j)) (hp : at_ i p ph) {j : Nat}
    {q : Prog Cmd Reply α} (hj : (threads.set i p)[j]? = some q) : at_ j q (Function.update phase i ph j) := by
  by_cases heq : i = j
  · subst heq
    obtain ⟨hlt, hget⟩ := List.getElem?_eq_some_iff.mp hj
    rw [List.getElem_set_self] at hget
    rw [← hget, Function.update_self]
    exact hp
  · rw [List.getElem?_set_ne heq] at hj
    rw [Function.update_of_ne (Ne.symm heq)]
    exact h j q hj

theorem accesses_concat_cmd {i : Nat} {c : Cmd} {r : Reply c} {k : Kind} (hk : kind c = some k) :
    accesses kind (past ++ [(.cmd i c r : Label ε Cmd Reply α)]) = accesses kind past ++ [k.access i] := by
  rw [accesses_append, accesses, hk]
  rfl

theorem access_client (k : Kind) (i : ι) : (k.access i).client = i := by cases k <;> rfl

theorem follow_cmd {i : Nat} {c : Cmd} {next : Reply c → Prog Cmd Reply α} {r : Reply c} {s : σ} {st : State Nat ν}
    (h : Follow row kind at_ v past pool st) (hi : pool.threads[i]? = some (.call c next))
    (hmoves : Moves row (at_ i) (next r) pool.shared s (kind c) (st.phase i)) :
    ∃ st', Follow row kind at_ v (past ++ [.cmd i c r]) ⟨s, pool.threads.set i (next r)⟩ st' := by
  have hlt : i < pool.threads.length := (List.getElem?_eq_some_iff.mp hi).1
  have hclients : ∀ k, kind c = some k → ∀ e ∈ accesses kind (past ++ [.cmd i c r]),
      e.client < (pool.threads.set i (next r)).length := by
    intro k hk e he
    rw [List.length_set]
    rw [accesses_concat_cmd hk] at he
    rcases List.mem_append.mp he with he | he
    · exact h.clients e he
    · rw [List.mem_singleton.mp he, access_client]
      exact hlt
  generalize hk : kind c = k at hmoves
  generalize hph : st.phase i = ph at hmoves
  cases hmoves with
  | silent hat hrow =>
    have hsame : accesses kind (past ++ [.cmd i c r]) = accesses kind past := by
      rw [accesses_append, accesses, hk]
      exact List.append_nil _
    refine ⟨st, by rw [hsame]; exact h.run, hrow.trans h.row, fun j q hj => ?_, ?_⟩
    · have hset := at_set h.threads hat hj
      rwa [← hph, Function.update_eq_self] at hset
    · rw [hsame, List.length_set]
      exact h.clients
  | read hv hat hrow =>
    obtain rfl := Option.some.inj (hv.symm.trans h.row)
    refine ⟨⟨st.row, Function.update st.phase i (.read st.row)⟩, ?_, hrow.trans h.row,
      fun j q hj => at_set h.threads hat hj, hclients _ hk⟩
    rw [accesses_concat_cmd hk]
    exact h.run.append (.single (.read hph))
  | @write copy q hat hrow =>
    refine ⟨⟨q.on copy, Function.update st.phase i (.done q)⟩, ?_, hrow,
      fun j q hj => at_set h.threads hat hj, hclients _ hk⟩
    rw [accesses_concat_cmd hk]
    exact h.run.append (.single (.write q hph))

theorem tracks_step (hc : Clients S row kind failed at_) (h : Tracks row kind failed at_ v past pool)
    (hstep : SoleStep S pool l pool') : Tracks row kind failed at_ v (past ++ [l]) pool' := by
  cases hstep with
  | spawn hp => exact hp.elim
  | @env e s he =>
    rcases h with hfail | ⟨st, hfollow⟩
    · exact .inl hfail
    · have hsame : accesses kind (past ++ [.env e]) = accesses kind past := by
        rw [accesses_append]
        exact List.append_nil _
      refine .inr ⟨st, ?_, ?_, hfollow.threads, ?_⟩
      · rw [hsame]
        exact hfollow.run
      · rw [hc.env _ _ _ he]
        exact hfollow.row
      · rw [hsame]
        exact hfollow.clients
  | @cmd i c next r s hi hexec =>
    have hlt : i < pool.threads.length := (List.getElem?_eq_some_iff.mp hi).1
    rcases h with ⟨j, a, hj, ha⟩ | ⟨st, hfollow⟩
    · left
      have hne : i ≠ j := by
        rintro rfl
        cases hi.symm.trans hj
      exact ⟨j, a, (List.getElem?_set_ne hne).trans hj, ha⟩
    · have hrow : (row pool.shared).isSome = true := by
        rw [hfollow.row]
        rfl
      rcases hc.cmd i c next _ _ r s (hfollow.threads i _ hi) hexec hrow with ⟨a, ha, hfail⟩ | hmoves
      · exact .inl ⟨i, a, by rw [← ha]; exact List.getElem?_set_self hlt, hfail⟩
      · exact .inr (follow_cmd hfollow hi hmoves)

section Two

variable {s t : σ} {p q p' q' : Prog Cmd Reply α}

theorem run_first (h : Advance (S.exec 0) p s p' t) :
    ∃ trace, Run (SoleStep S) ⟨s, [p, q]⟩ trace ⟨t, [p', q]⟩ := by
  have hp : [p, q][0]? = some p := rfl
  exact h.run hp

theorem run_second (h : Advance (S.exec 1) q s q' t) :
    ∃ trace, Run (SoleStep S) ⟨s, [p, q]⟩ trace ⟨t, [p, q']⟩ := by
  have hq : [p, q][1]? = some q := rfl
  exact h.run hq

/-- Both read before either writes. -/
theorem run_overlapping {p₁ q₁ : Prog Cmd Reply α} {u : σ} (hp : Advance (S.exec 0) p s p₁ s)
    (hq : Advance (S.exec 1) q s q₁ s) (hp₁ : Advance (S.exec 0) p₁ s p' t) (hq₁ : Advance (S.exec 1) q₁ t q' u) :
    ∃ trace, Run (SoleStep S) ⟨s, [p, q]⟩ trace ⟨u, [p', q']⟩ := by
  obtain ⟨_, h₁⟩ := run_first (q := q) hp
  obtain ⟨_, h₂⟩ := run_second (p := p₁) hq
  obtain ⟨_, h₃⟩ := run_first (q := q₁) hp₁
  obtain ⟨_, h₄⟩ := run_second (p := p') hq₁
  exact ⟨_, h₁.append (h₂.append (h₃.append h₄))⟩

end Two

/-- The rule for two clients that have both returned and not failed. -/
theorem Clients.kept_iff (hc : Clients S row kind failed at_) {p₀ p₁ : Prog Cmd Reply α} {s t : σ} {x y : α}
    (patch : Nat → α → Patch ν) (h₀ : at_ 0 p₀ .start) (h₁ : at_ 1 p₁ .start) (hrow : row s = some v)
    (hrun : Run (SoleStep S) ⟨s, [p₀, p₁]⟩ trace ⟨t, [.ret x, .ret y]⟩) (hx : ¬ failed x) (hy : ¬ failed y)
    (hdone : ∀ i a ph, at_ i (.ret a) ph → ph = .done (patch i a)) (hdis : (patch 0 x).Disjoint (patch 1 y)) :
    ∃ w, row t = some w ∧ ((patch 0 x).In w ∧ (patch 1 y).In w ↔
      Serial (accesses kind trace) ∨ (FirstWriter 0 (accesses kind trace) ∧ (patch 0 x).In v) ∨
        (FirstWriter 1 (accesses kind trace) ∧ (patch 1 y).In v)) := by
  have hthreads : ∀ i p, [p₀, p₁][i]? = some p → at_ i p .start := by
    intro i p hi
    rcases i with _ | _ | i
    · exact Option.some.inj hi ▸ h₀
    · exact Option.some.inj hi ▸ h₁
    · cases hi
  have hbegin : Tracks row kind failed at_ v ([] : List (Label ε Cmd Reply α)) ⟨s, [p₀, p₁]⟩ :=
    .inr ⟨_, .nil _, hrow, hthreads, nofun⟩
  have hend : Tracks row kind failed at_ v ([] ++ trace) ⟨t, [.ret x, .ret y]⟩ :=
    hrun.history (fun _ _ _ _ h hst => tracks_step hc h hst) [] hbegin
  rcases hend with ⟨i, a, hi, ha⟩ | ⟨st, hfollow⟩
  · rcases i with _ | _ | i
    · cases hi
      exact absurd ha hx
    · cases hi
      exact absurd ha hy
    · cases hi
  · refine ⟨st.row, hfollow.row, ?_⟩
    have hclients : ∀ e ∈ accesses kind trace, e.client = 0 ∨ e.client = 1 := by
      intro e he
      have hlt : e.client < 2 := hfollow.clients e he
      omega
    exact ReadModifyWrite.kept_iff (by decide) hfollow.run hclients (hdone 0 x _ (hfollow.threads 0 _ rfl))
      (hdone 1 y _ (hfollow.threads 1 _ rfl)) hdis

end Pools

end Chinwag.ReadModifyWrite

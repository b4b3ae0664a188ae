import Mathlib.Data.List.Basic
import Mathlib.Data.List.Nodup

/-!
# Tables with a primary key

Rows, no two of which share a key. An insertion needs a free key and an update keeps the key of
every row, so a table that violates its key cannot be built. What a statement did is read off
`find_insert` and `find_update`; rows are counted with `count`.
-/
namespace Chinwag

structure KeyedTable {ρ κ : Type} (key : ρ → κ) where
  rows : List ρ
  pkey : (rows.map key).Nodup

namespace KeyedTable

variable {ρ κ : Type} {key : ρ → κ}

def empty : KeyedTable key := ⟨[], List.nodup_nil⟩

/-- An update of other columns than the key. -/
def update (t : KeyedTable key) (p : ρ → Bool) (f : ρ → ρ) (hf : ∀ r, key (f r) = key r) :
    KeyedTable key where
  rows := t.rows.map fun r => if p r then f r else r
  pkey := by
    have hkey : ∀ r, key (if p r then f r else r) = key r := by
      intro r
      split
      · exact hf r
      · rfl
    have hmap : (t.rows.map fun r => if p r then f r else r).map key = t.rows.map key := by
      rw [List.map_map]
      exact List.map_congr_left fun r _ => hkey r
    rw [hmap]
    exact t.pkey

def count (t : KeyedTable key) (p : ρ → Bool) : Nat := t.rows.countP p

theorem nodup_rows (t : KeyedTable key) : t.rows.Nodup := List.Nodup.of_map key t.pkey

section Find

variable [DecidableEq κ] (t : KeyedTable key)

/-- The row with that key. -/
def find (k : κ) : Option ρ := t.rows.find? fun r => key r = k

variable {t} {t' : KeyedTable key} {k : κ} {r : ρ}

theorem find_eq_some : t.find k = some r ↔ r ∈ t.rows ∧ key r = k := by
  unfold find
  constructor
  · intro h
    have hkey := List.find?_some h
    exact ⟨List.mem_of_find?_eq_some h, of_decide_eq_true hkey⟩
  · rintro ⟨hr, rfl⟩
    obtain ⟨r', hr'⟩ : ∃ r', t.rows.find? (fun s => key s = key r) = some r' := by
      refine Option.isSome_iff_exists.mp ?_
      rw [List.find?_isSome]
      exact ⟨r, hr, decide_eq_true rfl⟩
    have hfound := List.find?_some hr'
    have heq : r' = r :=
      List.inj_on_of_nodup_map t.pkey (List.mem_of_find?_eq_some hr') hr (of_decide_eq_true hfound)
    rw [hr', heq]

theorem find_eq_none : t.find k = none ↔ ∀ r ∈ t.rows, key r ≠ k := by
  unfold find
  rw [List.find?_eq_none]
  constructor
  · intro h r hr hkey
    exact h r hr (decide_eq_true hkey)
  · intro h r hr hkey
    exact h r hr (of_decide_eq_true hkey)

theorem find_of_mem (h : r ∈ t.rows) : t.find (key r) = some r := find_eq_some.mpr ⟨h, rfl⟩

theorem key_of_find (h : t.find k = some r) : key r = k := (find_eq_some.mp h).2

@[simp] theorem find_empty : (empty : KeyedTable key).find k = none := rfl

/-- Insert a row whose key is free. -/
def insert (t : KeyedTable key) (r : ρ) (h : t.find (key r) = none) : KeyedTable key where
  rows := t.rows ++ [r]
  pkey := by
    rw [List.map_append, List.nodup_append]
    refine ⟨t.pkey, List.nodup_singleton _, ?_⟩
    intro x hx y hy
    obtain ⟨s, hs, rfl⟩ := List.mem_map.mp hx
    obtain rfl := List.mem_singleton.mp hy
    exact find_eq_none.mp h s hs

theorem find_insert {h : t.find (key r) = none} (k : κ) :
    (t.insert r h).find k = if k = key r then some r else t.find k := by
  split
  · next hk =>
    rw [hk]
    exact find_of_mem (List.mem_append_right _ (List.mem_singleton_self _))
  · next hk =>
    unfold find insert
    rw [List.find?_append]
    have hlast : [r].find? (fun s => decide (key s = k)) = none := by
      rw [List.find?_singleton, if_neg]
      intro hr
      exact hk (of_decide_eq_true hr).symm
    rw [hlast, Option.or_none]

variable (t) in
theorem find_update (p : ρ → Bool) {f : ρ → ρ} (hf : ∀ r, key (f r) = key r) (k : κ) :
    (t.update p f hf).find k = (t.find k).map fun r => if p r then f r else r := by
  unfold find update
  rw [List.find?_map]
  congr 2
  funext r
  simp only [Function.comp_apply]
  split
  · rw [hf]
  · rfl

/-- An update of a key that has no row. -/
theorem update_of_free {p : ρ → Bool} {f : ρ → ρ} {hf : ∀ r, key (f r) = key r} (hp : ∀ r, p r = true → key r = k)
    (hfree : t.find k = none) : t.update p f hf = t := by
  have hrows : (t.rows.map fun r => if p r then f r else r) = t.rows.map id := by
    refine List.map_congr_left fun r hr => if_neg fun hsel => ?_
    exact find_eq_none.mp hfree r hr (hp r hsel)
  rw [List.map_id] at hrows
  unfold update
  congr

theorem count_insert {h : t.find (key r) = none} (p : ρ → Bool) :
    (t.insert r h).count p = t.count p + if p r then 1 else 0 := by
  unfold count insert
  rw [List.countP_append, List.countP_singleton]

/-- Of the rows with one key there is at most one. -/
theorem count_key (p : ρ → Bool) (h : ∀ r, p r = true → key r = k) :
    t.count p = if (t.find k).any p then 1 else 0 := by
  unfold count
  cases hfind : t.find k with
  | none =>
    rw [List.countP_eq_zero.mpr]
    · rfl
    · intro r hr hp
      exact find_eq_none.mp hfind r hr (h r hp)
  | some r =>
    obtain ⟨hr, hkey⟩ := find_eq_some.mp hfind
    have honly : t.rows.countP p = t.rows.countP fun s => decide (key s = k) && p r := by
      refine List.countP_congr ?_
      intro s hs
      constructor
      · intro hp
        obtain rfl : s = r := List.inj_on_of_nodup_map t.pkey hs hr ((h s hp).trans hkey.symm)
        rw [hp, decide_eq_true hkey]
        rfl
      · intro hp
        obtain ⟨hs', hp⟩ := Bool.and_eq_true_iff.mp hp
        obtain rfl : s = r := List.inj_on_of_nodup_map t.pkey hs hr ((of_decide_eq_true hs').trans hkey.symm)
        exact hp
    have hone : t.rows.countP (fun s => decide (key s = k)) = 1 := by
      have hcount : (t.rows.map key).count k = 1 :=
        List.count_eq_one_of_mem t.pkey (List.mem_map.mpr ⟨r, hr, hkey⟩)
      rw [List.count, List.countP_map] at hcount
      rw [← hcount]
      refine List.countP_congr ?_
      intro s _
      simp
    rw [honly, Option.any_some]
    cases p r with
    | false => simp
    | true => simpa using hone

theorem mem_rows : r ∈ t.rows ↔ t.find (key r) = some r := by
  rw [find_eq_some]
  exact ⟨fun h => ⟨h, rfl⟩, fun h => h.1⟩

/-- A table is read by its keys: what holds of them holds of the rows, up to their order. -/
theorem count_of_find_map {g : ρ → ρ} (hg : ∀ r, key (g r) = key r)
    (h : ∀ k, t'.find k = (t.find k).map g) (p : ρ → Bool) : t'.count p = t.count fun r => p (g r) := by
  have hkeys : ((t.rows.map g).map key).Nodup := by
    rw [List.map_map]
    have hmap : t.rows.map (key ∘ g) = t.rows.map key := List.map_congr_left fun r _ => hg r
    rw [hmap]
    exact t.pkey
  have hperm : t'.rows.Perm (t.rows.map g) := by
    refine (List.perm_ext_iff_of_nodup t'.nodup_rows (List.Nodup.of_map key hkeys)).mpr fun r => ?_
    rw [mem_rows, h, Option.map_eq_some_iff, List.mem_map]
    constructor
    · rintro ⟨s, hs, rfl⟩
      exact ⟨s, (find_eq_some.mp hs).1, rfl⟩
    · rintro ⟨s, hs, rfl⟩
      rw [hg]
      exact ⟨s, find_of_mem hs, rfl⟩
  unfold count
  rw [hperm.countP_eq, List.countP_map]
  rfl

theorem count_of_find_insert (hfree : t.find (key r) = none)
    (h : ∀ k, t'.find k = if k = key r then some r else t.find k) (p : ρ → Bool) :
    t'.count p = t.count p + if p r then 1 else 0 := by
  have hfind : ∀ k, t'.find k = ((t.insert r hfree).find k).map id := by
    intro k
    rw [h, find_insert, Option.map_id_fun, id_eq]
  rw [count_of_find_map (fun _ => rfl) hfind]
  exact count_insert p

end Find

end KeyedTable

end Chinwag

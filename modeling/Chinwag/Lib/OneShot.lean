import Mathlib.Data.List.Nodup
import Mathlib.Logic.Function.Basic
import Mathlib.Tactic.Common

/-!
# Values that can be taken once

A shelf holds values under keys until they expire or are taken. It remembers who placed and who took
what, and when. Where no key is placed twice, a value is taken at most once, by the key it was placed
under, and in time.
-/
namespace Chinwag.OneShot

/-- Who placed or took the value of a key, and when. -/
structure Entry (K V W : Type) where
  key : K
  value : V
  who : W
  time : Nat

/-- What is held under each key, and until when; the clock, and what was placed and taken so far. -/
structure Shelf (K V W : Type) where
  held : K → Option (V × Nat)
  now : Nat
  placed : List (Entry K V W)
  taken : List (Entry K V W)

variable {K V W : Type}

namespace Shelf

def look (s : Shelf K V W) (k : K) : Option V :=
  (s.held k).bind fun e => if s.now ≤ e.2 then some e.1 else none

def wait (s : Shelf K V W) (elapsed : Nat) : Shelf K V W := { s with now := s.now + elapsed }

variable [DecidableEq K]

def place (s : Shelf K V W) (w : W) (k : K) (v : V) (ttl : Nat) : Shelf K V W :=
  { s with held := Function.update s.held k (some (v, s.now + ttl)), placed := ⟨k, v, w, s.now⟩ :: s.placed }

/-- The value is gone, and nobody was given it. -/
def drop (s : Shelf K V W) (k : K) : Shelf K V W := { s with held := Function.update s.held k none }

def take (s : Shelf K V W) (w : W) (k : K) : Shelf K V W :=
  match s.look k with
  | none => s
  | some v => { s.drop k with taken := ⟨k, v, w, s.now⟩ :: s.taken }

end Shelf

/-- Each key was placed at most once, what is held was placed and not taken, and what was taken was
placed and taken in time. -/
structure Inv (ttl : Nat) (s : Shelf K V W) : Prop where
  keys : (s.placed.map Entry.key).Nodup
  held : ∀ k e, s.held k = some e →
    (∃ p ∈ s.placed, p.key = k ∧ e = (p.value, p.time + ttl)) ∧ ∀ r ∈ s.taken, r.key ≠ k
  past : ∀ p ∈ s.placed, p.time ≤ s.now
  taken : ∀ r ∈ s.taken, ∃ p ∈ s.placed, p.key = r.key ∧ p.value = r.value ∧ p.time ≤ r.time ∧ r.time ≤ p.time + ttl
  once : (s.taken.map Entry.key).Nodup

variable {ttl : Nat} {s : Shelf K V W}

theorem Inv.empty (now : Nat) : Inv ttl (⟨fun _ => none, now, [], []⟩ : Shelf K V W) where
  keys := List.nodup_nil
  held _ _ h := nomatch h
  past _ h := nomatch h
  taken _ h := nomatch h
  once := List.nodup_nil

theorem Inv.wait (h : Inv ttl s) (elapsed : Nat) : Inv ttl (s.wait elapsed) :=
  { h with past := fun p hp => Nat.le_trans (h.past p hp) (Nat.le_add_right _ _) }

/-- What is found under a key was placed there in time and taken by nobody. -/
theorem Inv.look (h : Inv ttl s) {k : K} {v : V} (hlook : s.look k = some v) :
    (∃ p ∈ s.placed, p.key = k ∧ p.value = v ∧ p.time ≤ s.now ∧ s.now ≤ p.time + ttl) ∧ ∀ r ∈ s.taken, r.key ≠ k := by
  unfold Shelf.look at hlook
  obtain ⟨e, he, hlive⟩ := Option.bind_eq_some_iff.mp hlook
  split at hlive
  · rename_i hnow
    obtain ⟨⟨p, hp, hkey, rfl⟩, hnot⟩ := h.held k e he
    exact ⟨⟨p, hp, hkey, Option.some.inj hlive, h.past p hp, hnow⟩, hnot⟩
  · cases hlive

/-- Nobody is given what another has taken. -/
theorem Inv.unique (h : Inv ttl s) {r r' : Entry K V W} (hr : r ∈ s.taken) (hr' : r' ∈ s.taken)
    (hkey : r.key = r'.key) : r = r' :=
  List.inj_on_of_nodup_map h.once hr hr' hkey

variable [DecidableEq K]

theorem Inv.place (h : Inv ttl s) {k : K} (hfresh : ∀ p ∈ s.placed, p.key ≠ k) (w : W) (v : V) :
    Inv ttl (s.place w k v ttl) where
  keys := by
    refine List.nodup_cons.mpr ⟨fun hmem => ?_, h.keys⟩
    obtain ⟨p, hp, hkey⟩ := List.mem_map.mp hmem
    exact hfresh p hp hkey
  held := by
    intro k' e he
    by_cases hk : k' = k
    · subst hk
      have hself : (s.place w k' v ttl).held k' = some (v, s.now + ttl) := Function.update_self _ _ _
      obtain rfl := Option.some.inj (he.symm.trans hself)
      refine ⟨⟨_, List.mem_cons_self, rfl, rfl⟩, fun r hr hkey => ?_⟩
      obtain ⟨p, hp, hsame, -⟩ := h.taken r hr
      exact hfresh p hp (hsame.trans hkey)
    · have hother : (s.place w k v ttl).held k' = s.held k' := Function.update_of_ne hk _ _
      rw [hother] at he
      obtain ⟨⟨p, hp, hplaced⟩, hnot⟩ := h.held k' e he
      exact ⟨⟨p, List.mem_cons_of_mem _ hp, hplaced⟩, hnot⟩
  past := by
    intro p hp
    cases List.mem_cons.mp hp with
    | inl heq => exact heq ▸ Nat.le_refl s.now
    | inr hold => exact h.past p hold
  taken := by
    intro r hr
    obtain ⟨p, hp, hplaced⟩ := h.taken r hr
    exact ⟨p, List.mem_cons_of_mem _ hp, hplaced⟩
  once := h.once

theorem Inv.drop (h : Inv ttl s) (k : K) : Inv ttl (s.drop k) :=
  { h with
    held := by
      intro k' e he
      by_cases hk : k' = k
      · subst hk
        have hgone : (s.drop k').held k' = none := Function.update_self _ _ _
        rw [hgone] at he
        cases he
      · have hother : (s.drop k).held k' = s.held k' := Function.update_of_ne hk _ _
        rw [hother] at he
        exact h.held k' e he }

theorem Inv.take (h : Inv ttl s) (w : W) (k : K) : Inv ttl (s.take w k) := by
  unfold Shelf.take
  split
  · exact h
  · rename_i v hlook
    obtain ⟨⟨p, hp, hkey, hvalue, hpast, hnow⟩, hnot⟩ := h.look hlook
    have hdrop := h.drop k
    refine { hdrop with held := ?_, taken := ?_, once := ?_ }
    · intro k' e he
      obtain ⟨hplaced, hnot'⟩ := hdrop.held k' e he
      refine ⟨hplaced, fun r hr hsame => ?_⟩
      cases List.mem_cons.mp hr with
      | inl heq =>
        subst heq
        have hgone : (s.drop k).held k = none := Function.update_self _ _ _
        rw [show k' = k from hsame.symm, hgone] at he
        cases he
      | inr hold => exact hnot' r hold hsame
    · intro r hr
      cases List.mem_cons.mp hr with
      | inl heq =>
        subst heq
        exact ⟨p, hp, hkey, hvalue, hpast, hnow⟩
      | inr hold => exact h.taken r hold
    · refine List.nodup_cons.mpr ⟨fun hmem => ?_, h.once⟩
      obtain ⟨r, hr, hsame⟩ := List.mem_map.mp hmem
      exact hnot r hr hsame

theorem look_place (s : Shelf K V W) (w : W) (k : K) (v : V) (ttl : Nat) : (s.place w k v ttl).look k = some v := by
  have hself : (s.place w k v ttl).held k = some (v, s.now + ttl) := Function.update_self _ _ _
  unfold Shelf.look
  rw [hself]
  exact if_pos (Nat.le_add_right s.now ttl)

theorem placed_take (s : Shelf K V W) (w : W) (k : K) : (s.take w k).placed = s.placed := by
  unfold Shelf.take
  split <;> rfl

/-- Whoever found a value is on record for it, and what was taken before stays so. -/
theorem taken_take (s : Shelf K V W) (w : W) (k : K) :
    (∀ r ∈ s.taken, r ∈ (s.take w k).taken) ∧
      ∀ v, s.look k = some v → ∃ r ∈ (s.take w k).taken, r.key = k ∧ r.value = v ∧ r.who = w := by
  unfold Shelf.take
  split
  · rename_i hnone
    exact ⟨fun _ hr => hr, fun v hv => by rw [hnone] at hv; cases hv⟩
  · rename_i value hsome
    refine ⟨fun _ hr => List.mem_cons_of_mem _ hr, fun v hv => ?_⟩
    rw [hsome] at hv
    cases hv
    exact ⟨_, List.mem_cons_self, rfl, rfl, rfl⟩

end Chinwag.OneShot

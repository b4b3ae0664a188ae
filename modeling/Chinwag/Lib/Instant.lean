import Mathlib.Data.Prod.Lex
import Mathlib.Order.Lex
import Chinwag.Lib.Rfc3339

/-!
# Instants of a database column

A timestamp column holds instants to the microsecond, which are carried by their calendar fields in
UTC. The driver hands them out as a `time.Time` in some zone, and takes a `time.Time` back.
-/
namespace Chinwag

open Rfc3339

structure Instant where
  time : Time
  utc : time.offset = 0
  year : 0 ≤ time.year ∧ time.year ≤ 9999
  micros : time.nano % 1000 = 0
  deriving DecidableEq

namespace Instant

/-- The fields from the year down, by which instants are ordered. -/
def fields (t : Instant) : Int ×ₗ Nat ×ₗ Nat ×ₗ Nat ×ₗ Nat ×ₗ Nat ×ₗ Nat :=
  toLex (t.time.year, toLex (t.time.month, toLex (t.time.day, toLex (t.time.hour, toLex (t.time.minute,
    toLex (t.time.second, t.time.nano))))))

theorem fields_injective : Function.Injective fields := by
  rintro ⟨⟨_, _, _, _, _, _, _, o, _⟩, hutc, _, _⟩ ⟨⟨_, _, _, _, _, _, _, o', _⟩, hutc', _, _⟩ h
  obtain rfl : o = 0 := hutc
  obtain rfl : o' = 0 := hutc'
  simp only [fields, EmbeddingLike.apply_eq_iff_eq, Prod.mk.injEq] at h
  obtain ⟨rfl, rfl, rfl, rfl, rfl, rfl, rfl⟩ := h
  rfl

instance : LinearOrder Instant := LinearOrder.lift' fields fields_injective

end Instant

structure Driver where
  present : Instant → Time
  store : Time → Instant

/-- An instant it hands out comes back as the same, also after it was printed, which is possible. -/
structure Driver.Exact (d : Driver) : Prop where
  taken : ∀ t, d.store (d.present t) = t
  printed : ∀ t, ∃ text, marshal (d.present t) = some text
  stored : ∀ t, d.store (d.present t).printed = t

section Utc

def epoch : Instant := ⟨⟨1970, 1, 1, 0, 0, 0, 0, 0, by decide⟩, rfl, by decide, rfl⟩

/-- A driver in a process whose zone is UTC, given times in UTC. -/
def utcDriver : Driver where
  present t := t.time
  store t := if h : t.offset = 0 ∧ (0 ≤ t.year ∧ t.year ≤ 9999) ∧ t.nano % 1000 = 0 then ⟨t, h.1, h.2.1, h.2.2⟩ else epoch

theorem exact_utcDriver : utcDriver.Exact where
  taken t := by simp [utcDriver, t.utc, t.year, t.micros]
  printed t := by
    refine exists_marshal t.year ?_
    show (zoneMinutes t.time.offset).natAbs / 60 < 24
    rw [t.utc]
    decide
  stored t := by
    have hprinted : t.time.printed = t.time := by
      have hzone : wholeMinutes t.time.offset = t.time.offset := by
        rw [t.utc]
        rfl
      unfold Time.printed
      rw [hzone]
    show utcDriver.store t.time.printed = t
    rw [hprinted]
    simp [utcDriver, t.utc, t.year, t.micros]

end Utc

end Chinwag

import Mathlib.Data.List.Basic

/-!
# Buffered channels of Go

A channel holds what was sent and not yet received, up to its capacity. Sending on a closed channel
panics, and so does closing one twice; receiving from one drains it first.
-/
namespace Chinwag.GoChannel

inductive Panic where
  | sendOnClosed
  | closeOfClosed
  deriving DecidableEq

structure Chan (α : Type) where
  capacity : Nat
  buffer : List α
  closed : Bool

variable {α : Type}

def make (capacity : Nat) : Chan α := ⟨capacity, [], false⟩

/-- A send in a `select` with a default: `none` where the default is taken. -/
def Chan.trySend (c : Chan α) (a : α) : Except Panic (Option (Chan α)) :=
  if c.closed then .error .sendOnClosed
  else if c.buffer.length < c.capacity then .ok (some { c with buffer := c.buffer ++ [a] })
  else .ok none

def Chan.close (c : Chan α) : Except Panic (Chan α) :=
  if c.closed then .error .closeOfClosed else .ok { c with closed := true }

/-- What a receive gives, if it does not have to wait: `none` from a channel that is closed and empty. -/
def Chan.recv (c : Chan α) : Option (Option α × Chan α) :=
  match c.buffer with
  | a :: rest => some (some a, { c with buffer := rest })
  | [] => if c.closed then some (none, c) else none

theorem trySend_error {c : Chan α} {a : α} {p : Panic} : c.trySend a = .error p ↔ c.closed = true ∧ p = .sendOnClosed := by
  unfold Chan.trySend
  cases c.closed with
  | true => simp [eq_comm]
  | false =>
    simp only [Bool.false_eq_true, if_false, false_and, iff_false]
    split <;> nofun

theorem trySend_room {c : Chan α} (hopen : c.closed = false) (hroom : c.buffer.length < c.capacity) (a : α) :
    c.trySend a = .ok (some { c with buffer := c.buffer ++ [a] }) := by
  rw [Chan.trySend, hopen, if_neg Bool.false_ne_true, if_pos hroom]

theorem trySend_full {c : Chan α} (hopen : c.closed = false) (hfull : c.capacity ≤ c.buffer.length) (a : α) :
    c.trySend a = .ok none := by
  rw [Chan.trySend, hopen, if_neg Bool.false_ne_true, if_neg (Nat.not_lt.mpr hfull)]

theorem trySend_some {c d : Chan α} {a : α} (h : c.trySend a = .ok (some d)) :
    c.closed = false ∧ d = { c with buffer := c.buffer ++ [a] } := by
  unfold Chan.trySend at h
  split at h
  · cases h
  · rename_i hopen
    split at h
    · exact ⟨Bool.not_eq_true _ ▸ hopen, (Option.some.inj (Except.ok.inj h)).symm⟩
    · cases Except.ok.inj h

theorem trySend_none {c : Chan α} {a : α} (h : c.trySend a = .ok none) : c.closed = false := by
  cases hc : c.closed with
  | false => rfl
  | true =>
    rw [Chan.trySend, if_pos hc] at h
    cases h

theorem close_open {c : Chan α} (h : c.closed = false) : c.close = .ok { c with closed := true } := by
  rw [Chan.close, h]
  rfl

theorem recv_closed {c d : Chan α} {a : Option α} (h : c.recv = some (a, d)) : d.closed = c.closed := by
  unfold Chan.recv at h
  split at h
  · obtain ⟨-, rfl⟩ := Prod.mk.inj (Option.some.inj h)
    rfl
  · split at h
    · obtain ⟨-, rfl⟩ := Prod.mk.inj (Option.some.inj h)
      rfl
    · cases h

end Chinwag.GoChannel

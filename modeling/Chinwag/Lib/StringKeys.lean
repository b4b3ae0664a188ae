import Mathlib.Logic.Function.Basic

/-!
# String keys with an expiry

The part of a Redis server that locks, nonces and other single values live in: one value
a key, an optional expiry instant in milliseconds, and the few commands and scripts that
read and write them in one step.
-/
namespace Chinwag.StringKeys

structure Entry where
  value : String
  expireAt : Option Nat

/-- Expired entries stay in `data` and stop being read. -/
structure Strings where
  data : String → Option Entry
  now : Nat

namespace Entry

def isLive (e : Entry) (now : Nat) : Bool :=
  match e.expireAt with
  | none => true
  | some t => decide (now ≤ t)

end Entry

namespace Strings

/-- `GET key`. -/
def get (s : Strings) (key : String) : Option String :=
  ((s.data key).filter fun e => e.isLive s.now).map Entry.value

def write (s : Strings) (key : String) (e : Option Entry) : Strings :=
  { s with data := Function.update s.data key e }

/-- `SET key value PX ttl`. -/
def set (s : Strings) (key value : String) (ttl : Nat) : Strings :=
  s.write key (some ⟨value, some (s.now + ttl)⟩)

/-- `SET key value NX PX ttl`: whether the key was free. -/
def setNX (s : Strings) (key value : String) (ttl : Nat) : Bool × Strings :=
  match s.get key with
  | some _ => (false, s)
  | none => (true, s.set key value ttl)

/-- `DEL key`. -/
def del (s : Strings) (key : String) : Strings := s.write key none

/-- The script `GET`, then `DEL` if there was a value: whether there was one. -/
def consume (s : Strings) (key : String) : Bool × Strings :=
  match s.get key with
  | none => (false, s)
  | some _ => (true, s.del key)

/-- The script that deletes the key only where it holds this value. -/
def compareDel (s : Strings) (key value : String) : Strings :=
  if s.get key = some value then s.del key else s

def after (s : Strings) (ms : Nat) : Strings := { s with now := s.now + ms }

@[simp] theorem data_write_self (s : Strings) (key : String) (e : Option Entry) :
    (s.write key e).data key = e := by
  simp [write]

theorem data_write_ne (s : Strings) {key other : String} (h : other ≠ key) (e : Option Entry) :
    (s.write key e).data other = s.data other := by
  simp [write, h]

theorem data_of_get {s : Strings} {key value : String} (h : s.get key = some value) :
    s.data key ≠ none := by
  intro hnone
  rw [get, hnone] at h
  cases h

theorem get_set_self (s : Strings) (key value : String) (ttl : Nat) :
    (s.set key value ttl).get key = some value := by
  have hlive : (Entry.mk value (some (s.now + ttl))).isLive s.now = true :=
    decide_eq_true (Nat.le_add_right s.now ttl)
  have hnow : (s.set key value ttl).now = s.now := rfl
  rw [get, hnow, set, data_write_self, Option.filter_some, if_pos hlive]
  rfl

/-- Whatever `setNX` answers, only its own key may have changed. -/
theorem data_setNX_ne (s : Strings) {key other : String} (h : other ≠ key) (value : String) (ttl : Nat) :
    (s.setNX key value ttl).2.data other = s.data other := by
  unfold setNX
  cases s.get key with
  | some v => rfl
  | none => exact data_write_ne s h _

/-- A key that was consumed was there before, and is gone after. -/
theorem consume_true {s : Strings} {key : String} (h : (s.consume key).1 = true) :
    s.data key ≠ none ∧ (s.consume key).2 = s.del key := by
  unfold consume at h ⊢
  cases hget : s.get key with
  | none =>
    rw [hget] at h
    cases h
  | some v => exact ⟨data_of_get hget, rfl⟩

/-- Consuming a key brings no other entry and no other value. -/
theorem data_consume (s : Strings) (key other : String) :
    (s.consume key).2.data other = s.data other ∨ (s.consume key).2.data other = none := by
  unfold consume
  cases s.get key with
  | none => exact Or.inl rfl
  | some v =>
    by_cases h : other = key
    · subst h
      exact Or.inr (data_write_self s other none)
    · exact Or.inl (data_write_ne s h none)

end Strings

end Chinwag.StringKeys

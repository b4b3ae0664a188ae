import Mathlib.Order.Monotone.Basic
import Mathlib.Data.Int.ConditionallyCompleteOrder
import Mathlib.Order.Lattice.Nat
import Mathlib.Tactic.Linarith
import Mathlib.Tactic.Ring
import Chinwag.Keys.Table

/-!
# The key-rotation scheduler

When its ticker wakes it, from any start on. Instants and durations are in nanoseconds; a ticker is
taken to be on time.
-/
namespace Chinwag.Keys

/-- The calendar of a location: the instant each local day begins at, and the day of an instant. -/
structure Zone where
  midnight : ℤ → ℤ
  day : ℤ → ℤ
  day_begins : ∀ t, midnight (day t) ≤ t
  day_ends : ∀ t, t < midnight (day t + 1)
  increasing : StrictMono midnight

/-- `NextMidnight`; `time.Date` takes the day after today also at the end of a month. -/
def nextMidnight (zone : Zone) (now : ℤ) : ℤ := zone.midnight (zone.day now + 1) - now

/-- What the loop of `Start` is woken by. -/
inductive Wake where
  | ticker (time : ℤ)
  | stop
  | done

/-- The loop of `Start`: the rotations it asks for, each key type by itself. -/
def startLoop : List Wake → List (ℤ × KeyType)
  | .ticker time :: rest => (time, .Access) :: (time, .Refresh) :: startLoop rest
  | .stop :: _ => []
  | .done :: _ => []
  | [] => []

section Schedule

variable (zone : Zone) (began : ℤ)

/-- The ticks of `NewTicker(interval)`, the first after one interval. -/
def tickTime (k : ℕ) : ℤ := began + (k + 1) * nextMidnight zone began

/-- The first wakes of the service's scheduler. -/
def wakes (n : ℕ) : List Wake := (List.range n).map fun k => .ticker (tickTime zone began k)

def rotations (n : ℕ) : List (ℤ × KeyType) := startLoop (wakes zone began n)

/-- How often the first wakes rotate keys of a type on a local day. -/
def rotatedOn (kt : KeyType) (day : ℤ) (n : ℕ) : ℕ :=
  (rotations zone began n).countP fun r => zone.day r.1 = day ∧ r.2 = kt

/-- Every rotation is at a local midnight, and of every day after the start each key type has one. -/
structure RotatesAtMidnights : Prop where
  at_midnight : ∀ n, ∀ r ∈ rotations zone began n, ∃ day, r.1 = zone.midnight day
  once_a_day : ∀ kt (j n : ℕ), j < n → rotatedOn zone began kt (zone.day began + 1 + j) n = 1

/-! ### Days and midnights -/

variable {zone began}

theorem Zone.day_eq {t n : ℤ} (hge : zone.midnight n ≤ t) (hlt : t < zone.midnight (n + 1)) : zone.day t = n := by
  have hbefore : zone.day t < n + 1 := zone.increasing.lt_iff_lt.mp ((zone.day_begins t).trans_lt hlt)
  have hafter : n < zone.day t + 1 := zone.increasing.lt_iff_lt.mp (hge.trans_lt (zone.day_ends t))
  omega

@[simp]
theorem Zone.day_midnight (zone : Zone) (n : ℤ) : zone.day (zone.midnight n) = n :=
  Zone.day_eq (le_refl _) (zone.increasing (by omega))

theorem tickTime_zero : tickTime zone began 0 = zone.midnight (zone.day began + 1) := by
  unfold tickTime nextMidnight
  push_cast
  ring

theorem tickTime_succ (k : ℕ) : tickTime zone began (k + 1) = tickTime zone began k + nextMidnight zone began := by
  unfold tickTime
  push_cast
  ring

/-- The ticks keep to the midnights exactly if the days are as long as the first interval. -/
theorem ticks_midnights_iff :
    (∀ k : ℕ, tickTime zone began k = zone.midnight (zone.day began + 1 + k)) ↔
      ∀ k : ℕ, zone.midnight (zone.day began + 1 + k + 1) - zone.midnight (zone.day began + 1 + k) =
        nextMidnight zone began := by
  constructor
  · intro h k
    have hnext := h (k + 1)
    rw [tickTime_succ, h k] at hnext
    push_cast at hnext
    rw [← add_assoc] at hnext
    linarith
  · intro h k
    induction k with
    | zero =>
      rw [tickTime_zero]
      simp
    | succ k ih =>
      have hlen := h k
      rw [tickTime_succ, ih]
      push_cast
      rw [← add_assoc]
      linarith

/-! ### Rotations -/

theorem startLoop_append (first rest : List Wake) (h : ∀ w ∈ first, ∃ time, w = .ticker time) :
    startLoop (first ++ rest) = startLoop first ++ startLoop rest := by
  induction first with
  | nil => rfl
  | cons w first ih =>
    obtain ⟨time, rfl⟩ := h w List.mem_cons_self
    show (time, KeyType.Access) :: (time, KeyType.Refresh) :: startLoop (first ++ rest) = _
    rw [ih fun w hw => h w (List.mem_cons_of_mem _ hw)]
    rfl

theorem rotations_succ (n : ℕ) :
    rotations zone began (n + 1) =
      rotations zone began n ++ [(tickTime zone began n, .Access), (tickTime zone began n, .Refresh)] := by
  unfold rotations wakes
  rw [List.range_succ, List.map_append, startLoop_append]
  · rfl
  · intro w hw
    obtain ⟨k, -, rfl⟩ := List.mem_map.mp hw
    exact ⟨_, rfl⟩

/-- Each tick rotates the keys of each type once. -/
theorem rotatedOn_succ (kt : KeyType) (day : ℤ) (n : ℕ) :
    rotatedOn zone began kt day (n + 1) =
      rotatedOn zone began kt day n + if zone.day (tickTime zone began n) = day then 1 else 0 := by
  unfold rotatedOn
  rw [rotations_succ, List.countP_append]
  congr 1
  cases kt <;> by_cases h : zone.day (tickTime zone began n) = day <;> simp [h]

theorem rotatedOn_none {kt : KeyType} {day : ℤ} {n : ℕ} (h : ∀ k < n, zone.day (tickTime zone began k) ≠ day) :
    rotatedOn zone began kt day n = 0 := by
  induction n with
  | zero => rfl
  | succ n ih => rw [rotatedOn_succ, ih fun k hk => h k (by omega), if_neg (h n (by omega))]

theorem mem_rotations (n : ℕ) (r : ℤ × KeyType) :
    r ∈ rotations zone began n → ∃ k < n, r.1 = tickTime zone began k := by
  induction n with
  | zero => exact fun hr => absurd hr List.not_mem_nil
  | succ n ih =>
    intro hr
    rw [rotations_succ, List.mem_append] at hr
    rcases hr with hr | hr
    · obtain ⟨k, hk, hrk⟩ := ih hr
      exact ⟨k, by omega, hrk⟩
    · refine ⟨n, by omega, ?_⟩
      rcases List.mem_cons.mp hr with rfl | hr
      · rfl
      · rw [List.mem_singleton.mp hr]

theorem tick_mem_rotations {n k : ℕ} (hk : k < n) : (tickTime zone began k, KeyType.Access) ∈ rotations zone began n := by
  induction n with
  | zero => omega
  | succ n ih =>
    rw [rotations_succ, List.mem_append]
    rcases Nat.lt_succ_iff_lt_or_eq.mp hk with hk | rfl
    · exact .inl (ih hk)
    · exact .inr List.mem_cons_self

/-- One rotation each day puts the ticks on successive days. -/
theorem RotatesAtMidnights.day (h : RotatesAtMidnights zone began) (j : ℕ) :
    zone.day (tickTime zone began j) = zone.day began + 1 + j := by
  induction j using Nat.strong_induction_on with
  | _ j ih =>
    have hone := h.once_a_day .Access j (j + 1) (Nat.lt_succ_self j)
    have hbefore : rotatedOn zone began .Access (zone.day began + 1 + j) j = 0 := by
      refine rotatedOn_none fun k hk => ?_
      rw [ih k hk]
      omega
    rw [rotatedOn_succ, hbefore] at hone
    by_contra hne
    rw [if_neg hne] at hone
    cases hone

/-- Every key is rotated at every midnight exactly if all days are as long as what was left of the
day the service began on. -/
theorem rotates_at_midnights_iff (zone : Zone) (began : ℤ) :
    RotatesAtMidnights zone began ↔
      ∀ k : ℕ, zone.midnight (zone.day began + 1 + k + 1) - zone.midnight (zone.day began + 1 + k) =
        nextMidnight zone began := by
  rw [← ticks_midnights_iff]
  constructor
  · intro h k
    obtain ⟨day, hday⟩ := h.at_midnight (k + 1) _ (tick_mem_rotations (Nat.lt_succ_self k))
    have hk := h.day k
    rw [show tickTime zone began k = zone.midnight day from hday, Zone.day_midnight] at hk
    rw [← hk]
    exact hday
  · intro h
    have hday : ∀ k : ℕ, zone.day (tickTime zone began k) = zone.day began + 1 + k := fun k => by
      rw [h k, Zone.day_midnight]
    refine ⟨fun n r hr => ?_, fun kt j n hj => ?_⟩
    · obtain ⟨k, -, hrk⟩ := mem_rotations n r hr
      exact ⟨_, hrk.trans (h k)⟩
    · induction n with
      | zero => omega
      | succ n ih =>
        rw [rotatedOn_succ, hday]
        rcases Nat.lt_succ_iff_lt_or_eq.mp hj with hlt | rfl
        · rw [ih hlt, if_neg (by omega)]
        · rw [rotatedOn_none fun k hk => by rw [hday]; omega, if_pos rfl]

end Schedule

/-! ### A location of fixed offset -/

def dayLength : ℤ := 86400000000000

/-- A location that is always the same time ahead of UTC. -/
def fixedZone (offset : ℤ) : Zone where
  midnight n := n * dayLength - offset
  day t := (t + offset) / dayLength
  day_begins t := by
    have h := Int.mul_ediv_self_le (x := t + offset) (k := dayLength) (by decide)
    linarith
  day_ends t := by
    have h := Int.lt_mul_ediv_self_add (x := t + offset) (k := dayLength) (by decide)
    linarith
  increasing a b h := by
    have hlt : a * dayLength < b * dayLength := Int.mul_lt_mul_of_pos_right h (by decide)
    linarith

/-- There the service has to begin at midnight itself. -/
theorem fixedZone_lengths_iff (offset began : ℤ) :
    (∀ k : ℕ, (fixedZone offset).midnight ((fixedZone offset).day began + 1 + k + 1) -
        (fixedZone offset).midnight ((fixedZone offset).day began + 1 + k) = nextMidnight (fixedZone offset) began) ↔
      began = (fixedZone offset).midnight ((fixedZone offset).day began) := by
  have hlength : ∀ n, (fixedZone offset).midnight (n + 1) - (fixedZone offset).midnight n = dayLength := fun n => by
    show ((n + 1) * dayLength - offset) - (n * dayLength - offset) = dayLength
    ring
  have hleft : nextMidnight (fixedZone offset) began =
      (fixedZone offset).midnight ((fixedZone offset).day began) + dayLength - began := by
    show ((fixedZone offset).day began + 1) * dayLength - offset - began =
      (fixedZone offset).day began * dayLength - offset + dayLength - began
    ring
  simp only [hlength, hleft, forall_const]
  constructor
  · intro h
    linarith
  · intro h
    linarith

/-- Noon of the first of January 1970. -/
def noon : ℤ := 43200000000000

/-- Begun at noon, the second rotation is at noon. -/
theorem noon_rotates : ¬ RotatesAtMidnights (fixedZone 0) noon := by
  intro h
  obtain ⟨day, hday⟩ := h.at_midnight 2 _ (tick_mem_rotations (Nat.lt_succ_self 1))
  have htick : tickTime (fixedZone 0) noon 1 = 129600000000000 := by decide
  rw [htick] at hday
  change (129600000000000 : ℤ) = day * 86400000000000 - 0 at hday
  omega

end Chinwag.Keys

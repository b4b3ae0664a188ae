import Mathlib.Algebra.BigOperators.Group.List.Basic
import Mathlib.Tactic.Linarith
import Chinwag.Alerts.Message

/-!
# Durations in words

A printed duration is read from left to right, number and unit in turn, so no text stands for two
durations. `humanizeDuration` is compared with that reading.
-/
namespace Chinwag.Alerts

open UnixTime

def secondsOf : Char → ℕ
  | 'd' => 86400
  | 'h' => 3600
  | 'm' => 60
  | 's' => 1
  | _ => 0

def printPart (p : ℕ × Char) : String := toString p.1 ++ String.singleton p.2

/-- Days, hours, minutes and seconds, each within its range. -/
structure Components where
  days : ℕ
  hours : ℕ
  mins : ℕ
  secs : ℕ
  hours_lt : hours < 24
  mins_lt : mins < 60
  secs_lt : secs < 60

namespace Components

variable (c : Components)

def seconds : ℕ := 86400 * c.days + 3600 * c.hours + 60 * c.mins + c.secs

/-- The seconds always appear, the others unless they are zero. -/
def parts : List (ℕ × Char) :=
  [(c.days, 'd'), (c.hours, 'h'), (c.mins, 'm')].filter (fun p => 0 < p.1) ++ [(c.secs, 's')]

def text : String := " ".intercalate (c.parts.map printPart)

end Components

/-- The text is that of components which add up to the seconds. -/
def Denotes (text : String) (seconds : ℤ) : Prop := ∃ c : Components, text = c.text ∧ (c.seconds : ℤ) = seconds

/-! ### Reading a text -/

/-- The seconds so far, and the number being read. -/
def readChar : ℕ × ℕ → Char → ℕ × ℕ
  | (total, number), c =>
    if c.isDigit then (total, 10 * number + (c.toNat - '0'.toNat)) else (total + number * secondsOf c, 0)

def readSeconds (text : String) : ℕ := (text.toList.foldl readChar (0, 0)).1

theorem read_digits (cs : List Char) (hdigits : ∀ c ∈ cs, c.isDigit) (total number : ℕ) :
    cs.foldl readChar (total, number) = (total, Nat.ofDigitChars 10 cs number) := by
  induction cs generalizing number with
  | nil => rfl
  | cons c cs ih =>
    have hstep : readChar (total, number) c = (total, 10 * number + (c.toNat - '0'.toNat)) :=
      if_pos (hdigits c List.mem_cons_self)
    rw [List.foldl_cons, hstep, ih (fun x hx => hdigits x (List.mem_cons_of_mem _ hx)), Nat.ofDigitChars_cons]

theorem read_part (p : ℕ × Char) (hunit : p.2.isDigit = false) (total : ℕ) :
    (printPart p).toList.foldl readChar (total, 0) = (total + p.1 * secondsOf p.2, 0) := by
  have hnumber : (toString p.1).toList.foldl readChar (total, 0) = (total, p.1) := by
    rw [Nat.toString_eq_repr, Nat.toList_repr,
      read_digits _ (fun c hc => Nat.isDigit_of_mem_toDigits (by decide) (by decide) hc),
      Nat.ofDigitChars_ten_toDigits]
  unfold printPart
  rw [String.toList_append, List.foldl_append, hnumber, String.toList_singleton, List.foldl_cons, List.foldl_nil]
  exact if_neg (by rw [hunit]; exact Bool.false_ne_true)

theorem read_parts (ps : List (ℕ × Char)) (hunits : ∀ p ∈ ps, p.2.isDigit = false) (total : ℕ) :
    (" ".intercalate (ps.map printPart)).toList.foldl readChar (total, 0) =
      (total + (ps.map fun p => p.1 * secondsOf p.2).sum, 0) := by
  induction ps generalizing total with
  | nil => rfl
  | cons p ps ih =>
    have hp := hunits p List.mem_cons_self
    have hrest : ∀ q ∈ ps, q.2.isDigit = false := fun q hq => hunits q (List.mem_cons_of_mem _ hq)
    cases ps with
    | nil =>
      rw [List.map_singleton, String.intercalate_singleton, read_part p hp]
      rfl
    | cons q qs =>
      have hspace : ∀ n, " ".toList.foldl readChar (n, 0) = (n, 0) := by
        intro n
        show (n + 0 * secondsOf ' ', 0) = (n, 0)
        rw [Nat.zero_mul, Nat.add_zero]
      rw [List.map_cons, List.map_cons, String.intercalate_cons_cons, ← List.map_cons, String.toList_append,
        String.toList_append, List.foldl_append, List.foldl_append, read_part p hp, hspace, ih hrest,
        Nat.add_assoc]
      rfl

/-- A unit of which there are none adds nothing. -/
theorem sum_filter_pos (ps : List (ℕ × Char)) :
    ((ps.filter fun p => 0 < p.1).map fun p => p.1 * secondsOf p.2).sum = (ps.map fun p => p.1 * secondsOf p.2).sum := by
  induction ps with
  | nil => rfl
  | cons p ps ih =>
    rw [List.map_cons, List.sum_cons, List.filter_cons]
    split
    · rw [List.map_cons, List.sum_cons, ih]
    · next hzero =>
      have hnone : p.1 = 0 := by simpa using hzero
      rw [ih, hnone, Nat.zero_mul, Nat.zero_add]

theorem Components.read_text (c : Components) : readSeconds c.text = c.seconds := by
  have hunits : ∀ p ∈ c.parts, p.2.isDigit = false := by
    intro p hp
    rcases List.mem_append.mp hp with h | h
    · have hmem := List.mem_of_mem_filter h
      simp only [List.mem_cons, List.not_mem_nil, or_false] at hmem
      rcases hmem with rfl | rfl | rfl <;> rfl
    · obtain rfl := List.mem_singleton.mp h
      rfl
  have hsum : (c.parts.map fun p => p.1 * secondsOf p.2).sum = c.seconds := by
    unfold Components.parts
    rw [List.map_append, List.sum_append, sum_filter_pos]
    show c.days * 86400 + (c.hours * 3600 + (c.mins * 60 + 0)) + (c.secs * 1 + 0) = c.seconds
    unfold Components.seconds
    omega
  unfold readSeconds Components.text
  rw [read_parts c.parts hunits 0, hsum, Nat.zero_add]

theorem Denotes.seconds_eq {text : String} {seconds : ℤ} (h : Denotes text seconds) : seconds = readSeconds text := by
  obtain ⟨c, rfl, rfl⟩ := h
  rw [c.read_text]

/-! ### What is printed -/

/-- The components of a number of nanoseconds. -/
def Components.ofNanos (n : ℕ) : Components where
  days := n / 86400000000000
  hours := n % 86400000000000 / 3600000000000
  mins := n % 3600000000000 / 60000000000
  secs := n % 60000000000 / 1000000000
  hours_lt := by omega
  mins_lt := by omega
  secs_lt := by omega

theorem Components.seconds_ofNanos (n : ℕ) : (ofNanos n).seconds = n / 1000000000 := by
  unfold seconds ofNanos
  dsimp only
  omega

theorem text_of_parts (days hours mins secs : ℕ) :
    ((if 0 < (days : ℤ) then [s!"{(days : ℤ)}d"] else []) ++ (if 0 < (hours : ℤ) then [s!"{(hours : ℤ)}h"] else []) ++
        (if 0 < (mins : ℤ) then [s!"{(mins : ℤ)}m"] else []) ++ [s!"{(secs : ℤ)}s"]) =
      ([(days, 'd'), (hours, 'h'), (mins, 'm')].filter (fun p => 0 < p.1) ++ [(secs, 's')]).map printPart := by
  have hpart : ∀ (n : ℕ) (unit : Char), ((if 0 < (n : ℤ) then [toString (n : ℤ) ++ String.singleton unit] else [])) =
      ([(n, unit)].filter (fun p => 0 < p.1)).map printPart := by
    intro n unit
    have htext : toString (n : ℤ) = toString n := rfl
    by_cases hn : 0 < n
    · simp only [hn, htext, Nat.cast_pos, if_true, printPart, List.filter_cons, decide_true, List.filter_nil,
        List.map_cons, List.map_nil]
    · simp [hn]
  have hsplit : [(days, 'd'), (hours, 'h'), (mins, 'm')] = [(days, 'd')] ++ [(hours, 'h')] ++ [(mins, 'm')] := rfl
  rw [hsplit, List.filter_append, List.filter_append, List.map_append, List.map_append, List.map_append,
    ← hpart, ← hpart, ← hpart]
  rfl

theorem humanize_of_nonneg (n : ℕ) : humanizeDuration n = (Components.ofNanos n).text := by
  have habs : absDuration n = n := if_neg (by omega)
  unfold humanizeDuration
  rw [habs]
  dsimp only
  split
  · next hzero =>
    obtain rfl : n = 0 := by omega
    rfl
  · have hday : 86400 * nanosPerSecond = 86400000000000 := rfl
    have hhour : 3600 * nanosPerSecond = 3600000000000 := rfl
    have hminute : 60 * nanosPerSecond = 60000000000 := rfl
    have hsecond : nanosPerSecond = 1000000000 := rfl
    have hdays : (n : ℤ).tdiv 86400000000000 = ((n / 86400000000000 : ℕ) : ℤ) := rfl
    have hofDay : (n : ℤ) - ((n / 86400000000000 : ℕ) : ℤ) * 86400000000000 = ((n % 86400000000000 : ℕ) : ℤ) := by omega
    have hhours : ((n % 86400000000000 : ℕ) : ℤ).tdiv 3600000000000 = ((n % 86400000000000 / 3600000000000 : ℕ) : ℤ) := rfl
    have hofHour : ((n % 86400000000000 : ℕ) : ℤ) - ((n % 86400000000000 / 3600000000000 : ℕ) : ℤ) * 3600000000000 =
        ((n % 3600000000000 : ℕ) : ℤ) := by omega
    have hmins : ((n % 3600000000000 : ℕ) : ℤ).tdiv 60000000000 = ((n % 3600000000000 / 60000000000 : ℕ) : ℤ) := rfl
    have hofMinute : ((n % 3600000000000 : ℕ) : ℤ) - ((n % 3600000000000 / 60000000000 : ℕ) : ℤ) * 60000000000 =
        ((n % 60000000000 : ℕ) : ℤ) := by omega
    have hsecs : ((n % 60000000000 : ℕ) : ℤ).tdiv 1000000000 = ((n % 60000000000 / 1000000000 : ℕ) : ℤ) := rfl
    rw [hday, hhour, hminute, hsecond, hdays, hofDay, hhours, hofHour, hmins, hofMinute, hsecs, text_of_parts]
    rfl

theorem denotes_of_nonneg (n : ℕ) : Denotes (humanizeDuration n) (n / nanosPerSecond) :=
  ⟨.ofNanos n, humanize_of_nonneg n, by rw [Components.seconds_ofNanos]; rfl⟩

theorem humanize_absDuration (d : ℤ) (hnonneg : 0 ≤ absDuration d) :
    humanizeDuration d = humanizeDuration (absDuration d) := by
  have hagain : absDuration (absDuration d) = absDuration d := if_neg (by omega)
  unfold humanizeDuration
  rw [hagain]

theorem humanize_minDuration : humanizeDuration minDuration = "-16s" := by decide +kernel

theorem not_denotes_minDuration : ¬ Denotes (humanizeDuration minDuration) (|minDuration| / nanosPerSecond) := by
  intro h
  have hread := h.seconds_eq
  rw [humanize_minDuration] at hread
  revert hread
  decide +kernel

/-- The smallest duration has no absolute value among the durations, and is printed wrong; every
other one is printed exactly, to the second. -/
theorem humanize_exact_iff (d : ℤ) : Denotes (humanizeDuration d) (|d| / nanosPerSecond) ↔ d ≠ minDuration := by
  constructor
  · rintro h rfl
    exact not_denotes_minDuration h
  · intro hd
    have habs : absDuration d = |d| := by
      unfold absDuration
      split
      · next hneg => rw [abs_of_neg hneg]
      · next hpos => rw [abs_of_nonneg (by omega)]
    have hnonneg : 0 ≤ absDuration d := habs ▸ abs_nonneg d
    rw [humanize_absDuration d hnonneg, habs, Int.abs_eq_natAbs]
    exact denotes_of_nonneg d.natAbs

/-- A resolved alert whose end is the zero time. -/
def endlessAlert : Alert := ⟨"resolved", fun _ => "", fun _ => "", 1786701600000000000, zeroTime, ""⟩

theorem humanize_saturated : sub endlessAlert.endsAt endlessAlert.startsAt = minDuration ∧
    ⟨"Duration", "-16s", true⟩ ∈ buildFields endlessAlert true ∧
    ¬ Denotes (humanizeDuration (sub endlessAlert.endsAt endlessAlert.startsAt))
      (|sub endlessAlert.endsAt endlessAlert.startsAt| / nanosPerSecond) := by
  have hmin : sub endlessAlert.endsAt endlessAlert.startsAt = minDuration := by decide
  refine ⟨hmin, ?_, ?_⟩
  · decide +kernel
  · rw [hmin]
    exact not_denotes_minDuration

end Chinwag.Alerts

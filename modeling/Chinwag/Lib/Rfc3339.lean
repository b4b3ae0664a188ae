import Mathlib.Data.Nat.Log
import Mathlib.Data.Nat.ModEq
import Mathlib.Tactic.IntervalCases
import Mathlib.Tactic.Ring

/-!
# Instants in RFC 3339

A `time.Time` is carried by its calendar fields and the offset of its zone. `marshal`
is the text of `MarshalJSON`, `parse` is `time.Parse` with the layout `RFC3339Nano`.
-/
namespace Chinwag.Rfc3339

def isLeap (year : Int) : Bool := year % 4 = 0 && (year % 100 ≠ 0 || year % 400 = 0)

def daysIn (month : Nat) (year : Int) : Nat :=
  match month with
  | 2 => if isLeap year then 29 else 28
  | 4 | 6 | 9 | 11 => 30
  | _ => 31

def inRange (year : Int) (month day hour minute second nano : Nat) : Bool :=
  1 ≤ month && month ≤ 12 && 1 ≤ day && day ≤ daysIn month year &&
    hour < 24 && minute < 60 && second < 60 && nano < 10 ^ 9

/-- The offset is in seconds east of UTC. -/
structure Time where
  year : Int
  month : Nat
  day : Nat
  hour : Nat
  minute : Nat
  second : Nat
  nano : Nat
  offset : Int
  valid : inRange year month day hour minute second nano = true
  deriving DecidableEq

/-- The `w` decimal digits of `n`, the highest first. -/
def pad : Nat → Nat → List Char
  | 0, _ => []
  | w + 1, n => Nat.digitChar (n / 10 ^ w % 10) :: pad w n

/-- The first `w` decimals of a fraction, with the zeros at its end left out. -/
def fracDigits : Nat → Nat → List Char
  | 0, _ => []
  | w + 1, n =>
    if n % 10 ^ (w + 1) = 0 then [] else Nat.digitChar (n / 10 ^ w % 10) :: fracDigits w n

def fraction (nano : Nat) : List Char := if nano = 0 then [] else '.' :: fracDigits 9 nano

/-- The zone is printed in minutes; what is left of the offset is cut off. -/
def zoneMinutes (offset : Int) : Int := offset.tdiv 60

def zone (offset : Int) : List Char :=
  if offset = 0 then ['Z']
  else
    (if zoneMinutes offset < 0 then '-' else '+') ::
      (pad 2 ((zoneMinutes offset).natAbs / 60) ++
        ':' :: pad 2 ((zoneMinutes offset).natAbs % 60))

/-- The text between the quotes of `MarshalJSON`. -/
def marshal (t : Time) : Option String :=
  if t.year < 0 ∨ 9999 < t.year then none
  else if 24 ≤ (zoneMinutes t.offset).natAbs / 60 then none
  else
    some (String.ofList (pad 4 t.year.toNat ++ '-' :: (pad 2 t.month ++ '-' :: (pad 2 t.day ++
      'T' :: (pad 2 t.hour ++ ':' :: (pad 2 t.minute ++ ':' :: (pad 2 t.second ++
        (fraction t.nano ++ zone t.offset))))))))

/-- Only the year and the hours of the zone can keep a time from being marshalled. -/
theorem exists_marshal {t : Time} (hyear : 0 ≤ t.year ∧ t.year ≤ 9999)
    (hzone : (zoneMinutes t.offset).natAbs / 60 < 24) : ∃ text, marshal t = some text := by
  unfold marshal
  rw [if_neg (by omega), if_neg (by omega)]
  exact ⟨_, rfl⟩

def digitValue (c : Char) : Nat := c.toNat - '0'.toNat

/-- Read exactly `w` digits onto the number read so far. -/
def takeDigits : Nat → Nat → List Char → Option (Nat × List Char)
  | 0, acc, cs => some (acc, cs)
  | _ + 1, _, [] => none
  | w + 1, acc, c :: cs =>
    if c.isDigit then takeDigits w (acc * 10 + digitValue c) cs else none

def expect (c : Char) : List Char → Option (List Char)
  | [] => none
  | d :: cs => if d = c then some cs else none

/-- Read decimals, the first `w` of which count. -/
def readDecimals : Nat → List Char → Nat × List Char
  | _, [] => (0, [])
  | w, c :: cs =>
    if c.isDigit then
      ((if w = 0 then 0 else digitValue c * 10 ^ (w - 1)) + (readDecimals (w - 1) cs).1,
        (readDecimals (w - 1) cs).2)
    else (0, c :: cs)

def readFraction : List Char → Nat × List Char
  | '.' :: c :: cs => if c.isDigit then readDecimals 9 (c :: cs) else (0, '.' :: c :: cs)
  | cs => (0, cs)

def readZone : List Char → Option Int
  | ['Z'] => some 0
  | sign :: cs => do
    let (hours, cs) ← takeDigits 2 0 cs
    let cs ← expect ':' cs
    let (minutes, cs) ← takeDigits 2 0 cs
    if cs = [] ∧ hours < 24 ∧ minutes < 60 then
      if sign = '+' then some ((hours * 60 + minutes : Nat) * 60)
      else if sign = '-' then some (-((hours * 60 + minutes : Nat) * 60))
      else none
    else none
  | [] => none

/-- `time.Parse(time.RFC3339Nano, s)` on the texts the layout describes. -/
def parse (s : String) : Option Time := do
  let (year, cs) ← takeDigits 4 0 s.toList
  let cs ← expect '-' cs
  let (month, cs) ← takeDigits 2 0 cs
  let cs ← expect '-' cs
  let (day, cs) ← takeDigits 2 0 cs
  let cs ← expect 'T' cs
  let (hour, cs) ← takeDigits 2 0 cs
  let cs ← expect ':' cs
  let (minute, cs) ← takeDigits 2 0 cs
  let cs ← expect ':' cs
  let (second, cs) ← takeDigits 2 0 cs
  let (nano, cs) := readFraction cs
  let offset ← readZone cs
  if h : inRange year month day hour minute second nano = true then
    some ⟨year, month, day, hour, minute, second, nano, offset, h⟩
  else none

theorem isDigit_digitChar {d : Nat} (h : d < 10) : (Nat.digitChar d).isDigit = true := by
  interval_cases d <;> decide

theorem digitValue_digitChar {d : Nat} (h : d < 10) : digitValue (Nat.digitChar d) = d := by
  interval_cases d <;> decide

/-- The highest digit of `w + 1` splits off the remainder. -/
theorem digit_split (n w : Nat) : n % 10 ^ (w + 1) = n / 10 ^ w % 10 * 10 ^ w + n % 10 ^ w := by
  rw [pow_succ, Nat.mod_mul]
  ring

theorem takeDigits_pad (w acc n : Nat) (rest : List Char) :
    takeDigits w acc (pad w n ++ rest) = some (acc * 10 ^ w + n % 10 ^ w, rest) := by
  induction w generalizing acc with
  | zero => simp [pad, takeDigits, Nat.mod_one]
  | succ w ih =>
    have hd : n / 10 ^ w % 10 < 10 := Nat.mod_lt _ (by omega)
    simp only [pad, List.cons_append, takeDigits, isDigit_digitChar hd, if_true,
      digitValue_digitChar hd, ih, digit_split n w]
    congr 2
    ring

theorem takeDigits_zero_pad {w n : Nat} (h : n < 10 ^ w) (rest : List Char) :
    takeDigits w 0 (pad w n ++ rest) = some (n, rest) := by
  rw [takeDigits_pad, Nat.mod_eq_of_lt h]
  simp

@[simp] theorem expect_cons (c : Char) (cs : List Char) : expect c (c :: cs) = some cs := by
  simp [expect]

/-- No further decimal can be read off the text. -/
def noDigit : List Char → Bool
  | [] => true
  | c :: _ => !c.isDigit

theorem readDecimals_noDigit (w : Nat) {rest : List Char} (h : noDigit rest = true) :
    readDecimals w rest = (0, rest) := by
  cases rest with
  | nil => rfl
  | cons c cs =>
    have hc : c.isDigit = false := by simpa [noDigit] using h
    simp [readDecimals, hc]

theorem readDecimals_fracDigits (w n : Nat) {rest : List Char} (h : noDigit rest = true) :
    readDecimals w (fracDigits w n ++ rest) = (n % 10 ^ w, rest) := by
  induction w with
  | zero => simpa [fracDigits, Nat.mod_one] using readDecimals_noDigit 0 h
  | succ w ih =>
    unfold fracDigits
    split
    · rename_i hzero
      rw [List.nil_append, readDecimals_noDigit _ h, hzero]
    · have hd : n / 10 ^ w % 10 < 10 := Nat.mod_lt _ (by omega)
      simp only [List.cons_append, readDecimals, isDigit_digitChar hd, if_true,
        Nat.add_sub_cancel, Nat.add_eq_zero_iff, Nat.one_ne_zero, and_false, if_false,
        digitValue_digitChar hd, ih, digit_split n w]

theorem readFraction_fraction {n : Nat} (hn : n < 10 ^ 9) {rest : List Char}
    (h : noDigit rest = true) (hdot : rest.head? ≠ some '.') :
    readFraction (fraction n ++ rest) = (n, rest) := by
  unfold fraction
  split
  · rename_i hzero
    subst hzero
    rw [List.nil_append]
    unfold readFraction
    split
    · simp at hdot
    · rfl
  · rename_i hpos
    have hmod : n % 10 ^ 9 ≠ 0 := by
      rw [Nat.mod_eq_of_lt hn]
      exact hpos
    have hd : n / 10 ^ 8 % 10 < 10 := Nat.mod_lt _ (by omega)
    have hread := readDecimals_fracDigits 9 n h
    rw [Nat.mod_eq_of_lt hn] at hread
    unfold fracDigits at hread ⊢
    rw [if_neg hmod] at hread ⊢
    simp only [List.cons_append] at hread ⊢
    simp only [readFraction, isDigit_digitChar hd, if_true]
    exact hread

theorem noDigit_zone (o : Int) : noDigit (zone o) = true ∧ (zone o).head? ≠ some '.' := by
  unfold zone
  split
  · decide
  · split <;> simp [noDigit]

/-- What is left of an offset once its seconds are cut off. -/
def wholeMinutes (o : Int) : Int := zoneMinutes o * 60

theorem readZone_zone {o : Int} (h : (zoneMinutes o).natAbs / 60 < 24) :
    readZone (zone o) = some (wholeMinutes o) := by
  unfold zone wholeMinutes
  split
  · rename_i hzero
    subst hzero
    rfl
  · set m := zoneMinutes o with hm
    have hh : m.natAbs / 60 < 10 ^ 2 := by omega
    have hlt : m.natAbs % 60 < 60 := Nat.mod_lt _ (by omega)
    have hl : m.natAbs % 60 < 10 ^ 2 := by omega
    have hsum : m.natAbs / 60 * 60 + m.natAbs % 60 = m.natAbs := Nat.div_add_mod' _ _
    have hread : ∀ sign : Char, readZone (sign :: (pad 2 (m.natAbs / 60) ++
        ':' :: pad 2 (m.natAbs % 60))) =
        if sign = '+' then some ((m.natAbs : Int) * 60)
        else if sign = '-' then some (-((m.natAbs : Int) * 60)) else none := by
      intro sign
      have htail : takeDigits 2 0 (pad 2 (m.natAbs % 60)) = some (m.natAbs % 60, []) := by
        have hp := takeDigits_zero_pad hl []
        rwa [List.append_nil] at hp
      unfold readZone
      split
      · rename_i heq
        simp [pad] at heq
      · rename_i heq
        cases heq
        simp only [takeDigits_zero_pad hh, Option.bind_eq_bind, Option.bind_some, expect_cons,
          htail, h, hlt, and_self, if_true, hsum]
      · rename_i heq
        cases heq
    rw [hread]
    split
    · rename_i hneg
      simp only [Char.reduceEq, if_false, if_true, Option.some.injEq]
      omega
    · rename_i hnonneg
      simp only [if_true, Option.some.injEq]
      omega

/-- The instant `t` prints: its offset without the seconds. -/
def Time.printed (t : Time) : Time := { t with offset := wholeMinutes t.offset }

/-- A text in the layout is read up to its zone, whatever the zone is. -/
theorem parse_fields {t : Time} (hyear : 0 ≤ t.year ∧ t.year ≤ 9999) {zoneText : List Char}
    (hzone : noDigit zoneText = true ∧ zoneText.head? ≠ some '.') :
    parse (String.ofList (pad 4 t.year.toNat ++ '-' :: (pad 2 t.month ++ '-' :: (pad 2 t.day ++
      'T' :: (pad 2 t.hour ++ ':' :: (pad 2 t.minute ++ ':' :: (pad 2 t.second ++
        (fraction t.nano ++ zoneText)))))))) = (readZone zoneText).map fun offset => { t with offset := offset } := by
  have hv := t.valid
  simp only [inRange, Bool.and_eq_true, decide_eq_true_eq] at hv
  obtain ⟨⟨⟨⟨⟨⟨⟨hm1, hm⟩, hd1⟩, hd⟩, hh⟩, hmin⟩, hs⟩, hn⟩ := hv
  have hdays : daysIn t.month t.year ≤ 31 := by
    unfold daysIn
    split
    · split <;> omega
    · omega
    · omega
    · omega
    · omega
    · omega
  have hy : t.year.toNat < 10 ^ 4 := by omega
  have hyear' : ((t.year.toNat : Nat) : Int) = t.year := by omega
  have hm' : t.month < 10 ^ 2 := by omega
  have hd' : t.day < 10 ^ 2 := by omega
  have hh' : t.hour < 10 ^ 2 := by omega
  have hmin' : t.minute < 10 ^ 2 := by omega
  have hs' : t.second < 10 ^ 2 := by omega
  unfold parse
  simp only [String.toList_ofList, takeDigits_zero_pad hy, takeDigits_zero_pad hm',
    takeDigits_zero_pad hd', takeDigits_zero_pad hh', takeDigits_zero_pad hmin',
    takeDigits_zero_pad hs', expect_cons, Option.bind_eq_bind, Option.bind_some,
    readFraction_fraction hn hzone.1 hzone.2, hyear', t.valid, dif_pos]
  cases readZone zoneText <;> rfl

/-- Every text `MarshalJSON` produces is read back by the consumer. -/
theorem parse_marshal {t : Time} {s : String} (h : marshal t = some s) : parse s = some t.printed := by
  unfold marshal at h
  split at h
  · cases h
  · rename_i hyear
    split at h
    · cases h
    · rename_i hzone
      obtain rfl := Option.some.inj h
      rw [parse_fields (by omega) (noDigit_zone t.offset), readZone_zone (by omega)]
      rfl

/-- Days since 1970-01-01 in the proleptic Gregorian calendar; its years begin with March. -/
def dayNumber (year : Int) (month day : Nat) : Int :=
  let y := if month ≤ 2 then year - 1 else year
  let dayOfYear : Int := ((153 * ((month + 9) % 12) + 2) / 5 + day - 1 : Nat)
  365 * y + y / 4 - y / 100 + y / 400 + dayOfYear - 719468

example : dayNumber 1970 1 1 = 0 ∧ dayNumber 2000 2 29 = 11016 ∧ dayNumber 2000 3 1 = 11017 := by decide

/-- Microseconds since the epoch, the precision of a database column. -/
def Time.micros (t : Time) : Int :=
  (dayNumber t.year t.month t.day * 86400 + (t.hour * 3600 + t.minute * 60 + t.second : Nat) - t.offset) * 1000000 +
    (t.nano / 1000 : Nat)

/-- The instant as its text gives it, to database precision. -/
def Time.stamp (t : Time) : Int := t.printed.micros

theorem wholeMinutes_idem (o : Int) : wholeMinutes (wholeMinutes o) = wholeMinutes o := by
  unfold wholeMinutes zoneMinutes
  rw [Int.mul_tdiv_cancel _ (by decide)]

@[simp] theorem Time.stamp_printed (t : Time) : t.printed.stamp = t.stamp := by
  unfold stamp printed
  rw [wholeMinutes_idem]

/-! ### Texts without bounds -/

/-- At least `w` digits, more where the number has more. -/
def padded (w n : Nat) : List Char := pad (max w (Nat.log 10 n + 1)) n

def formatYear (year : Int) : List Char := if year < 0 then '-' :: padded 4 year.natAbs else padded 4 year.natAbs

def formatZone (offset : Int) : List Char :=
  if offset = 0 then ['Z']
  else
    (if zoneMinutes offset < 0 then '-' else '+') ::
      (padded 2 ((zoneMinutes offset).natAbs / 60) ++
        ':' :: pad 2 ((zoneMinutes offset).natAbs % 60))

/-- The text of `Format(time.RFC3339Nano)`. -/
def format (t : Time) : String :=
  String.ofList (formatYear t.year ++ '-' :: (pad 2 t.month ++ '-' :: (pad 2 t.day ++
    'T' :: (pad 2 t.hour ++ ':' :: (pad 2 t.minute ++ ':' :: (pad 2 t.second ++
      (fraction t.nano ++ formatZone t.offset)))))))

theorem padded_of_lt {w n : Nat} (hw : 0 < w) (h : n < 10 ^ w) : padded w n = pad w n := by
  have hlog : Nat.log 10 n < w := by
    rcases Nat.eq_zero_or_pos n with rfl | hn
    · rwa [Nat.log_zero_right]
    · exact Nat.log_lt_of_lt_pow hn.ne' h
  rw [padded, Nat.max_eq_left (by omega)]

theorem takeDigits_pad_add (w k acc n : Nat) (rest : List Char) :
    ∃ read, takeDigits w acc (pad (w + k) n ++ rest) = some (read, pad k n ++ rest) := by
  induction w generalizing acc with
  | zero => exact ⟨acc, by rw [Nat.zero_add, takeDigits]⟩
  | succ w ih =>
    have hd : n / 10 ^ (w + k) % 10 < 10 := Nat.mod_lt _ (by omega)
    rw [Nat.add_right_comm, pad, List.cons_append, takeDigits, if_pos (isDigit_digitChar hd)]
    exact ih _

/-- Of a number with more digits, one is left over. -/
theorem takeDigits_padded {w n : Nat} (h : 10 ^ w ≤ n) (acc : Nat) (rest : List Char) :
    ∃ read d cs, takeDigits w acc (padded w n ++ rest) = some (read, Nat.digitChar d :: cs) ∧ d < 10 := by
  have hlog : w ≤ Nat.log 10 n := Nat.le_log_of_pow_le (by decide) h
  obtain ⟨k, hk⟩ := Nat.exists_eq_add_of_le hlog
  have hmax : max w (Nat.log 10 n + 1) = w + (k + 1) := by omega
  obtain ⟨read, hread⟩ := takeDigits_pad_add w (k + 1) acc n rest
  rw [padded, hmax]
  exact ⟨read, _, _, hread, Nat.mod_lt _ (by decide)⟩

theorem expect_digitChar {c : Char} (hc : c.isDigit = false) {d : Nat} (h : d < 10) (cs : List Char) :
    expect c (Nat.digitChar d :: cs) = none := by
  have hne : Nat.digitChar d ≠ c := by
    rintro rfl
    rw [isDigit_digitChar h] at hc
    cases hc
  rw [expect, if_neg hne]

theorem formatYear_eq {year : Int} (h : 0 ≤ year ∧ year ≤ 9999) : formatYear year = pad 4 year.toNat := by
  have hlt : year.natAbs < 10 ^ 4 := by omega
  have heq : year.natAbs = year.toNat := by omega
  rw [formatYear, if_neg (by omega), padded_of_lt (by decide) hlt, heq]

/-- A year that is not written with four digits is not read. -/
theorem parse_formatYear {year : Int} (h : ¬ (0 ≤ year ∧ year ≤ 9999)) (rest : List Char) :
    parse (String.ofList (formatYear year ++ '-' :: rest)) = none := by
  unfold parse
  rw [String.toList_ofList, formatYear]
  split
  · rfl
  · have hlarge : 10 ^ 4 ≤ year.natAbs := by omega
    obtain ⟨read, d, cs, hread, hd⟩ := takeDigits_padded hlarge 0 ('-' :: rest)
    rw [hread, Option.bind_eq_bind, Option.bind_some]
    dsimp only
    rw [expect_digitChar (by decide) hd]
    rfl

theorem formatZone_eq {offset : Int} (h : (zoneMinutes offset).natAbs / 60 < 24) : formatZone offset = zone offset := by
  have hlt : (zoneMinutes offset).natAbs / 60 < 10 ^ 2 := by omega
  rw [formatZone, zone, padded_of_lt (by decide) hlt]

theorem readZone_formatZone {offset : Int} (h : ¬ (zoneMinutes offset).natAbs / 60 < 24) :
    readZone (formatZone offset) = none := by
  unfold formatZone
  split
  · rename_i hzero
    rw [hzero] at h
    exact absurd (by decide) h
  · set m := (zoneMinutes offset).natAbs with hm
    have hread : ∀ sign : Char, readZone (sign :: (padded 2 (m / 60) ++ ':' :: pad 2 (m % 60))) = none := by
      intro sign
      unfold readZone
      split
      · rename_i heq
        simp [padded] at heq
      · rename_i heq
        cases heq
        by_cases hlarge : 10 ^ 2 ≤ m / 60
        · obtain ⟨read, d, cs, hread, hd⟩ := takeDigits_padded hlarge 0 (':' :: pad 2 (m % 60))
          rw [hread, Option.bind_eq_bind, Option.bind_some]
          dsimp only
          rw [expect_digitChar (by decide) hd]
          rfl
        · have hhours : m / 60 < 10 ^ 2 := by omega
          rw [padded_of_lt (by decide) hhours]
          have htail : takeDigits 2 0 (pad 2 (m % 60)) = some (m % 60, []) := by
            have hp := takeDigits_zero_pad (show m % 60 < 10 ^ 2 by omega) []
            rwa [List.append_nil] at hp
          simp only [takeDigits_zero_pad hhours, Option.bind_eq_bind, Option.bind_some, expect_cons, htail, h, false_and,
            and_false, if_false]
      · rename_i heq
        cases heq
    exact hread _

theorem noDigit_formatZone (o : Int) : noDigit (formatZone o) = true ∧ (formatZone o).head? ≠ some '.' := by
  unfold formatZone
  split
  · decide
  · split <;> simp [noDigit]

theorem format_ne_empty (t : Time) : format t ≠ "" := by
  intro h
  have hlist := congrArg String.toList h
  rw [format, String.toList_ofList] at hlist
  exact List.append_ne_nil_of_right_ne_nil _ (List.cons_ne_nil _ _) hlist

/-- Within the bounds it is the text of `MarshalJSON`. -/
theorem marshal_eq_format {t : Time} (hyear : 0 ≤ t.year ∧ t.year ≤ 9999) (hzone : (zoneMinutes t.offset).natAbs / 60 < 24) :
    marshal t = some (format t) := by
  rw [marshal, if_neg (by omega), if_neg (by omega), format, formatYear_eq hyear, formatZone_eq hzone]

/-- What is read of a text of `Format` is the time as it is printed. -/
theorem parse_format {t t' : Time} (h : parse (format t) = some t') : t' = t.printed := by
  by_cases hyear : 0 ≤ t.year ∧ t.year ≤ 9999
  · by_cases hzone : (zoneMinutes t.offset).natAbs / 60 < 24
    · rw [parse_marshal (marshal_eq_format hyear hzone)] at h
      exact (Option.some.inj h).symm
    · rw [format, formatYear_eq hyear, parse_fields hyear (noDigit_formatZone t.offset), readZone_formatZone hzone] at h
      cases h
  · rw [format, parse_formatYear hyear] at h
    cases h

end Chinwag.Rfc3339

import Mathlib.Data.List.TakeDrop
import Mathlib.Tactic.Common
import Chinwag.Lib.Json

/-!
# JSON texts

The printer is `JSON.stringify` on trees without fractions, the reader is that of RFC 8259: it takes
white space, every escape and every number, and gives up at a bound on how deep values are nested.
What is printed is read back, whatever strings and names the tree holds.
-/
namespace Chinwag.JsonText

/-! ### Printing -/

def hexDigit (n : Nat) : Char := if n < 10 then Char.ofNat (n + 48) else Char.ofNat (n + 87)

/-- A character inside a string. -/
def escape (c : Char) : List Char :=
  if c = '"' then ['\\', '"']
  else if c = '\\' then ['\\', '\\']
  else if c.toNat = 8 then ['\\', 'b']
  else if c.toNat = 12 then ['\\', 'f']
  else if c = '\n' then ['\\', 'n']
  else if c = '\r' then ['\\', 'r']
  else if c = '\t' then ['\\', 't']
  else if c.toNat < 32 then ['\\', 'u', '0', '0', hexDigit (c.toNat / 16), hexDigit (c.toNat % 16)]
  else [c]

def quoted (s : String) : List Char := '"' :: (s.toList.flatMap escape ++ ['"'])

def decimal : Int → List Char
  | .ofNat n => Nat.toDigits 10 n
  | .negSucc n => '-' :: Nat.toDigits 10 (n + 1)

mutual

def print : Json → List Char
  | .null => "null".toList
  | .bool true => "true".toList
  | .bool false => "false".toList
  | .int n => decimal n
  | .real literal => literal.toList
  | .str s => quoted s
  | .arr [] => ['[', ']']
  | .arr (v :: rest) => '[' :: (print v ++ printItems rest)
  | .obj [] => ['\x7b', '\x7d']
  | .obj ((name, v) :: rest) => '\x7b' :: (quoted name ++ ':' :: (print v ++ printMembers rest))

/-- The items behind the first, and the end of the array. -/
def printItems : List Json → List Char
  | [] => [']']
  | v :: rest => ',' :: (print v ++ printItems rest)

def printMembers : List (String × Json) → List Char
  | [] => ['\x7d']
  | (name, v) :: rest => ',' :: (quoted name ++ ':' :: (print v ++ printMembers rest))

end

/-- `JSON.stringify`. -/
def stringify (v : Json) : String := String.ofList (print v)

/-! ### Reading -/

def isSpace (c : Char) : Bool := c = ' ' || c = '\t' || c = '\n' || c = '\r'

def skip (text : List Char) : List Char := text.dropWhile isSpace

def hexValue (c : Char) : Option Nat :=
  if c.isDigit then some (c.toNat - 48)
  else if 'a' ≤ c ∧ c ≤ 'f' then some (c.toNat - 87)
  else if 'A' ≤ c ∧ c ≤ 'F' then some (c.toNat - 55)
  else none

/-- Four hexadecimal digits. -/
def readHex : List Char → Option (Nat × List Char)
  | a :: b :: c :: d :: rest => do
    let a ← hexValue a
    let b ← hexValue b
    let c ← hexValue c
    let d ← hexValue d
    return (a * 4096 + b * 256 + c * 16 + d, rest)
  | _ => none

def isSurrogate (n : Nat) : Bool := 0xD800 ≤ n && n < 0xE000

def replacement : Char := Char.ofNat 0xFFFD

/-- The second half of a pair, where the first has just been read. -/
def readLow (high : Nat) : List Char → Option (Char × List Char)
  | '\\' :: 'u' :: rest =>
    (readHex rest).bind fun low =>
      if high < 0xDC00 ∧ 0xDC00 ≤ low.1 ∧ low.1 < 0xE000 then
        some (Char.ofNat (0x10000 + (high - 0xD800) * 0x400 + (low.1 - 0xDC00)), low.2)
      else none
  | _ => none

/-- A code behind `\u`; a surrogate without its other half is replaced. -/
def readUnicode (text : List Char) : Option (Char × List Char) :=
  (readHex text).map fun code =>
    if isSurrogate code.1 then (readLow code.1 code.2).getD (replacement, code.2)
    else (Char.ofNat code.1, code.2)

def simpleEscape (c : Char) : Option Char :=
  if c = '"' ∨ c = '\\' ∨ c = '/' then some c
  else if c = 'b' then some (Char.ofNat 8)
  else if c = 'f' then some (Char.ofNat 12)
  else if c = 'n' then some '\n'
  else if c = 'r' then some '\r'
  else if c = 't' then some '\t'
  else none

/-- What stands behind a backslash. -/
def readEscape : List Char → Option (Char × List Char)
  | [] => none
  | c :: rest => if c = 'u' then readUnicode rest else (simpleEscape c).map fun d => (d, rest)

/-- The characters up to the closing quote, of which there are fewer than the first argument. -/
def readChars : Nat → List Char → Option (List Char × List Char)
  | 0, _ => none
  | _ + 1, [] => none
  | n + 1, c :: rest =>
    if c = '"' then some ([], rest)
    else if c = '\\' then do
      let (c, rest) ← readEscape rest
      let (cs, rest) ← readChars n rest
      return (c :: cs, rest)
    else if c.toNat < 32 then none
    else do
      let (cs, rest) ← readChars n rest
      return (c :: cs, rest)

/-- A string behind its opening quote. -/
def readText (text : List Char) : Option (String × List Char) :=
  (readChars (text.length + 1) text).map fun s => (String.ofList s.1, s.2)

/-- Digits, at least one. -/
def readDigits (text : List Char) : Option (List Char × List Char) :=
  if text.takeWhile Char.isDigit = [] then none
  else some (text.takeWhile Char.isDigit, text.dropWhile Char.isDigit)

/-- Digits that begin with no zero, or a zero alone. -/
def readWhole (text : List Char) : Option (List Char × List Char) :=
  (readDigits text).bind fun digits =>
    if digits.1.head? = some '0' ∧ digits.1 ≠ ['0'] then none else some digits

/-- What stands behind the whole part as it is written, the empty text if nothing does. -/
def readFraction : List Char → Option (List Char × List Char)
  | '.' :: rest => (readDigits rest).map fun digits => ('.' :: digits.1, digits.2)
  | rest => some ([], rest)

def readSign : List Char → List Char × List Char
  | '+' :: rest => (['+'], rest)
  | '-' :: rest => (['-'], rest)
  | rest => ([], rest)

def readExponent : List Char → Option (List Char × List Char)
  | c :: rest =>
    if c = 'e' ∨ c = 'E' then
      (readDigits (readSign rest).2).map fun digits => (c :: ((readSign rest).1 ++ digits.1), digits.2)
    else some ([], c :: rest)
  | [] => some ([], [])

def ofSign (negative : Bool) (n : Nat) : Int := if negative then -n else n

/-- A number without its sign. -/
def readMagnitude (negative : Bool) (text : List Char) : Option (Json × List Char) := do
  let (whole, rest) ← readWhole text
  let (fraction, rest) ← readFraction rest
  let (exponent, rest) ← readExponent rest
  if fraction = [] ∧ exponent = [] then return (.int (ofSign negative (Nat.ofDigitChars 10 whole 0)), rest)
  else
    let sign := if negative then ['-'] else []
    return (.real (String.ofList (sign ++ whole ++ fraction ++ exponent)), rest)

def readNumber : List Char → Option (Json × List Char)
  | '-' :: rest => readMagnitude true rest
  | rest => readMagnitude false rest

/-- A fixed word. -/
def readWord (word : String) (v : Json) (text : List Char) : Option (Json × List Char) :=
  if word.toList.isPrefixOf text then some (v, text.drop word.toList.length) else none

mutual

/-- One value. The first argument bounds the steps, the second how deep values are nested. -/
def readValue : Nat → Nat → List Char → Option (Json × List Char)
  | 0, _, _ => none
  | n + 1, depth, text =>
    match skip text with
    | [] => none
    | c :: rest =>
      if c = '"' then (readText rest).map fun s => (.str s.1, s.2)
      else if c = '[' then
        match depth, skip rest with
        | 0, _ => none
        | _ + 1, ']' :: rest => some (.arr [], rest)
        | depth + 1, rest => (readItems n depth rest).map fun items => (.arr items.1, items.2)
      else if c = '\x7b' then
        match depth, skip rest with
        | 0, _ => none
        | _ + 1, '\x7d' :: rest => some (.obj [], rest)
        | depth + 1, rest => (readMembers n depth rest).map fun members => (.obj members.1, members.2)
      else if c = 'n' then readWord "null" .null (c :: rest)
      else if c = 't' then readWord "true" (.bool true) (c :: rest)
      else if c = 'f' then readWord "false" (.bool false) (c :: rest)
      else readNumber (c :: rest)

/-- The items of an array up to its end, at least one. -/
def readItems : Nat → Nat → List Char → Option (List Json × List Char)
  | 0, _, _ => none
  | n + 1, depth, text => do
    let (v, rest) ← readValue n depth text
    match skip rest with
    | ']' :: rest => return ([v], rest)
    | ',' :: rest => do
      let (items, rest) ← readItems n depth rest
      return (v :: items, rest)
    | _ => none

/-- The members of an object up to its end, at least one. -/
def readMembers : Nat → Nat → List Char → Option (List (String × Json) × List Char)
  | 0, _, _ => none
  | n + 1, depth, text =>
    match skip text with
    | '"' :: rest => do
      let (name, rest) ← readText rest
      match skip rest with
      | ':' :: rest => do
        let (v, rest) ← readValue n depth rest
        match skip rest with
        | '\x7d' :: rest => return ([(name, v)], rest)
        | ',' :: rest => do
          let (members, rest) ← readMembers n depth rest
          return ((name, v) :: members, rest)
        | _ => none
      | _ => none
    | _ => none

end

/-- A whole text, with nothing but white space around the value. -/
def parse (depth : Nat) (text : String) : Option Json :=
  (readValue (text.toList.length + 1) depth text.toList).bind fun v => if skip v.2 = [] then some v.1 else none

/-! ### Strings -/

theorem hexValue_hexDigit : ∀ d < 16, hexValue (hexDigit d) = some d := by
  decide

/-- A control character, as it is escaped. -/
theorem readEscape_control {c : Char} (h : c.toNat < 32) (rest : List Char) :
    readEscape ('u' :: '0' :: '0' :: hexDigit (c.toNat / 16) :: hexDigit (c.toNat % 16) :: rest) = some (c, rest) := by
  have hzero : hexValue '0' = some 0 := by decide
  have hhigh : hexValue (hexDigit (c.toNat / 16)) = some (c.toNat / 16) := hexValue_hexDigit _ (by omega)
  have hlow : hexValue (hexDigit (c.toNat % 16)) = some (c.toNat % 16) := hexValue_hexDigit _ (by omega)
  have hcode : 0 * 4096 + 0 * 256 + c.toNat / 16 * 16 + c.toNat % 16 = c.toNat := by omega
  have hread : readHex ('0' :: '0' :: hexDigit (c.toNat / 16) :: hexDigit (c.toNat % 16) :: rest) =
      some (c.toNat, rest) := by
    simp only [readHex, hzero, hhigh, hlow, Option.bind_eq_bind, Option.bind_some, Option.pure_def, hcode]
  have hplain : isSurrogate c.toNat = false := by
    unfold isSurrogate
    simp only [Bool.and_eq_false_iff, decide_eq_false_iff_not]
    omega
  simp only [readEscape, if_true, readUnicode, hread, Option.map_some, hplain, Bool.false_eq_true, if_false,
    Char.ofNat_toNat]

/-- Behind a backslash stands one escape. -/
theorem readChars_slash {n : Nat} {c : Char} {text rest : List Char} (h : readEscape text = some (c, rest)) :
    readChars (n + 1) ('\\' :: text) = (readChars n rest).map fun s => (c :: s.1, s.2) := by
  have hslash : '\\' ≠ '"' := by decide
  rw [readChars, if_neg hslash, if_pos rfl, h, Option.bind_eq_bind, Option.bind_some]
  dsimp only
  cases readChars n rest <;> rfl

theorem readChars_escape (n : Nat) (c : Char) (rest : List Char) :
    readChars (n + 1) (escape c ++ rest) = (readChars n rest).map fun s => (c :: s.1, s.2) := by
  have hcode : ∀ k, c.toNat = k → c = Char.ofNat k := by
    rintro k rfl
    exact (Char.ofNat_toNat c).symm
  unfold escape
  split_ifs with hquote hslash hback hfeed hline hreturn htab hcontrol
  · exact readChars_slash (by rw [hquote]; rfl)
  · exact readChars_slash (by rw [hslash]; rfl)
  · exact readChars_slash (by rw [hcode _ hback]; rfl)
  · exact readChars_slash (by rw [hcode _ hfeed]; rfl)
  · exact readChars_slash (by rw [hline]; rfl)
  · exact readChars_slash (by rw [hreturn]; rfl)
  · exact readChars_slash (by rw [htab]; rfl)
  · exact readChars_slash (readEscape_control hcontrol rest)
  · rw [List.singleton_append, readChars, if_neg hquote, if_neg hslash, if_neg hcontrol]
    cases readChars n rest <;> rfl

theorem length_escape (c : Char) : 1 ≤ (escape c).length := by
  unfold escape
  split_ifs <;> simp

theorem length_flatMap_escape (cs : List Char) : cs.length ≤ (cs.flatMap escape).length := by
  induction cs with
  | nil => exact Nat.le_refl _
  | cons c cs ih =>
    have hone := length_escape c
    simp only [List.flatMap_cons, List.length_append, List.length_cons]
    omega

theorem readChars_flatMap {cs : List Char} {n : Nat} (h : cs.length < n) (rest : List Char) :
    readChars n (cs.flatMap escape ++ '"' :: rest) = some (cs, rest) := by
  induction cs generalizing n with
  | nil =>
    obtain ⟨m, rfl⟩ : ∃ m, n = m + 1 := ⟨n - 1, by simp at h; omega⟩
    rfl
  | cons c cs ih =>
    obtain ⟨m, rfl⟩ : ∃ m, n = m + 1 := ⟨n - 1, by simp at h; omega⟩
    have hlen : cs.length < m := by simpa using h
    rw [List.flatMap_cons, List.append_assoc, readChars_escape, ih hlen]
    rfl

/-- A string behind its opening quote. -/
theorem readText_quoted (s : String) (rest : List Char) :
    readText (s.toList.flatMap escape ++ '"' :: rest) = some (s, rest) := by
  have hlen := length_flatMap_escape s.toList
  unfold readText
  rw [readChars_flatMap (by simp only [List.length_append]; omega)]
  simp

/-! ### Numbers -/

/-- No character that could go on a number comes first. -/
def Ends (rest : List Char) : Prop :=
  ∀ c ∈ rest.head?, c.isDigit = false ∧ c ≠ '.' ∧ c ≠ 'e' ∧ c ≠ 'E'

theorem digits_append {ds rest : List Char} (hds : ∀ c ∈ ds, c.isDigit = true) (hrest : Ends rest) :
    (ds ++ rest).takeWhile Char.isDigit = ds ∧ (ds ++ rest).dropWhile Char.isDigit = rest := by
  have hstop : rest.takeWhile Char.isDigit = [] ∧ rest.dropWhile Char.isDigit = rest := by
    cases rest with
    | nil => exact ⟨rfl, rfl⟩
    | cons c rest =>
      have hc := (hrest c rfl).1
      simp [hc]
  constructor
  · rw [List.takeWhile_append_of_pos hds, hstop.1, List.append_nil]
  · rw [List.dropWhile_append_of_pos hds, hstop.2]

/-- The first digit of a number is a zero only of zero itself. -/
theorem head_toDigits (n : Nat) : (Nat.toDigits 10 n).head? = some '0' → Nat.toDigits 10 n = ['0'] := by
  induction n using Nat.strong_induction_on with
  | _ n ih =>
    by_cases hsmall : n < 10
    · rw [Nat.toDigits_of_lt_base hsmall]
      intro h
      simpa using h
    · have hquot : n / 10 < n := Nat.div_lt_self (by omega) (by decide)
      have hsplit := Nat.toDigits_of_base_le (b := 10) (by decide) (Nat.le_of_not_lt hsmall)
      have hne : Nat.toDigits 10 (n / 10) ≠ [] := Nat.toDigits_ne_nil
      rw [hsplit, List.head?_append_of_ne_nil _ hne]
      intro h
      have hzero := ih _ hquot h
      have hvalue : Nat.ofDigitChars 10 (Nat.toDigits 10 (n / 10)) 0 = n / 10 := Nat.ofDigitChars_ten_toDigits
      rw [hzero] at hvalue
      have hnone : Nat.ofDigitChars 10 ['0'] 0 = 0 := by decide
      omega

theorem readMagnitude_toDigits {rest : List Char} (hrest : Ends rest) (negative : Bool) (n : Nat) :
    readMagnitude negative (Nat.toDigits 10 n ++ rest) = some (.int (ofSign negative n), rest) := by
  have hdigits : ∀ c ∈ Nat.toDigits 10 n, c.isDigit = true := fun c hc =>
    Nat.isDigit_of_mem_toDigits (by decide) (by decide) hc
  obtain ⟨htake, hdrop⟩ := digits_append hdigits hrest
  have hwhole : readWhole (Nat.toDigits 10 n ++ rest) = some (Nat.toDigits 10 n, rest) := by
    unfold readWhole readDigits
    rw [htake, hdrop, if_neg Nat.toDigits_ne_nil, Option.bind_some, if_neg]
    exact fun h => h.2 (head_toDigits n h.1)
  have hfraction : readFraction rest = some ([], rest) := by
    unfold readFraction
    split
    · exact absurd rfl (hrest '.' rfl).2.1
    · rfl
  have hexponent : readExponent rest = some ([], rest) := by
    unfold readExponent
    split
    · rename_i c rest
      obtain ⟨-, -, he, hE⟩ := hrest c rfl
      rw [if_neg (by simp [he, hE])]
    · rfl
  unfold readMagnitude
  simp only [hwhole, hfraction, hexponent, Option.bind_eq_bind, Option.bind_some, and_self, if_true,
    Nat.ofDigitChars_ten_toDigits, Option.pure_def]

theorem readNumber_decimal {rest : List Char} (hrest : Ends rest) (n : Int) :
    readNumber (decimal n ++ rest) = some (.int n, rest) := by
  cases n with
  | ofNat n =>
    have hplus : readNumber (Nat.toDigits 10 n ++ rest) = readMagnitude false (Nat.toDigits 10 n ++ rest) := by
      obtain ⟨c, cs, hcs⟩ := List.exists_cons_of_ne_nil (Nat.toDigits_ne_nil (n := n) (b := 10))
      have hc : c.isDigit = true :=
        Nat.isDigit_of_mem_toDigits (b := 10) (n := n) (by decide) (by decide) (by rw [hcs]; exact List.mem_cons_self)
      rw [hcs, List.cons_append]
      unfold readNumber
      split
      · rename_i heq
        cases heq
        exact absurd hc (by decide)
      · rfl
    rw [decimal, hplus, readMagnitude_toDigits hrest]
    rfl
  | negSucc n =>
    rw [decimal, List.cons_append, readNumber, readMagnitude_toDigits hrest]
    rfl

/-! ### Trees -/

mutual

/-- How deep values are nested. -/
def depth : Json → Nat
  | .arr items => depthItems items + 1
  | .obj members => depthMembers members + 1
  | _ => 0

def depthItems : List Json → Nat
  | [] => 0
  | v :: rest => max (depth v) (depthItems rest)

def depthMembers : List (String × Json) → Nat
  | [] => 0
  | (_, v) :: rest => max (depth v) (depthMembers rest)

end

mutual

/-- No number has a fraction or an exponent. -/
def integral : Json → Bool
  | .real _ => false
  | .arr items => integralItems items
  | .obj members => integralMembers members
  | _ => true

def integralItems : List Json → Bool
  | [] => true
  | v :: rest => integral v && integralItems rest

def integralMembers : List (String × Json) → Bool
  | [] => true
  | (_, v) :: rest => integral v && integralMembers rest

end

theorem skip_cons {c : Char} (h : isSpace c = false) (rest : List Char) : skip (c :: rest) = c :: rest := by
  simp [skip, h]

theorem decimal_head (n : Int) : ∃ c rest, decimal n = c :: rest ∧ (c = '-' ∨ c.isDigit = true) := by
  cases n with
  | ofNat n =>
    obtain ⟨c, cs, hcs⟩ := List.exists_cons_of_ne_nil (Nat.toDigits_ne_nil (n := n) (b := 10))
    refine ⟨c, cs, hcs, .inr ?_⟩
    exact Nat.isDigit_of_mem_toDigits (b := 10) (n := n) (by decide) (by decide) (by rw [hcs]; exact List.mem_cons_self)
  | negSucc n => exact ⟨'-', _, rfl, .inl rfl⟩

/-- What a number begins with is no white space and the start of nothing else. -/
theorem number_start {c : Char} (h : c = '-' ∨ c.isDigit = true) : isSpace c = false ∧
    c ≠ '"' ∧ c ≠ '[' ∧ c ≠ '\x7b' ∧ c ≠ 'n' ∧ c ≠ 't' ∧ c ≠ 'f' := by
  have hne : ∀ d : Char, d.isDigit = false → d ≠ '-' → c ≠ d := by
    rintro d hd hminus rfl
    rcases h with h | h
    · exact hminus h
    · rw [hd] at h
      cases h
  refine ⟨?_, hne _ (by decide) (by decide), hne _ (by decide) (by decide), hne _ (by decide) (by decide),
    hne _ (by decide) (by decide), hne _ (by decide) (by decide), hne _ (by decide) (by decide)⟩
  simp only [isSpace, Bool.or_eq_false_iff, decide_eq_false_iff_not]
  exact ⟨⟨⟨hne _ (by decide) (by decide), hne _ (by decide) (by decide)⟩, hne _ (by decide) (by decide)⟩,
    hne _ (by decide) (by decide)⟩

theorem readValue_decimal (n k : Nat) {rest : List Char} (hrest : Ends rest) (i : Int) :
    readValue (n + 1) k (decimal i ++ rest) = some (.int i, rest) := by
  obtain ⟨c, cs, hcs, hc⟩ := decimal_head i
  obtain ⟨hspace, hquote, harr, hobj, hnull, htrue, hfalse⟩ := number_start hc
  have hnumber := readNumber_decimal hrest i
  rw [hcs, List.cons_append] at hnumber ⊢
  rw [readValue, skip_cons hspace]
  simp only [hquote, harr, hobj, hnull, htrue, hfalse, if_false, hnumber]

/-- No value begins like the end of an array, and none with white space. -/
theorem print_head (v : Json) (h : integral v = true) :
    ∃ c rest, print v = c :: rest ∧ isSpace c = false ∧ c ≠ ']' := by
  cases v with
  | null => exact ⟨'n', _, rfl, by decide, by decide⟩
  | bool b => cases b <;> exact ⟨_, _, rfl, by decide, by decide⟩
  | int n =>
    obtain ⟨c, cs, hcs, hc⟩ := decimal_head n
    refine ⟨c, cs, hcs, (number_start hc).1, ?_⟩
    rintro rfl
    rcases hc with hc | hc <;> exact absurd hc (by decide)
  | real literal => cases h
  | str s => exact ⟨'"', _, rfl, by decide, by decide⟩
  | arr items => cases items <;> exact ⟨'[', _, rfl, by decide, by decide⟩
  | obj members =>
    cases members with
    | nil => exact ⟨'\x7b', _, rfl, by decide, by decide⟩
    | cons m members => exact ⟨'\x7b', _, rfl, by decide, by decide⟩

theorem ends_cons {c : Char} (h : c.isDigit = false ∧ c ≠ '.' ∧ c ≠ 'e' ∧ c ≠ 'E') (rest : List Char) :
    Ends (c :: rest) := by
  intro d hd
  cases hd
  exact h

theorem ends_printItems (items : List Json) (rest : List Char) : Ends (printItems items ++ rest) := by
  cases items <;> exact ends_cons (by decide) _

theorem ends_printMembers (members : List (String × Json)) (rest : List Char) : Ends (printMembers members ++ rest) := by
  cases members with
  | nil => exact ends_cons (by decide) _
  | cons m members => exact ends_cons (by decide) _

theorem readValue_arr {c : Char} (hspace : isSpace c = false) (hend : c ≠ ']') (n k : Nat) (cs : List Char) :
    readValue (n + 1) (k + 1) ('[' :: c :: cs) =
      (readItems n k (c :: cs)).map fun items => (.arr items.1, items.2) := by
  have hquote : '[' ≠ '"' := by decide
  rw [readValue, skip_cons (by decide)]
  simp only [hquote, if_false, if_true, skip_cons hspace]
  split
  · contradiction
  · rename_i heq
    exact absurd (List.cons.inj heq).1 hend
  · rename_i heq _
    cases heq
    rfl

theorem readValue_obj (n k : Nat) (cs : List Char) :
    readValue (n + 1) (k + 1) ('\x7b' :: '"' :: cs) =
      (readMembers n k ('"' :: cs)).map fun members => (.obj members.1, members.2) := by
  have hbrace : '\x7b' ≠ '"' ∧ '\x7b' ≠ '[' := by decide
  rw [readValue, skip_cons (by decide)]
  simp only [hbrace.1, hbrace.2, if_false, if_true]
  rfl

theorem readItems_last {n k : Nat} {text rest : List Char} {v : Json}
    (h : readValue n k text = some (v, ']' :: rest)) : readItems (n + 1) k text = some ([v], rest) := by
  rw [readItems, h]
  rfl

theorem readItems_next {n k : Nat} {text rest : List Char} {v : Json}
    (h : readValue n k text = some (v, ',' :: rest)) :
    readItems (n + 1) k text = (readItems n k rest).map fun items => (v :: items.1, items.2) := by
  rw [readItems, h, Option.bind_eq_bind, Option.bind_some]
  simp only [skip_cons (show isSpace ',' = false by decide)]
  cases readItems n k rest <;> rfl

theorem readMembers_last {n k : Nat} {text rest : List Char} {name : String} {v : Json}
    (h : readValue n k text = some (v, '\x7d' :: rest)) :
    readMembers (n + 1) k (quoted name ++ ':' :: text) = some ([(name, v)], rest) := by
  rw [quoted, List.cons_append, List.append_assoc, List.singleton_append, readMembers, skip_cons (by decide)]
  simp only [readText_quoted, Option.bind_eq_bind, Option.bind_some, skip_cons (show isSpace ':' = false by decide), h]
  rfl

theorem readMembers_next {n k : Nat} {text rest : List Char} {name : String} {v : Json}
    (h : readValue n k text = some (v, ',' :: rest)) :
    readMembers (n + 1) k (quoted name ++ ':' :: text) =
      (readMembers n k rest).map fun members => ((name, v) :: members.1, members.2) := by
  rw [quoted, List.cons_append, List.append_assoc, List.singleton_append, readMembers, skip_cons (by decide)]
  simp only [readText_quoted, Option.bind_eq_bind, Option.bind_some, skip_cons (show isSpace ':' = false by decide), h,
    skip_cons (show isSpace ',' = false by decide)]
  cases readMembers n k rest <;> rfl

/-- No value is printed as the empty text. -/
theorem length_print {v : Json} (h : integral v = true) : 1 ≤ (print v).length := by
  obtain ⟨c, cs, hcs, -⟩ := print_head v h
  rw [hcs]
  exact Nat.succ_pos _

mutual

/-- A printed value is read back up to what follows it. -/
theorem readValue_print (v : Json) (n k : Nat) (rest : List Char) (hint : integral v = true) (hdepth : depth v ≤ k)
    (hlen : (print v).length ≤ n) (hrest : Ends rest) : readValue n k (print v ++ rest) = some (v, rest) := by
  have hone := length_print hint
  obtain ⟨m, rfl⟩ : ∃ m, n = m + 1 := ⟨n - 1, by omega⟩
  match v with
  | .null => rfl
  | .bool true => rfl
  | .bool false => rfl
  | .int i => exact readValue_decimal m k hrest i
  | .str s =>
    rw [print, quoted, List.cons_append, List.append_assoc, readValue, skip_cons (by decide)]
    simp only [if_true, List.singleton_append, readText_quoted, Option.map_some]
  | .arr [] =>
    obtain ⟨d, rfl⟩ : ∃ d, k = d + 1 := ⟨k - 1, by rw [depth] at hdepth; omega⟩
    rfl
  | .arr (w :: items) =>
    obtain ⟨d, rfl⟩ : ∃ d, k = d + 1 := ⟨k - 1, by rw [depth] at hdepth; omega⟩
    have hitems := readItems_print (w :: items) m d rest (List.cons_ne_nil w items) hint (Nat.le_of_succ_le_succ hdepth)
      (Nat.le_of_succ_le_succ hlen)
    rw [integral, integralItems, Bool.and_eq_true] at hint
    obtain ⟨c, cs, hcs, hspace, hend⟩ := print_head w hint.1
    rw [printItems, List.tail_cons, hcs, List.cons_append, List.cons_append] at hitems
    rw [print, hcs, List.cons_append, List.cons_append, List.cons_append, readValue_arr hspace hend, hitems]
    rfl
  | .obj [] =>
    obtain ⟨d, rfl⟩ : ∃ d, k = d + 1 := ⟨k - 1, by rw [depth] at hdepth; omega⟩
    rfl
  | .obj ((name, w) :: members) =>
    obtain ⟨d, rfl⟩ : ∃ d, k = d + 1 := ⟨k - 1, by rw [depth] at hdepth; omega⟩
    have hmembers := readMembers_print ((name, w) :: members) m d rest (List.cons_ne_nil _ members) hint
      (Nat.le_of_succ_le_succ hdepth) (Nat.le_of_succ_le_succ hlen)
    rw [printMembers, List.tail_cons, quoted, List.cons_append, List.cons_append] at hmembers
    rw [print, quoted, List.cons_append, List.cons_append, List.cons_append, readValue_obj, hmembers]
    rfl

theorem readItems_print (items : List Json) (n k : Nat) (rest : List Char) (hne : items ≠ [])
    (hint : integralItems items = true) (hdepth : depthItems items ≤ k)
    (hlen : (printItems items).tail.length ≤ n) :
    readItems n k ((printItems items).tail ++ rest) = some (items, rest) := by
  match items with
  | [] => exact absurd rfl hne
  | v :: items =>
    rw [printItems, List.tail_cons, List.length_append] at hlen
    rw [integralItems, Bool.and_eq_true] at hint
    rw [depthItems, Nat.max_le] at hdepth
    have hone := length_print hint.1
    have hend : 1 ≤ (printItems items).length := by cases items <;> exact Nat.succ_pos _
    obtain ⟨m, rfl⟩ : ∃ m, n = m + 1 := ⟨n - 1, by omega⟩
    have hvalue := readValue_print v m k (printItems items ++ rest) hint.1 hdepth.1 (by omega)
      (ends_printItems items rest)
    rw [printItems, List.tail_cons, List.append_assoc]
    match items with
    | [] => exact readItems_last hvalue
    | w :: items =>
      have hitems := readItems_print (w :: items) m k rest (List.cons_ne_nil w items) hint.2 hdepth.2 (by
        rw [List.length_tail]
        omega)
      exact (readItems_next hvalue).trans (congrArg (Option.map fun items => (v :: items.1, items.2)) hitems)

theorem readMembers_print (members : List (String × Json)) (n k : Nat) (rest : List Char) (hne : members ≠ [])
    (hint : integralMembers members = true) (hdepth : depthMembers members ≤ k)
    (hlen : (printMembers members).tail.length ≤ n) :
    readMembers n k ((printMembers members).tail ++ rest) = some (members, rest) := by
  match members with
  | [] => exact absurd rfl hne
  | (name, v) :: members =>
    rw [printMembers, List.tail_cons, List.length_append, List.length_cons, List.length_append] at hlen
    rw [integralMembers, Bool.and_eq_true] at hint
    rw [depthMembers, Nat.max_le] at hdepth
    have hend : 1 ≤ (printMembers members).length := by cases members <;> exact Nat.succ_pos _
    obtain ⟨m, rfl⟩ : ∃ m, n = m + 1 := ⟨n - 1, by omega⟩
    have hvalue := readValue_print v m k (printMembers members ++ rest) hint.1 hdepth.1 (by omega)
      (ends_printMembers members rest)
    rw [printMembers, List.tail_cons, List.append_assoc, List.cons_append, List.append_assoc]
    match members with
    | [] => exact readMembers_last hvalue
    | w :: members =>
      have hmembers := readMembers_print (w :: members) m k rest (List.cons_ne_nil w members) hint.2 hdepth.2 (by
        rw [List.length_tail]
        omega)
      exact (readMembers_next hvalue).trans
        (congrArg (Option.map fun members => ((name, v) :: members.1, members.2)) hmembers)

end

/-- What `JSON.stringify` prints is read back, up to the bound on nesting. -/
theorem parse_stringify {v : Json} (hint : integral v = true) {k : Nat} (hdepth : depth v ≤ k) :
    parse k (stringify v) = some v := by
  have hread := readValue_print v ((print v).length + 1) k [] hint hdepth (Nat.le_succ _) (fun _ h => nomatch h)
  rw [List.append_nil] at hread
  unfold parse stringify
  rw [String.toList_ofList, hread]
  rfl

/-! ### Members by their names -/

section Members

variable {name : String} {v : Json} {members : List (String × Json)}

theorem valuesOf_absent (h : Json.foldName name ∉ members.map fun m => Json.foldName m.1) :
    Json.valuesOf name members = [] := by
  unfold Json.valuesOf
  rw [List.filter_eq_nil_iff.mpr, List.map_nil]
  intro m hm hsame
  exact h (List.mem_map.mpr ⟨m, hm, eq_of_beq hsame⟩)

/-- Where no two names are one up to case, a member is the only value its name has. -/
theorem valuesOf_once (h : (members.map fun m => Json.foldName m.1).Nodup) (hmem : (name, v) ∈ members) :
    Json.valuesOf name members = [v] := by
  induction members with
  | nil => cases hmem
  | cons m members ih =>
    obtain ⟨hnot, hrest⟩ := List.nodup_cons.mp h
    obtain ⟨key, w⟩ := m
    rw [Json.valuesOf_cons]
    rcases List.mem_cons.mp hmem with heq | hmem
    · cases heq
      rw [if_pos rfl, valuesOf_absent hnot]
    · have hne : Json.foldName key ≠ Json.foldName name := fun heq => hnot (List.mem_map.mpr ⟨_, hmem, heq.symm⟩)
      rw [if_neg hne]
      exact ih hrest hmem

end Members

end Chinwag.JsonText

import Mathlib.Data.Nat.Digits.Defs
import Mathlib.Tactic.Common

/-!
# Base64 and big-endian numbers

Bytes are cut into sextets once, and each encoder is an alphabet on them: that of URLs without
padding, and the standard one with it.
-/
namespace Chinwag.Base64

abbrev Octet := Fin 256

abbrev Sextet := Fin 64

def sextets : List Octet → List Sextet
  | a :: b :: c :: rest =>
    Fin.ofNat 64 (a.val / 4) :: Fin.ofNat 64 (a.val % 4 * 16 + b.val / 16) ::
      Fin.ofNat 64 (b.val % 16 * 4 + c.val / 64) :: Fin.ofNat 64 c.val :: sextets rest
  | [a, b] => [Fin.ofNat 64 (a.val / 4), Fin.ofNat 64 (a.val % 4 * 16 + b.val / 16), Fin.ofNat 64 (b.val % 16 * 4)]
  | [a] => [Fin.ofNat 64 (a.val / 4), Fin.ofNat 64 (a.val % 4 * 16)]
  | [] => []

/-- A lone sextet at the end is an error; the bits left over are not looked at. -/
def octets : List Sextet → Option (List Octet)
  | p :: q :: r :: s :: rest =>
    (octets rest).map fun tail =>
      Fin.ofNat 256 (p.val * 4 + q.val / 16) :: Fin.ofNat 256 (q.val * 16 + r.val / 4) ::
        Fin.ofNat 256 (r.val * 64 + s.val) :: tail
  | [p, q, r] => some [Fin.ofNat 256 (p.val * 4 + q.val / 16), Fin.ofNat 256 (q.val * 16 + r.val / 4)]
  | [p, q] => some [Fin.ofNat 256 (p.val * 4 + q.val / 16)]
  | [_] => none
  | [] => some []

theorem octets_sextets (bs : List Octet) : octets (sextets bs) = some bs := by
  fun_induction sextets bs with
  | case1 a b c rest ih =>
    have ha := a.isLt
    have hb := b.isLt
    have hc := c.isLt
    simp only [octets, ih, Option.map_some, Option.some.injEq, List.cons.injEq, and_true, Fin.ext_iff, Fin.val_ofNat]
    omega
  | case2 a b =>
    have ha := a.isLt
    have hb := b.isLt
    simp only [octets, Option.some.injEq, List.cons.injEq, and_true, Fin.ext_iff, Fin.val_ofNat]
    omega
  | case3 a =>
    have ha := a.isLt
    simp only [octets, Option.some.injEq, List.cons.injEq, and_true, Fin.ext_iff, Fin.val_ofNat]
    omega
  | case4 => rfl

/-- The characters the two alphabets share, and the last two of each. -/
def symbol (last : Char × Char) (s : Sextet) : Char :=
  if s.val < 26 then Char.ofNat (s.val + 65)
  else if s.val < 52 then Char.ofNat (s.val + 71)
  else if s.val < 62 then Char.ofNat (s.val - 4)
  else if s.val = 62 then last.1
  else last.2

def urlSymbol : Sextet → Char := symbol ('-', '_')

def stdSymbol : Sextet → Char := symbol ('+', '/')

/-- Without padding, as `RawURLEncoding` has it. -/
def rawUrl (bs : List Octet) : String := String.ofList ((sextets bs).map urlSymbol)

def padding (n : ℕ) : List Char :=
  match n % 3 with
  | 1 => ['=', '=']
  | 2 => ['=']
  | _ => []

/-- With padding, as `btoa` has it. -/
def std (bs : List Octet) : List Char := (sextets bs).map stdSymbol ++ padding bs.length

theorem urlSymbol_of_std : ∀ s : Sextet,
    urlSymbol s = (if stdSymbol s = '+' then '-' else if stdSymbol s = '/' then '_' else stdSymbol s) := by
  decide

/-- The sextet a character of the URL alphabet stands for. -/
def urlIndex (c : Char) : Option Sextet := (List.finRange 64).find? fun s => urlSymbol s = c

theorem urlIndex_symbol : ∀ s : Sextet, urlIndex (urlSymbol s) = some s := by
  decide

def decodeRawUrl (text : String) : Option (List Octet) := text.toList.mapM urlIndex >>= octets

theorem decodeRawUrl_rawUrl (bs : List Octet) : decodeRawUrl (rawUrl bs) = some bs := by
  have hmap : ∀ ss : List Sextet, (ss.map urlSymbol).mapM urlIndex = some ss := by
    intro ss
    induction ss with
    | nil => rfl
    | cons s ss ih => simp [urlIndex_symbol, ih]
  unfold decodeRawUrl rawUrl
  rw [String.toList_ofList, hmap]
  exact octets_sextets bs

/-! ### Numbers -/

/-- The number some bytes stand for, the most significant first. -/
def ofBigEndian (bs : List Octet) : ℕ := bs.foldl (fun n b => 256 * n + b.val) 0

/-- A number in a fixed count of bytes. -/
def bigEndian : ℕ → ℕ → List Octet
  | 0, _ => []
  | k + 1, n => bigEndian k (n / 256) ++ [Fin.ofNat 256 n]

/-- A number in as many bytes as it needs, none of them for zero. -/
def minimal (n : ℕ) : List Octet := ((Nat.digits 256 n).map (Fin.ofNat 256)).reverse

theorem ofBigEndian_bigEndian {k n : ℕ} (h : n < 256 ^ k) : ofBigEndian (bigEndian k n) = n := by
  induction k generalizing n with
  | zero =>
    have hzero : n = 0 := by simpa using h
    rw [hzero]
    rfl
  | succ k ih =>
    have hquot : n / 256 < 256 ^ k := Nat.div_lt_of_lt_mul (by rwa [← pow_succ'])
    have happend : ofBigEndian (bigEndian (k + 1) n) = 256 * ofBigEndian (bigEndian k (n / 256)) + n % 256 := by
      unfold ofBigEndian
      rw [bigEndian, List.foldl_append]
      rfl
    rw [happend, ih hquot]
    exact Nat.div_add_mod n 256

theorem minimal_succ {n : ℕ} (h : 0 < n) : minimal n = minimal (n / 256) ++ [Fin.ofNat 256 n] := by
  unfold minimal
  rw [Nat.digits_def' (by decide) h, List.map_cons, List.reverse_cons]
  congr 2
  exact Fin.ext (Nat.mod_mod n 256)

/-- Zeros in front of the bytes a number needs make up a fixed count of them. -/
theorem zeros_minimal {k n : ℕ} (h : n < 256 ^ k) :
    (minimal n).length ≤ k ∧ List.replicate (k - (minimal n).length) 0 ++ minimal n = bigEndian k n := by
  induction k generalizing n with
  | zero =>
    have hzero : n = 0 := by simpa using h
    rw [hzero]
    exact ⟨le_refl _, rfl⟩
  | succ k ih =>
    rcases Nat.eq_zero_or_pos n with rfl | hpos
    · have hzeros : ∀ k, bigEndian k 0 = List.replicate k 0 := by
        intro k
        induction k with
        | zero => rfl
        | succ k ih => rw [bigEndian, ih, List.replicate_succ']; rfl
      refine ⟨Nat.zero_le _, ?_⟩
      rw [hzeros]
      exact List.append_nil _
    · have hquot : n / 256 < 256 ^ k := Nat.div_lt_of_lt_mul (by rwa [← pow_succ'])
      obtain ⟨hlen, heq⟩ := ih hquot
      rw [minimal_succ hpos, bigEndian, ← heq, List.length_append, List.length_singleton]
      refine ⟨by omega, ?_⟩
      rw [Nat.add_sub_add_right, List.append_assoc]

end Chinwag.Base64

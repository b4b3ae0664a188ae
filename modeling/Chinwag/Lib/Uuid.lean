import Mathlib.Data.List.Basic
import Mathlib.Data.Char

/-!
# UUIDs by their canonical text

A UUID is carried as the text `String()` prints: thirty-six characters, lower-case
hexadecimal digits with dashes after the 8th, 12th, 16th and 20th. `parse` reads the
four spellings the Go package documents, in either case.
-/
namespace Chinwag

namespace Uuid

def hexDigits : List Char := "0123456789abcdef".toList

/-- The character allowed at each position of the canonical text. -/
def charAt (i : Nat) (c : Char) : Bool :=
  if i = 8 ∨ i = 13 ∨ i = 18 ∨ i = 23 then c == '-' else hexDigits.contains c

def isCanonical (s : List Char) : Bool :=
  s.length == 36 && s.zipIdx.all fun p => charAt p.2 p.1

end Uuid

structure Uuid where
  text : String
  canonical : Uuid.isCanonical text.toList = true
  deriving DecidableEq

namespace Uuid

/-- `uuid.UUID.String`. -/
def toText (u : Uuid) : String := u.text

@[ext] theorem ext_text {u v : Uuid} (h : u.text = v.text) : u = v := by
  cases u; cases v; cases h; rfl

theorem text_injective : Function.Injective text := fun _ _ => ext_text

@[simp] theorem text_inj {u v : Uuid} : u.text = v.text ↔ u = v := text_injective.eq_iff

theorem length_text (u : Uuid) : u.text.toList.length = 36 := by
  have h := u.canonical
  simp only [isCanonical, Bool.and_eq_true, beq_iff_eq] at h
  exact h.1

theorem text_ne_empty (u : Uuid) : u.text ≠ "" := by
  intro h
  have hl := u.length_text
  rw [h] at hl
  simp at hl

theorem char_of_mem (u : Uuid) {c : Char} (hc : c ∈ u.text.toList) : c = '-' ∨ c ∈ hexDigits := by
  have h := u.canonical
  simp only [isCanonical, Bool.and_eq_true, List.all_eq_true] at h
  obtain ⟨i, hi, rfl⟩ := List.mem_iff_getElem.mp hc
  have hmem : (u.text.toList[i], i) ∈ u.text.toList.zipIdx :=
    List.mem_zipIdx_iff_getElem?.mpr (List.getElem?_eq_getElem hi)
  have hchar := h.2 _ hmem
  unfold charAt at hchar
  split at hchar
  · exact Or.inl (by simpa using hchar)
  · exact Or.inr (by simpa using hchar)

/-- No canonical text holds a character outside the dash and the hexadecimal digits. -/
theorem not_mem_text (u : Uuid) {c : Char} (h : c ≠ '-' ∧ c ∉ hexDigits) : c ∉ u.text.toList := by
  intro hc
  rcases u.char_of_mem hc with hd | hx
  · exact h.1 hd
  · exact h.2 hx

/-- Put the dashes into thirty-two hexadecimal digits. -/
def insertDashes (s : List Char) : List Char :=
  s.take 8 ++ '-' :: (s.drop 8).take 4 ++ '-' :: (s.drop 12).take 4 ++ '-' :: (s.drop 16).take 4 ++
    '-' :: s.drop 20

/-- The thirty-six characters `uuid.Parse` goes on with, for each documented spelling. -/
def body (s : List Char) : List Char :=
  if s.length = 45 then
    if (s.take 9).map Char.toLower = "urn:uuid:".toList then s.drop 9 else []
  else if s.length = 38 then (s.drop 1).take 36
  else if s.length = 32 then insertDashes s
  else s

/-- `uuid.Parse`. -/
def parse (s : String) : Option Uuid :=
  let text := String.ofList ((body s.toList).map Char.toLower)
  if h : isCanonical text.toList = true then some ⟨text, h⟩ else none

theorem map_toLower_text (u : Uuid) : u.text.toList.map Char.toLower = u.text.toList := by
  have hall : hexDigits.all (fun c => c.toLower == c) = true := by decide
  have hlower : ∀ c ∈ hexDigits, c.toLower = c := by
    intro c hc
    simpa using List.all_eq_true.mp hall c hc
  have hid : ∀ c ∈ u.text.toList, c.toLower = id c := by
    intro c hc
    rcases u.char_of_mem hc with rfl | hx
    · decide
    · exact hlower c hx
  rw [List.map_congr_left hid, List.map_id]

/-- Printing and parsing a UUID gives it back. -/
@[simp] theorem parse_text (u : Uuid) : parse u.text = some u := by
  have hbody : body u.text.toList = u.text.toList := by
    simp [body, u.length_text]
  have hlower := u.map_toLower_text
  unfold parse
  simp only [hbody, hlower, String.ofList_toList]
  rw [dif_pos u.canonical]

-- No proof should come to run the parser on a variable.
attribute [irreducible] parse

end Uuid

end Chinwag

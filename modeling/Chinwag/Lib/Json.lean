import Mathlib.Data.List.Basic
import Mathlib.Algebra.Ring.Int.Defs

/-!
# JSON trees and decoding into struct fields

Texts are taken as the trees they denote. Decoding follows `encoding/json` into a
struct: a field that is absent or null keeps its value, a value of another kind is an
error, names match up to letter case and every match is decoded in turn.
-/
namespace Chinwag

/-- A number with a fraction or an exponent is kept as its literal. -/
inductive Json where
  | null
  | bool (b : Bool)
  | int (n : Int)
  | real (literal : String)
  | str (s : String)
  | arr (items : List Json)
  | obj (fields : List (String × Json))

namespace Json

/-- Case folding of a letter; the two outside ASCII that fold into it are U+017F and U+212A. -/
def foldChar (c : Char) : Char :=
  if c = Char.ofNat 0x17F then 's' else if c = Char.ofNat 0x212A then 'k' else c.toLower

def foldName (s : String) : List Char := s.toList.map foldChar

/-- The values given for the struct field of this name. -/
def valuesOf (name : String) (fields : List (String × Json)) : List Json :=
  (fields.filter fun field => foldName field.1 == foldName name).map Prod.snd

/-- The fields of a value decoded into a struct. -/
def asStruct : Json → Option (List (String × Json))
  | .obj fields => some fields
  | .null => some []
  | _ => none

@[simp] theorem asStruct_obj (fields : List (String × Json)) :
    asStruct (.obj fields) = some fields := rfl

/-- Decode one value onto what the field holds. -/
def decodeOnto {α : Type} (read : Json → Option α) (held : α) : Json → Option α
  | .null => some held
  | v => read v

def field {α : Type} (read : Json → Option α) (zero : α) (name : String)
    (fields : List (String × Json)) : Option α :=
  (valuesOf name fields).foldlM (decodeOnto read) zero

def readString : Json → Option String
  | .str s => some s
  | _ => none

def inInt16 (n : Int) : Bool := -2 ^ 15 ≤ n && n < 2 ^ 15

def readInt16 : Json → Option Int
  | .int n => if inInt16 n then some n else none
  | _ => none

def inInt64 (n : Int) : Bool := -2 ^ 63 ≤ n && n < 2 ^ 63

def readInt64 : Json → Option Int
  | .int n => if inInt64 n then some n else none
  | _ => none

/-- A struct field of type `string`. -/
def stringField (name : String) (fields : List (String × Json)) : Option String :=
  field readString "" name fields

/-- A struct field of type `int16`. -/
def int16Field (name : String) (fields : List (String × Json)) : Option Int :=
  field readInt16 0 name fields

/-- A struct field of type `int64`. -/
def int64Field (name : String) (fields : List (String × Json)) : Option Int :=
  field readInt64 0 name fields

/-- A struct field of type `json.RawMessage`; it stays empty where no value is given. -/
def rawField (name : String) (fields : List (String × Json)) : Option Json :=
  (valuesOf name fields).getLast?

variable {name : String} {fields : List (String × Json)}

theorem valuesOf_cons (name key : String) (v : Json) (fields : List (String × Json)) :
    valuesOf name ((key, v) :: fields) =
      if foldName key = foldName name then v :: valuesOf name fields else valuesOf name fields := by
  unfold valuesOf
  by_cases h : foldName key = foldName name
  · simp [h]
  · simp [h]

@[simp] theorem valuesOf_nil (name : String) : valuesOf name [] = [] := rfl

theorem stringField_of_values {s : String} (h : valuesOf name fields = [.str s]) :
    stringField name fields = some s := by
  simp [stringField, field, h, decodeOnto, readString]

theorem rawField_of_values {v : Json} (h : valuesOf name fields = [v]) :
    rawField name fields = some v := by
  simp [rawField, h]

end Json

end Chinwag

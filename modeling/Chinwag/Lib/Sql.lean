import Mathlib.Data.List.Sort
import Mathlib.Data.Sum.Order
import Chinwag.Lib.Instant

/-!
# Texts of queries and what they select

A statement is read from its text, character by character, and its placeholders `$1`, `$2` and so on are
bound to the arguments by their numbers. The fragment is that of a listing: one table, conditions joined
by `AND`, the newest rows first by two columns, and a limit.
-/
namespace Chinwag.Sql

/-- A value of a text or UUID column; texts are ordered by the collation of the database. -/
structure Text where
  chars : String
  deriving DecidableEq

inductive Value where
  | null
  | int (n : Int)
  | text (s : Text)
  | time (t : Instant)
  deriving DecidableEq

inductive Token where
  | word (w : String)
  | param (n : Nat)
  | quoted
  | symbol (c : Char)
  deriving DecidableEq

/-- A condition whose parameters are of type `α`: their numbers at first, then their values. -/
inductive Cond (α : Type) where
  | isNull (col : String)
  | isNotNull (col : String)
  | equal (col : String) (v : α)
  | same (m n : Nat)
  | ilike (col : String) (v : α)
  | either (a b : Cond α)
  | before (first second : String) (v w : α)
  deriving DecidableEq

/-- A listing, ordered by two columns from the greatest values down. -/
structure Select (α : Type) where
  columns : List String
  table : String
  conds : List (Cond α)
  first : String
  second : String
  limit : α
  deriving DecidableEq

section Reading

def isWordChar (c : Char) : Bool := c.isAlphanum || c = '_'

def isBlank (c : Char) : Bool := c = ' ' || c = '\n' || c = '\t'

/-- Put a character in front of the word that begins with the next one, if there is such a word. -/
def extend (c : Char) (next : Option Char) (ts : List (List Char ⊕ Char)) : List (List Char ⊕ Char) :=
  match ts with
  | .inl w :: rest => if next.any isWordChar then .inl (c :: w) :: rest else .inl [c] :: ts
  | _ => .inl [c] :: ts

inductive Mode where
  | code
  | quoted

/-- Words and symbols. What stands between two `$$` is a quoted text, which has to end. -/
def scan : Mode → List Char → Option (List (List Char ⊕ Char))
  | .code, [] => some []
  | .quoted, [] => none
  | .code, '$' :: '$' :: cs => scan .quoted cs
  | .quoted, '$' :: '$' :: cs => (scan .code cs).map (.inr '\'' :: ·)
  | .quoted, _ :: cs => scan .quoted cs
  | .code, c :: cs =>
    (scan .code cs).map fun ts =>
      if isBlank c then ts else if isWordChar c then extend c cs.head? ts else .inr c :: ts

def number (w : List Char) : Option Nat :=
  if w.all Char.isDigit then some (w.foldl (fun n c => n * 10 + (c.toNat - '0'.toNat)) 0) else none

/-- A dollar is part of a placeholder. -/
def classify : List (List Char ⊕ Char) → Option (List Token)
  | [] => some []
  | .inr '$' :: .inl w :: rest =>
    match number w with
    | none => none
    | some n => if n = 0 then none else (classify rest).map (.param n :: ·)
  | .inr '$' :: _ => none
  | .inr '\'' :: rest => (classify rest).map (.quoted :: ·)
  | .inl w :: rest => (classify rest).map (.word (String.ofList w) :: ·)
  | .inr c :: rest => (classify rest).map (.symbol c :: ·)

def parseAtom : List Token → Option (Cond Nat × List Token)
  | .word c :: .word "IS" :: .word "NULL" :: ts => some (.isNull c, ts)
  | .word c :: .word "IS" :: .word "NOT" :: .word "NULL" :: ts => some (.isNotNull c, ts)
  | .word c :: .word "ILIKE" :: .param n :: ts => some (.ilike c n, ts)
  | .word c :: .symbol '=' :: .param n :: ts => some (.equal c n, ts)
  | .word m :: .symbol '=' :: .word n :: ts =>
    match number m.toList, number n.toList with
    | some m, some n => some (.same m n, ts)
    | _, _ => none
  | .symbol '(' :: .word a :: .symbol ',' :: .word b :: .symbol ')' :: .symbol '<' ::
      .symbol '(' :: .param n :: .symbol ',' :: .param m :: .symbol ')' :: ts => some (.before a b n m, ts)
  | _ => none

/-- An atom, or two of them in parentheses with an `OR` between. -/
def parseCond : List Token → Option (Cond Nat × List Token)
  | .symbol '(' :: ts =>
    match parseAtom ts with
    | some (a, .word "OR" :: ts) =>
      match parseAtom ts with
      | some (b, .symbol ')' :: ts) => some (.either a b, ts)
      | _ => none
    | _ => parseAtom (.symbol '(' :: ts)
  | ts => parseAtom ts

/-- The fuel is the number of tokens. -/
def parseConds : Nat → List Token → Option (List (Cond Nat) × List Token)
  | 0, _ => none
  | fuel + 1, ts =>
    match parseCond ts with
    | some (c, .word "AND" :: ts) => (parseConds fuel ts).map fun r => (c :: r.1, r.2)
    | some (c, ts) => some ([c], ts)
    | none => none

def parseColumns : List Token → Option (List String × List Token)
  | .word c :: .symbol ',' :: ts => (parseColumns ts).map fun r => (c :: r.1, r.2)
  | .word c :: .word "FROM" :: ts => some ([c], ts)
  | .symbol '*' :: .word "FROM" :: ts => some (["*"], ts)
  | _ => none

def parseSelect : List Token → Option (Select Nat)
  | .word "SELECT" :: ts =>
    match parseColumns ts with
    | some (columns, .word table :: .word "WHERE" :: ts) =>
      match parseConds ts.length ts with
      | some (conds, [.word "ORDER", .word "BY", .word a, .word "DESC", .symbol ',', .word b, .word "DESC",
          .word "LIMIT", .param n]) => some ⟨columns, table, conds, a, b, n⟩
      | _ => none
    | _ => none
  | _ => none

def parse (text : List Char) : Option (Select Nat) := (scan .code text).bind fun ts => (classify ts).bind parseSelect

/-- A text in which an odd number of `$$` leaves a quotation open is no statement. -/
theorem parse_of_scan {text : List Char} (h : scan .code text = none) : parse text = none := by
  rw [parse, h]
  rfl

/-- A text written out is read from its characters. -/
theorem parse_literal {text : String} {s : Option (Select Nat)} (h : ∃ cs, text = String.ofList cs ∧ parse cs = s) :
    parse text.toList = s := by
  obtain ⟨cs, rfl, hs⟩ := h
  rwa [String.toList_ofList]

end Reading

section Binding

variable {α β : Type}

def Cond.map (f : α → β) : Cond α → Cond β
  | .isNull c => .isNull c
  | .isNotNull c => .isNotNull c
  | .equal c v => .equal c (f v)
  | .same m n => .same m n
  | .ilike c v => .ilike c (f v)
  | .either a b => .either (a.map f) (b.map f)
  | .before a b v w => .before a b (f v) (f w)

def Cond.params : Cond α → List α
  | .isNull _ => []
  | .isNotNull _ => []
  | .equal _ v => [v]
  | .same _ _ => []
  | .ilike _ v => [v]
  | .either a b => a.params ++ b.params
  | .before _ _ v w => [v, w]

def Cond.names : Cond α → List String
  | .isNull c => [c]
  | .isNotNull c => [c]
  | .equal c _ => [c]
  | .same _ _ => []
  | .ilike c _ => [c]
  | .either a b => a.names ++ b.names
  | .before a b _ _ => [a, b]

namespace Select

def map (f : α → β) (s : Select α) : Select β :=
  ⟨s.columns, s.table, s.conds.map (Cond.map f), s.first, s.second, f s.limit⟩

def params (s : Select α) : List α := s.conds.flatMap Cond.params ++ [s.limit]

/-- The columns that a statement mentions. -/
def names (s : Select α) : List String :=
  s.columns.filter (· ≠ "*") ++ s.conds.flatMap Cond.names ++ [s.first, s.second]

end Select

inductive SqlError where
  | malformed
  | arguments
  | unknownName
  | badLimit
  deriving DecidableEq

/-- A statement takes as many arguments as its highest placeholder says. -/
def bind (args : List Value) (s : Select Nat) : Except SqlError (Select Value) :=
  if s.params.foldl max 0 = args.length then .ok (s.map fun n => args.getD (n - 1) .null) else .error .arguments

def prepare (text : List Char) (args : List Value) : Except SqlError (Select Value) :=
  match parse text with
  | none => .error .malformed
  | some s => bind args s

end Binding

section Order

variable [LinearOrder Text]

/-- Columns hold values of one type; a null comes after all others. -/
def Value.toSum : Value → Instant ⊕ₗ Text ⊕ₗ Int ⊕ₗ Unit
  | .time t => toLex (.inl t)
  | .text s => toLex (.inr (toLex (.inl s)))
  | .int n => toLex (.inr (toLex (.inr (toLex (.inl n)))))
  | .null => toLex (.inr (toLex (.inr (toLex (.inr ())))))

omit [LinearOrder Text] in
theorem Value.toSum_injective : Function.Injective (Value.toSum) := by
  intro a b h
  cases a <;> cases b <;> simp_all [toSum]

instance : LinearOrder Value := LinearOrder.lift' Value.toSum Value.toSum_injective

theorem Value.time_lt {t u : Instant} : Value.time t < .time u ↔ t < u := Sum.Lex.inl_lt_inl_iff

theorem Value.text_lt {s t : Text} : Value.text s < .text t ↔ s < t :=
  Sum.Lex.inr_lt_inr_iff.trans Sum.Lex.inl_lt_inl_iff

end Order

/-- A table with its columns, of which `id` is the primary key. -/
structure Schema (ρ : Type) where
  table : String
  columns : List String
  value : ρ → String → Value

section Evaluation

variable [LinearOrder Text] {ρ : Type}

/-- `ILIKE`, of a text and a pattern. -/
abbrev Matching := Text → Text → Bool

/-- A comparison with a null does not hold. -/
def Cond.holds (like : Matching) (value : String → Value) : Cond Value → Bool
  | .isNull c => value c = .null
  | .isNotNull c => value c ≠ .null
  | .equal c v => value c ≠ .null && value c = v
  | .same m n => m = n
  | .ilike c v =>
    match value c, v with
    | .text s, .text p => like s p
    | _, _ => false
  | .either a b => a.holds like value || b.holds like value
  | .before a b v w => value a ≠ .null && value b ≠ .null && decide (toLex (value a, value b) < toLex (v, w))

def sortKey (T : Schema ρ) (s : Select Value) (r : ρ) : Value ×ₗ Value := toLex (T.value r s.first, T.value r s.second)

/-- The rows that a statement selects, in order. -/
def Select.run (like : Matching) (T : Schema ρ) (rows : List ρ) (s : Select Value) : Except SqlError (List ρ) :=
  if s.table = T.table ∧ ∀ name ∈ s.names, name ∈ T.columns then
    match s.limit with
    | .int n =>
      if n < 0 then .error .badLimit
      else .ok (((rows.filter fun r => s.conds.all (Cond.holds like (T.value r))).mergeSort fun a b =>
        decide (sortKey T s b ≤ sortKey T s a)).take n.toNat)
    | _ => .error .badLimit
  else .error .unknownName

def query (like : Matching) (T : Schema ρ) (rows : List ρ) (text : List Char) (args : List Value) :
    Except SqlError (List ρ) :=
  match prepare text args with
  | .error e => .error e
  | .ok s => s.run like T rows

end Evaluation

end Chinwag.Sql

import Mathlib.Data.Prod.Lex
import Chinwag.Lib.Keyset
import Chinwag.Lib.Sql
import Chinwag.Pages.Cursor

/-!
# What the listings have in common

Each builds the text of a query with `?` for every argument, numbers these, asks for one row more than
the page holds, and makes a cursor of the last row of the page if the additional one was there.
-/
namespace Chinwag.Pages

open Sql Keyset

/-- The digits from the last to the first; the buffer has room for twenty. -/
def itoaFrom : Nat → Nat → List Char → List Char
  | 0, _, buf => buf
  | room + 1, n, buf => if n = 0 then buf else itoaFrom room (n / 10) (Nat.digitChar (n % 10) :: buf)

def itoa (n : Nat) : List Char := if n = 0 then ['0'] else itoaFrom 20 n []

def rebindFrom : Nat → List Char → List Char
  | _, [] => []
  | n, r :: rest => if r = '?' then '$' :: (itoa (n + 1) ++ rebindFrom (n + 1) rest) else r :: rebindFrom n rest

/-- `rebind`, `roomRebind` and `userRebind`. -/
def rebind (q : List Char) : List Char := rebindFrom 0 q

/-- The conditions of a query and the arguments that go with them. -/
structure Where where
  conds : List String
  args : List Value

def Where.add (w : Where) (cond : String) (args : List Value) : Where := ⟨w.conds ++ [cond], w.args ++ args⟩

/-- `strings.Join(where, " AND ")`. -/
def joinAnd (conds : List (List Char)) : List Char := [' ', 'A', 'N', 'D', ' '].intercalate conds

def Where.text (w : Where) : List Char := joinAnd (w.conds.map String.toList)

/-- `"%" + search + "%"`. -/
def pattern (search : String) : Value := .text ⟨"%" ++ search ++ "%"⟩

def firstTail : String := " ORDER BY created_at DESC, id DESC LIMIT ?"

def laterTail : String := " AND (created_at, id) < (?, ?) ORDER BY created_at DESC, id DESC LIMIT ?"

/-- The query of a page after its conditions are known. -/
def pageText (select : String) (w : Where) (later : Bool) : List Char :=
  rebind (select.toList ++ w.text ++ (if later then laterTail else firstTail).toList)

/-- The arguments of the conditions, of the cursor and of the limit, which asks for one row more. -/
def pageArgs (driver : Driver) (w : Where) (cursor : Option (Rfc3339.Time × String)) (limit : Nat) : List Value :=
  w.args ++ (match cursor with
    | none => []
    | some (createdAt, id) => [.time (driver.store createdAt), .text ⟨id⟩]) ++ [.int (limit + 1)]

/-- A limit outside `1 .. 200` is replaced by the default. -/
def pageLimit (limit : Int) : Nat := if limit ≤ 0 ∨ 200 < limit then 50 else limit.toNat

theorem pageLimit_pos (limit : Int) : 0 < pageLimit limit := by
  unfold pageLimit
  split <;> omega

/-- Cut off the additional row and make a cursor of the last one left. -/
def trim {μ : Type} (limit : Nat) (cursorOf : μ → CursorText) (msgs : List μ) : List μ × Option CursorText :=
  if limit < msgs.length then (msgs.take limit, (msgs.take limit).getLast?.map cursorOf) else (msgs, none)

inductive ListError where
  | badCursor
  | database (e : SqlError)

/-- `sqlx.SelectContext` and what is done with the rows. -/
def listing {ρ μ : Type} [LinearOrder Text] (like : Matching) (T : Schema ρ) (rows : List ρ) (text : List Char)
    (args : List Value) (limit : Nat) (scan : ρ → μ) (cursorOf : μ → CursorText) :
    Except ListError (List μ × Option CursorText) :=
  match query like T rows text args with
  | .error e => .error (.database e)
  | .ok found => .ok (trim limit cursorOf (found.map scan))

/-- The first page, or the one that a cursor asks for. -/
def byCursor {α β : Type} (decode : CursorText → Option (Rfc3339.Time × α)) (first : Except ListError β)
    (later : Rfc3339.Time → α → Except ListError β) (cursorStr : CursorText) : Except ListError β :=
  match cursorStr with
  | .empty => first
  | _ =>
    match decode cursorStr with
    | none => .error .badCursor
    | some (createdAt, id) => later createdAt id

/-- A client goes on with the cursor it is given, if there is one. -/
def follow {μ τ : Type} (list : CursorText → τ → Except ListError (List μ × Option CursorText)) (c : CursorText) (t : τ) :
    Option (List μ × Option CursorText) :=
  match list c t with
  | .error _ => none
  | .ok (msgs, some .empty) => some (msgs, none)
  | .ok (msgs, next) => some (msgs, next)

/-- The statement a page stands for: the rows below the bound that meet the conditions. -/
def intended {ρ : Type} (T : Schema ρ) (columns : List String) (conds : List (Cond Value)) (bound : Option (Instant × Text))
    (limit : Nat) : Select Value :=
  ⟨columns, T.table, conds ++ (match bound with
    | none => []
    | some (t, id) => [.before "created_at" "id" (.time t) (.text id)]), "created_at", "id", .int (limit + 1)⟩

section Selecting

variable {ρ μ : Type} [LinearOrder Text] {like : Matching} {T : Schema ρ} {columns : List String} {conds : List (Cond Value)}
  {bound : Option (Instant × Text)} {limit : Nat} {scan : ρ → μ} {key : μ → Instant ×ₗ Text} {rows : List ρ}
  {createdOf : ρ → Instant} {idOf : ρ → Text}

/-- How the two columns of the order are read from a stored row, and from what becomes of it. -/
structure Keyed (T : Schema ρ) (scan : ρ → μ) (key : μ → Instant ×ₗ Text) (createdOf : ρ → Instant) (idOf : ρ → Text) :
    Prop where
  createdAt : ∀ r, T.value r "created_at" = .time (createdOf r)
  rowId : ∀ r, T.value r "id" = .text (idOf r)
  keyed : ∀ r, key (scan r) = toLex (createdOf r, idOf r)

/-- The rows that meet the conditions. -/
def selected (like : Matching) (T : Schema ρ) (conds : List (Cond Value)) (rows : List ρ) : List ρ :=
  rows.filter fun r => conds.all (Cond.holds like (T.value r))

/-- The two orders are one. -/
theorem values_lt {t u : Instant} {i j : Text} :
    (toLex (Value.time t, Value.text i) < toLex (Value.time u, Value.text j)) ↔ toLex (t, i) < toLex (u, j) := by
  simp only [Prod.Lex.toLex_lt_toLex, Value.time_lt, Value.text_lt, Value.time.injEq]

theorem Keyed.sortKey_lt (h : Keyed T scan key createdOf idOf) (a b : ρ) :
    sortKey T (intended T columns conds bound limit) a < sortKey T (intended T columns conds bound limit) b ↔
      key (scan a) < key (scan b) := by
  show toLex (T.value a "created_at", T.value a "id") < toLex (T.value b "created_at", T.value b "id") ↔ _
  rw [h.createdAt, h.createdAt, h.rowId, h.rowId, h.keyed, h.keyed]
  exact values_lt

theorem Keyed.holds (h : Keyed T scan key createdOf idOf) (r : ρ) :
    (intended T columns conds bound limit).conds.all (Cond.holds like (T.value r)) =
      (conds.all (Cond.holds like (T.value r)) && isBelow key (bound.map toLex) (scan r)) := by
  cases bound with
  | none => simp [intended, isBelow]
  | some b =>
    obtain ⟨t, id⟩ := b
    simp only [intended, List.all_append, List.all_cons, List.all_nil, Bool.and_true, Option.map_some]
    congr 1
    simp only [Cond.holds, isBelow, h.createdAt, h.rowId, h.keyed, values_lt]
    simp

/-- The statement selects the first rows of a page, and one more. -/
theorem run_intended (h : Keyed T scan key createdOf idOf) (hunique : ((rows.map scan).map key).Nodup)
    (hknown : ∀ name ∈ (intended T columns conds bound limit).names, name ∈ T.columns) :
    ∃ found, (intended T columns conds bound limit).run like T rows = .ok found ∧
      found.map scan = (newest key (bound.map toLex) ((selected like T conds rows).map scan)).take (limit + 1) := by
  let s := intended T columns conds bound limit
  let kept := rows.filter fun r => s.conds.all (Cond.holds like (T.value r))
  have hrun : s.run like T rows = .ok ((newest (sortKey T s) none kept).take (limit + 1)) := by
    have hlimit : ¬ ((limit + 1 : Nat) : Int) < 0 := by omega
    have hall : kept.filter (isBelow (sortKey T s) none) = kept := List.filter_eq_self.mpr fun _ _ => rfl
    rw [Select.run, if_pos ⟨rfl, hknown⟩, newest, hall]
    show (if ((limit + 1 : Nat) : Int) < 0 then _ else _) = _
    rw [if_neg hlimit]
    rfl
  refine ⟨_, hrun, ?_⟩
  have hkept : (kept.map (sortKey T s)).Nodup := by
    have hsub : ((kept.map scan).map key).Nodup := hunique.sublist ((List.filter_sublist.map scan).map key)
    rw [List.Nodup, List.map_map, List.pairwise_map] at hsub
    refine List.pairwise_map.mpr (hsub.imp fun {a b} hne heq => ?_)
    refine hne (le_antisymm (not_lt.mp fun hlt => ?_) (not_lt.mp fun hlt => ?_))
    · exact absurd heq ((h.sortKey_lt b a).mpr hlt).ne'
    · exact absurd heq ((h.sortKey_lt a b).mpr hlt).ne
  have hdesc : Descending key ((newest (sortKey T s) none kept).map scan) :=
    List.pairwise_map.mpr ((descending_newest hkept).imp fun {a b} hlt => (h.sortKey_lt b a).mp hlt)
  have hmatching : (((selected like T conds rows).map scan).map key).Nodup :=
    hunique.sublist ((List.filter_sublist.map scan).map key)
  have hsame : (newest (sortKey T s) none kept).map scan =
      newest key (bound.map toLex) ((selected like T conds rows).map scan) := by
    refine hdesc.eq (descending_newest hmatching) fun m => ?_
    simp only [List.mem_map, mem_newest, selected, kept, List.mem_filter, s, h.holds, Bool.and_eq_true]
    constructor
    · rintro ⟨r, ⟨⟨hr, hconds, hbelow⟩, -⟩, rfl⟩
      exact ⟨⟨r, ⟨hr, hconds⟩, rfl⟩, hbelow⟩
    · rintro ⟨⟨r, ⟨hr, hconds⟩, rfl⟩, hbelow⟩
      exact ⟨r, ⟨⟨hr, hconds, hbelow⟩, rfl⟩, rfl⟩
  rw [List.map_take, hsame]

omit [LinearOrder Text] in
/-- The page is cut off where the keyset page is. -/
theorem trim_take (key : μ → Instant ×ₗ Text) {cursorOf : μ → CursorText} (l : List μ) :
    trim limit cursorOf (l.take (limit + 1)) =
      ((cut key limit l).1, if limit < l.length then (l.take limit).getLast?.map cursorOf else none) := by
  unfold trim cut
  by_cases hlt : limit < l.length
  · have hlen : limit < (l.take (limit + 1)).length := by
      rw [List.length_take]
      omega
    rw [if_pos hlen, if_pos hlt, if_pos hlt, List.take_take, Nat.min_eq_left (Nat.le_succ _)]
  · have hall : l.take (limit + 1) = l := List.take_of_length_le (by omega)
    rw [hall, if_neg hlt, if_neg hlt, if_neg hlt]

end Selecting

/-- The rows of a table, no two with the same primary key. -/
structure Rows {ρ : Type} (idOf : ρ → Text) where
  rows : List ρ
  unique : (rows.map idOf).Nodup

/-- The cursors that a walk can come to, whatever becomes of the table. -/
inductive Offered {μ τ : Type} (list : CursorText → τ → Except ListError (List μ × Option CursorText)) : CursorText → Prop where
  | start : Offered list .empty
  | next {c c' : CursorText} {t : τ} {msgs : List μ} (h : Offered list c) (hnext : follow list c t = some (msgs, some c')) :
      Offered list c'

/-- What a client may rely on that follows the cursors of a listing to the end, while the table changes
between any two pages. -/
structure LosesNothing {μ τ : Type} [LinearOrder Text] (list : CursorText → τ → Except ListError (List μ × Option CursorText))
    (matching : τ → List μ) (key : μ → Instant ×ₗ Text) : Prop where
  succeeds : ∀ c, Offered list c → ∀ t, ∃ got, list c t = .ok got
  descending : ∀ ts pages, Walk (follow list) .empty ts pages → Descending key pages.flatten
  sound : ∀ ts pages, Walk (follow list) .empty ts pages →
    List.Forall₂ (fun t msgs => ∀ m ∈ msgs, m ∈ matching t) ts pages
  once : ∀ ts pages k, Walk (follow list) .empty ts pages → (∀ t ∈ ts, ∃ m ∈ matching t, key m = k) →
    (pages.flatten.map fun m => (ofLex (key m)).2).count (ofLex k).2 = 1
  ends : ∀ t, ∃ pages, Walk (follow list) .empty (List.replicate pages.length t) pages ∧
    pages.flatten = newest key none (matching t)

section Paging

variable {ρ μ : Type} [LinearOrder Text] {like : Matching} {T : Schema ρ} {columns : List String} {conds : List (Cond Value)}
  {limit : Nat} {scan : ρ → μ} {cursorOf : μ → CursorText} {key : μ → Instant ×ₗ Text} {createdOf : ρ → Instant}
  {idOf : ρ → Text} {list : CursorText → List ρ → Except ListError (List μ × Option CursorText)}

/-- On this cursor the listing asks for the rows below the bound. -/
def StandsFor (like : Matching) (T : Schema ρ) (columns : List String) (conds : List (Cond Value)) (limit : Nat)
    (scan : ρ → μ) (cursorOf : μ → CursorText) (list : CursorText → List ρ → Except ListError (List μ × Option CursorText))
    (c : CursorText) (bound : Option (Instant ×ₗ Text)) : Prop :=
  ∃ text args, prepare text args = .ok (intended T columns conds (bound.map ofLex) limit) ∧
    ∀ rows, list c rows = listing like T rows text args limit scan cursorOf

omit [LinearOrder Text] in
theorem Keyed.nodup (h : Keyed T scan key createdOf idOf) (t : Rows idOf) : ((t.rows.map scan).map key).Nodup := by
  have hunique := t.unique
  rw [List.Nodup, List.pairwise_map] at hunique
  rw [List.map_map]
  refine List.pairwise_map.mpr (hunique.imp fun {a b} hne heq => hne ?_)
  rw [Function.comp, Function.comp, h.keyed, h.keyed] at heq
  exact (Prod.ext_iff.mp (toLex.injective heq)).2

/-- The names of the statement do not depend on the bound. -/
def Known (T : Schema ρ) (columns : List String) (conds : List (Cond Value)) : Prop :=
  ∀ name ∈ columns.filter (· ≠ "*") ++ conds.flatMap Cond.names ++ ["created_at", "id"], name ∈ T.columns

omit [LinearOrder Text] in
theorem Known.names (h : Known T columns conds) (bound : Option (Instant × Text)) :
    ∀ name ∈ (intended T columns conds bound limit).names, name ∈ T.columns := by
  intro name hname
  refine h name ?_
  cases bound with
  | none => simpa [Select.names, intended] using hname
  | some b =>
    simp only [Select.names, intended, List.flatMap_append, List.flatMap_cons, List.flatMap_nil, Cond.names,
      List.mem_append, List.mem_cons, List.not_mem_nil, or_false] at hname ⊢
    tauto

/-- What is fetched on a cursor that stands for a bound. -/
theorem list_eq (h : Keyed T scan key createdOf idOf) (hknown : Known T columns conds) {c : CursorText}
    {bound : Option (Instant ×ₗ Text)} (hc : StandsFor like T columns conds limit scan cursorOf list c bound)
    (t : Rows idOf) :
    list c t.rows = .ok ((page key limit bound ((selected like T conds t.rows).map scan)).1,
      if limit < (newest key bound ((selected like T conds t.rows).map scan)).length then
        ((newest key bound ((selected like T conds t.rows).map scan)).take limit).getLast?.map cursorOf else none) := by
  obtain ⟨text, args, hprepare, hlist⟩ := hc
  obtain ⟨found, hrun, hfound⟩ : ∃ found, (intended T columns conds (bound.map ofLex) limit).run like T t.rows = .ok found ∧
      found.map scan = (newest key ((bound.map ofLex).map toLex) ((selected like T conds t.rows).map scan)).take (limit + 1) :=
    run_intended h (h.nodup t) (hknown.names _)
  have hbound : (bound.map ofLex).map toLex = bound := by
    cases bound <;> rfl
  rw [hbound] at hfound
  rw [hlist, listing, query, hprepare]
  simp only [hrun, hfound, trim_take key]
  rfl

theorem fetches_listing (h : Keyed T scan key createdOf idOf) (hlimit : 0 < limit) (hknown : Known T columns conds)
    (hnext : ∀ r, StandsFor like T columns conds limit scan cursorOf list (cursorOf (scan r)) (some (key (scan r))))
    (hoffer : ∀ r, cursorOf (scan r) ≠ .empty) :
    Fetches key (follow fun c (t : Rows idOf) => list c t.rows) (fun t => (selected like T conds t.rows).map scan) limit
      (StandsFor like T columns conds limit scan cursorOf list) where
  positive := hlimit
  unique t := (h.nodup t).sublist ((List.filter_sublist.map scan).map key)
  fetches c t bound hc := by
    have hlist := list_eq h hknown hc t
    generalize hall : newest key bound ((selected like T conds t.rows).map scan) = all at hlist
    rw [page, hall] at hlist ⊢
    by_cases hlt : limit < all.length
    · rw [if_pos hlt] at hlist
      obtain ⟨last, hlast⟩ : ∃ last, (all.take limit).getLast? = some last := by
        refine Option.ne_none_iff_exists'.mp fun hnone => ?_
        have hempty := congrArg List.length (List.getLast?_eq_none_iff.mp hnone)
        rw [List.length_take, List.length_nil] at hempty
        omega
      have hmem : last ∈ newest key bound ((selected like T conds t.rows).map scan) :=
        hall ▸ List.mem_of_mem_take (List.mem_of_getLast? hlast)
      obtain ⟨r, -, rfl⟩ := List.mem_map.mp (mem_newest.mp hmem).1
      rw [hlast, Option.map_some] at hlist
      have hnextBound : (cut key limit all).2 = some (key (scan r)) := by
        rw [cut, if_pos hlt, hlast, Option.map_some]
      rw [hnextBound]
      refine ⟨some (cursorOf (scan r)), ?_, ?_, ?_⟩
      · rw [follow, hlist]
        cases hcursor : cursorOf (scan r) with
        | empty => exact absurd hcursor (hoffer r)
        | json j => rfl
        | other => rfl
      · rintro c' hc'
        obtain rfl := Option.some.inj hc'
        exact hnext r
      · exact iff_of_false (Option.some_ne_none _) (Option.some_ne_none _)
    · rw [if_neg hlt] at hlist
      have hnone : (cut key limit all).2 = none := by
        rw [cut, if_neg hlt]
      rw [hnone]
      refine ⟨none, ?_, ?_, iff_of_true rfl rfl⟩
      · rw [follow, hlist]
      · intro c' hc'
        cases hc'

/-- A listing that builds the intended statement for every cursor it offers loses nothing. -/
theorem losesNothing (h : Keyed T scan key createdOf idOf) (hlimit : 0 < limit) (hknown : Known T columns conds)
    (hfirst : StandsFor like T columns conds limit scan cursorOf list .empty none)
    (hnext : ∀ r, StandsFor like T columns conds limit scan cursorOf list (cursorOf (scan r)) (some (key (scan r))))
    (hoffer : ∀ r, cursorOf (scan r) ≠ .empty) :
    LosesNothing (fun c (t : Rows idOf) => list c t.rows) (fun t => (selected like T conds t.rows).map scan) key := by
  have hfetches : Fetches key (follow fun c (t : Rows idOf) => list c t.rows)
      (fun t => (selected like T conds t.rows).map scan) limit
      (StandsFor like T columns conds limit scan cursorOf list) := fetches_listing h hlimit hknown hnext hoffer
  constructor
  · intro c hoffered t
    obtain ⟨bound, hc⟩ : ∃ bound, StandsFor like T columns conds limit scan cursorOf list c bound := by
      induction hoffered with
      | start => exact ⟨none, hfirst⟩
      | @next c c' t' msgs _ hfollow ih =>
        obtain ⟨bound, hc⟩ := ih
        rcases hfetches.cases hc hfollow with ⟨hnone, -⟩ | ⟨c'', front, last, back, heq, hstands, -⟩
        · cases hnone
        · obtain rfl := Option.some.inj heq
          exact ⟨_, hstands⟩
    exact ⟨_, list_eq h hknown hc t⟩
  · exact fun ts pages hwalk => (walk_descending hfetches hfirst hwalk).1
  · exact fun ts pages hwalk => walk_sound hfetches hfirst hwalk
  · intro ts pages k hwalk hthere
    refine walk_once (fun k => (ofLex k).2) hfetches hfirst hwalk hthere fun t ht m hm hid => ?_
    obtain ⟨m', hm', rfl⟩ := hthere t ht
    obtain ⟨r, hr, rfl⟩ := List.mem_map.mp hm
    obtain ⟨r', hr', rfl⟩ := List.mem_map.mp hm'
    rw [h.keyed, h.keyed] at hid
    have hsame : r = r' := List.inj_on_of_nodup_map t.unique (List.mem_filter.mp hr).1 (List.mem_filter.mp hr').1 hid
    rw [hsame]
  · exact fun t => walk_all hfetches hfirst t

omit [LinearOrder Text] in
theorem byCursor_later {α β : Type} {decode : CursorText → Option (Rfc3339.Time × α)} {first : Except ListError β}
    {later : Rfc3339.Time → α → Except ListError β} {c : CursorText} {createdAt : Rfc3339.Time} {id : α} (hne : c ≠ .empty)
    (hdecode : decode c = some (createdAt, id)) : byCursor decode first later c = later createdAt id := by
  unfold byCursor
  split
  · exact absurd rfl hne
  · rw [hdecode]

/-- What a listing has to build for its first page and for the pages after a cursor. -/
structure Builds {α : Type} (driver : Driver) (T : Schema ρ) (columns : List String) (conds : List (Cond Value)) (limit : Nat)
    (textOf : α → String) (text : Bool → List Char) (args : Option (Rfc3339.Time × α) → List Value) : Prop where
  first : prepare (text false) (args none) = .ok (intended T columns conds none limit)
  later : ∀ createdAt id, prepare (text true) (args (some (createdAt, id))) =
    .ok (intended T columns conds (some (driver.store createdAt, ⟨textOf id⟩)) limit)

theorem Builds.losesNothing {α : Type} {driver : Driver} {textOf : α → String} {text : Bool → List Char}
    {args : Option (Rfc3339.Time × α) → List Value} {decode : CursorText → Option (Rfc3339.Time × α)}
    (hbuilds : Builds driver T columns conds limit textOf text args) (like : Matching)
    (list : CursorText → List ρ → Except ListError (List μ × Option CursorText)) (h : Keyed T scan key createdOf idOf)
    (hlimit : 0 < limit) (hknown : Known T columns conds)
    (hlist : ∀ c rows, list c rows = byCursor decode (listing like T rows (text false) (args none) limit scan cursorOf)
      (fun createdAt id => listing like T rows (text true) (args (some (createdAt, id))) limit scan cursorOf) c)
    (hcursor : ∀ r, cursorOf (scan r) ≠ .empty ∧ ∃ createdAt id, decode (cursorOf (scan r)) = some (createdAt, id) ∧
      driver.store createdAt = createdOf r ∧ ⟨textOf id⟩ = idOf r) :
    LosesNothing (fun c (t : Rows idOf) => list c t.rows) (fun t => (selected like T conds t.rows).map scan) key := by
  refine Pages.losesNothing h hlimit hknown ?_ (fun r => ?_) fun r => (hcursor r).1
  · exact ⟨text false, args none, hbuilds.first, fun rows => hlist .empty rows⟩
  · obtain ⟨hne, createdAt, id, hdecode, hcreated, hid⟩ := hcursor r
    refine ⟨text true, args (some (createdAt, id)), ?_, fun rows => (hlist _ rows).trans (byCursor_later hne hdecode)⟩
    rw [hbuilds.later, hcreated, hid, h.keyed]
    rfl

end Paging

/-- A condition or an argument that is there if its filter is given. -/
def given {α : Type} (b : Bool) (a : α) : List α := if b then [a] else []

end Chinwag.Pages

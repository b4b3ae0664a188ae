import Mathlib.Data.Prod.Lex
import Chinwag.Lib.Keyset

/-!
# Pages of a ranking whose rows may not load

Rows have a score and a name, the highest first and names downwards within a score. A page loads the
rows it is given, leaves out those that do not load, and the next page goes by the last one that did: it
is fetched in two parts, the rows of a lower score and after them the rest of the rows of the same score.
-/
namespace Chinwag.Ranking

open Keyset

variable {ρ σ κ ν γ τ : Type} [LinearOrder κ] [LinearOrder ν] (score : ρ → κ) (name : ρ → ν) (load : ρ → Option σ)

def rank (r : ρ) : κ ×ₗ ν := toLex (score r, name r)

/-- The first `count` rows of those of a lower score with the rest of that score behind them. -/
def fetchAfter (c : κ) (x : ν) (count : Nat) (rows : List ρ) : List ρ :=
  ((rows.filter fun r => decide (score r < c)).take count ++
    rows.filter fun r => decide (score r = c ∧ name r < x)).take count

/-- From the top, or after a score and a name. -/
def fetched (bound : Option (κ × ν)) (count : Nat) (rows : List ρ) : List ρ :=
  match bound with
  | none => rows.take count
  | some (c, x) => fetchAfter score name c x count rows

/-- What loads of the first `n` rows, and the last of it if there are more rows. -/
def loadPage (n : Nat) (rows : List ρ) : List σ × Option σ :=
  ((rows.take n).filterMap load, if n < rows.length then ((rows.take n).filterMap load).getLast? else none)

/-- The rows are all of a lower score, or all of this one. -/
def Uniform (c : κ) (rows : List ρ) : Prop := (∀ r ∈ rows, score r < c) ∨ ∀ r ∈ rows, score r = c

/-- What is left to return can be walked in pages of `n`. What matters loads; the last row of a page that
loads is stamped with its own score, and has behind it no more of that score, or nothing else. A page
that loads nothing has nothing behind it that matters. -/
inductive Walkable (matters : ρ → Prop) (stamp : σ → Option κ) (n : Nat) : List ρ → Prop where
  | last {rows : List ρ} (hlen : rows.length ≤ n) (hload : ∀ r ∈ rows, matters r → load r ≠ none) :
      Walkable matters stamp n rows
  | stale {rows : List ρ} (hlen : n < rows.length) (hnone : ∀ r ∈ rows.take n, load r = none)
      (hrest : ∀ r ∈ rows, ¬ matters r) : Walkable matters stamp n rows
  | next {front unloaded back : List ρ} {row : ρ} {loaded : σ} (hlen : front.length + 1 + unloaded.length = n)
      (hback : back ≠ []) (hfront : ∀ r ∈ front, matters r → load r ≠ none) (hrow : load row = some loaded)
      (hstamp : stamp loaded = some (score row)) (hnone : ∀ r ∈ unloaded, load r = none)
      (huniform : Uniform score (score row) (unloaded ++ back))
      (hrest : Walkable matters stamp n (unloaded ++ back)) :
      Walkable matters stamp n (front ++ row :: (unloaded ++ back))

/-- A fetch returns pages of a ranking; a cursor stands for the stamp and the name of the row that the
page before ended with. -/
structure Serves (fetch : γ → τ → Option (List σ × Option γ)) (ranking : τ → List ρ) (n : Nat) (stamp : σ → Option κ)
    (Stands : γ → Option (κ × ν) → Prop) (t : τ) : Prop where
  descending : Descending (rank score name) (ranking t)
  fetches : ∀ c bound, Stands c bound →
    ∃ next, fetch c t = some ((loadPage load n (fetched score name bound (n + 1) (ranking t))).1, next) ∧
      ((loadPage load n (fetched score name bound (n + 1) (ranking t))).2 = none → next = none) ∧
      ∀ row loaded k, load row = some loaded → stamp loaded = some k →
        (loadPage load n (fetched score name bound (n + 1) (ranking t))).2 = some loaded →
        ∃ c', next = some c' ∧ Stands c' (some (k, name row))

section Fetch

variable {score name} {front back : List ρ} {last : ρ}

theorem filter_all {p : ρ → Bool} {l : List ρ} (h : ∀ r ∈ l, p r = true) : l.filter p = l := List.filter_eq_self.mpr h

theorem filter_none {p : ρ → Bool} {l : List ρ} (h : ∀ r ∈ l, p r = false) : l.filter p = [] := by
  rw [List.filter_eq_nil_iff]
  intro r hr
  rw [h r hr]
  exact Bool.false_ne_true

/-- A row and what is behind it, as the ranking has them. -/
theorem rank_behind (h : Descending (rank score name) (front ++ last :: back)) :
    (∀ r ∈ front, score last ≤ score r ∧ (score r = score last → name last < name r)) ∧
      ∀ r ∈ back, score r ≤ score last ∧ (score r = score last → name r < name last) := by
  obtain ⟨-, htail, hcross⟩ := List.pairwise_append.mp h
  have hle : ∀ {a b : ρ}, rank score name b < rank score name a →
      score b ≤ score a ∧ (score b = score a → name b < name a) := by
    intro a b hlt
    rcases Prod.Lex.toLex_lt_toLex.mp hlt with hs | ⟨hs, hn⟩
    · exact ⟨hs.le, fun heq => absurd heq hs.ne⟩
    · exact ⟨hs.le, fun _ => hn⟩
  refine ⟨fun r hr => ?_, fun r hr => hle ((List.pairwise_cons.mp htail).1 r hr)⟩
  obtain ⟨hscore, hname⟩ := hle (hcross r hr last List.mem_cons_self)
  exact ⟨hscore, fun heq => hname heq.symm⟩

/-- After a row with a uniform rest, the next page is fetched in order. -/
theorem fetchAfter_eq (h : Descending (rank score name) (front ++ last :: back)) (hu : Uniform score (score last) back)
    (count : Nat) : fetchAfter score name (score last) (name last) count (front ++ last :: back) = back.take count := by
  obtain ⟨hfront, hback⟩ := rank_behind h
  have holder : (front ++ last :: back).filter (fun r => decide (score r < score last)) =
      back.filter fun r => decide (score r < score last) := by
    have hnone : front.filter (fun r => decide (score r < score last)) = [] :=
      filter_none fun r hr => decide_eq_false (not_lt_of_ge (hfront r hr).1)
    rw [List.filter_append, hnone, List.nil_append, List.filter_cons_of_neg (by simp)]
  have hties : (front ++ last :: back).filter (fun r => decide (score r = score last ∧ name r < name last)) =
      back.filter fun r => decide (score r = score last) := by
    have hnone : front.filter (fun r => decide (score r = score last ∧ name r < name last)) = [] := by
      refine filter_none fun r hr => decide_eq_false ?_
      rintro ⟨heq, hlt⟩
      exact absurd hlt (not_lt_of_gt ((hfront r hr).2 heq))
    rw [List.filter_append, hnone, List.nil_append, List.filter_cons_of_neg (by simp)]
    refine List.filter_congr fun r hr => ?_
    exact decide_eq_decide.mpr ⟨And.left, fun heq => ⟨heq, (hback r hr).2 heq⟩⟩
  unfold fetchAfter
  rw [holder, hties]
  rcases hu with hlt | heq
  · have hall : back.filter (fun r => decide (score r < score last)) = back :=
      filter_all fun r hr => decide_eq_true (hlt r hr)
    have hnone : back.filter (fun r => decide (score r = score last)) = [] :=
      filter_none fun r hr => decide_eq_false (hlt r hr).ne
    rw [hall, hnone, List.append_nil, List.take_take, Nat.min_self]
  · have hnone : back.filter (fun r => decide (score r < score last)) = [] :=
      filter_none fun r hr => decide_eq_false (heq r hr).not_lt
    have hall : back.filter (fun r => decide (score r = score last)) = back :=
      filter_all fun r hr => decide_eq_true (heq r hr)
    rw [hnone, hall, List.take_nil, List.nil_append]

end Fetch

section Pages

variable {load} {rows front unloaded back : List ρ} {row : ρ} {loaded : σ} {n : Nat}

/-- One row beyond the page tells that there are more. -/
theorem loadPage_take : loadPage load n (rows.take (n + 1)) = loadPage load n rows := by
  have htake : (rows.take (n + 1)).take n = rows.take n := by
    rw [List.take_take, Nat.min_eq_left (Nat.le_succ n)]
  have hmore : n < (rows.take (n + 1)).length ↔ n < rows.length := by
    rw [List.length_take]
    omega
  unfold loadPage
  rw [htake]
  simp only [hmore]

theorem loadPage_all (h : rows.length ≤ n) : loadPage load n rows = (rows.filterMap load, none) := by
  unfold loadPage
  rw [List.take_of_length_le h, if_neg (Nat.not_lt.mpr h)]

theorem loadPage_stale (h : ∀ r ∈ rows.take n, load r = none) : loadPage load n rows = ([], none) := by
  unfold loadPage
  rw [List.filterMap_eq_nil_iff.mpr h, List.getLast?_nil, ite_self]

theorem loadPage_next (hlen : front.length + 1 + unloaded.length = n) (hback : back ≠ []) (hrow : load row = some loaded)
    (hnone : ∀ r ∈ unloaded, load r = none) :
    loadPage load n (front ++ row :: (unloaded ++ back)) = (front.filterMap load ++ [loaded], some loaded) := by
  have hsplit : front ++ row :: (unloaded ++ back) = (front ++ row :: unloaded) ++ back := by simp
  have hfirst : (front ++ row :: unloaded).length = n := by
    rw [List.length_append, List.length_cons]
    omega
  have hmore : n < ((front ++ row :: unloaded) ++ back).length := by
    have := List.length_pos_iff.mpr hback
    rw [List.length_append, hfirst]
    omega
  have hloaded : (front ++ row :: unloaded).filterMap load = front.filterMap load ++ [loaded] := by
    rw [List.filterMap_append, List.filterMap_cons_some hrow, List.filterMap_eq_nil_iff.mpr hnone]
  unfold loadPage
  rw [hsplit, if_pos hmore, List.take_left' hfirst, hloaded, List.getLast?_concat]

/-- What loads of some rows, where a loaded row tells which row it is. -/
theorem map_loaded {ident : σ → ρ} (h : ∀ r x, load r = some x → ident x = r) (rows : List ρ) :
    (rows.filterMap load).map ident = rows.filter fun r => (load r).isSome := by
  induction rows with
  | nil => rfl
  | cons r rows ih =>
    cases hr : load r with
    | none => rw [List.filterMap_cons_none hr, ih, List.filter_cons_of_neg (by simp [hr])]
    | some x =>
      rw [List.filterMap_cons_some hr, List.map_cons, ih, h r x hr, List.filter_cons_of_pos (by simp [hr])]

end Pages

section Walks

variable {score name load} {matters : ρ → Prop} {stamp : σ → Option κ} {n : Nat}
  {fetch : γ → τ → Option (List σ × Option γ)} {ranking : τ → List ρ} {Stands : γ → Option (κ × ν) → Prop} {t : τ}

/-- A walk of a walkable ranking ends with all that matters, in order: the induction is on the pages. -/
theorem Serves.walk (h : Serves score name load fetch ranking n stamp Stands t) {rest : List ρ}
    (hw : Walkable score load matters stamp n rest) {c : γ} {bound : Option (κ × ν)} (hc : Stands c bound)
    {before : List ρ} (hsplit : ranking t = before ++ rest)
    (hfetched : fetched score name bound (n + 1) (ranking t) = rest.take (n + 1)) :
    ∃ pages kept dropped, Walk fetch c (List.replicate pages.length t) pages ∧ rest = kept ++ dropped ∧
      pages.flatten = kept.filterMap load ∧ (∀ r ∈ kept, matters r → load r ≠ none) ∧ ∀ r ∈ dropped, ¬ matters r := by
  obtain ⟨next, hfetch, hnone, hsome⟩ := h.fetches c bound hc
  rw [hfetched, loadPage_take] at hfetch hnone hsome
  induction hw generalizing c bound before next with
  | @last rows hlen hload =>
    rw [loadPage_all hlen] at hfetch hnone
    rw [hnone rfl] at hfetch
    exact ⟨[rows.filterMap load], rows, [], .last hfetch, (List.append_nil rows).symm, List.flatten_singleton, hload, nofun⟩
  | @stale rows _ hnothing hrest =>
    rw [loadPage_stale hnothing] at hfetch hnone
    rw [hnone rfl] at hfetch
    exact ⟨[[]], [], rows, .last hfetch, rfl, rfl, nofun, hrest⟩
  | @next front unloaded back row loaded hlen hback hfront hrow hstamp hunloaded huniform _ ih =>
    rw [loadPage_next hlen hback hrow hunloaded] at hfetch hsome
    obtain ⟨c', rfl, hc'⟩ := hsome row loaded (score row) hrow hstamp rfl
    have hsplit' : ranking t = (before ++ front) ++ row :: (unloaded ++ back) := by rw [hsplit, List.append_assoc]
    have hbehind : fetched score name (some (score row, name row)) (n + 1) (ranking t) = (unloaded ++ back).take (n + 1) := by
      have hdesc := h.descending
      rw [hsplit'] at hdesc ⊢
      exact fetchAfter_eq hdesc huniform (n + 1)
    obtain ⟨next, hfetch', hnone', hsome'⟩ := h.fetches c' _ hc'
    rw [hbehind, loadPage_take] at hfetch' hnone' hsome'
    have hrank : ranking t = (before ++ front ++ [row]) ++ (unloaded ++ back) := by
      rw [hsplit', List.append_assoc (before ++ front), List.singleton_append]
    obtain ⟨pages, kept, dropped, hwalk, hkept, hflat, hloads, hdropped⟩ := ih hc' hrank hbehind next hfetch' hnone' hsome'
    refine ⟨(front.filterMap load ++ [loaded]) :: pages, front ++ row :: kept, dropped, .next hfetch hwalk, ?_, ?_, ?_, hdropped⟩
    · rw [hkept, List.append_assoc, List.cons_append]
    · rw [List.flatten_cons, hflat, List.filterMap_append, List.filterMap_cons_some hrow, List.append_assoc,
        List.singleton_append]
    · intro r hr hm
      rcases List.mem_append.mp hr with hr | hr
      · exact hfront r hr hm
      · rcases List.mem_cons.mp hr with rfl | hr
        · rw [hrow]
          exact Option.some_ne_none _
        · exact hloads r hr hm

end Walks

end Chinwag.Ranking

import Mathlib.Data.List.Sort
import Mathlib.Order.Basic

/-!
# Walking a table by keyset pages

Rows have keys in a linear order. A page is the newest few rows below a bound, and the next bound is the
key of its last row. Whatever happens to the table between two pages, a walk goes strictly down and
leaves out no row that stays where it is.
-/
namespace Chinwag.Keyset

variable {ρ κ τ γ : Type} [LinearOrder κ] (key : ρ → κ)

/-- Strictly from the newest to the oldest. -/
abbrev Descending (rows : List ρ) : Prop := rows.Pairwise fun a b => key b < key a

def isBelow (bound : Option κ) (r : ρ) : Bool :=
  match bound with
  | none => true
  | some b => decide (key r < b)

/-- The rows below a bound, the newest first. -/
def newest (bound : Option κ) (rows : List ρ) : List ρ :=
  (rows.filter (isBelow key bound)).mergeSort fun a b => decide (key b ≤ key a)

/-- The first `n` rows, and the key of the last of them if there are more. -/
def cut (n : Nat) (rows : List ρ) : List ρ × Option κ :=
  if n < rows.length then (rows.take n, (rows.take n).getLast?.map key) else (rows, none)

/-- One page with the bound of the next. -/
def page (n : Nat) (bound : Option κ) (rows : List ρ) : List ρ × Option κ := cut key n (newest key bound rows)

/-- The tables that the pages of a walk were fetched from, and the pages, until no cursor is returned. -/
inductive Walk (fetch : γ → τ → Option (List ρ × Option γ)) : γ → List τ → List (List ρ) → Prop where
  | last {c : γ} {t : τ} {rows : List ρ} (h : fetch c t = some (rows, none)) : Walk fetch c [t] [rows]
  | next {c c' : γ} {t : τ} {ts : List τ} {rows : List ρ} {pages : List (List ρ)} (h : fetch c t = some (rows, some c'))
      (rest : Walk fetch c' ts pages) : Walk fetch c (t :: ts) (rows :: pages)

/-- What a fetch returns is a page, where `Stands` says which bound a cursor stands for. -/
structure Fetches (fetch : γ → τ → Option (List ρ × Option γ)) (rows : τ → List ρ) (n : Nat)
    (Stands : γ → Option κ → Prop) : Prop where
  positive : 0 < n
  unique : ∀ t, ((rows t).map key).Nodup
  fetches : ∀ c t bound, Stands c bound → ∃ next, fetch c t = some ((page key n bound (rows t)).1, next) ∧
    (∀ c', next = some c' → Stands c' (page key n bound (rows t)).2) ∧
    (next = none ↔ (page key n bound (rows t)).2 = none)

/-- Over one table there is one walk from a cursor: the induction is on its pages. -/
theorem Walk.unique {fetch : γ → τ → Option (List ρ × Option γ)} {c : γ} {t : τ} {ts ts' : List τ}
    {pages pages' : List (List ρ)} (h : Walk fetch c ts pages) (ht : ∀ t' ∈ ts, t' = t) (h' : Walk fetch c ts' pages')
    (ht' : ∀ t' ∈ ts', t' = t) : pages = pages' := by
  induction h generalizing ts' pages' with
  | last hfetch =>
    obtain rfl := ht _ List.mem_cons_self
    cases h' with
    | last hfetch' =>
      obtain rfl := ht' _ List.mem_cons_self
      cases hfetch.symm.trans hfetch'
      rfl
    | next hfetch' _ =>
      obtain rfl := ht' _ List.mem_cons_self
      cases hfetch.symm.trans hfetch'
  | next hfetch _ ih =>
    obtain rfl := ht _ List.mem_cons_self
    cases h' with
    | last hfetch' =>
      obtain rfl := ht' _ List.mem_cons_self
      cases hfetch.symm.trans hfetch'
    | next hfetch' hrest =>
      obtain rfl := ht' _ List.mem_cons_self
      cases hfetch.symm.trans hfetch'
      rw [ih (fun t ht₁ => ht t (List.mem_cons_of_mem _ ht₁)) hrest fun t ht₁ => ht' t (List.mem_cons_of_mem _ ht₁)]

section Newest

variable {key} {bound : Option κ} {rows l : List ρ} {n : Nat} {r : ρ}

theorem mem_newest : r ∈ newest key bound rows ↔ r ∈ rows ∧ isBelow key bound r = true := by
  rw [newest, List.mem_mergeSort, List.mem_filter]

theorem isBelow_some {b : κ} : isBelow key (some b) r = true ↔ key r < b := by
  simp [isBelow]

/-- With distinct keys the order is strict. -/
theorem descending_newest (h : (rows.map key).Nodup) : Descending key (newest key bound rows) := by
  have hsorted : (newest key bound rows).Pairwise fun a b => key b ≤ key a := by
    have htotal := @List.pairwise_mergeSort _ (fun a b : ρ => decide (key b ≤ key a))
      (fun a b c hab hbc => by
        simp only [decide_eq_true_eq] at hab hbc ⊢
        exact hbc.trans hab)
      (fun a b => by
        simp only [Bool.or_eq_true, decide_eq_true_eq]
        exact le_total _ _)
      (rows.filter (isBelow key bound))
    exact htotal.imp fun h => of_decide_eq_true h
  have hnodup : ((newest key bound rows).map key).Nodup := by
    have hperm := (List.mergeSort_perm (rows.filter (isBelow key bound)) fun a b => decide (key b ≤ key a)).map key
    exact hperm.nodup_iff.mpr (h.sublist (List.filter_sublist.map key))
  rw [List.Nodup, List.pairwise_map] at hnodup
  exact hsorted.imp₂ (fun a b hle hne => lt_of_le_of_ne hle (Ne.symm hne)) hnodup

/-- A row is among the first if few are newer. -/
theorem Descending.mem_take (h : Descending key l) (n : Nat) :
    r ∈ l.take n ↔ r ∈ l ∧ (l.filter fun a => decide (key r < key a)).length < n := by
  induction l generalizing n with
  | nil => simp
  | cons a l ih =>
    obtain ⟨ha, hl⟩ := List.pairwise_cons.mp h
    cases n with
    | zero => simp
    | succ n =>
      rw [List.take_succ_cons, List.mem_cons, List.mem_cons, ih hl]
      by_cases heq : r = a
      · have hnone : (a :: l).filter (fun b => decide (key r < key b)) = [] := by
          rw [List.filter_eq_nil_iff]
          intro b hb
          rw [heq, decide_eq_true_eq, not_lt]
          rcases List.mem_cons.mp hb with rfl | hb
          · exact le_rfl
          · exact (ha b hb).le
        simp [heq, heq ▸ hnone]
      · have hmore : r ∈ l → ((a :: l).filter fun b => decide (key r < key b)).length =
            (l.filter fun b => decide (key r < key b)).length + 1 := by
          intro hr
          rw [List.filter_cons, if_pos (decide_eq_true (ha r hr)), List.length_cons]
        constructor
        · rintro (hr | ⟨hr, hlen⟩)
          · exact absurd hr heq
          · rw [hmore hr]
            exact ⟨.inr hr, by omega⟩
        · rintro ⟨hr | hr, hlen⟩
          · exact absurd hr heq
          · rw [hmore hr] at hlen
            exact .inr ⟨hr, by omega⟩

/-- A list in strict order is determined by its rows. -/
theorem Descending.eq (hl : Descending key l) {l' : List ρ} (hl' : Descending key l') (h : ∀ r, r ∈ l ↔ r ∈ l') : l = l' := by
  have hnodup : ∀ {k : List ρ}, Descending key k → k.Nodup := fun hk => hk.imp fun hlt heq => absurd (heq ▸ hlt) (lt_irrefl _)
  exact ((List.perm_ext_iff_of_nodup (hnodup hl) (hnodup hl')).mpr h).eq_of_pairwise
    (fun a b _ _ hab hba => absurd hab (not_lt_of_gt hba)) hl hl'

/-- Below the last row of a page are just the rows after the page. -/
theorem newest_after {front back : List ρ} {last : ρ} (h : (rows.map key).Nodup)
    (heq : newest key bound rows = front ++ last :: back) : newest key (some (key last)) rows = back := by
  have hdesc : Descending key (front ++ last :: back) := heq ▸ descending_newest h
  obtain ⟨-, htail, hcross⟩ := List.pairwise_append.mp hdesc
  obtain ⟨hlast, hback⟩ := List.pairwise_cons.mp htail
  refine (descending_newest h).eq hback fun r => ?_
  rw [mem_newest, isBelow_some]
  constructor
  · rintro ⟨hr, hlt⟩
    have hbelow : isBelow key bound r = true := by
      have hl : last ∈ newest key bound rows := heq ▸ List.mem_append_right _ List.mem_cons_self
      have hlast' := (mem_newest.mp hl).2
      cases bound with
      | none => rfl
      | some b => exact isBelow_some.mpr (hlt.trans (isBelow_some.mp hlast'))
    have hmem : r ∈ front ++ last :: back := heq ▸ mem_newest.mpr ⟨hr, hbelow⟩
    rcases List.mem_append.mp hmem with hf | hb
    · exact absurd hlt (not_lt_of_gt (hcross r hf last List.mem_cons_self))
    · rcases List.mem_cons.mp hb with rfl | hb
      · exact absurd hlt (lt_irrefl _)
      · exact hb
  · intro hr
    have hmem : r ∈ newest key bound rows := heq ▸ List.mem_append_right _ (List.mem_cons_of_mem _ hr)
    exact ⟨(mem_newest.mp hmem).1, hlast r hr⟩

omit [LinearOrder κ] in
theorem cut_eq {front : List ρ} {last : ρ} {back : List ρ} (hback : back ≠ []) :
    cut key (front.length + 1) (front ++ last :: back) = (front ++ [last], some (key last)) := by
  have hlt : front.length + 1 < (front ++ last :: back).length := by
    rw [List.length_append, List.length_cons]
    have := List.length_pos_iff.mpr hback
    omega
  have htake : (front ++ last :: back).take (front.length + 1) = front ++ [last] := by
    rw [List.append_cons, List.take_left']
    simp
  rw [cut, if_pos hlt, htake]
  simp

/-- A page is all there is, or ends with the row whose key is the next bound. -/
theorem page_cases (hn : 0 < n) (bound : Option κ) (rows : List ρ) :
    page key n bound rows = (newest key bound rows, none) ∨ ∃ front last back,
      newest key bound rows = front ++ last :: back ∧ front.length + 1 = n ∧
        page key n bound rows = (front ++ [last], some (key last)) := by
  by_cases hlt : n < (newest key bound rows).length
  · obtain ⟨m, rfl⟩ := Nat.exists_eq_succ_of_ne_zero (Nat.pos_iff_ne_zero.mp hn)
    obtain ⟨last, back, hdrop⟩ : ∃ last back, (newest key bound rows).drop m = last :: back := by
      cases hd : (newest key bound rows).drop m with
      | nil =>
        have := List.drop_eq_nil_iff.mp hd
        omega
      | cons last back => exact ⟨last, back, rfl⟩
    have hsplit : newest key bound rows = (newest key bound rows).take m ++ last :: back := by
      rw [← hdrop, List.take_append_drop]
    have hlen : ((newest key bound rows).take m).length = m := by
      rw [List.length_take]
      omega
    have hback : back ≠ [] := by
      rintro rfl
      have hall := congrArg List.length hsplit
      rw [List.length_append, hlen, List.length_singleton] at hall
      omega
    refine .inr ⟨_, last, back, hsplit, by rw [hlen], ?_⟩
    rw [page]
    conv_lhs => rw [hsplit]
    rw [← cut_eq hback, hlen]
  · exact .inl (by rw [page, cut, if_neg hlt])

end Newest

section Walks

variable {key} {fetch : γ → τ → Option (List ρ × Option γ)} {rows : τ → List ρ} {n : Nat} {Stands : γ → Option κ → Prop}
  {c : γ} {bound : Option κ} {ts : List τ} {pages : List (List ρ)}

/-- No fetch fails on a cursor that a fetch has returned. -/
theorem Fetches.ok (h : Fetches key fetch rows n Stands) (hc : Stands c bound) (t : τ) : fetch c t ≠ none := by
  obtain ⟨next, hfetch, -⟩ := h.fetches c t bound hc
  rw [hfetch]
  exact Option.some_ne_none _

/-- What one fetch of a walk returns. -/
theorem Fetches.cases (h : Fetches key fetch rows n Stands) (hc : Stands c bound) {t : τ} {got : List ρ}
    {next : Option γ} (hfetch : fetch c t = some (got, next)) :
    next = none ∧ got = newest key bound (rows t) ∨ ∃ c' front last back, next = some c' ∧ Stands c' (some (key last)) ∧
      newest key bound (rows t) = front ++ last :: back ∧ got = front ++ [last] := by
  obtain ⟨next', hfetch', hstands, hnone⟩ := h.fetches c t bound hc
  obtain ⟨hgot, hnext⟩ := Prod.ext_iff.mp (Option.some.inj (hfetch.symm.trans hfetch'))
  dsimp only at hgot hnext
  subst hgot hnext
  rcases page_cases h.positive bound (rows t) with heq | ⟨front, last, back, hsplit, -, heq⟩
  · exact .inl ⟨hnone.mpr (by rw [heq]), by rw [heq]⟩
  · cases hn : next with
    | none =>
      rw [heq] at hnone
      cases hnone.mp hn
    | some c' =>
      have hs := hstands c' hn
      rw [heq] at hs
      exact .inr ⟨c', front, last, back, rfl, hs, hsplit, by rw [heq]⟩

/-- The walk goes strictly down from its bound: the induction is on its pages. -/
theorem walk_descending (h : Fetches key fetch rows n Stands) (hc : Stands c bound) (hwalk : Walk fetch c ts pages) :
    Descending key pages.flatten ∧ ∀ r ∈ pages.flatten, isBelow key bound r = true := by
  induction hwalk generalizing bound with
  | @last c t got hfetch =>
    rcases h.cases hc hfetch with ⟨-, rfl⟩ | ⟨c', front, last, back, hnext, -⟩
    · rw [List.flatten_singleton]
      exact ⟨descending_newest (h.unique t), fun r hr => (mem_newest.mp hr).2⟩
    · cases hnext
  | @next c c' t ts got pages hfetch _ ih =>
    rcases h.cases hc hfetch with ⟨hnext, -⟩ | ⟨c'', front, last, back, hnext, hstands, hsplit, rfl⟩
    · cases hnext
    · obtain rfl := Option.some.inj hnext
      obtain ⟨hdesc, hbelow⟩ := ih hstands
      have hfirst : Descending key (front ++ last :: back) := hsplit ▸ descending_newest (h.unique t)
      have hpage : Descending key (front ++ [last]) :=
        hfirst.sublist (List.Sublist.append_left (List.cons_sublist_cons.mpr (List.nil_sublist _)) _)
      have hall : ∀ r ∈ front ++ [last], isBelow key bound r = true ∧ key last ≤ key r := by
        intro r hr
        have hmem : r ∈ newest key bound (rows t) := by
          rw [hsplit, List.append_cons]
          exact List.mem_append_left _ hr
        refine ⟨(mem_newest.mp hmem).2, ?_⟩
        rcases List.mem_append.mp hr with hf | hl
        · exact ((List.pairwise_append.mp hpage).2.2 r hf last List.mem_cons_self).le
        · rw [List.mem_singleton.mp hl]
      have hlast : isBelow key bound last = true := (hall last (by simp)).1
      rw [List.flatten_cons]
      refine ⟨List.pairwise_append.mpr ⟨hpage, hdesc, fun a ha b hb => ?_⟩, fun r hr => ?_⟩
      · exact (isBelow_some.mp (hbelow b hb)).trans_le (hall a ha).2
      · rcases List.mem_append.mp hr with hr | hr
        · exact (hall r hr).1
        · have hlt := isBelow_some.mp (hbelow r hr)
          cases bound with
          | none => rfl
          | some b => exact isBelow_some.mpr (hlt.trans (isBelow_some.mp hlast))

/-- Each page holds rows of the table it was fetched from. -/
theorem walk_sound (h : Fetches key fetch rows n Stands) (hc : Stands c bound) (hwalk : Walk fetch c ts pages) :
    List.Forall₂ (fun t got => ∀ r ∈ got, r ∈ rows t) ts pages := by
  induction hwalk generalizing bound with
  | @last c t got hfetch =>
    rcases h.cases hc hfetch with ⟨-, rfl⟩ | ⟨c', front, last, back, hnext, -⟩
    · exact .cons (fun r hr => (mem_newest.mp hr).1) .nil
    · cases hnext
  | @next c c' t ts got pages hfetch _ ih =>
    rcases h.cases hc hfetch with ⟨hnext, -⟩ | ⟨c'', front, last, back, hnext, hstands, hsplit, rfl⟩
    · cases hnext
    · obtain rfl := Option.some.inj hnext
      refine .cons (fun r hr => ?_) (ih hstands)
      have hmem : r ∈ newest key bound (rows t) := by
        rw [hsplit, List.append_cons]
        exact List.mem_append_left _ hr
      exact (mem_newest.mp hmem).1

/-- A key that is in every table of the walk is in its pages. -/
theorem walk_complete (h : Fetches key fetch rows n Stands) (hc : Stands c bound) (hwalk : Walk fetch c ts pages) {k : κ}
    (hk : ∀ b, bound = some b → k < b) (hthere : ∀ t ∈ ts, ∃ r ∈ rows t, key r = k) :
    ∃ r ∈ pages.flatten, key r = k := by
  induction hwalk generalizing bound with
  | @last c t got hfetch =>
    obtain ⟨r, hr, hkey⟩ := hthere t List.mem_cons_self
    rcases h.cases hc hfetch with ⟨-, rfl⟩ | ⟨c', front, last, back, hnext, -⟩
    · refine ⟨r, ?_, hkey⟩
      rw [List.flatten_singleton, mem_newest]
      refine ⟨hr, ?_⟩
      cases bound with
      | none => rfl
      | some b => exact isBelow_some.mpr (hkey ▸ hk b rfl)
    · cases hnext
  | @next c c' t ts got pages hfetch _ ih =>
    obtain ⟨r, hr, hkey⟩ := hthere t List.mem_cons_self
    rcases h.cases hc hfetch with ⟨hnext, -⟩ | ⟨c'', front, last, back, hnext, hstands, hsplit, rfl⟩
    · cases hnext
    · obtain rfl := Option.some.inj hnext
      have hmem : r ∈ front ++ last :: back := by
        rw [← hsplit, mem_newest]
        refine ⟨hr, ?_⟩
        cases bound with
        | none => rfl
        | some b => exact isBelow_some.mpr (hkey ▸ hk b rfl)
      rw [List.append_cons] at hmem
      rcases List.mem_append.mp hmem with hpage | hback
      · exact ⟨r, List.mem_append_left _ hpage, hkey⟩
      · have hdesc : Descending key (front ++ last :: back) := hsplit ▸ descending_newest (h.unique t)
        have hlt : k < key last := hkey ▸ (List.pairwise_cons.mp (List.pairwise_append.mp hdesc).2.1).1 r hback
        obtain ⟨r', hr', hkey'⟩ := ih hstands (fun b hb => Option.some.inj hb ▸ hlt)
          fun t' ht' => hthere t' (List.mem_cons_of_mem _ ht')
        exact ⟨r', List.mem_append_right _ hr', hkey'⟩

/-- While nothing changes, the walk comes to its end with all rows: the induction is on those left. -/
theorem walk_all (h : Fetches key fetch rows n Stands) (hc : Stands c bound) (t : τ) :
    ∃ pages, Walk fetch c (List.replicate pages.length t) pages ∧ pages.flatten = newest key bound (rows t) := by
  generalize hlen : (newest key bound (rows t)).length = len
  induction len using Nat.strong_induction_on generalizing c bound with
  | _ len ih =>
    obtain ⟨⟨got, next⟩, hfetch⟩ := Option.ne_none_iff_exists'.mp (h.ok hc t)
    rcases h.cases hc hfetch with ⟨rfl, rfl⟩ | ⟨c', front, last, back, rfl, hstands, hsplit, rfl⟩
    · exact ⟨[newest key bound (rows t)], .last hfetch, List.flatten_singleton⟩
    · have hback := newest_after (h.unique t) hsplit
      have hshorter : (newest key (some (key last)) (rows t)).length < len := by
        rw [hback, ← hlen, hsplit, List.length_append, List.length_cons]
        omega
      obtain ⟨pages, hwalk, hflat⟩ := ih _ hshorter hstands rfl
      refine ⟨(front ++ [last]) :: pages, .next hfetch hwalk, ?_⟩
      rw [List.flatten_cons, hflat, hback, hsplit, List.append_assoc, List.singleton_append]

theorem walk_mem (h : Fetches key fetch rows n Stands) (hc : Stands c bound) (hwalk : Walk fetch c ts pages) {r : ρ}
    (hr : r ∈ pages.flatten) : ∃ t ∈ ts, r ∈ rows t := by
  have hsound := walk_sound h hc hwalk
  clear hwalk
  induction hsound with
  | nil => cases hr
  | cons hgot _ ih =>
    rw [List.flatten_cons] at hr
    rcases List.mem_append.mp hr with hr | hr
    · exact ⟨_, List.mem_cons_self, hgot r hr⟩
    · obtain ⟨t, ht, hrow⟩ := ih hr
      exact ⟨t, List.mem_cons_of_mem _ ht, hrow⟩

/-- A row that stays where it is is returned once, by whatever `ident` tells rows apart. -/
theorem walk_once {ι : Type} [DecidableEq ι] (ident : κ → ι) (h : Fetches key fetch rows n Stands) (hc : Stands c none)
    (hwalk : Walk fetch c ts pages) {k : κ} (hthere : ∀ t ∈ ts, ∃ r ∈ rows t, key r = k)
    (honly : ∀ t ∈ ts, ∀ r ∈ rows t, ident (key r) = ident k → key r = k) :
    (pages.flatten.map fun r => ident (key r)).count (ident k) = 1 := by
  obtain ⟨r, hr, rfl⟩ := walk_complete h hc hwalk (fun _ hb => (nomatch hb)) hthere
  have hother : ∀ a ∈ pages.flatten, key a ≠ key r → ident (key a) ≠ ident (key r) := by
    intro a ha hne heq
    obtain ⟨t, ht, hrow⟩ := walk_mem h hc hwalk ha
    exact hne (honly t ht a hrow heq)
  obtain ⟨front, back, heq⟩ := List.append_of_mem hr
  have hdesc := (walk_descending h hc hwalk).1
  rw [heq] at hdesc hother ⊢
  obtain ⟨-, htail, hcross⟩ := List.pairwise_append.mp hdesc
  have hfront : (front.map fun r => ident (key r)).count (ident (key r)) = 0 := by
    refine List.count_eq_zero.mpr fun hmem => ?_
    obtain ⟨a, ha, hident⟩ := List.mem_map.mp hmem
    exact hother a (List.mem_append_left _ ha) (hcross a ha r List.mem_cons_self).ne' hident
  have hback : (back.map fun r => ident (key r)).count (ident (key r)) = 0 := by
    refine List.count_eq_zero.mpr fun hmem => ?_
    obtain ⟨a, ha, hident⟩ := List.mem_map.mp hmem
    exact hother a (List.mem_append_right _ (List.mem_cons_of_mem _ ha)) ((List.pairwise_cons.mp htail).1 a ha).ne hident
  rw [List.map_append, List.map_cons, List.count_append, List.count_cons_self, hfront, hback]

end Walks

end Chinwag.Keyset

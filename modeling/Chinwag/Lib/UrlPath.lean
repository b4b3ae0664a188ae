import Mathlib.Algebra.Ring.Nat
import Mathlib.Data.Fin.Basic
import Mathlib.Data.List.TakeWhile
import Mathlib.Data.Fintype.Basic

/-!
# Paths of URLs as Go keeps them

A URL has its path decoded, and beside it the encoded text where that is not the default one.
`escapedPath` is what goes on the wire, `parseRequest` what a server makes of a request target.
-/
namespace Chinwag.UrlPath

abbrev Byte := Fin 256

abbrev Bytes := List Byte

theorem byte_ne_zero : 256 ≠ 0 := by decide

-- `Fin.ofNat` asks for it below
local instance byte_neZero : NeZero 256 := ⟨byte_ne_zero⟩

def byte (c : Char) : Byte := Fin.ofNat 256 c.toNat

/-- The bytes of an ASCII text. -/
def bytes (s : String) : Bytes := s.toList.map byte

def isLetter (b : Byte) : Bool := (65 ≤ b.val && b.val ≤ 90) || (97 ≤ b.val && b.val ≤ 122)

def isDigit (b : Byte) : Bool := 48 ≤ b.val && b.val ≤ 57

/-- `shouldEscape` in mode `encodePath`. -/
def shouldEscape (b : Byte) : Bool := !(isLetter b || isDigit b || (bytes "-_.~$&+,/:;=@").contains b)

def unhex (b : Byte) : Option Nat :=
  if isDigit b then some (b.val - 48)
  else if 97 ≤ b.val ∧ b.val ≤ 102 then some (b.val - 87)
  else if 65 ≤ b.val ∧ b.val ≤ 70 then some (b.val - 55)
  else none

def upperhex (n : Nat) : Byte := if n < 10 then Fin.ofNat 256 (n + 48) else Fin.ofNat 256 (n + 55)

/-- `escape` in mode `encodePath`. -/
def escape (s : Bytes) : Bytes :=
  s.flatMap fun b => if shouldEscape b then [byte '%', upperhex (b.val / 16), upperhex (b.val % 16)] else [b]

/-- `unescape` in mode `encodePath`; a `%` must begin an escape. -/
def unescape : Bytes → Option Bytes
  | [] => some []
  | b :: rest =>
    if b = byte '%' then
      match rest with
      | high :: low :: tail => do
        let high ← unhex high
        let low ← unhex low
        let out ← unescape tail
        return Fin.ofNat 256 (16 * high + low) :: out
      | _ => none
    else (unescape rest).map (b :: ·)

/-- A byte `validEncoded` accepts. -/
def validByte (b : Byte) : Bool := (bytes "!$&'()*+,;=:@[]%").contains b || !shouldEscape b

def validEncoded (s : Bytes) : Bool := s.all validByte

/-- The query is what follows a question mark, which may be nothing. -/
structure Url where
  path : Bytes
  rawPath : Bytes
  query : Option Bytes
deriving DecidableEq

/-- `URL.setPath`. -/
def setPath (p : Bytes) (query : Option Bytes) : Option Url :=
  (unescape p).map fun path => ⟨path, if p = escape path then [] else p, query⟩

def queryText : Option Bytes → Bytes
  | none => []
  | some query => byte '?' :: query

/-- The text before the first question mark, and the query. -/
def cutQuery (s : Bytes) : Bytes × Option Bytes :=
  (s.takeWhile (· ≠ byte '?'), (s.dropWhile (· ≠ byte '?')).tail?)

def Url.escapedPath (u : Url) : Bytes :=
  if u.rawPath ≠ [] ∧ validEncoded u.rawPath ∧ unescape u.rawPath = some u.path then u.rawPath
  else if u.path = bytes "*" then bytes "*"
  else escape u.path

def Url.requestURI (u : Url) : Bytes :=
  (if u.escapedPath = [] then bytes "/" else u.escapedPath) ++ queryText u.query

def isControl (b : Byte) : Bool := b.val < 32 || b.val = 127

/-- A byte a scheme may go on with. -/
def isSchemeByte (b : Byte) : Bool := isLetter b || isDigit b || (bytes "+-.").contains b

/-- `getScheme`: no scheme is the empty one; a colon at the start is an error. -/
def getScheme (s : Bytes) : Option (Bytes × Bytes) :=
  match s.dropWhile isSchemeByte with
  | [] => some ([], s)
  | b :: rest =>
    if b = byte ':' then
      match s.takeWhile isSchemeByte with
      | [] => none
      | first :: more => if isLetter first then some (first :: more, rest) else some ([], s)
    else some ([], s)

/-- The authority after two slashes, and the path. -/
def cutAuthority (s : Bytes) : Bytes × Bytes := (s.takeWhile (· ≠ byte '/'), s.dropWhile (· ≠ byte '/'))

/-- `url.ParseRequestURI`; which authorities it takes is a parameter. -/
def parseRequest (validAuthority : Bytes → Bool) (target : Bytes) : Option Url :=
  if target.any isControl ∨ target = [] then none
  else if target = bytes "*" then some ⟨bytes "*", [], none⟩
  else
    match getScheme target with
    | none => none
    | some (scheme, rest) =>
      match cutQuery rest with
      | ([], query) => if scheme = [] then none else some ⟨[], [], query⟩
      | (first :: more, query) =>
        if first = byte '/' then
          match scheme, more with
          | _ :: _, second :: authority =>
            if second = byte '/' then
              if validAuthority (cutAuthority authority).1 then setPath (cutAuthority authority).2 query else none
            else setPath (first :: more) query
          | _, _ => setPath (first :: more) query
        else if scheme = [] then none
        else some ⟨[], [], query⟩

section Encoding

theorem unescape_cons_ne {b : Byte} (hb : b ≠ byte '%') (rest : Bytes) :
    unescape (b :: rest) = (unescape rest).map (b :: ·) := by
  rcases rest with _ | ⟨x, _ | ⟨y, tail⟩⟩ <;> simp [unescape, hb]

theorem unescape_percent (high low : Byte) (tail : Bytes) :
    unescape (byte '%' :: high :: low :: tail) =
      (unhex high).bind fun h => (unhex low).bind fun l => (unescape tail).map (Fin.ofNat 256 (16 * h + l) :: ·) := by
  rw [unescape, if_pos rfl]
  cases unhex high <;> cases unhex low <;> cases unescape tail <;> rfl

theorem shouldEscape_percent : shouldEscape (byte '%') = true := by decide

theorem unhex_upperhex : ∀ b : Byte, unhex (upperhex (b.val / 16)) = some (b.val / 16) ∧
    unhex (upperhex (b.val % 16)) = some (b.val % 16) := by
  decide +kernel

/-- What `escape` made of a path is read back. -/
theorem unescape_escape (s : Bytes) : unescape (escape s) = some s := by
  induction s with
  | nil => rfl
  | cons b s ih =>
    unfold escape at ih ⊢
    rw [List.flatMap_cons]
    split
    · obtain ⟨hhigh, hlow⟩ := unhex_upperhex b
      have hb : Fin.ofNat 256 (16 * (b.val / 16) + b.val % 16) = b := by
        rw [Nat.div_add_mod]
        exact Fin.ofNat_val_eq_self b
      rw [List.cons_append, List.cons_append, List.cons_append, List.nil_append, unescape_percent, hhigh, hlow]
      simp only [Option.bind_some, ih, Option.map_some, hb]
    · rename_i hplain
      have hne : b ≠ byte '%' := by
        rintro rfl
        exact hplain shouldEscape_percent
      rw [List.singleton_append, unescape_cons_ne hne, ih]
      rfl

/-- A text without escapes is its own decoding. -/
theorem unescape_plain {s : Bytes} (h : byte '%' ∉ s) : unescape s = some s := by
  induction s with
  | nil => rfl
  | cons b s ih =>
    rw [List.mem_cons, not_or] at h
    rw [unescape_cons_ne (Ne.symm h.1), ih h.2]
    rfl

/-- Every escape makes the decoded text shorter. -/
theorem length_unescape {s p : Bytes} (h : unescape s = some p) :
    p.length ≤ s.length ∧ (byte '%' ∈ s → p.length + 2 ≤ s.length) := by
  fun_induction unescape s generalizing p with
  | case1 =>
    obtain rfl := Option.some.inj h
    exact ⟨Nat.le_refl _, fun hmem => nomatch hmem⟩
  | case2 high low tail ih =>
    simp only [Option.bind_eq_bind, Option.bind_eq_some_iff] at h
    obtain ⟨_, -, _, -, out, hout, hp⟩ := h
    obtain rfl := Option.some.inj hp
    have hle := (ih hout).1
    simp only [List.length_cons]
    omega
  | case3 rest hrest => cases h
  | case4 b rest hb ih =>
    obtain ⟨out, hout, rfl⟩ := Option.map_eq_some_iff.mp h
    obtain ⟨hle, hlt⟩ := ih hout
    simp only [List.length_cons, List.mem_cons]
    refine ⟨by omega, fun hmem => ?_⟩
    have hrest := hlt (hmem.resolve_left (Ne.symm hb))
    omega

theorem unescape_head {b : Byte} (hb : b ≠ byte '%') {s p : Bytes} (h : unescape (b :: s) = some p) :
    ∃ q, p = b :: q ∧ unescape s = some q := by
  rw [unescape_cons_ne hb, Option.map_eq_some_iff] at h
  obtain ⟨q, hq, rfl⟩ := h
  exact ⟨q, rfl, hq⟩

end Encoding

section Wire

/-- A byte that a request line can carry inside its path. -/
def wireByte (b : Byte) : Bool := !isControl b && b ≠ byte '?'

theorem wireByte_of_valid : ∀ b : Byte, validByte b = true → wireByte b = true := by
  decide +kernel

theorem wireByte_escape : ∀ b : Byte, (shouldEscape b = false → wireByte b = true) ∧
    wireByte (upperhex (b.val / 16)) = true ∧ wireByte (upperhex (b.val % 16)) = true := by
  decide +kernel

theorem wire_escape (s : Bytes) : (escape s).all wireByte = true := by
  induction s with
  | nil => rfl
  | cons b s ih =>
    unfold escape at ih ⊢
    rw [List.flatMap_cons, List.all_append, ih, Bool.and_true]
    obtain ⟨hplain, hhigh, hlow⟩ := wireByte_escape b
    split
    · rw [List.all_cons, List.all_cons, List.all_cons, hhigh, hlow]
      decide
    · rename_i hno
      rw [List.all_cons, hplain (Bool.not_eq_true _ ▸ hno)]
      rfl

/-- The paths the servers keep: the encoded text, where there is one, begins with a slash like the path. -/
structure Rooted (u : Url) : Prop where
  path : ∃ p, u.path = byte '/' :: p
  rawPath : u.rawPath = [] ∨ ∃ p, u.rawPath = byte '/' :: p

theorem escapedPath_rooted {u : Url} (h : Rooted u) :
    ∃ p, u.escapedPath = byte '/' :: p ∧ p.all wireByte = true ∧ unescape (byte '/' :: p) = some u.path := by
  obtain ⟨path, hpath⟩ := h.path
  unfold Url.escapedPath
  split
  · rename_i hraw
    obtain ⟨hne, hvalid, hdecoded⟩ := hraw
    obtain ⟨p, hp⟩ := h.rawPath.resolve_left hne
    rw [hp] at hvalid hdecoded ⊢
    refine ⟨p, rfl, ?_, hdecoded⟩
    rw [validEncoded, List.all_cons, Bool.and_eq_true] at hvalid
    rw [List.all_eq_true] at hvalid ⊢
    exact fun b hb => wireByte_of_valid b (hvalid.2 b hb)
  · have hstar : u.path ≠ bytes "*" := by
      rw [hpath]
      intro heq
      exact absurd (List.cons.inj heq).1 (by decide)
    rw [if_neg hstar, hpath]
    refine ⟨escape path, rfl, wire_escape path, ?_⟩
    exact unescape_escape (byte '/' :: path)

theorem cutQuery_append {p : Bytes} (h : p.all wireByte = true) (query : Option Bytes) :
    cutQuery (p ++ queryText query) = (p, query) := by
  have hall : ∀ b ∈ p, decide (b ≠ byte '?') = true := by
    intro b hb
    have hwire := List.all_eq_true.mp h b hb
    simp only [wireByte, Bool.and_eq_true] at hwire
    exact hwire.2
  unfold cutQuery
  rw [List.takeWhile_append_of_pos hall, List.dropWhile_append_of_pos hall]
  cases query with
  | none => simp [queryText]
  | some q => simp [queryText]

/-- A query that a request line can carry. -/
def WireQuery (query : Option Bytes) : Prop := ∀ q, query = some q → q.any isControl = false

theorem control_append {p : Bytes} (h : p.all wireByte = true) {query : Option Bytes} (hquery : WireQuery query) :
    (p ++ queryText query).any isControl = false := by
  rw [List.any_append, Bool.or_eq_false_iff]
  constructor
  · rw [List.any_eq_false]
    intro b hb
    have hwire := List.all_eq_true.mp h b hb
    simp only [wireByte, Bool.and_eq_true, Bool.not_eq_true'] at hwire
    simp [hwire.1]
  · cases query with
    | none => rfl
    | some q =>
      rw [queryText, List.any_cons, hquery q rfl]
      decide

/-- A request target that begins with a slash. -/
theorem parseRequest_rooted (validAuthority : Bytes → Bool) {p : Bytes} (h : p.all wireByte = true)
    {query : Option Bytes} (hquery : WireQuery query) :
    parseRequest validAuthority (byte '/' :: p ++ queryText query) = setPath (byte '/' :: p) query := by
  have hwire : (byte '/' :: p).all wireByte = true := by
    rw [List.all_cons, h]
    decide
  have hstar : byte '/' :: p ++ queryText query ≠ bytes "*" := by
    intro heq
    exact absurd (List.cons.inj heq).1 (by decide)
  have hscheme : getScheme (byte '/' :: p ++ queryText query) = some ([], byte '/' :: p ++ queryText query) := by
    unfold getScheme
    rw [List.cons_append, List.dropWhile_cons_of_neg (by decide)]
    exact if_neg (by decide)
  have hsent : ¬ ((byte '/' :: p ++ queryText query).any isControl = true ∨ byte '/' :: p ++ queryText query = []) := by
    rw [control_append hwire hquery]
    exact fun h => h.elim nofun nofun
  unfold parseRequest
  rw [if_neg hsent, if_neg hstar, hscheme]
  dsimp only
  rw [cutQuery_append hwire query]
  simp

theorem setPath_path {p : Bytes} {query : Option Bytes} {u : Url} (h : setPath p query = some u) :
    unescape p = some u.path := by
  obtain ⟨path, hpath, rfl⟩ := Option.map_eq_some_iff.mp h
  exact hpath

/-- What is sent of a rooted path is received as that path. -/
theorem received_rooted (validAuthority : Bytes → Bool) {u : Url} (h : Rooted u) (hquery : WireQuery u.query) :
    ∃ u', parseRequest validAuthority u.requestURI = some u' ∧ u'.path = u.path := by
  obtain ⟨p, hp, hwire, hdecoded⟩ := escapedPath_rooted h
  have huri : u.requestURI = byte '/' :: p ++ queryText u.query := by
    unfold Url.requestURI
    rw [hp, if_neg nofun]
  rw [huri, parseRequest_rooted validAuthority hwire hquery, setPath, hdecoded]
  exact ⟨_, rfl, rfl⟩

theorem rooted_setPath {p : Bytes} {query : Option Bytes} {u : Url} (h : setPath (byte '/' :: p) query = some u) :
    Rooted u := by
  obtain ⟨path, hpath, rfl⟩ := Option.map_eq_some_iff.mp h
  obtain ⟨q, rfl, -⟩ := unescape_head (by decide) hpath
  refine ⟨⟨q, rfl⟩, ?_⟩
  dsimp only
  split
  · exact .inl rfl
  · exact .inr ⟨p, rfl⟩

/-- Decoding does not read across a slash. -/
theorem unescape_cut (a : Bytes) {b p : Bytes} (h : unescape (a ++ byte '/' :: b) = some p) :
    ∃ q, unescape (byte '/' :: b) = some q ∧ q.length ≤ p.length := by
  have hslash : unhex (byte '/') = none := by decide
  fun_induction unescape a generalizing p with
  | case1 => exact ⟨p, h, Nat.le_refl _⟩
  | case2 high low tail ih =>
    rw [List.cons_append, List.cons_append, List.cons_append, unescape_percent] at h
    simp only [Option.bind_eq_some_iff, Option.map_eq_some_iff] at h
    obtain ⟨_, -, _, -, out, hout, rfl⟩ := h
    obtain ⟨q, hq, hle⟩ := ih hout
    exact ⟨q, hq, Nat.le_succ_of_le hle⟩
  | case3 rest hrest =>
    rcases rest with _ | ⟨x, _ | ⟨y, tail⟩⟩
    · rw [List.cons_append, List.nil_append] at h
      rcases b with _ | ⟨z, b⟩
      · simp [unescape] at h
      · rw [unescape_percent, hslash] at h
        cases h
    · rw [List.cons_append, List.cons_append, List.nil_append, unescape_percent, hslash] at h
      cases hx : unhex x <;> rw [hx] at h <;> cases h
    · exact absurd rfl (hrest x y tail)
  | case4 c rest hc ih =>
    rw [List.cons_append, unescape_cons_ne hc, Option.map_eq_some_iff] at h
    obtain ⟨out, hout, rfl⟩ := h
    obtain ⟨q, hq, hle⟩ := ih hout
    exact ⟨q, hq, Nat.le_succ_of_le hle⟩

theorem unescape_append_plain {a : Bytes} (ha : byte '%' ∉ a) {b p : Bytes} (h : unescape (a ++ b) = some p) :
    ∃ q, unescape b = some q ∧ p = a ++ q := by
  induction a generalizing p with
  | nil => exact ⟨p, h, rfl⟩
  | cons c a ih =>
    rw [List.mem_cons, not_or] at ha
    rw [List.cons_append, unescape_cons_ne (Ne.symm ha.1), Option.map_eq_some_iff] at h
    obtain ⟨out, hout, rfl⟩ := h
    obtain ⟨q, hq, rfl⟩ := ih ha.2 hout
    exact ⟨q, hq, rfl⟩

theorem getScheme_cases {s scheme rest : Bytes} (h : getScheme s = some (scheme, rest)) :
    scheme = [] ∧ rest = s ∨ scheme ≠ [] ∧ s = scheme ++ byte ':' :: rest ∧
      ∀ b ∈ scheme, isSchemeByte b = true := by
  have hsplit : s.takeWhile isSchemeByte ++ s.dropWhile isSchemeByte = s := List.takeWhile_append_dropWhile
  have hnone : some (([], s) : Bytes × Bytes) = some (scheme, rest) → scheme = [] ∧ rest = s := by
    intro heq
    obtain ⟨rfl, rfl⟩ := Prod.mk.inj (Option.some.inj heq)
    exact ⟨rfl, rfl⟩
  unfold getScheme at h
  split at h
  · exact .inl (hnone h)
  · rename_i b more hdrop
    split at h
    · rename_i hcolon
      split at h
      · cases h
      · rename_i first tail htake
        split at h
        · obtain ⟨rfl, rfl⟩ := Prod.mk.inj (Option.some.inj h)
          rw [htake, hdrop, hcolon] at hsplit
          refine .inr ⟨nofun, hsplit.symm, fun b hb => ?_⟩
          rw [← htake] at hb
          exact List.mem_takeWhile_imp hb
        · exact .inl (hnone h)
    · exact .inl (hnone h)

/-- The path after an authority is no longer than what was read with it. -/
theorem cutAuthority_path {authority p d : Bytes} (hp : unescape (cutAuthority authority).2 = some p)
    (hd : unescape (byte '/' :: byte '/' :: authority) = some d) : p.length ≤ d.length := by
  have hsplit : authority.takeWhile (· ≠ byte '/') ++ authority.dropWhile (· ≠ byte '/') = authority :=
    List.takeWhile_append_dropWhile
  unfold cutAuthority at hp
  cases hdrop : authority.dropWhile (· ≠ byte '/') with
  | nil =>
    rw [hdrop] at hp
    obtain rfl := Option.some.inj hp
    exact Nat.zero_le _
  | cons c b =>
    have hc : c = byte '/' := by
      have hhead := List.head?_dropWhile_not (· ≠ byte '/') authority
      rw [hdrop] at hhead
      simpa using hhead
    subst hc
    rw [hdrop] at hp hsplit
    rw [← hsplit] at hd
    obtain ⟨q, hq, hle⟩ := unescape_cut (byte '/' :: byte '/' :: authority.takeWhile (· ≠ byte '/')) hd
    rw [Option.some.inj (hp.symm.trans hq)]
    exact hle

/-- A target that does not begin with a slash is refused or loses what stands before its path. -/
theorem parseRequest_unrooted {validAuthority : Bytes → Bool} {p x : Bytes} {query : Option Bytes} {u : Url}
    (h : parseRequest validAuthority (p ++ queryText query) = some u) (hstar : p ++ queryText query ≠ bytes "*")
    (hslash : ∀ q, p ≠ byte '/' :: q) (hwire : p.all wireByte = true) (hx : unescape p = some x) :
    u.path.length < x.length := by
  unfold parseRequest at h
  split at h
  · cases h
  cases hscheme : getScheme (p ++ queryText query) with
  | none =>
    rw [hscheme] at h
    cases h
  | some cut =>
    obtain ⟨scheme, rest⟩ := cut
    rcases getScheme_cases hscheme with ⟨rfl, rfl⟩ | ⟨hne, heq, hplain⟩
    · -- without a scheme the target has to begin with a slash
      simp only [hscheme, cutQuery_append hwire query] at h
      cases p with
      | nil => simp at h
      | cons first more =>
        have hfirst : first ≠ byte '/' := fun heq => hslash more (by rw [heq])
        simp [hfirst] at h
    · -- the scheme is part of what was sent, and not of what is received
      obtain ⟨r, hcut, rfl⟩ : ∃ r, cutQuery rest = (r, query) ∧ p = scheme ++ byte ':' :: r := by
        have hwhole := cutQuery_append hwire query
        have hpos : ∀ b ∈ scheme ++ [byte ':'], decide (b ≠ byte '?') = true := by
          intro b hb
          rcases List.mem_append.mp hb with hb | hb
          · rw [decide_eq_true_iff]
            rintro rfl
            exact absurd (hplain _ hb) (by decide)
          · rw [List.mem_singleton.mp hb]
            decide
        have hsplit : scheme ++ byte ':' :: rest = (scheme ++ [byte ':']) ++ rest := by simp
        rw [heq, hsplit] at hwhole
        unfold cutQuery at hwhole ⊢
        rw [List.takeWhile_append_of_pos hpos, List.dropWhile_append_of_pos hpos, Prod.mk.injEq] at hwhole
        exact ⟨_, Prod.ext rfl hwhole.2, by rw [← hwhole.1]; simp⟩
      have hnoescape : byte '%' ∉ scheme := fun hmem => absurd (hplain _ hmem) (by decide)
      obtain ⟨q, hq, rfl⟩ := unescape_append_plain hnoescape hx
      rw [unescape_cons_ne (by decide), Option.map_eq_some_iff] at hq
      obtain ⟨d, hd, rfl⟩ := hq
      have hlength : d.length < (scheme ++ byte ':' :: d).length := by
        rw [List.length_append, List.length_cons]
        omega
      have hwhole : ∀ {v}, setPath r query = some v → v.path.length < (scheme ++ byte ':' :: d).length := by
        intro v hv
        rw [Option.some.inj ((setPath_path hv).symm.trans hd)]
        exact hlength
      simp only [hscheme, hcut] at h
      cases r with
      | nil =>
        simp only [if_neg hne, Option.some.injEq] at h
        subst h
        exact Nat.lt_of_le_of_lt (Nat.zero_le _) hlength
      | cons first more =>
        by_cases hfirst : first = byte '/'
        · subst hfirst
          simp only [if_true] at h
          split at h
          · rename_i second authority
            split at h
            · rename_i hsecond
              subst hsecond
              split at h
              · have hshort := cutAuthority_path (setPath_path h) hd
                omega
              · cases h
            · exact hwhole h
          · exact hwhole h
        · simp only [if_neg hfirst, if_neg hne, Option.some.injEq] at h
          subst h
          exact Nat.lt_of_le_of_lt (Nat.zero_le _) hlength

end Wire

end Chinwag.UrlPath

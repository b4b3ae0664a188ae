import Mathlib.Data.List.AList
import Mathlib.Data.List.Sort
import Mathlib.Logic.Function.Basic
import Std.Data.String.ToInt

/-!
# Redis keys, expiry and scripts

Typed values under string keys, each with an optional expiry instant in
milliseconds. A key past its instant reads as absent. A script is one step of the
server; a command that fails ends the script and keeps what it had already done.
-/
namespace Chinwag.Redis

inductive RedisError where
  | wrongType
  | notNumber
  | deadlineExceeded
  | unavailable
  deriving DecidableEq, Repr

abbrev Fields := AList fun _ : String => String

abbrev Scores := AList fun _ : String => Int

inductive Value where
  | hash (fields : Fields)
  | set (members : List String)
  | zset (scores : Scores)

structure Entry where
  value : Value
  expireAt : Option Nat

namespace Entry

/-- Expired means strictly past the instant. -/
def isLive (e : Entry) (now : Nat) : Bool :=
  match e.expireAt with
  | none => true
  | some t => decide (now ≤ t)

theorem isLive_iff (e : Entry) (now : Nat) : e.isLive now = true ↔ ∀ t, e.expireAt = some t → now ≤ t := by
  unfold isLive
  split
  · next h => simp [h]
  · next t h => simp [h]

/-- An entry that is live was live at every earlier instant. -/
theorem isLive_of_le {e : Entry} {now later : Nat} (hle : now ≤ later)
    (h : e.isLive later = true) : e.isLive now = true := by
  rw [isLive_iff] at h ⊢
  exact fun t ht => Nat.le_trans hle (h t ht)

end Entry

/-- What the server holds, expired entries included, and its clock. -/
structure Server where
  data : String → Option Entry
  now : Nat

namespace Server

def get (s : Server) (key : String) : Option Entry :=
  (s.data key).filter fun e => e.isLive s.now

def ttl (s : Server) (key : String) : Option Nat :=
  (s.get key).bind Entry.expireAt

def set (s : Server) (key : String) (e : Option Entry) : Server :=
  { s with data := Function.update s.data key e }

/-- Write a value under a key and keep the expiry a live key has. -/
def put (s : Server) (key : String) (v : Value) : Server :=
  s.set key (some ⟨v, s.ttl key⟩)

/-- Time passes; expired entries stay in `data` and stop being read. -/
def after (s : Server) (ms : Nat) : Server := { s with now := s.now + ms }

@[simp] theorem data_after (s : Server) (ms : Nat) : (s.after ms).data = s.data := rfl

@[simp] theorem now_after (s : Server) (ms : Nat) : (s.after ms).now = s.now + ms := rfl

@[simp] theorem now_set (s : Server) (key : String) (e : Option Entry) : (s.set key e).now = s.now := rfl

@[simp] theorem data_set_self (s : Server) (key : String) (e : Option Entry) :
    (s.set key e).data key = e := by simp [set]

theorem data_set_ne (s : Server) {key other : String} (h : other ≠ key) (e : Option Entry) :
    (s.set key e).data other = s.data other := by simp [set, h]

theorem data_set (s : Server) (key other : String) (e : Option Entry) :
    (s.set key e).data other = if other = key then e else s.data other := by
  simp [set, Function.update_apply]

theorem get_congr {s t : Server} {key : String} (hd : t.data key = s.data key) (hn : t.now = s.now) :
    t.get key = s.get key := by simp [get, hd, hn]

@[simp] theorem now_put (s : Server) (key : String) (v : Value) : (s.put key v).now = s.now := rfl

theorem get_set_ne (s : Server) {key other : String} (h : other ≠ key) (e : Option Entry) :
    (s.set key e).get other = s.get other :=
  get_congr (data_set_ne s h e) rfl

theorem get_eq_some {s : Server} {key : String} {e : Entry} :
    s.get key = some e ↔ s.data key = some e ∧ e.isLive s.now = true := by
  simp [get, Option.filter_eq_some_iff]

theorem get_eq_none {s : Server} {key : String} :
    s.get key = none ↔ ∀ e, s.data key = some e → e.isLive s.now = false := by
  simp [get, Option.filter_eq_none_iff]

end Server

/-- A script runs against the server and may end in an error part of the way. -/
abbrev Script (α : Type) := ExceptT RedisError (StateM Server) α

namespace Script

variable {α β : Type}

def of (f : Server → Except RedisError α × Server) : Script α := fun s => f s

def exec (m : Script α) (s : Server) : Except RedisError α × Server := m s

@[simp] theorem exec_of (f : Server → Except RedisError α × Server) (s : Server) :
    exec (of f) s = f s := rfl

@[simp] theorem exec_pure (a : α) (s : Server) : exec (pure a : Script α) s = (.ok a, s) := rfl

@[simp] theorem exec_throw (e : RedisError) (s : Server) :
    exec (throw e : Script α) s = (.error e, s) := rfl

theorem exec_bind (m : Script α) (f : α → Script β) (s : Server) :
    exec (m >>= f) s = match exec m s with
      | (.ok a, s') => exec (f a) s'
      | (.error e, s') => (.error e, s') := by
  unfold exec
  simp only [bind, ExceptT.bind, ExceptT.mk, StateT.bind]
  rcases m s with ⟨_ | _, _⟩ <;> rfl

theorem exec_bind_ok {m : Script α} (f : α → Script β) {s s' : Server} {a : α}
    (h : exec m s = (.ok a, s')) : exec (m >>= f) s = exec (f a) s' := by
  rw [exec_bind, h]

/-- What a sequence leaves behind: the first part may end it, or hand over a value. -/
theorem exec_bind_rule {P : Server → Prop} {m : Script α} {f : α → Script β} {s : Server}
    (herr : ∀ e t, exec m s = (.error e, t) → P t)
    (hok : ∀ a t, exec m s = (.ok a, t) → P (exec (f a) t).2) : P (exec (m >>= f) s).2 := by
  rw [exec_bind]
  cases h : exec m s with
  | mk reply t =>
    cases reply with
    | error e => exact herr e t h
    | ok a => exact hok a t h

theorem exec_ite (c : Prop) [Decidable c] (m n : Script α) (s : Server) :
    exec (if c then m else n) s = if c then exec m s else exec n s := by
  split <;> rfl

end Script

open Script

namespace Server

/-- The fields of a hash; an absent key reads as the empty hash. -/
def hashAt (s : Server) (key : String) : Except RedisError Fields :=
  match s.get key with
  | none => .ok ∅
  | some ⟨.hash f, _⟩ => .ok f
  | some _ => .error .wrongType

def setAt (s : Server) (key : String) : Except RedisError (List String) :=
  match s.get key with
  | none => .ok []
  | some ⟨.set members, _⟩ => .ok members
  | some _ => .error .wrongType

def zsetAt (s : Server) (key : String) : Except RedisError Scores :=
  match s.get key with
  | none => .ok ∅
  | some ⟨.zset scores, _⟩ => .ok scores
  | some _ => .error .wrongType

end Server

def setFields (f : Fields) (pairs : List (String × String)) : Fields :=
  pairs.foldl (fun f p => f.insert p.1 p.2) f

/-- `HSET key field value ...`. -/
def hset (key : String) (pairs : List (String × String)) : Script Unit := of fun s =>
  match s.hashAt key with
  | .error e => (.error e, s)
  | .ok f => (.ok (), s.put key (.hash (setFields f pairs)))

/-- `HGETALL key`. -/
def hgetall (key : String) : Script Fields := of fun s => (s.hashAt key, s)

/-- `SADD key member`. -/
def sadd (key member : String) : Script Unit := of fun s =>
  match s.setAt key with
  | .error e => (.error e, s)
  | .ok members => (.ok (), s.put key (.set (members.insert member)))

/-- `SMEMBERS key`, in the order the set is stored. -/
def smembers (key : String) : Script (List String) := of fun s => (s.setAt key, s)

/-- `ZADD key score member`; the score is the text the script passes. -/
def zadd (key : String) (score : Option Int) (member : String) : Script Unit := of fun s =>
  match score with
  | none => (.error .notNumber, s)
  | some n =>
    match s.zsetAt key with
    | .error e => (.error e, s)
    | .ok scores => (.ok (), s.put key (.zset (scores.insert member n)))

/-- `ZREM key member`. Removing the last member removes the key. -/
def zrem (key member : String) : Script Unit := of fun s =>
  match s.zsetAt key with
  | .error e => (.error e, s)
  | .ok scores =>
    if (scores.erase member).entries.isEmpty then (.ok (), s.set key none)
    else (.ok (), s.put key (.zset (scores.erase member)))

/-- `PEXPIRE key ms`. A non-positive time to live deletes the key. -/
def pexpire (key : String) (ms : Nat) : Script Unit := of fun s =>
  match s.get key with
  | none => (.ok (), s)
  | some e =>
    if ms = 0 then (.ok (), s.set key none)
    else (.ok (), s.set key (some { e with expireAt := some (s.now + ms) }))

/-- `EXPIRE key seconds`. -/
def expire (key : String) (seconds : Nat) : Script Unit := pexpire key (seconds * 1000)

/-- Members by descending score, ties by descending member, as `ZREVRANGEBYSCORE key +inf -inf`. -/
def revRange (scores : Scores) : List String :=
  (scores.entries.insertionSort fun a b => b.2 < a.2 ∨ (b.2 = a.2 ∧ b.1 ≤ a.1)).map Sigma.fst

def zrevrange (key : String) : Script (List String) := of fun s => ((s.zsetAt key).map revRange, s)

/-- `tonumber` of the decimal text of an integer. -/
def tonumber (text : String) : Option Int := text.toInt?

@[simp] theorem tonumber_toString (n : Int) : tonumber (toString n) = some n := by
  unfold tonumber
  rw [String.toInt?_eq_some_iff]
  cases n with
  | ofNat n => exact Or.inl ⟨n, Nat.toNat?_repr n, rfl⟩
  | negSucc n => exact Or.inr ⟨(n + 1).repr, rfl, n + 1, Nat.toNat?_repr _, rfl⟩

section Effects

variable {s : Server} {key : String}

@[simp] theorem set_set (s : Server) (key : String) (a b : Option Entry) :
    (s.set key a).set key b = s.set key b := by
  simp [Server.set]

theorem get_set_self (s : Server) (key : String) (v : Value) (x : Option Nat)
    (hx : ∀ t, x = some t → s.now ≤ t) : (s.set key (some ⟨v, x⟩)).get key = some ⟨v, x⟩ := by
  rw [Server.get_eq_some]
  exact ⟨Server.data_set_self s key _, (Entry.isLive_iff _ _).mpr hx⟩

theorem le_ttl {t : Nat} (h : s.ttl key = some t) : s.now ≤ t := by
  unfold Server.ttl at h
  obtain ⟨e, he, ht⟩ := Option.bind_eq_some_iff.mp h
  exact (Entry.isLive_iff e s.now).mp (Server.get_eq_some.mp he).2 t ht

theorem get_put_self (s : Server) (key : String) (v : Value) :
    (s.put key v).get key = some ⟨v, s.ttl key⟩ :=
  get_set_self s key v _ fun _ h => le_ttl h

theorem exec_hset {f : Fields} (h : s.hashAt key = .ok f) (pairs : List (String × String)) :
    exec (hset key pairs) s = (.ok (), s.put key (.hash (setFields f pairs))) := by
  simp [hset, h]

theorem exec_sadd {members : List String} (h : s.setAt key = .ok members) (member : String) :
    exec (sadd key member) s = (.ok (), s.put key (.set (members.insert member))) := by
  simp [sadd, h]

theorem exec_pexpire_put (s : Server) (key : String) (v : Value) {ms : Nat} (hms : 0 < ms) :
    exec (pexpire key ms) (s.put key v) = (.ok (), s.set key (some ⟨v, some (s.now + ms)⟩)) := by
  have hne : ms ≠ 0 := by omega
  simp only [pexpire, exec_of, get_put_self, hne, if_false]
  simp [Server.put]

theorem exec_hset_pexpire {α : Type} {f : Fields} (h : s.hashAt key = .ok f)
    (pairs : List (String × String)) {ms : Nat} (hms : 0 < ms) (k : Script α) :
    exec (hset key pairs >>= fun _ => pexpire key ms >>= fun _ => k) s =
      exec k (s.set key (some ⟨.hash (setFields f pairs), some (s.now + ms)⟩)) := by
  rw [exec_bind_ok _ (exec_hset h pairs), exec_bind_ok _ (exec_pexpire_put s key _ hms)]

theorem exec_sadd_expire {α : Type} {members : List String} (h : s.setAt key = .ok members)
    (member : String) {seconds : Nat} (hsec : 0 < seconds) (k : Script α) :
    exec (sadd key member >>= fun _ => expire key seconds >>= fun _ => k) s =
      exec k (s.set key (some ⟨.set (members.insert member), some (s.now + seconds * 1000)⟩)) := by
  have hms : 0 < seconds * 1000 := by omega
  rw [exec_bind_ok _ (exec_sadd h member), expire, exec_bind_ok _ (exec_pexpire_put s key _ hms)]

theorem hashAt_of_get {f : Fields} {x : Option Nat} (h : s.get key = some ⟨.hash f, x⟩) :
    s.hashAt key = .ok f := by simp [Server.hashAt, h]

theorem hashAt_of_data {f : Fields} {x : Option Nat} (h : s.data key = some ⟨.hash f, x⟩) :
    ((∀ t, x = some t → s.now ≤ t) ∧ s.hashAt key = .ok f) ∨
      ((∃ t, x = some t ∧ t < s.now) ∧ s.hashAt key = .ok ∅) := by
  by_cases hl : (Entry.mk (.hash f) x).isLive s.now = true
  · exact Or.inl ⟨(Entry.isLive_iff _ _).mp hl, hashAt_of_get (Server.get_eq_some.mpr ⟨h, hl⟩)⟩
  · have hg : s.get key = none := by
      rw [Server.get_eq_none]
      intro e he
      rw [h] at he
      cases he
      simpa using hl
    rw [Entry.isLive_iff] at hl
    push Not at hl
    exact Or.inr ⟨hl, by simp [Server.hashAt, hg]⟩

theorem setAt_of_get {members : List String} {x : Option Nat}
    (h : s.get key = some ⟨.set members, x⟩) : s.setAt key = .ok members := by simp [Server.setAt, h]

theorem hashAt_congr {s t : Server} {key : String} (h : t.get key = s.get key) :
    t.hashAt key = s.hashAt key := by simp [Server.hashAt, h]

theorem setAt_congr {s t : Server} {key : String} (h : t.get key = s.get key) :
    t.setAt key = s.setAt key := by simp [Server.setAt, h]

theorem get_of_data_none (h : s.data key = none) : s.get key = none := by simp [Server.get, h]

theorem hashAt_of_data_none (h : s.data key = none) : s.hashAt key = .ok ∅ := by
  simp [Server.hashAt, get_of_data_none h]

theorem setAt_of_data_none (h : s.data key = none) : s.setAt key = .ok [] := by
  simp [Server.setAt, get_of_data_none h]

/-- The readable fields of a hash, when the key reads as one. -/
theorem hashAt_ok {f : Fields} (h : s.hashAt key = .ok f) :
    (s.get key = none ∧ f = ∅) ∨ ∃ x, s.get key = some ⟨.hash f, x⟩ := by
  unfold Server.hashAt at h
  split at h
  · next hg => exact Or.inl ⟨hg, by cases h; rfl⟩
  · next g x hg => cases h; exact Or.inr ⟨x, hg⟩
  · cases h

theorem setAt_ok {members : List String} (h : s.setAt key = .ok members) :
    (s.get key = none ∧ members = []) ∨ ∃ x, s.get key = some ⟨.set members, x⟩ := by
  unfold Server.setAt at h
  split at h
  · next hg => exact Or.inl ⟨hg, by cases h; rfl⟩
  · next g x hg => cases h; exact Or.inr ⟨x, hg⟩
  · cases h

/-- A sorted set that never expires: absent, or present without an expiry. -/
def IsIndex (s : Server) (key : String) : Prop :=
  s.data key = none ∨ ∃ scores, s.data key = some ⟨.zset scores, none⟩

def indexOf (s : Server) (key : String) : Scores :=
  match s.data key with
  | some ⟨.zset scores, _⟩ => scores
  | _ => ∅

def setIndex (s : Server) (key : String) (scores : Scores) : Server :=
  s.set key (if scores.entries.isEmpty then none else some ⟨.zset scores, none⟩)

theorem IsIndex.zsetAt (h : IsIndex s key) : s.zsetAt key = .ok (indexOf s key) := by
  rcases h with h | ⟨scores, h⟩
  · simp [Server.zsetAt, indexOf, get_of_data_none h, h]
  · have hg : s.get key = some ⟨.zset scores, none⟩ := Server.get_eq_some.mpr ⟨h, rfl⟩
    simp [Server.zsetAt, indexOf, hg, h]

theorem IsIndex.ttl (h : IsIndex s key) : s.ttl key = none := by
  rcases h with h | ⟨scores, h⟩
  · simp [Server.ttl, get_of_data_none h]
  · have hg : s.get key = some ⟨.zset scores, none⟩ := Server.get_eq_some.mpr ⟨h, rfl⟩
    simp [Server.ttl, hg]

theorem IsIndex.congr {s t : Server} {key : String} (hd : t.data key = s.data key)
    (h : IsIndex s key) : IsIndex t key := by
  unfold IsIndex at h ⊢
  rwa [hd]

theorem isIndex_setIndex (s : Server) (key : String) (scores : Scores) :
    IsIndex (setIndex s key scores) key := by
  unfold IsIndex setIndex
  rw [Server.data_set_self]
  split
  · exact Or.inl rfl
  · exact Or.inr ⟨scores, rfl⟩

theorem indexOf_setIndex (s : Server) (key : String) (scores : Scores) :
    indexOf (setIndex s key scores) key = scores := by
  unfold indexOf setIndex
  rw [Server.data_set_self]
  by_cases h : scores.entries.isEmpty = true
  · rw [if_pos h]
    apply AList.ext
    simpa using h.symm
  · rw [if_neg h]

theorem IsIndex.exec_zadd (h : IsIndex s key) (n : Int) (member : String) :
    exec (zadd key (some n) member) s =
      (.ok (), s.set key (some ⟨.zset ((indexOf s key).insert member n), none⟩)) := by
  simp [zadd, h.zsetAt, Server.put, h.ttl]

theorem IsIndex.exec_zrem (h : IsIndex s key) (member : String) :
    exec (zrem key member) s = (.ok (), setIndex s key ((indexOf s key).erase member)) := by
  simp only [zrem, exec_of, h.zsetAt, setIndex, Server.put, h.ttl]
  split <;> rfl

theorem exec_bind_eq_ok {α β : Type} {m : Script α} {f : α → Script β} {s t : Server} {b : β}
    (h : exec (m >>= f) s = (.ok b, t)) : ∃ a s', exec m s = (.ok a, s') ∧ exec (f a) s' = (.ok b, t) := by
  rw [exec_bind] at h
  cases hm : exec m s with
  | mk reply s' =>
    rw [hm] at h
    cases reply with
    | error e => cases h
    | ok a => exact ⟨a, s', rfl, h⟩

/-- A removal that succeeds leaves no such member. -/
theorem not_mem_of_zrem {member : String} {t : Server} (h : exec (zrem key member) s = (.ok (), t)) :
    member ∉ indexOf t key := by
  simp only [zrem, exec_of] at h
  split at h
  · cases h
  · split at h
    · cases h
      simp [indexOf]
    · cases h
      simp [indexOf, Server.put, AList.mem_erase]

end Effects

@[simp] theorem lookup_setFields_nil (f : Fields) (name : String) :
    (setFields f []).lookup name = f.lookup name := rfl

@[simp] theorem lookup_setFields_cons (f : Fields) (p : String × String)
    (pairs : List (String × String)) (name : String) :
    (setFields f (p :: pairs)).lookup name = (setFields (f.insert p.1 p.2) pairs).lookup name := rfl

theorem mem_revRange {scores : Scores} {member : String} :
    member ∈ revRange scores ↔ member ∈ scores := by
  unfold revRange
  rw [List.mem_map, AList.mem_keys, AList.keys, List.keys, List.mem_map]
  simp only [List.mem_insertionSort]

/-- A Lua table of replies ends at its first nil. -/
def luaArray : List (Option String) → List String
  | some a :: rest => a :: luaArray rest
  | _ => []

end Chinwag.Redis

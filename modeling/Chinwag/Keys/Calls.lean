import Chinwag.Keys.Invariant

/-!
# Every call meets its guarantees

Call by call: what a rotation inserts is well formed and follows its own `UPDATE`, what
`LoadJWKS` stores was made from its last read of the table, and tokens are signed with the key
of a row.
-/
namespace Chinwag.Keys

open Program Transition
open Users (DbError)

variable {L : KeyLib} {s t u : KeyState L} {i : Nat}

abbrev Keeps {α : Type} (i : Nat) (Q : α → KeyState L → Prop) (p : KeyProg L α) (s : KeyState L) : Prop :=
  Safe (keySemantics L) (keyContract L) i Q p s

/-- Call `i` has neither started anew nor read the table in between. -/
structure Since (i : Nat) (s t : KeyState L) : Prop where
  table : Descends s.table t.table
  now : s.now ≤ t.now
  started : t.started i = s.started i
  loaded : t.loaded i = s.loaded i

/-- The same, and no transaction is open. -/
def Calm (i : Nat) (s t : KeyState L) : Prop := Since i s t ∧ t.txs i = none

def Quiet : KeyCmd L → Prop
  | .arrive _ => False
  | .load => False
  | _ => True

theorem Since.refl (i : Nat) (s : KeyState L) : Since i s s := ⟨.refl _, Nat.le_refl _, rfl, rfl⟩

theorem Since.trans (h₁ : Since i s t) (h₂ : Since i t u) : Since i s u :=
  ⟨h₁.table.trans h₂.table, Nat.le_trans h₁.now h₂.now, h₂.started.trans h₁.started,
    h₂.loaded.trans h₁.loaded⟩

theorem Undisturbed.since (h : Undisturbed i s t) : Since i s t := ⟨h.table, h.now, h.started, h.loaded⟩

theorem Undisturbed.idle (h : Undisturbed i s t) (hs : s.txs i = none) : t.txs i = none := by
  cases h.tx with
  | inl heq => exact heq.trans hs
  | inr hnone => exact hnone

theorem exec_since {c : KeyCmd L} {r : KeyReply L c} (hs : KeyInv s) (h : Exec i c s r t)
    (hc : Quiet c) : Since i s t := by
  have hd := exec_descends hs h
  cases h with
  | arrive => exact hc.elim
  | load => exact hc.elim
  | getVersion => exact .refl i s
  | getActiveKey => exact .refl i s
  | noActiveKey => exact .refl i s
  | newV7 => exact ⟨hd, Nat.le_refl _, rfl, rfl⟩
  | generateKey => exact .refl i s
  | now => exact .refl i s
  | begin => exact ⟨hd, Nat.le_refl _, rfl, rfl⟩
  | scan => exact ⟨hd, Nat.le_refl _, rfl, rfl⟩
  | deactivate => exact ⟨hd, Nat.le_refl _, rfl, rfl⟩
  | insert => exact ⟨hd, Nat.le_refl _, rfl, rfl⟩
  | insertRefused => exact .refl i s
  | commit => exact ⟨hd, Nat.le_refl _, rfl, rfl⟩
  | commitLost => exact ⟨hd, Nat.le_refl _, rfl, rfl⟩
  | commitFailed => exact ⟨hd, Nat.le_refl _, rfl, rfl⟩
  | rollback => exact ⟨hd, Nat.le_refl _, rfl, rfl⟩
  | expire => exact ⟨hd, Nat.le_refl _, rfl, rfl⟩
  | expireLost => exact ⟨hd, Nat.le_refl _, rfl, rfl⟩
  | memory => exact .refl i s
  | store => exact ⟨hd, Nat.le_refl _, rfl, rfl⟩
  | serve => exact ⟨hd, Nat.le_refl _, rfl, rfl⟩
  | sign => exact ⟨hd, Nat.le_refl _, rfl, rfl⟩
  | failed => exact .refl i s

/-- Only `begin` opens a transaction. -/
theorem exec_idle {c : KeyCmd L} {r : KeyReply L c} (hc : c ≠ .begin) (hidle : s.txs i = none)
    (h : Exec i c s r t) : t.txs i = none := by
  have hself : ∀ tx, (s.setTx i tx).txs i = tx := fun tx => Function.update_self _ _ _
  cases h with
  | begin => exact absurd rfl hc
  | deactivate htx =>
    rw [hidle] at htx
    cases htx
  | insert htx =>
    rw [hidle] at htx
    cases htx
  | commit => exact Function.update_self _ _ _
  | commitLost => exact Function.update_self _ _ _
  | commitFailed => exact hself none
  | rollback => exact hself none
  | arrive => exact hidle
  | load => exact hidle
  | getVersion => exact hidle
  | getActiveKey => exact hidle
  | noActiveKey => exact hidle
  | newV7 => exact hidle
  | generateKey => exact hidle
  | now => exact hidle
  | scan => exact hidle
  | insertRefused => exact hidle
  | expire => exact hidle
  | expireLost => exact hidle
  | memory => exact hidle
  | store => exact hidle
  | serve => exact hidle
  | sign => exact hidle
  | failed => exact hidle

section Rules

variable {α β ε : Type} {R : β → KeyState L → Prop}

/-- A command of a call that has no transaction open. -/
theorem keeps_call {c : KeyCmd L} {next : KeyReply L c → KeyProg L β} (hidle : s.txs i = none)
    (hc : Quiet c ∧ c ≠ .begin) (hg : ∀ t, KeyInv t → Calm i s t → Guarantee i c t)
    (hnext : ∀ r t u, KeyInv t → Since i s t → Exec i c t r u → Calm i s u → Keeps i R (next r) u) :
    Keeps i R (perform c >>= next) s := by
  intro t ht hrely
  have hcalm : Calm i s t := ⟨hrely.since, hrely.idle hidle⟩
  refine ⟨hg t ht hcalm, ?_⟩
  intro r u hexec _
  refine hnext r t u ht hcalm.1 hexec ?_
  exact ⟨hcalm.1.trans (exec_since ht hexec hc.1), exec_idle hc.2 hcalm.2 hexec⟩

/-- A command whose answer does not matter. -/
theorem keeps_ask {c : KeyCmd L} {next : KeyReply L c → KeyProg L β} (hidle : s.txs i = none)
    (hc : Quiet c ∧ c ≠ .begin) (hg : ∀ t, Guarantee i c t)
    (hnext : ∀ r u, Calm i s u → Keeps i R (next r) u) : Keeps i R (perform c >>= next) s :=
  keeps_call hidle hc (fun t _ _ => hg t) fun r _ u _ _ _ hcalm => hnext r u hcalm

theorem keeps_attempt {p : KeyProg L (Except ε α)} {next : α → KeyProg L (Except ε β)}
    {Q : Except ε α → KeyState L → Prop} {R : Except ε β → KeyState L → Prop} (hp : Keeps i Q p s)
    (herr : ∀ e t, Q (.error e) t → R (.error e) t)
    (hok : ∀ a t, Q (.ok a) t → Keeps i R (next a) t) : Keeps i R (attempt p next) s := by
  refine hp.bind ?_
  intro r t hr
  cases r with
  | error e => exact herr e t hr
  | ok a => exact hok a t hr

theorem keeps_ofDb {p : KeyProg L (Except DbError α)} {Q : Except DbError α → KeyState L → Prop}
    {R : KeyResult α → KeyState L → Prop} (hp : Keeps i Q p s)
    (herr : ∀ e t, Q (.error e) t → R (.error (.db e)) t) (hok : ∀ a t, Q (.ok a) t → R (.ok a) t) :
    Keeps i R (ofDb p) s := by
  refine hp.bind ?_
  intro r t hr
  cases r with
  | error e => exact herr e t hr
  | ok a => exact hok a t hr

theorem Calm.after {v : KeyState L} (h₁ : Calm i s t) (h₂ : Calm i t v) : Calm i s v :=
  ⟨h₁.1.trans h₂.1, h₂.2⟩

theorem Calm.start (h : s.txs i = none) : Calm i s s := ⟨.refl i s, h⟩

end Rules

section Rotation

/-- While a rotation is under way: its transaction, unless its session has died. -/
def During (i : Nat) (s : KeyState L) (P : Tx → Prop) (t : KeyState L) : Prop :=
  Since i s t ∧ ∀ tx, t.txs i = some tx → P tx

theorem During.undisturbed {P : Tx → Prop} (h : During i s P t) (hr : Undisturbed i t u) :
    During i s P u := by
  refine ⟨h.1.trans hr.since, ?_⟩
  intro tx htx
  cases hr.tx with
  | inl heq => exact h.2 tx (heq.symm.trans htx)
  | inr hnone =>
    rw [hnone] at htx
    cases htx

theorem keeps_during {c : KeyCmd L} {P R : Tx → Prop} {Q : KeyReply L c → KeyState L → Prop}
    {v : KeyState L} (hv : During i s P v) (hc : Quiet c)
    (hg : ∀ t, During i s P t → Guarantee i c t)
    (htx : ∀ r t u, During i s P t → Exec i c t r u → ∀ tx, u.txs i = some tx → R tx)
    (hQ : ∀ r u, During i s R u → Q r u) : Keeps i Q (perform c) v := by
  intro t ht hrely
  have hdur := hv.undisturbed hrely
  refine ⟨hg t hdur, ?_⟩
  intro r u hexec _
  exact hQ r u ⟨hdur.1.trans (exec_since ht hexec hc), htx r t u hdur hexec⟩

theorem setTx_self {tx : Option Tx} : (s.setTx i tx).txs i = tx := Function.update_self _ _ _

theorem keeps_rotateRows {row : SigningKeyEntity} {v : KeyState L} (hrow : WellFormed L row)
    (hact : row.status = .Active) (hv : During i s (· = ⟨none, [], none⟩) v) :
    Keeps i (fun _ t => Since i s t) (rotateRows row) v := by
  have hscan : Keeps i (fun _ t => During i s (fun tx => tx.inserted = none) t)
      (perform (.scan row.type)) v := by
    refine keeps_during (R := fun tx => tx.inserted = none) hv trivial (fun t ht => ht.2) ?_
      fun _ _ h => h
    intro r t u ht hexec tx htx
    have hsame : u.txs i = t.txs i := by
      cases hexec with
      | scan => rfl
      | failed => rfl
    rw [ht.2 tx (hsame.symm.trans htx)]
  refine keeps_attempt hscan (fun e t ht => ht.1) ?_
  intro _ w hw
  have hdeactivate : Keeps i (fun r t => During i s (fun tx => ∀ a, r = .ok a → tx.updated = some row.type) t)
      (perform (.deactivate row.type)) w := by
    intro t ht hrely
    have hdur := hw.undisturbed hrely
    refine ⟨hdur.2, ?_⟩
    intro r u hexec _
    refine ⟨hdur.1.trans (exec_since ht hexec trivial), ?_⟩
    intro tx htx a hr
    cases hexec with
    | deactivate h hlock =>
      rw [setTx_self] at htx
      obtain rfl := Option.some.inj htx
      rfl
    | failed h =>
      rw [show r = _ from h] at hr
      cases hr
  refine keeps_attempt hdeactivate (fun e t ht => ht.1) ?_
  intro a x hx
  refine keeps_during (P := fun tx => tx.updated = some row.type) (R := fun _ => True) ?_ trivial
    (fun t ht => ⟨hrow, hact, ht.2⟩) (fun _ _ _ _ _ _ _ => trivial) fun _ _ h => h.1
  exact ⟨hx.1, fun tx htx => hx.2 tx htx a rfl⟩

/-- The transaction of a rotation is closed in every case. -/
theorem keeps_close {c : KeyCmd L} (hc : c = .commit ∨ c = .rollback) {v : KeyState L}
    (hv : Since i s v) : Keeps i (fun _ t => Calm i s t) (perform c) v := by
  intro t ht hrely
  have hsince : Since i s t := hv.trans hrely.since
  rcases hc with rfl | rfl
  · refine ⟨trivial, ?_⟩
    intro r u hexec _
    refine ⟨hsince.trans (exec_since ht hexec trivial), ?_⟩
    cases hexec with
    | commit => exact Function.update_self _ _ _
    | commitLost => exact Function.update_self _ _ _
    | commitFailed => exact setTx_self
    | failed h => exact h.elim
  · refine ⟨trivial, ?_⟩
    intro r u hexec _
    refine ⟨hsince.trans (exec_since ht hexec trivial), ?_⟩
    cases hexec with
    | rollback => exact setTx_self
    | failed h => exact h.elim

theorem keeps_rotateInTx {row : SigningKeyEntity} (hrow : WellFormed L row) (hact : row.status = .Active)
    (hidle : s.txs i = none) : Keeps i (fun _ t => Calm i s t) (rotateInTx row) s := by
  have hbegin : Keeps i (fun r t => (∃ e, r = .error e ∧ Calm i s t) ∨
      (r = .ok () ∧ During i s (· = ⟨none, [], none⟩) t)) (perform .begin) s := by
    intro t ht hrely
    refine ⟨trivial, ?_⟩
    intro r u hexec _
    have hsince := hrely.since.trans (exec_since ht hexec trivial)
    cases hexec with
    | begin =>
      refine Or.inr ⟨rfl, hsince, ?_⟩
      intro tx htx
      rw [setTx_self] at htx
      exact (Option.some.inj htx).symm
    | failed h => exact Or.inl ⟨_, h, hsince, hrely.idle hidle⟩
  refine keeps_attempt hbegin ?_ ?_
  · intro e t ht
    obtain ⟨_, -, hcalm⟩ | ⟨hok, -⟩ := ht
    · exact hcalm
    · cases hok
  · intro a t ht
    obtain ⟨_, herr, -⟩ | ⟨-, hdur⟩ := ht
    · cases herr
    · refine (keeps_rotateRows hrow hact hdur).bind ?_
      intro r v hv
      cases r with
      | error e => exact (keeps_close (Or.inr rfl) hv).bind fun _ _ h => h
      | ok _ => exact keeps_close (Or.inl rfl) hv

theorem newKey_wellFormed {priv : L.PrivateKey} {pubText privText : String} (kid : Uuid) (kt : KeyType)
    (now : Nat) (hpub : L.encodePublicKey (L.publicKey priv) = .ok pubText)
    (hpriv : L.encodePrivateKey priv = .ok privText) : WellFormed L (newKey kid kt pubText privText now) :=
  ⟨kid.text_ne_empty, ⟨priv, hpriv, hpub⟩, fun h => nomatch h⟩

theorem keeps_rotate (kt : KeyType) (hidle : s.txs i = none) :
    Keeps i (fun _ t => Calm i s t) (rotate kt) s := by
  refine keeps_ask hidle ⟨trivial, by simp⟩ (fun _ => trivial) ?_
  intro kid t ht
  refine keeps_ask ht.2 ⟨trivial, by simp⟩ (fun _ => trivial) ?_
  intro key u hu
  have hsu : Calm i s u := ht.after hu
  cases key with
  | error text => exact hsu
  | ok priv =>
    cases hpub : L.encodePublicKey (L.publicKey priv) with
    | error text =>
      simp only [hpub]
      exact hsu
    | ok pubText =>
      cases hpriv : L.encodePrivateKey priv with
      | error text =>
        simp only [hpub, hpriv]
        exact hsu
      | ok privText =>
        simp only [hpub, hpriv]
        refine keeps_ask hsu.2 ⟨trivial, by simp⟩ (fun _ => trivial) ?_
        intro now v hv
        have hsv : Calm i s v := hsu.after hv
        have hrow := newKey_wellFormed kid kt now hpub hpriv
        refine keeps_ofDb (keeps_rotateInTx hrow rfl hsv.2) ?_ ?_
        · exact fun _ w hw => hsv.after hw
        · exact fun _ w hw => hsv.after hw

/-- A rotation whose outcome is passed on or turned into another answer. -/
theorem keeps_rotate_then {α : Type} (kt : KeyType) {next : Unit → KeyProg L (KeyResult α)}
    (hidle : s.txs i = none) (hnext : ∀ t, Calm i s t → Keeps i (fun _ u => Calm i s u) (next ()) t) :
    Keeps i (fun _ t => Calm i s t) (attempt (rotate kt) next) s :=
  keeps_attempt (keeps_rotate kt hidle) (fun _ _ h => h) fun _ t ht => hnext t ht

theorem keeps_expireActiveKey (kt : KeyType) (hidle : s.txs i = none) :
    Keeps i (fun _ t => Calm i s t) (expireActiveKey kt) s := by
  have hscan : Keeps i (fun _ t => Calm i s t) (perform (.scan kt)) s := by
    intro t ht hrely
    have hnone : t.txs i = none := hrely.idle hidle
    refine ⟨?_, ?_⟩
    · intro tx htx
      rw [hnone] at htx
      cases htx
    · intro r u hexec _
      exact ⟨hrely.since.trans (exec_since ht hexec trivial), exec_idle (by simp) hnone hexec⟩
  refine keeps_attempt hscan (fun _ _ h => h) ?_
  intro _ t ht v hv hrely
  refine ⟨trivial, ?_⟩
  intro r u hexec _
  have hnone : v.txs i = none := hrely.idle ht.2
  exact ⟨(ht.1.trans hrely.since).trans (exec_since hv hexec trivial), exec_idle (by simp) hnone hexec⟩

end Rotation

section Loading

theorem keeps_ensureKeys (kts : List KeyType) (hidle : s.txs i = none) :
    Keeps i (fun _ t => Calm i s t) (ensureKeys kts) s := by
  induction kts generalizing s with
  | nil => exact .start hidle
  | cons kt rest ih =>
    refine keeps_ask hidle ⟨trivial, by simp⟩ (fun _ => trivial) ?_
    intro answer t ht
    have hrest : ∀ u, Calm i s u → Keeps i (fun _ v => Calm i s v) (ensureKeys rest) u :=
      fun u hu => (ih hu.2).mono fun _ v hv => hu.after hv
    have hrotate : Keeps i (fun _ v => Calm i s v) (attempt (rotate kt) fun _ => ensureKeys rest) t :=
      keeps_attempt (keeps_rotate kt ht.2) (fun _ _ h => ht.after h) fun _ u hu => hrest u (ht.after hu)
    cases answer with
    | ok k => exact hrest t ht
    | error e =>
      cases e with
      | noRows => exact hrotate
      | uniqueViolation => exact ht
      | unavailable => exact ht
      | lost => exact ht

theorem keeps_rotateIfNeeded (keys : List SigningKeyEntity) (kt : KeyType) (hidle : s.txs i = none) :
    Keeps i (fun _ t => Calm i s t) (rotateIfNeeded keys kt) s := by
  unfold rotateIfNeeded
  split
  · exact keeps_rotate_then kt hidle fun _ h => h
  · split
    · exact Calm.start hidle
    · refine keeps_ask hidle ⟨trivial, by simp⟩ (fun _ => trivial) ?_
      intro now t ht
      split
      · refine keeps_attempt (Q := fun _ u => Calm i s u) ?_ (fun _ _ h => h) ?_
        · exact keeps_ofDb (keeps_expireActiveKey kt ht.2) (fun _ _ h => ht.after h) fun _ _ h => ht.after h
        · intro _ u hu
          have hrotate : Keeps i (fun _ v => Calm i u v) (attempt (rotate kt) fun _ => return .ok true) u :=
            keeps_rotate_then kt hu.2 fun _ h => h
          exact hrotate.mono fun _ v hv => hu.after hv
      · exact ht

theorem keeps_rotateDue (keys : List SigningKeyEntity) (kts : List KeyType) (rotated : Bool)
    (hidle : s.txs i = none) : Keeps i (fun _ t => Calm i s t) (rotateDue keys kts rotated) s := by
  induction kts generalizing s rotated with
  | nil => exact .start hidle
  | cons kt rest ih =>
    refine keeps_attempt (keeps_rotateIfNeeded keys kt hidle) (fun _ _ h => h) ?_
    intro didRotate t ht
    exact (ih _ ht.2).mono fun _ u hu => ht.after hu

theorem CaughtUp.since (h : CaughtUp s i) (hst : Since i s t) : CaughtUp t i := by
  intro x hx kid hkid
  rw [hst.started] at hx
  rw [hst.loaded]
  exact h x hx kid hkid

/-- A table without a version has no rows, so no token was signed yet. -/
theorem caughtUp_of_noVersion (hs : KeyInv s) (h : s.table.getVersion = none) : CaughtUp s i := by
  intro x hx
  obtain ⟨k, hk, -⟩ := hs.issued x (hs.started i x hx)
  obtain ⟨v, hv⟩ := Option.ne_none_iff_exists'.mp (hs.rows k hk).updatedAt
  have hmem : v ∈ s.table.rows.filterMap SigningKeyEntity.updatedAt := List.mem_filterMap.mpr ⟨k, hk, hv⟩
  unfold KeyTable.getVersion at h
  rw [List.max?_eq_none_iff.mp h] at hmem
  cases hmem

theorem keeps_getVersion (hidle : s.txs i = none) :
    Keeps i (fun r t => t.txs i = none ∧ (r = .ok none → CaughtUp t i)) (ofDb (perform .getVersion)) s := by
  refine keeps_ofDb (Q := fun r t => t.txs i = none ∧ (r = .ok none → CaughtUp t i)) ?_
    (fun _ _ h => ⟨h.1, fun hr => nomatch hr⟩) ?_
  · intro t ht hrely
    refine ⟨trivial, ?_⟩
    intro r u hexec _
    refine ⟨exec_idle (by simp) (hrely.idle hidle) hexec, ?_⟩
    intro hr
    cases hexec with
    | getVersion => exact caughtUp_of_noVersion ht (Except.ok.inj hr)
    | failed h =>
      rw [show r = _ from h] at hr
      cases hr
  · intro a t ht
    exact ⟨ht.1, fun hr => ht.2 (by rw [Except.ok.inj hr])⟩

theorem keeps_versionOrSeed (hidle : s.txs i = none) :
    Keeps i (fun r t => t.txs i = none ∧ (r = .ok none → CaughtUp t i)) (versionOrSeed (L := L)) s := by
  refine keeps_attempt (keeps_getVersion hidle) (fun _ _ h => ⟨h.1, fun hr => nomatch hr⟩) ?_
  intro version t ht
  cases version with
  | some v => exact ⟨ht.1, fun hr => nomatch hr⟩
  | none =>
    refine keeps_attempt (keeps_ensureKeys keyTypes ht.1) (fun _ _ h => ⟨h.2, fun hr => nomatch hr⟩) ?_
    intro _ u hu
    exact keeps_getVersion hu.2

/-- The keys are those of the last table read of call `i`. -/
structure ReadOf (i : Nat) (keys : List SigningKeyEntity) (s : KeyState L) : Prop where
  aged : ∀ k ∈ keys, ∃ l ∈ s.table.rows, Ages k l
  complete : ∀ l ∈ s.table.rows, l.kid ∈ s.loaded i → l.status ≠ .Expired →
    ∃ k ∈ keys, Ages k l ∧ k.status ≠ .Expired

theorem Ages.unexpired {k l : SigningKeyEntity} (h : Ages k l) (hl : l.status ≠ .Expired) :
    k.status ≠ .Expired := by
  intro hk
  refine hl ?_
  rw [h.status (by rw [hk]; decide), hk]

theorem ReadOf.since {keys : List SigningKeyEntity} (h : ReadOf i keys s) (hs : KeyInv s)
    (hst : Since i s t) : ReadOf i keys t where
  aged k hk := by
    obtain ⟨l, hl, hage⟩ := h.aged k hk
    obtain ⟨m, hm, hage'⟩ := hst.table l hl
    exact ⟨m, hm, hage.trans hage'⟩
  complete m hm hkid hexp := by
    rw [hst.loaded] at hkid
    obtain ⟨l, hl, hage⟩ := hst.table.back hm (hs.loaded i _ hkid)
    obtain ⟨k, hk, hkl, hkexp⟩ := h.complete l hl (by rw [← hage.kid]; exact hkid) (hage.unexpired hexp)
    exact ⟨k, hk, hkl.trans hage, hkexp⟩

theorem readOf_load {keys : List SigningKeyEntity} (h : keys.Perm s.table.load) :
    ReadOf i keys (s.noteLoad i) where
  aged k hk := ⟨k, (mem_load.mp (h.mem_iff.mp hk)).1, .refl k⟩
  complete l hl _ hexp := ⟨l, h.mem_iff.mpr (mem_load.mpr ⟨hl, hexp⟩), .refl l, hexp⟩

theorem caughtUp_load (hs : KeyInv s) : CaughtUp (s.noteLoad i) i := by
  intro x hx kid hkid
  obtain ⟨k, hk, -, hsigned⟩ := hs.issued x (hs.started i x hx)
  have hloaded : (s.noteLoad i).loaded i = s.table.kids := Function.update_self _ _ _
  rw [hsigned.kid] at hkid
  obtain rfl := Option.some.inj hkid
  rw [hloaded]
  exact kid_mem hk

/-- What a set made from a read is worth, as long as the call reads nothing else. -/
theorem stored_ok {keys : List SigningKeyEntity} {set : JwkSet L} (h : ReadOf i keys s)
    (hset : toJWKSet L keys = .ok set) : Stems s.table set ∧ Covers s.table (s.loaded i) set := by
  constructor
  · intro e he
    obtain ⟨k, hk, htype, -, pub, hpub, rfl⟩ := (toJWKSet_ok hset e).mp he
    obtain ⟨l, hl, hage⟩ := h.aged k hk
    exact ⟨l, hl, hage.type.trans htype, hage.kid, by rw [hage.publicKey, hpub]⟩
  · intro l hl hkid htype hexp
    obtain ⟨k, hk, hage, hkexp⟩ := h.complete l hl hkid hexp
    have hktype : k.type = .Access := hage.type.symm.trans htype
    obtain ⟨pub, hpub⟩ := addKeys_decoded hset hk hktype hkexp
    refine ⟨⟨k.kid, "sig", "ES256", pub⟩, (toJWKSet_ok hset _).mpr ?_, hage.kid.symm⟩
    exact ⟨k, hk, hktype, hkexp, pub, hpub, rfl⟩

/-- The keys at hand are those of the last read, made in some earlier state. -/
def HasRead (i : Nat) (r : KeyResult (List SigningKeyEntity)) (t : KeyState L) : Prop :=
  t.txs i = none ∧ ∀ keys, r = .ok keys →
    ∃ t₀, KeyInv t₀ ∧ CaughtUp t₀ i ∧ ReadOf i keys t₀ ∧ Since i t₀ t

theorem keeps_load (hidle : s.txs i = none) : Keeps i (HasRead i) (ofDb (perform .load)) s := by
  refine keeps_ofDb (Q := fun r t => HasRead i (r.mapError .db) t) ?_ (fun _ _ h => h) fun _ _ h => h
  intro t ht hrely
  refine ⟨trivial, ?_⟩
  intro r u hexec hu
  refine ⟨exec_idle (by simp) (hrely.idle hidle) hexec, ?_⟩
  intro keys hr
  cases hexec with
  | load h =>
    obtain rfl := Except.ok.inj hr
    exact ⟨_, hu, caughtUp_load ht, readOf_load h, .refl i _⟩
  | failed h =>
    rw [show r = _ from h] at hr
    cases hr

theorem keeps_reload (n version : Nat) (hidle : s.txs i = none) :
    Keeps i (fun r t => t.txs i = none ∧ (r = .ok () → CaughtUp t i)) (reload (L := L) n version) s := by
  refine keeps_attempt (keeps_load hidle) (fun _ _ h => ⟨h.1, fun hr => nomatch hr⟩) ?_
  intro keys t ht
  refine keeps_attempt (Q := fun _ u => Calm i t u) (keeps_rotateDue keys keyTypes false ht.1)
    (fun _ _ h => ⟨h.2, fun hr => nomatch hr⟩) ?_
  intro rotated u hu
  have hagain : Keeps i (HasRead i) (if rotated then ofDb (perform .load) else return .ok keys) u := by
    split
    · exact keeps_load hu.2
    · refine ⟨hu.2, ?_⟩
      intro keys' hkeys
      obtain rfl := Except.ok.inj hkeys
      obtain ⟨t₀, hinv, hcaught, hread, hsince⟩ := ht.2 keys rfl
      exact ⟨t₀, hinv, hcaught, hread, hsince.trans hu.1⟩
  refine keeps_attempt hagain (fun _ _ h => ⟨h.1, fun hr => nomatch hr⟩) ?_
  intro keys' v hv
  obtain ⟨t₀, hinv, hcaught, hread, hsince⟩ := hv.2 keys' rfl
  split
  · exact ⟨hv.1, fun hr => nomatch hr⟩
  · next set hset =>
    refine keeps_call hv.1 ⟨trivial, by simp⟩ ?_ ?_
    · intro w _ hw
      exact stored_ok (hread.since hinv (hsince.trans hw.1)) hset
    · intro _ w x _ hw hexec hx
      exact ⟨hx.2, fun _ => hcaught.since (hsince.trans hx.1)⟩

theorem keeps_loadJWKS (n : Nat) (hidle : s.txs i = none) :
    Keeps i (fun r t => t.txs i = none ∧ (r = .ok () → CaughtUp t i)) (loadJWKS (L := L) n) s := by
  refine keeps_attempt (keeps_versionOrSeed hidle) (fun _ _ h => ⟨h.1, fun hr => nomatch hr⟩) ?_
  intro version t ht
  cases version with
  | none => exact ⟨ht.1, fun _ => ht.2 rfl⟩
  | some v =>
    refine keeps_ask ht.1 ⟨trivial, by simp⟩ (fun _ => trivial) ?_
    intro m u hu
    have hnever : ¬ (¬ m.version < v ∧ 0 < m.set.keys.length) := fun h => Nat.lt_irrefl 0 h.2
    rw [if_neg hnever]
    exact keeps_reload n v hu.2

theorem keeps_getJwkSet (n : Nat) (hidle : s.txs i = none) :
    Keeps i (fun _ _ => True) (getJwkSet (L := L) n) s := by
  refine keeps_attempt (keeps_loadJWKS n hidle) (fun _ _ _ => trivial) ?_
  intro a t ht
  have hcaught : CaughtUp t i := ht.2 rfl
  refine keeps_call ht.1 ⟨trivial, by simp⟩ (fun u _ hu => hcaught.since hu.1) ?_
  exact fun _ _ _ _ _ _ _ => trivial

end Loading

section Signing

/-- The key at hand is that of a row of its type. -/
def HasKey (i : Nat) (kt : KeyType) (r : KeyResult (SigningKey L)) (t : KeyState L) : Prop :=
  t.txs i = none ∧ ∀ key, r = .ok key → ∃ k ∈ t.table.rows, k.type = kt ∧ k.kid = key.kid ∧
    L.decodePrivateKey k.privateKey = .ok key.privateKey

theorem signingKey_of_ok {k : SigningKeyEntity} {key : SigningKey L}
    (h : signingKeyEntityToSigningKey L k = .ok key) : k.kid = key.kid ∧ k.type = key.type ∧
    L.decodePublicKey k.publicKey = .ok key.publicKey ∧ L.decodePrivateKey k.privateKey = .ok key.privateKey := by
  unfold signingKeyEntityToSigningKey at h
  split at h
  · cases h
  · next pub hpub =>
    split at h
    · cases h
    · next priv hpriv =>
      obtain rfl := Except.ok.inj h
      exact ⟨rfl, rfl, hpub, hpriv⟩

theorem keeps_activeKey (kt : KeyType) (hidle : s.txs i = none) :
    Keeps i (HasKey i kt) (attempt (ofDb (perform (.getActiveKey kt))) fun key =>
      return signingKeyEntityToSigningKey L key) s := by
  refine keeps_attempt (Q := fun r t => t.txs i = none ∧ ∀ k, r = .ok k → k ∈ t.table.rows ∧ k.type = kt)
    ?_ (fun _ _ h => ⟨h.1, fun _ hr => nomatch hr⟩) ?_
  · refine keeps_ofDb (Q := fun r t => t.txs i = none ∧ ∀ k, r = .ok k → k ∈ t.table.rows ∧ k.type = kt)
      ?_ (fun _ _ h => ⟨h.1, fun _ hr => nomatch hr⟩) ?_
    · intro t ht hrely
      refine ⟨trivial, ?_⟩
      intro r u hexec _
      refine ⟨exec_idle (by simp) (hrely.idle hidle) hexec, ?_⟩
      intro k hr
      cases hexec with
      | getActiveKey hk =>
        obtain rfl := Except.ok.inj hr
        obtain ⟨hmem, -, htype⟩ := mem_activeKeys.mp hk
        exact ⟨hmem, htype⟩
      | noActiveKey => cases hr
      | failed h =>
        rw [show r = _ from h] at hr
        cases hr
    · intro k t ht
      exact ⟨ht.1, fun k' hr => ht.2 k' (by rw [Except.ok.inj hr])⟩
  · intro k t ht
    refine ⟨ht.1, ?_⟩
    intro key hkey
    obtain ⟨hmem, htype⟩ := ht.2 k rfl
    obtain ⟨hkid, -, -, hpriv⟩ := signingKey_of_ok hkey
    exact ⟨k, hmem, htype, hkid, hpriv⟩

/-- A token signed at last with a key found before. -/
theorem keeps_sign {α : Type} {kt : KeyType} {tok : Token L} {next : Unit → KeyProg L α}
    {k : SigningKeyEntity} (hidle : s.txs i = none) (hk : k ∈ s.table.rows) (htype : k.type = kt)
    (hsigned : SignedBy k s.now kt tok) (hnext : ∀ u, Keeps i (fun _ _ => True) (next ()) u) :
    Keeps i (fun _ _ => True) (perform (.sign kt tok) >>= next) s := by
  refine keeps_call hidle ⟨trivial, by simp⟩ ?_ fun _ _ u _ _ _ _ => hnext u
  intro t _ ht
  have hgenuine : Genuine s.table s.now kt tok := ⟨k, hk, htype, hsigned⟩
  exact hgenuine.mono ht.1.table ht.1.now

theorem keeps_newAccessToken (userId role jkt : String) (hidle : s.txs i = none) :
    Keeps i (fun _ _ => True) (newAccessToken (L := L) userId role jkt) s := by
  refine keeps_attempt (keeps_activeKey .Access hidle) (fun _ _ _ => trivial) ?_
  intro key t ht
  obtain ⟨k, hk, htype, hkid, hpriv⟩ := ht.2 key rfl
  refine keeps_ask ht.1 ⟨trivial, by simp⟩ (fun _ => trivial) ?_
  intro issued u hu
  refine keeps_ask hu.2 ⟨trivial, by simp⟩ (fun _ => trivial) ?_
  intro signed v hv
  obtain ⟨l, hl, hage⟩ := (hu.after hv).1.table k hk
  refine keeps_sign hv.2 hl (hage.type.trans htype) ?_ fun _ => trivial
  rw [← hkid, ← hage.kid]
  exact .access (by rw [hage.privateKey]; exact hpriv)

theorem keeps_signWithActiveKey (ttl : Nat) {subject sid : String} (jkt : String) {key : SigningKey L}
    (jti : Uuid) (hsub : subject ≠ "") (hsid : sid ≠ "") (h : HasKey i .Refresh (.ok key) s) :
    Keeps i (fun _ _ => True) (signWithActiveKey ttl subject sid jkt key jti) s := by
  obtain ⟨k, hk, htype, hkid, hpriv⟩ := h.2 key rfl
  refine keeps_call h.1 ⟨trivial, by simp⟩ (fun _ _ _ => trivial) ?_
  intro now t u _ _ hexec hu
  have hnow : now ≤ u.now := by
    cases hexec with
    | now => exact Nat.le_refl _
    | failed h => exact h.elim
  obtain ⟨l, hl, hage⟩ := hu.1.table k hk
  cases hsign : signRefreshToken subject jti.text sid jkt key.privateKey key.kid now ttl with
  | error text => trivial
  | ok tok =>
    refine keeps_sign hu.2 hl (hage.type.trans htype) ?_ fun _ => trivial
    rw [← hkid, ← hage.kid] at hsign
    exact .refresh (by rw [hage.privateKey]; exact hpriv) hsign hsub jti.text_ne_empty hsid hnow

theorem HasKey.calm {kt : KeyType} {key : SigningKey L} (h : HasKey i kt (.ok key) s) (hc : Calm i s t) :
    HasKey i kt (.ok key) t := by
  refine ⟨hc.2, ?_⟩
  intro key' hkey
  obtain ⟨k, hk, htype, hkid, hpriv⟩ := h.2 key' hkey
  obtain ⟨l, hl, hage⟩ := hc.1.table k hk
  exact ⟨l, hl, hage.type.trans htype, hage.kid.trans hkid, by rw [hage.privateKey]; exact hpriv⟩

theorem keeps_issueRefreshToken (ttl : Nat) {subject : String} (jkt sid : String) (hsub : subject ≠ "")
    (hidle : s.txs i = none) :
    Keeps i (fun _ _ => True) (issueRefreshToken (L := L) ttl subject jkt sid) s := by
  refine keeps_attempt (keeps_activeKey .Refresh hidle) (fun _ _ _ => trivial) ?_
  intro key t ht
  refine keeps_ask ht.1 ⟨trivial, by simp⟩ (fun _ => trivial) ?_
  intro jti u hu
  have hkey := ht.calm hu
  split
  · refine keeps_ask hu.2 ⟨trivial, by simp⟩ (fun _ => trivial) ?_
    intro drawn v hv
    exact keeps_signWithActiveKey ttl jkt jti hsub (Uuid.text_ne_empty drawn) (hkey.calm hv)
  · next hsid => exact keeps_signWithActiveKey ttl jkt jti hsub hsid hkey

theorem keeps_rotateRefreshToken (ttl : Nat) {claims : VerifiedRefreshToken} (hsub : claims.subject ≠ "")
    (hsid : claims.sid ≠ "") (hidle : s.txs i = none) :
    Keeps i (fun _ _ => True) (rotateRefreshToken (L := L) ttl claims) s := by
  refine keeps_attempt (keeps_activeKey .Refresh hidle) (fun _ _ _ => trivial) ?_
  intro key t ht
  refine keeps_ask ht.1 ⟨trivial, by simp⟩ (fun _ => trivial) ?_
  intro jti u hu
  exact keeps_signWithActiveKey ttl claims.jkt jti hsub hsid (ht.calm hu)

end Signing

theorem keeps_drop {α : Type} {p : KeyProg L α} {Q : α → KeyState L → Prop} (hp : Keeps i Q p s) :
    Keeps i (fun _ _ => True) (drop p) s :=
  hp.bind fun _ _ _ => trivial

theorem keeps_operation {call : KeyCall} (hcall : call.Promised) (hidle : s.txs i = none) :
    Keeps i (fun _ _ => True) (operation (L := L) call) s := by
  cases call with
  | loadJWKS n => exact keeps_drop (keeps_loadJWKS n hidle)
  | getJwkSet n => exact keeps_drop (keeps_getJwkSet n hidle)
  | rotateAccess => exact keeps_drop (keeps_rotate .Access hidle)
  | rotateRefresh => exact keeps_drop (keeps_rotate .Refresh hidle)
  | tick =>
    refine (keeps_rotate .Access hidle).bind ?_
    intro _ t ht
    exact (keeps_rotate .Refresh ht.2).bind fun _ _ _ => trivial
  | newAccessToken userId role jkt => exact keeps_drop (keeps_newAccessToken userId role jkt hidle)
  | issueRefreshToken ttl subject jkt sid =>
    exact keeps_drop (keeps_issueRefreshToken ttl jkt sid hcall hidle)
  | rotateRefreshToken ttl claims =>
    exact keeps_drop (keeps_rotateRefreshToken ttl hcall.1 hcall.2 hidle)

theorem keeps_serve {call : KeyCall} (hcall : call.Promised) (hidle : s.txs i = none) :
    Keeps i (fun _ _ => True) (serve (L := L) call) s := by
  intro t ht hrely
  refine ⟨trivial, ?_⟩
  intro r u hexec _
  exact keeps_operation hcall (exec_idle (by simp) (hrely.idle hidle) hexec)

section Pool

/-- The invariant of the whole system, calls under way included. -/
structure KeyGood (pool : KeyPool L) : Prop where
  good : Good (keySemantics L) (keyContract L) (fun _ _ _ => True) pool
  idle : ∀ i, pool.threads.length ≤ i → pool.shared.txs i = none

variable {pool pool' : KeyPool L} {l : KeyLabel L} {trace : List (KeyLabel L)}

theorem inv_init (h : KeysInit pool) : KeyInv pool.shared where
  rows := h.rows
  inserted i tx row htx := by
    rw [h.txs i] at htx
    cases htx
  scans i kid hkid := by
    rw [h.scans i] at hkid
    cases hkid
  deactivated i tx htx := by
    rw [h.txs i] at htx
    cases htx
  updated i tx kt htx := by
    rw [h.txs i] at htx
    cases htx
  issued x hx := by
    rw [h.issued] at hx
    cases hx
  started i x hx := by
    rw [h.started i] at hx
    cases hx
  stems n e he := by
    rw [h.memory n] at he
    cases he
  served set hset := by
    rw [h.served] at hset
    cases hset
  loaded i kid hkid := by
    rw [h.loaded i] at hkid
    cases hkid
  sources n kid hkid := by
    rw [h.sources n] at hkid
    cases hkid
  covers n k _ hkid := by
    rw [h.sources n] at hkid
    cases hkid

theorem good_init (h : KeysInit pool) : KeyGood pool where
  good := by
    refine ⟨inv_init h, ?_⟩
    intro i p hp
    rw [h.threads] at hp
    cases hp
  idle i _ := h.txs i

theorem good_step (h : KeyGood pool) (hstep : KeyStep pool l pool') : KeyGood pool' where
  good := by
    refine h.good.step_spawn keyContract_sound (fun _ _ _ _ _ _ => trivial) ?_ hstep
    rintro p ⟨call, hcall, rfl⟩
    exact keeps_serve hcall (h.idle _ (Nat.le_refl _))
  idle := by
    have hidle : ∀ i (s t : KeyState L), s.txs i = none → Undisturbed i s t → t.txs i = none :=
      fun _ _ _ hs hr => hr.idle hs
    exact h.good.unmarked keyContract_sound hidle hstep h.idle

theorem good_run (h : KeysInit pool) (hrun : Run KeyStep pool trace pool') : KeyGood pool' := by
  have hinv : ∀ (p : KeyPool L) l p', KeyGood p → KeyStep p l p' → KeyGood p' := fun _ _ _ => good_step
  exact hrun.invariant hinv (good_init h)

/-- What a step leaves behind for good. -/
def Recorded (s : KeyState L) : KeyLabel L → Prop
  | .cmd _ (.sign kt tok) _ => ∃ x ∈ s.issued, x.type = kt ∧ x.token = tok
  | .cmd _ (.serve _) set => set ∈ s.served
  | _ => True

/-- Neither a signed token nor a served set is forgotten. -/
def Remembers (s t : KeyState L) : Prop :=
  (∀ x ∈ s.issued, x ∈ t.issued) ∧ ∀ set ∈ s.served, set ∈ t.served

theorem exec_remembers {c : KeyCmd L} {r : KeyReply L c} (h : Exec i c s r t) : Remembers s t := by
  cases h with
  | serve => exact ⟨fun _ h => h, fun _ h => List.mem_cons_of_mem _ h⟩
  | sign => exact ⟨fun _ h => List.mem_cons_of_mem _ h, fun _ h => h⟩
  | _ => exact ⟨fun _ h => h, fun _ h => h⟩

theorem exec_recorded {c : KeyCmd L} {r : KeyReply L c} (h : Exec i c s r t) :
    Recorded t (.cmd i c r) := by
  cases h with
  | serve => exact List.mem_cons_self
  | sign => exact ⟨_, List.mem_cons_self, rfl, rfl⟩
  | @failed _ c _ h =>
    cases c with
    | sign => exact h.elim
    | serve => exact h.elim
    | _ => trivial
  | _ => trivial

theorem step_remembers (h : KeyStep pool l pool') :
    Remembers pool.shared pool'.shared ∧ Recorded pool'.shared l := by
  cases h with
  | cmd _ hexec => exact ⟨exec_remembers hexec, exec_recorded hexec⟩
  | spawn => exact ⟨⟨fun _ h => h, fun _ h => h⟩, trivial⟩
  | @env e s he =>
    refine ⟨?_, trivial⟩
    cases e with
    | elapse d =>
      obtain rfl : s = { pool.shared with now := pool.shared.now + d } := he
      exact ⟨fun _ h => h, fun _ h => h⟩
    | disconnect i =>
      obtain rfl : s = pool.shared.setTx i none := he
      exact ⟨fun _ h => h, fun _ h => h⟩

theorem Recorded.remembered {l : KeyLabel L} (h : Recorded s l) (hst : Remembers s t) : Recorded t l := by
  cases l with
  | spawn => trivial
  | env => trivial
  | cmd i c r =>
    cases c with
    | sign kt tok =>
      obtain ⟨x, hx, hxt⟩ := h
      exact ⟨x, hst.1 x hx, hxt⟩
    | serve n => exact hst.2 _ h
    | _ => trivial

theorem run_recorded (hrun : Run KeyStep pool trace pool') : ∀ l ∈ trace, Recorded pool'.shared l := by
  intro l hl
  obtain ⟨before, after, rfl⟩ := List.append_of_mem hl
  obtain ⟨p, p', -, hstep, hafter⟩ := hrun.at_label
  have hkept : ∀ (q : KeyPool L) e q', Recorded q.shared l → KeyStep q e q' → Recorded q'.shared l :=
    fun _ _ _ hq hs => hq.remembered (step_remembers hs).1
  exact hafter.invariant hkept (step_remembers hstep).2

/-- A token on record was on record before, or was signed by a step of the run. -/
theorem signed_of_issued (hrun : Run KeyStep pool trace pool') : ∀ x ∈ pool'.shared.issued,
    x ∈ pool.shared.issued ∨ ∃ i, .cmd i (.sign x.type x.token) () ∈ trace := by
  induction hrun with
  | nil => exact fun x hx => Or.inl hx
  | @cons p q _ l trace hstep _ ih =>
    have hnew : ∀ x ∈ q.shared.issued, x ∈ p.shared.issued ∨ ∃ i, l = .cmd i (.sign x.type x.token) () := by
      intro x hx
      cases hstep with
      | spawn => exact Or.inl hx
      | @env e s he =>
        cases e with
        | elapse d =>
          obtain rfl : s = { p.shared with now := p.shared.now + d } := he
          exact Or.inl hx
        | disconnect i =>
          obtain rfl : s = p.shared.setTx i none := he
          exact Or.inl hx
      | @cmd i c next r s hi hexec =>
        cases hexec with
        | sign kt tok =>
          cases List.mem_cons.mp hx with
          | inl h =>
            subst h
            exact Or.inr ⟨i, rfl⟩
          | inr h => exact Or.inl h
        | _ => exact Or.inl hx
    intro x hx
    cases ih x hx with
    | inl hq =>
      cases hnew x hq with
      | inl hp => exact Or.inl hp
      | inr hl =>
        obtain ⟨i, rfl⟩ := hl
        exact Or.inr ⟨i, List.mem_cons_self⟩
    | inr hlater =>
      obtain ⟨i, hi⟩ := hlater
      exact Or.inr ⟨i, List.mem_cons_of_mem _ hi⟩

end Pool

end Chinwag.Keys

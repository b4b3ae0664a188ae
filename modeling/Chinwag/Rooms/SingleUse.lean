import Chinwag.Lib.Slots
import Chinwag.Rooms.Rejoin

/-!
# Links for single use

A join finds the link, inserts the member and deletes the link, three steps on two stores. Nothing
but the schedule keeps two joins apart, and nothing but the last step takes the link away; where
both go well the link admits one user.
-/
namespace Chinwag.Rooms

open Program Slots Transition

variable {key : String} {data : InviteLinkData} {token : Uuid} {p p' : RoomPool} {s s' : RoomState} {i : Nat}

def linkKey (token : Uuid) : String := inviteKeyPrefix ++ token.toText

/-- The call of thread `i` has found the link. -/
def Finds (s : RoomState) (key : String) (i : Nat) : Prop := ∃ data, s.found i = some ⟨key, data⟩

def Finished (p : RoomPool) (i : Nat) : Prop := p.threads[i]? = some (.ret ())

/-- Whom the link has admitted. -/
def RoomState.admittedBy (s : RoomState) (key : String) : List Admission := s.admissions.filter fun a => a.key = key

/-- No call finds the link while one that it admitted is under way; when it admits one, which hears
of it, the others that found it are done; and the deletion takes effect. -/
def Orderly (key : String) (p : RoomPool) : RoomLabel → RoomPool → Prop
  | .cmd _ (.cacheGet key') (some _), _ => key' = key → ∀ a ∈ p.shared.admittedBy key, Finished p a.thread
  | .cmd i (.write _) r, p' => Finds p.shared key i → p'.shared.admissions ≠ p.shared.admissions →
    r ≠ .error .lost ∧ ∀ j, j ≠ i → Finds p.shared key j → Finished p j
  | .cmd _ (.cacheDelete key') _, p' => key' = key → p'.shared.cache key = none
  | _, _ => True

def OrderlyStep (key : String) (p : RoomPool) (l : RoomLabel) (p' : RoomPool) : Prop :=
  RoomStep p l p' ∧ Orderly key p l p'

section Programs

variable {α β : Type}

/-- Commands that leave the link alone. -/
def Spares (key : String) : RoomCmd → Prop
  | .cacheGet _ => False
  | .cacheSet key' _ _ | .cacheDelete key' => key' ≠ key
  | _ => True

/-- A token that is drawn is not the link's. -/
def OtherToken (key : String) : (c : RoomCmd) → RoomReply c → Prop
  | .new, id => linkKey id ≠ key
  | _, _ => True

/-- A program that has nothing to do with the link. -/
def Foreign (key : String) : RoomProg α → Prop
  | .ret _ => True
  | .call c next => Spares key c ∧ ∀ r, OtherToken key c r → Foreign key (next r)

/-- Its member is in, and the link goes next. -/
def Deleting (key : String) (q : RoomProg Unit) : Prop :=
  ∃ next, q = .call (.cacheDelete key) next ∧ ∀ r, next r = .ret ()

/-- A join that has found the link and not inserted its member. -/
def Joining (key : String) : RoomProg Unit → Prop
  | .ret _ => True
  | .call (.write (.addMember _)) next =>
    (∀ e, next (.error e) = .ret ()) ∧ next (.ok 0) = .ret () ∧ ∀ n, Deleting key (next (.ok (n + 1)))
  | .call (.read _) next => ∀ r, Joining key (next r)
  | .call (.getUser _) next => ∀ r, Joining key (next r)
  | .call _ _ => False

theorem foreign_of_only {q : RoomProg α} (h : Only (fun c => Spares key c) q) : Foreign key q := by
  induction q with
  | ret a => trivial
  | call c next ih => exact ⟨h.1, fun r _ => ih r (h.2 r)⟩

theorem Foreign.bind {q : RoomProg α} {f : α → RoomProg β} (h : Foreign key q) (hf : ∀ a, Foreign key (f a)) :
    Foreign key (q >>= f) := by
  induction q with
  | ret a => exact hf a
  | call c next ih => exact ⟨h.1, fun r hr => ih r (h.2 r hr)⟩

theorem plain_spares (key : String) : Plain (Spares key) where
  write _ _ := trivial
  read _ := trivial
  newV7 := trivial
  now := trivial
  begin := trivial
  insertRoom _ := trivial
  insertOwner _ := trivial
  commit := trivial
  rollback := trivial
  getUser _ := trivial

theorem foreign_createInviteLink (roomId createdBy : Uuid) (req : CreateInviteLinkRequest) :
    Foreign key (createInviteLink roomId createdBy req) := by
  refine (foreign_of_only (only_read (plain_spares key) _)).bind fun r => ?_
  cases r with
  | error e => trivial
  | ok room =>
    dsimp only
    split
    · trivial
    · refine (foreign_of_only (only_hasManagerPermission (plain_spares key) _ _)).bind fun r => ?_
      rcases r with e | _ | _
      · trivial
      · trivial
      · refine ⟨trivial, fun id hid => ⟨hid, fun r _ => ?_⟩⟩
        cases r
        · trivial
        · exact ⟨trivial, fun _ _ => trivial⟩

/-- What a join comes to when the link it asks for is another one. -/
theorem foreign_join {key' : String} (hkey : key' ≠ key) (data : InviteLinkData) (roomId userId : Uuid) :
    Foreign key (discard (unlessPopped roomId fun _ => joinRoom key' data roomId userId)) :=
  foreign_of_only (only_discard
    (only_unlessPopped (plain_spares key) fun _ => only_joinRoom (plain_spares key) key' hkey _ _ _))

theorem foreign_call (c : Call) : Foreign key c.prog ∨ ∃ token userId, c = .joinByInviteLink token userId := by
  cases c with
  | createInviteLink roomId createdBy req =>
    exact Or.inl ((foreign_createInviteLink roomId createdBy req).bind fun _ => trivial)
  | joinByInviteLink token userId => exact Or.inr ⟨token, userId, rfl⟩
  | _ => exact Or.inl (foreign_of_only (only_plain_call (plain_spares key) _ (fun _ _ _ h => nomatch h) fun _ _ h => nomatch h))

/-- What it comes to when it has found the link. -/
theorem joining_join (hsingle : data.singleUse = true) (roomId userId : Uuid) :
    Joining key (discard (unlessPopped roomId fun _ => joinRoom key data roomId userId)) := by
  intro r
  cases r with
  | error e => trivial
  | ok room =>
    by_cases hpop : room.poppedAt.isSome = true
    · dsimp only [Prog.pure_eq, Prog.bind]
      rw [if_pos hpop]
      trivial
    · dsimp only [Prog.pure_eq, Prog.bind]
      rw [if_neg hpop]
      intro user
      cases user with
      | none => trivial
      | some _ =>
        intro r
        cases r with
        | ok _ => trivial
        | error _ =>
          intro r
          cases r with
          | error e => trivial
          | ok room =>
            by_cases hpop : room.poppedAt.isSome = true
            · dsimp only [Prog.pure_eq, Prog.bind]
              rw [if_pos hpop]
              trivial
            · dsimp only [Prog.pure_eq, Prog.bind]
              rw [if_neg hpop]
              refine ⟨fun _ => rfl, rfl, fun n => ?_⟩
              dsimp only [Prog.pure_eq, Prog.bind]
              rw [if_pos hsingle]
              exact ⟨_, rfl, fun _ => rfl⟩

end Programs

/-- Where the call of thread `i` is with respect to the link. -/
inductive Phase (key : String) (data : InviteLinkData) (s : RoomState) (i : Nat) (q : RoomProg Unit) : Prop where
  | apart (hnot : ¬ Finds s key i)
      (hq : Foreign key q ∨ ∃ token userId, q = (Call.joinByInviteLink token userId).prog)
  | joining (hfound : s.found i = some ⟨key, data⟩) (hnot : ∀ a ∈ s.admittedBy key, a.thread ≠ i) (hq : Joining key q)
  | deleting (hfound : s.found i = some ⟨key, data⟩) (hq : Deleting key q)
  | finished (hq : q = .ret ())

structure LinkInv (token : Uuid) (data : InviteLinkData) (p : RoomPool) : Prop where
  phase : ∀ i q, p.threads[i]? = some q → Phase (linkKey token) data p.shared i q
  unstarted : ∀ i, p.threads.length ≤ i → ¬ Finds p.shared (linkKey token) i
  drawn : token ∈ p.shared.drawn
  cached : ∀ e, p.shared.cache (linkKey token) = some e → e.data = data
  once : (p.shared.admittedBy (linkKey token)).length ≤ 1
  alone : ∀ a ∈ p.shared.admittedBy (linkKey token), ∀ j, j ≠ a.thread → Finds p.shared (linkKey token) j →
    Finished p j
  closing : ∀ a ∈ p.shared.admittedBy (linkKey token), Finds p.shared (linkKey token) a.thread ∧
    (Finished p a.thread ∧ p.shared.cache (linkKey token) = none ∨
      ∃ q, p.threads[a.thread]? = some q ∧ Deleting (linkKey token) q)

section Keep

/-- The same calls have found the link, and the same users were admitted. -/
structure SameUse (key : String) (s s' : RoomState) : Prop where
  found : ∀ i data, s'.found i = some ⟨key, data⟩ ↔ s.found i = some ⟨key, data⟩
  admitted : s'.admittedBy key = s.admittedBy key

/-- Nothing about the link has changed. -/
structure SameLink (key : String) (s s' : RoomState) : Prop extends SameUse key s s' where
  cache : s'.cache key = s.cache key
  drawn : ∀ id ∈ s.drawn, id ∈ s'.drawn

theorem SameUse.finds (h : SameUse key s s') (i : Nat) : Finds s' key i ↔ Finds s key i :=
  exists_congr fun data => h.found i data

theorem Phase.same {q : RoomProg Unit} (h : Phase key data s i q) (hsame : SameUse key s s') :
    Phase key data s' i q := by
  cases h with
  | apart hnot hq => exact .apart (mt (hsame.finds i).mp hnot) hq
  | joining hfound hnot hq =>
    refine .joining ((hsame.found i data).mpr hfound) ?_ hq
    rw [hsame.admitted]
    exact hnot
  | deleting hfound hq => exact .deleting ((hsame.found i data).mpr hfound) hq
  | finished hq => exact .finished hq

theorem LinkInv.same {threads : List (RoomProg Unit)} (h : LinkInv token data ⟨s, threads⟩)
    (hsame : SameLink (linkKey token) s s') : LinkInv token data ⟨s', threads⟩ where
  phase i q hi := (h.phase i q hi).same hsame.toSameUse
  unstarted i hi := mt (hsame.finds i).mp (h.unstarted i hi)
  drawn := hsame.drawn _ h.drawn
  cached e he := h.cached e (hsame.cache.symm.trans he)
  once := by
    rw [hsame.admitted]
    exact h.once
  alone a ha j hj hfinds := by
    rw [hsame.admitted] at ha
    exact h.alone a ha j hj ((hsame.finds j).mp hfinds)
  closing a ha := by
    rw [hsame.admitted] at ha
    obtain ⟨hfinds, hclosing⟩ := h.closing a ha
    refine ⟨(hsame.finds _).mpr hfinds, ?_⟩
    rw [hsame.cache]
    exact hclosing

theorem finished_set {q q' : RoomProg Unit} {threads : List (RoomProg Unit)} {j : Nat} (hq : q ≠ .ret ())
    (hi : threads[i]? = some q) (h : threads[j]? = some (.ret ())) : (threads.set i q')[j]? = some (.ret ()) := by
  have hij : i ≠ j := by
    rintro rfl
    exact hq (Option.some.inj (hi.symm.trans h))
  rw [List.getElem?_set_ne hij]
  exact h

/-- A thread that the link has not admitted takes a step. -/
theorem LinkInv.thread {threads : List (RoomProg Unit)} {q q' : RoomProg Unit} (h : LinkInv token data ⟨s, threads⟩)
    (hi : threads[i]? = some q) (hq : q ≠ .ret ()) (hnot : ∀ a ∈ s.admittedBy (linkKey token), a.thread ≠ i)
    (hphase : Phase (linkKey token) data s i q') : LinkInv token data ⟨s, threads.set i q'⟩ where
  phase j r hj := by
    by_cases hij : i = j
    · subst hij
      rw [List.getElem?_set_self (List.getElem?_eq_some_iff.mp hi).1] at hj
      obtain rfl := Option.some.inj hj
      exact hphase
    · rw [List.getElem?_set_ne hij] at hj
      exact h.phase j r hj
  unstarted j hj := h.unstarted j (by rwa [List.length_set] at hj)
  drawn := h.drawn
  cached := h.cached
  once := h.once
  alone a ha j hj hfinds := finished_set hq hi (h.alone a ha j hj hfinds)
  closing a ha := by
    obtain ⟨hfinds, hclosing⟩ := h.closing a ha
    refine ⟨hfinds, ?_⟩
    have hsame : (threads.set i q')[a.thread]? = threads[a.thread]? := List.getElem?_set_ne (hnot a ha).symm
    unfold Finished
    rw [hsame]
    exact hclosing

end Keep

section Steps

theorem sameLink_exec {c : RoomCmd} {r : RoomReply c} (hspares : Spares key c) (hnot : ¬ Finds s key i)
    (hexec : Exec i c s r s') : SameLink key s s' := by
  have hstore : ∀ w t, SameLink key s (s.store i w t) := by
    intro w t
    refine ⟨⟨fun _ _ => Iff.rfl, ?_⟩, rfl, fun _ h => h⟩
    have hnone : (s.admitted i w).filter (fun a => decide (a.key = key)) = [] := by
      refine List.filter_eq_nil_iff.mpr fun a ha hkey => hnot ?_
      unfold RoomState.admitted at ha
      split at ha
      · split at ha
        · next f hf =>
          split at ha
          · obtain rfl := List.mem_singleton.mp ha
            refine ⟨f.data, ?_⟩
            rw [hf, ← of_decide_eq_true hkey]
          · cases ha
        · cases ha
      · cases ha
    show (s.admitted i w ++ s.admissions).filter _ = s.admissions.filter _
    rw [List.filter_append, hnone]
    rfl
  have hset : ∀ {key' : String} (e : Option CacheEntry), key' ≠ key → SameLink key s (s.setCache key' e) := by
    intro key' e hkey
    exact ⟨⟨fun _ _ => Iff.rfl, rfl⟩, Function.update_of_ne hkey.symm _ _, fun _ h => h⟩
  cases hexec with
  | newV7 => exact ⟨⟨fun _ _ => Iff.rfl, rfl⟩, rfl, fun _ h => List.mem_cons_of_mem _ h⟩
  | new => exact ⟨⟨fun _ _ => Iff.rfl, rfl⟩, rfl, fun _ h => List.mem_cons_of_mem _ h⟩
  | write => exact hstore _ _
  | writeLost => exact hstore _ _
  | cacheMiss => exact hspares.elim
  | cacheHit => exact hspares.elim
  | cacheGetFailed => exact hspares.elim
  | cacheSet => exact hset _ hspares
  | cacheDelete => exact hset _ hspares
  | _ => exact ⟨⟨fun _ _ => Iff.rfl, rfl⟩, rfl, fun _ h => h⟩

theorem otherToken_exec {c : RoomCmd} {r : RoomReply c} (hdrawn : token ∈ s.drawn) (hexec : Exec i c s r s') :
    OtherToken (linkKey token) c r := by
  cases hexec with
  | @new _ id fresh =>
    intro hkey
    have htext : id.toText = token.toText := (String.append_right_inj _).mp hkey
    exact fresh (Uuid.ext_text htext ▸ hdrawn)
  | _ => trivial

variable {threads : List (RoomProg Unit)} {c : RoomCmd} {next : RoomReply c → RoomProg Unit} {r : RoomReply c}

theorem not_admitted_of_apart (h : LinkInv token data ⟨s, threads⟩) (hnot : ¬ Finds s (linkKey token) i) :
    ∀ a ∈ s.admittedBy (linkKey token), a.thread ≠ i := by
  rintro a ha rfl
  exact hnot (h.closing a ha).1

/-- A call that has nothing to do with the link. -/
theorem linkInv_foreign (h : LinkInv token data ⟨s, threads⟩) (hi : threads[i]? = some (.call c next))
    (hnot : ¬ Finds s (linkKey token) i) (hq : Foreign (linkKey token) (.call c next)) (hexec : Exec i c s r s') :
    LinkInv token data ⟨s', threads.set i (next r)⟩ := by
  have hsame := sameLink_exec hq.1 hnot hexec
  have hforeign := hq.2 r (otherToken_exec h.drawn hexec)
  refine (h.thread hi nofun (not_admitted_of_apart h hnot) ?_).same hsame
  exact .apart hnot (Or.inl hforeign)

theorem finds_find {key' : String} {d : InviteLinkData} {j : Nat} (hj : j ≠ i) :
    (s.find i key' d).found j = s.found j :=
  Function.update_of_ne hj _ _

/-- A join finds another link. -/
theorem linkInv_other {key' : String} {d : InviteLinkData} {q q' : RoomProg Unit} (hkey : key' ≠ linkKey token)
    (h : LinkInv token data ⟨s, threads⟩) (hi : threads[i]? = some q) (hq : q ≠ .ret ())
    (hnot : ¬ Finds s (linkKey token) i) (hforeign : Foreign (linkKey token) q') :
    LinkInv token data ⟨s.find i key' d, threads.set i q'⟩ := by
  have hsame : SameLink (linkKey token) s (s.find i key' d) := by
    refine ⟨⟨fun j d' => ?_, rfl⟩, rfl, fun _ h => h⟩
    by_cases hj : j = i
    · subst hj
      have hself : (s.find j key' d).found j = some ⟨key', d⟩ := Function.update_self ..
      rw [hself]
      exact iff_of_false (fun h => hkey (congrArg Found.key (Option.some.inj h))) fun h => hnot ⟨d', h⟩
    · rw [finds_find hj]
  exact (h.thread hi hq (not_admitted_of_apart h hnot) (.apart hnot (Or.inl hforeign))).same hsame

/-- A join finds the link, of which nobody has made use. -/
theorem linkInv_found {q q' : RoomProg Unit} (h : LinkInv token data ⟨s, threads⟩) (hi : threads[i]? = some q)
    (hnone : ∀ a, a ∉ s.admittedBy (linkKey token)) (hjoining : Joining (linkKey token) q') :
    LinkInv token data ⟨s.find i (linkKey token) data, threads.set i q'⟩ where
  phase j r hj := by
    rcases slot_set hj with ⟨rfl, rfl⟩ | ⟨hne, hj⟩
    · exact .joining (Function.update_self ..) (fun a ha => absurd ha (hnone a)) hjoining
    · have hfound : (s.find i (linkKey token) data).found j = s.found j := finds_find hne
      cases h.phase j r hj with
      | apart hnot hq =>
        refine .apart ?_ hq
        rintro ⟨d, hd⟩
        exact hnot ⟨d, hfound.symm.trans hd⟩
      | joining hf hnot hq => exact .joining (hfound.trans hf) hnot hq
      | deleting hf hq => exact .deleting (hfound.trans hf) hq
      | finished hq => exact .finished hq
  unstarted j hj := by
    have hlt : i < threads.length := (List.getElem?_eq_some_iff.mp hi).1
    rw [List.length_set] at hj
    have hne : j ≠ i := by omega
    rintro ⟨d, hd⟩
    exact h.unstarted j hj ⟨d, (finds_find hne).symm.trans hd⟩
  drawn := h.drawn
  cached := h.cached
  once := h.once
  alone a ha := absurd ha (hnone a)
  closing a ha := absurd ha (hnone a)

/-- What a join goes on with. -/
def afterLookup (key : String) (userId : Uuid) : Option InviteLinkData → RoomProg Unit
  | none => .ret ()
  | some d =>
    match Uuid.parse d.roomId with
    | none => .ret ()
    | some roomId => discard (unlessPopped roomId fun _ => joinRoom key d roomId userId)

theorem prog_joinByInviteLink (text : String) (userId : Uuid) : (Call.joinByInviteLink text userId).prog =
    .call (.cacheGet (inviteKeyPrefix ++ text)) (afterLookup (inviteKeyPrefix ++ text) userId) := by
  refine congrArg (Prog.call (RoomCmd.cacheGet (inviteKeyPrefix ++ text))) (funext fun r => ?_)
  cases r with
  | none => rfl
  | some d =>
    unfold afterLookup
    dsimp only [Prog.pure_eq, Prog.bind]
    cases Uuid.parse d.roomId <;> rfl

/-- A join looks for a link. -/
theorem linkInv_lookup {text : String} {userId : Uuid} {r : Option InviteLinkData} (hsingle : data.singleUse = true)
    (h : LinkInv token data ⟨s, threads⟩) (hi : threads[i]? = some (Call.joinByInviteLink text userId).prog)
    (hnot : ¬ Finds s (linkKey token) i) (hexec : Exec i (.cacheGet (inviteKeyPrefix ++ text)) s r s')
    (horderly : ∀ d, r = some d → inviteKeyPrefix ++ text = linkKey token →
      ∀ a ∈ s.admittedBy (linkKey token), Finished ⟨s, threads⟩ a.thread) :
    LinkInv token data ⟨s', threads.set i (afterLookup (inviteKeyPrefix ++ text) userId r)⟩ := by
  have hapart := not_admitted_of_apart h hnot
  have hcall : (Call.joinByInviteLink text userId).prog ≠ .ret () := nofun
  cases hexec with
  | cacheMiss => exact h.thread hi hcall hapart (.finished rfl)
  | cacheGetFailed => exact h.thread hi hcall hapart (.finished rfl)
  | @cacheHit _ _ d hhit =>
    unfold afterLookup
    dsimp only
    by_cases hkey : inviteKeyPrefix ++ text = linkKey token
    · obtain ⟨e, he, rfl⟩ := Option.map_eq_some_iff.mp hhit
      obtain ⟨he, -⟩ := Option.filter_eq_some_iff.mp he
      rw [hkey] at he ⊢
      have hnone : ∀ a, a ∉ s.admittedBy (linkKey token) := by
        intro a ha
        have hdone : threads[a.thread]? = some (.ret ()) := horderly _ rfl hkey a ha
        rcases (h.closing a ha).2 with ⟨-, hgone⟩ | ⟨q, hq, next, rfl, -⟩
        · cases he.symm.trans hgone
        · cases hdone.symm.trans hq
      rw [h.cached e he]
      refine linkInv_found h hi hnone ?_
      split
      · trivial
      · exact joining_join hsingle _ _
    · refine linkInv_other hkey h hi hcall hnot ?_
      split
      · trivial
      · exact foreign_join hkey _ _ _

section Insertion

variable {m : NewMember} {t : RoomTables} {n : Nat} {q q' : RoomProg Unit}

theorem admitted_open (hfound : s.found i = some ⟨key, data⟩) (hopen : s.tables.hasRoom Room.isOpen m.roomId = true) :
    (s.store i (.addMember m) t).admissions = ⟨i, key, m.userId⟩ :: s.admissions := by
  unfold RoomState.store RoomState.admitted
  dsimp only
  rw [hfound]
  dsimp only
  rw [if_pos hopen]
  rfl

/-- Into a room that is not open nobody is admitted. -/
theorem sameLink_closed (hopen : ¬ s.tables.hasRoom Room.isOpen m.roomId = true) :
    SameLink key s (s.store i (.addMember m) t) := by
  have hnone : s.admitted i (.addMember m) = [] := by
    unfold RoomState.admitted
    dsimp only
    split
    · exact if_neg hopen
    · rfl
  refine ⟨⟨fun _ _ => Iff.rfl, ?_⟩, rfl, fun _ h => h⟩
  unfold RoomState.admittedBy RoomState.store
  rw [hnone]
  rfl

theorem addMember_closed {now : Nat} {t t' : RoomTables} (hopen : ¬ t.hasRoom Room.isOpen m.roomId = true)
    (happly : (Write.addMember m).apply now t = .ok (t', n)) : n = 0 := by
  have hinsert : t.insertMember Room.isOpen m now = .ok (t', n) := happly
  unfold RoomTables.insertMember at hinsert
  split at hinsert
  · exact (congrArg Prod.snd (Except.ok.inj hinsert)).symm
  · cases hinsert

/-- The link admits its user: the other calls that found it are done, and the deletion is next. -/
theorem linkInv_admitted (h : LinkInv token data ⟨s, threads⟩) (hi : threads[i]? = some q) (hq : q ≠ .ret ())
    (hfound : s.found i = some ⟨linkKey token, data⟩) (hnone : s.admittedBy (linkKey token) = [])
    (hothers : ∀ j, j ≠ i → Finds s (linkKey token) j → Finished ⟨s, threads⟩ j)
    (hopen : s.tables.hasRoom Room.isOpen m.roomId = true) (hdelete : Deleting (linkKey token) q') :
    LinkInv token data ⟨s.store i (.addMember m) t, threads.set i q'⟩ := by
  have hlist : (s.store i (.addMember m) t).admittedBy (linkKey token) = [⟨i, linkKey token, m.userId⟩] := by
    unfold RoomState.admittedBy
    rw [admitted_open hfound hopen, List.filter_cons, if_pos (decide_eq_true rfl)]
    exact congrArg (List.cons _) hnone
  have hlt : i < threads.length := (List.getElem?_eq_some_iff.mp hi).1
  refine ⟨?_, ?_, h.drawn, h.cached, ?_, ?_, ?_⟩
  · intro j r hj
    rcases slot_set hj with ⟨rfl, rfl⟩ | ⟨hne, hj⟩
    · exact .deleting hfound hdelete
    · cases h.phase j r hj with
      | apart hnot hr => exact .apart hnot hr
      | joining hf hnot hr =>
        have hdone : threads[j]? = some (.ret ()) := hothers j hne ⟨data, hf⟩
        exact .finished (Option.some.inj (hj.symm.trans hdone))
      | deleting hf hr => exact .deleting hf hr
      | finished hr => exact .finished hr
  · intro j hj
    rw [List.length_set] at hj
    exact h.unstarted j hj
  · rw [hlist]
    exact Nat.le_refl 1
  · intro a ha j hj hfinds
    rw [hlist] at ha
    obtain rfl := List.mem_singleton.mp ha
    exact finished_set hq hi (hothers j hj hfinds)
  · intro a ha
    rw [hlist] at ha
    obtain rfl := List.mem_singleton.mp ha
    exact ⟨⟨data, hfound⟩, Or.inr ⟨q', List.getElem?_set_self hlt, hdelete⟩⟩

end Insertion

/-- A join that has found the link takes a step. -/
theorem linkInv_joining (h : LinkInv token data ⟨s, threads⟩) (hi : threads[i]? = some (.call c next))
    (hfound : s.found i = some ⟨linkKey token, data⟩) (hnot : ∀ a ∈ s.admittedBy (linkKey token), a.thread ≠ i)
    (hq : Joining (linkKey token) (.call c next)) (hexec : Exec i c s r s')
    (horderly : Orderly (linkKey token) ⟨s, threads⟩ (.cmd i c r) ⟨s', threads.set i (next r)⟩) :
    LinkInv token data ⟨s', threads.set i (next r)⟩ := by
  cases c with
  | read query =>
    have hsame : s' = s := by cases hexec <;> rfl
    subst hsame
    exact h.thread hi nofun hnot (.joining hfound hnot (hq r))
  | getUser id =>
    have hsame : s' = s := by cases hexec; rfl
    subst hsame
    exact h.thread hi nofun hnot (.joining hfound hnot (hq r))
  | write w =>
    cases w with
    | addMember m =>
      obtain ⟨herror, hzero, hsucc⟩ := hq
      have hcall : Prog.call (RoomCmd.write (.addMember m)) next ≠ .ret () := nofun
      have hnone : s.admittedBy (linkKey token) = [] := by
        refine List.eq_nil_iff_forall_not_mem.mpr fun a ha => ?_
        have hdone : threads[i]? = some (.ret ()) := h.alone a ha i (hnot a ha).symm ⟨data, hfound⟩
        cases hi.symm.trans hdone
      have hchanged : ∀ t, s.tables.hasRoom Room.isOpen m.roomId = true →
          (s.store i (.addMember m) t).admissions ≠ s.admissions := by
        intro t hopen
        rw [admitted_open hfound hopen]
        exact List.cons_ne_self _ _
      cases hexec with
      | writeRefused => exact h.thread hi hcall hnot (.finished (herror _))
      | writeFailed => exact h.thread hi hcall hnot (.finished (herror _))
      | @write _ _ t n happly =>
        by_cases hopen : s.tables.hasRoom Room.isOpen m.roomId = true
        · obtain ⟨-, hothers⟩ := horderly ⟨data, hfound⟩ (hchanged t hopen)
          obtain rfl := addMember_affects hopen happly
          exact linkInv_admitted h hi hcall hfound hnone hothers hopen (hsucc 0)
        · obtain rfl := addMember_closed hopen happly
          exact (h.thread hi hcall hnot (.finished hzero)).same (sameLink_closed hopen)
      | @writeLost _ _ t n happly =>
        by_cases hopen : s.tables.hasRoom Room.isOpen m.roomId = true
        · exact absurd rfl (horderly ⟨data, hfound⟩ (hchanged t hopen)).1
        · exact (h.thread hi hcall hnot (.finished (herror _))).same (sameLink_closed hopen)
    | _ => exact hq.elim
  | _ => exact hq.elim

/-- The last step of a join. -/
theorem linkInv_deleting (h : LinkInv token data ⟨s, threads⟩) (hi : threads[i]? = some (.call c next))
    (hfound : s.found i = some ⟨linkKey token, data⟩) (hq : Deleting (linkKey token) (.call c next)) (hexec : Exec i c s r s')
    (horderly : Orderly (linkKey token) ⟨s, threads⟩ (.cmd i c r) ⟨s', threads.set i (next r)⟩) :
    LinkInv token data ⟨s', threads.set i (next r)⟩ := by
  obtain ⟨next', heq, hret⟩ := hq
  cases heq
  have hcache : s'.cache (linkKey token) = none := horderly rfl
  have hsame : SameUse (linkKey token) s s' ∧ s'.drawn = s.drawn := by
    cases hexec <;> exact ⟨⟨fun _ _ => Iff.rfl, rfl⟩, rfl⟩
  obtain ⟨hsame, hdrawn⟩ := hsame
  have hlt : i < threads.length := (List.getElem?_eq_some_iff.mp hi).1
  have hcall : Prog.call (RoomCmd.cacheDelete (linkKey token)) next' ≠ .ret () := nofun
  refine ⟨?_, ?_, hdrawn ▸ h.drawn, fun e he => ?_, ?_, ?_, ?_⟩
  · intro j q hj
    rcases slot_set hj with ⟨rfl, rfl⟩ | ⟨-, hj⟩
    · exact .finished (hret r)
    · exact (h.phase j q hj).same hsame
  · intro j hj
    rw [List.length_set] at hj
    exact mt (hsame.finds j).mp (h.unstarted j hj)
  · cases hcache.symm.trans he
  · rw [hsame.admitted]
    exact h.once
  · intro a ha j hj hfinds
    rw [hsame.admitted] at ha
    exact finished_set hcall hi (h.alone a ha j hj ((hsame.finds j).mp hfinds))
  · intro a ha
    rw [hsame.admitted] at ha
    obtain ⟨hfinds, hclosing⟩ := h.closing a ha
    refine ⟨(hsame.finds _).mpr hfinds, Or.inl ⟨?_, hcache⟩⟩
    rcases hclosing with ⟨hdone, -⟩ | ⟨q, hq, hdelete⟩
    · exact finished_set hcall hi hdone
    · have hself : a.thread = i := by
        by_contra hne
        have hdone : threads[i]? = some (.ret ()) := h.alone a ha i (Ne.symm hne) ⟨data, hfound⟩
        cases hi.symm.trans hdone
      unfold Finished
      rw [hself, List.getElem?_set_self hlt, hret r]

end Steps

theorem linkInv_spawn (h : LinkInv token data p) (c : Call) : LinkInv token data ⟨p.shared, p.threads ++ [c.prog]⟩ := by
  have hkept : ∀ {j : Nat} {q : RoomProg Unit}, p.threads[j]? = some q → (p.threads ++ [c.prog])[j]? = some q := by
    intro j q hj
    rw [List.getElem?_append_left (List.getElem?_eq_some_iff.mp hj).1]
    exact hj
  refine ⟨?_, ?_, h.drawn, h.cached, h.once, fun a ha j hj hfinds => hkept (h.alone a ha j hj hfinds), ?_⟩
  · intro i q hi
    rcases Nat.lt_or_ge i p.threads.length with hlt | hge
    · rw [List.getElem?_append_left hlt] at hi
      exact h.phase i q hi
    · rw [List.getElem?_append_right hge] at hi
      obtain rfl := List.mem_singleton.mp (List.mem_of_getElem? hi)
      refine .apart (h.unstarted i hge) ?_
      rcases foreign_call c with hforeign | ⟨text, userId, rfl⟩
      · exact Or.inl hforeign
      · exact Or.inr ⟨text, userId, rfl⟩
  · intro i hi
    rw [List.length_append] at hi
    exact h.unstarted i (Nat.le_of_add_right_le hi)
  · intro a ha
    obtain ⟨hfinds, hclosing⟩ := h.closing a ha
    refine ⟨hfinds, ?_⟩
    rcases hclosing with ⟨hdone, hcache⟩ | ⟨q, hq, hdelete⟩
    · exact Or.inl ⟨hkept hdone, hcache⟩
    · exact Or.inr ⟨q, hkept hq, hdelete⟩

theorem linkInv_step (hsingle : data.singleUse = true) {l : RoomLabel} (h : LinkInv token data p)
    (hstep : OrderlyStep (linkKey token) p l p') : LinkInv token data p' := by
  obtain ⟨hstep, horderly⟩ := hstep
  cases hstep with
  | @spawn q hq =>
    obtain ⟨c, rfl⟩ := hq
    exact linkInv_spawn h c
  | @env e s he =>
    obtain rfl : s = { p.shared with now := p.shared.now + e } := he
    exact h.same ⟨⟨fun _ _ => Iff.rfl, rfl⟩, rfl, fun _ h => h⟩
  | @cmd i c next r s hi hexec =>
    cases h.phase i _ hi with
    | apart hnot hq =>
      rcases hq with hforeign | ⟨text, userId, hjoin⟩
      · exact linkInv_foreign h hi hnot hforeign hexec
      · rw [prog_joinByInviteLink] at hjoin
        cases hjoin
        rw [← prog_joinByInviteLink] at hi
        refine linkInv_lookup hsingle h hi hnot hexec ?_
        rintro d rfl
        exact horderly
    | joining hfound hnot hq => exact linkInv_joining h hi hfound hnot hq hexec horderly
    | deleting hfound hq => exact linkInv_deleting h hi hfound hq hexec horderly
    | finished hq => cases hq

/-- The link is there, nobody has looked for it yet, and no call is under way. -/
structure Issued (token : Uuid) (data : InviteLinkData) (p : RoomPool) : Prop where
  threads : p.threads = []
  link : ∃ e, p.shared.cache (linkKey token) = some e ∧ e.data = data
  drawn : token ∈ p.shared.drawn
  found : ∀ i, p.shared.found i = none
  admissions : p.shared.admissions = []

theorem linkInv_issued (h : Issued token data p) : LinkInv token data p := by
  have hnone : p.shared.admittedBy (linkKey token) = [] := by
    unfold RoomState.admittedBy
    rw [h.admissions]
    rfl
  refine ⟨?_, ?_, h.drawn, ?_, ?_, ?_, ?_⟩
  · intro i q hi
    rw [h.threads] at hi
    cases hi
  · rintro i - ⟨d, hd⟩
    cases (h.found i).symm.trans hd
  · intro e he
    obtain ⟨e', he', rfl⟩ := h.link
    obtain rfl := Option.some.inj (he'.symm.trans he)
    rfl
  · rw [hnone]
    exact Nat.zero_le 1
  · intro a ha
    rw [hnone] at ha
    cases ha
  · intro a ha
    rw [hnone] at ha
    cases ha

section Sample

theorem cas_canonical : Uuid.isCanonical "01890a5d-ac96-774b-bcce-b302099a8060".toList = true := by decide +kernel

def cas : Uuid := ⟨"01890a5d-ac96-774b-bcce-b302099a8060", cas_canonical⟩

theorem denLink_canonical : Uuid.isCanonical "1b4e28ba-2fa1-41d2-883f-0016d3cca427".toList = true := by decide +kernel

def denLink : Uuid := ⟨"1b4e28ba-2fa1-41d2-883f-0016d3cca427", denLink_canonical⟩

def denLinkData : InviteLinkData := ⟨den.toText, ann.toText, true⟩

/-- A link into the room for one user. -/
def linkedState : RoomState :=
  { restingState (sampleTables (sampleRoom 16 none none) sampleRoom_id) with
    cache := Function.update (fun _ => none) (linkKey denLink) (some ⟨denLinkData, none⟩)
    drawn := [denLink] }

theorem cache_denLink : linkedState.cache (linkKey denLink) = some ⟨denLinkData, none⟩ := by
  simp [linkedState]

theorem issued_denLink : Issued denLink denLinkData ⟨linkedState, []⟩ :=
  ⟨rfl, ⟨_, cache_denLink, rfl⟩, List.mem_singleton_self _, fun _ => rfl, rfl⟩

theorem lookup_denLink : linkedState.lookup (linkKey denLink) = some denLinkData := by
  unfold RoomState.lookup
  rw [cache_denLink]
  rfl

theorem afterLookup_denLink (user : Uuid) : afterLookup (linkKey denLink) user (some denLinkData) =
    discard (unlessPopped den fun _ => joinRoom (linkKey denLink) denLinkData den user) := by
  unfold afterLookup
  dsimp only
  rw [show Uuid.parse denLinkData.roomId = some den from Uuid.parse_text den]

/-- A join of the den that goes through, from where it has found the link. -/
theorem alone_denLink {s : RoomState} {room : Room} {user : Uuid} (i : Nat) (hroom : s.tables.getRoomById den = .ok room)
    (hpop : room.poppedAt = none) (hfree : s.tables.members.find (den, user) = none) :
    ∃ t v, (Write.addMember ⟨user, den, Role.MEMBER⟩).apply s.now s.tables = .ok (t, 1) ∧
      Alone (Exec i) Eq (afterLookup (linkKey denLink) user (some denLinkData)) s () v ∧ v.tables = t ∧
      v.found = s.found ∧ v.admissions = (s.store i (.addMember ⟨user, den, Role.MEMBER⟩) t).admissions := by
  have hrefl : ∀ s : RoomState, s = s := fun _ => rfl
  obtain ⟨t, v, happly, hjoin, hrest⟩ :=
    alone_joinRoom (i := i) hrefl (linkKey denLink) denLinkData hroom hpop hfree
  have hchecked : Alone (Exec i) Eq (unlessPopped den fun _ => joinRoom (linkKey denLink) denLinkData den user) s
      (.ok den) v :=
    Answers.alone (alone_unlessPopped (fun _ => rfl) hroom hpop hjoin)
  refine ⟨t, v, happly, ?_, hrest⟩
  rw [afterLookup_denLink]
  exact hchecked.bind (.ret _ _)

end Sample

end Chinwag.Rooms

import Chinwag.Rooms.Frozen
import Chinwag.Rooms.Sequential

/-!
# Joining again

Whoever leaves keeps a row in `room_member`, and the row keeps the key of the pair. The services
ask for an active membership before they insert, which such a row is not, and the insertion fails.
-/
namespace Chinwag.Rooms

open Program Transition

variable {s t : RoomState} {k u : Uuid} {room : Room} {role : Option Role} {ok : Prop}

/-- Time has passed, and no link has run out. -/
structure Meanwhile (s t : RoomState) : Prop where
  later : Later s t
  links : ∀ key, t.lookup key = s.lookup key

theorem Meanwhile.tables (h : Meanwhile s t) : t.tables = s.tables := h.later.tables

theorem Meanwhile.refl (s : RoomState) : Meanwhile s s := ⟨.refl s, fun _ => rfl⟩

def RoomTables.activeRows (t : RoomTables) (k u : Uuid) : Nat := t.members.count fun m => m.isOf k u && m.isActive

/-- When nothing fails the call returns no error, and the user is an active member once. -/
structure Rejoins {α : Type} (p : RoomProg (Result α)) (s : RoomState) (k u : Uuid) : Prop where
  returns : ∃ r t, Alone (Answers 0) Meanwhile p s r t
  joined : ∀ r t, Alone (Answers 0) Meanwhile p s r t → (∃ a, r = .ok a) ∧ t.tables.activeRows k u = 1

/-- Whether the call succeeds is settled by `ok`. -/
def Settles {α : Type} (ok : Prop) (p : RoomProg (Result α)) (s : RoomState) (k u : Uuid) : Prop :=
  Solo (Answers 0) Meanwhile (fun r t => (ok ↔ ∃ a, r = .ok a) ∧ (ok → t.tables.activeRows k u = 1)) p s

theorem rejoins_iff_of_settles {α : Type} {p : RoomProg (Result α)} (h : Settles ok p s k u)
    (hrun : ok → ∃ r t, Alone (Answers 0) Meanwhile p s r t) : Rejoins p s k u ↔ ok := by
  constructor
  · rintro ⟨⟨r, t, halone⟩, hjoined⟩
    exact (h.alone halone).1.mpr (hjoined r t halone).1
  · intro hok
    refine ⟨hrun hok, fun r t halone => ?_⟩
    obtain ⟨hiff, hrows⟩ := h.alone halone
    exact ⟨hiff.mp hok, hrows hok⟩

theorem key_of_isOf (m : RoomMember) (h : m.isOf k u = true) : m.key = (k, u) := by
  obtain ⟨hroom, huser⟩ := Bool.and_eq_true_iff.mp h
  exact Prod.ext (beq_iff_eq.mp hroom) (beq_iff_eq.mp huser)

theorem activeRows_inserted {w : Write} {now : Nat} {t t' : RoomTables} {m : NewMember} (heff : w.Effect now t t')
    (hins : w.inserts t = some m) : t'.activeRows m.roomId m.userId = 1 := by
  have hkey : ∀ r : RoomMember, (r.isOf m.roomId m.userId && r.isActive) = true → r.key = (m.roomId, m.userId) := by
    intro r hr
    obtain ⟨hof, -⟩ := Bool.and_eq_true_iff.mp hr
    exact key_of_isOf r hof
  have hfind : t'.members.find (m.roomId, m.userId) = some (m.row now) :=
    ((heff.inserted m hins).2 _ _).trans (if_pos ⟨rfl, rfl⟩)
  unfold RoomTables.activeRows
  rw [KeyedTable.count_key _ hkey, hfind]
  simp [NewMember.row, RoomMember.isOf, RoomMember.isActive]

/-- The statement of both operations. -/
theorem settles_inviteUser (hroom : s.tables.getRoomById k = .ok room) (hpop : room.poppedAt = none) :
    Settles ((role.getD Role.MEMBER).Fits ∧ s.tables.members.find (k, u) = none) (inviteUser ⟨u, k, role⟩) s k u := by
  have hopen : s.tables.hasRoom Room.isOpen k = true := hasRoom_open hroom hpop
  refine solo_answers_unlessPopped (fun _ => Meanwhile.tables) hroom hpop fun t ht s₁ h₁ r s₂ he => ?_
  have hsame : s₁.tables = s.tables := h₁.tables.trans ht.tables
  have hiff := addMember_ok (m := ⟨u, k, role.getD Role.MEMBER⟩) s₁.now hopen
  cases he with
  | @write _ _ tables n happly =>
    have hn : n = 1 := addMember_affects (hsame ▸ hopen) happly
    subst hn
    have heff := Write.effect_of_apply happly
    rw [hsame] at happly
    exact ⟨iff_of_true (hiff.mp ⟨_, happly⟩) ⟨_, rfl⟩, fun _ => activeRows_inserted heff (if_pos (hsame ▸ hopen))⟩
  | writeRefused hrefuse =>
    rw [hsame] at hrefuse
    have hnot : ¬ ((role.getD Role.MEMBER).Fits ∧ s.tables.members.find (k, u) = none) := by
      intro h
      obtain ⟨_, happly⟩ := hiff.mpr h
      cases hrefuse.symm.trans happly
    exact ⟨iff_of_false hnot nofun, fun h => absurd h hnot⟩

theorem rejoins_inviteUser (hroom : s.tables.getRoomById k = .ok room) (hpop : room.poppedAt = none) :
    Rejoins (inviteUser ⟨u, k, role⟩) s k u ↔
      (role.getD Role.MEMBER).Fits ∧ s.tables.members.find (k, u) = none := by
  refine rejoins_iff_of_settles (settles_inviteUser hroom hpop) fun h => ?_
  obtain ⟨t, happly⟩ := (addMember_ok (m := ⟨u, k, role.getD Role.MEMBER⟩) s.now (hasRoom_open hroom hpop)).mpr h
  exact ⟨_, _, alone_inviteUser Meanwhile.refl hroom hpop happly⟩

section Join

variable {token : String} {data : InviteLinkData}

theorem settles_joinByInviteLink (hroom : s.tables.getRoomById k = .ok room) (hpop : room.poppedAt = none)
    (hinactive : s.tables.getMemberByRoomIdAndMemberId k u = .error .noRows)
    (hlink : s.lookup (inviteKeyPrefix ++ token) = some data) (hdata : Uuid.parse data.roomId = some k) :
    Settles (s.tables.members.find (k, u) = none) (joinByInviteLink token u) s k u := by
  intro s₁ h₁ r s₂ he
  cases he with
  | cacheMiss hmiss =>
    rw [h₁.links, hlink] at hmiss
    cases hmiss
  | @cacheHit _ _ data' hhit =>
    rw [h₁.links, hlink] at hhit
    obtain rfl := Option.some.inj hhit
    dsimp only [Prog.bind]
    rw [hdata]
    have hstart : (s₁.find 0 (inviteKeyPrefix ++ token) data).tables = s.tables := h₁.tables
    refine solo_answers_unlessPopped (fun _ => Meanwhile.tables) (hstart ▸ hroom) hpop fun t ht s₃ h₃ answer s₄ he => ?_
    cases he
    have hsame : s₃.tables = s.tables := (h₃.tables.trans ht.tables).trans hstart
    dsimp only [Prog.bind]
    refine (solo_answers_read (fun _ => Meanwhile.tables) (.getMemberByRoomIdAndMemberId k u)).bind ?_
    rintro _ v ⟨hv, rfl⟩
    have hnone : s₃.tables.answer (.getMemberByRoomIdAndMemberId k u) = .error .noRows := by
      rw [hsame]
      exact hinactive
    have hv' : v.tables = s.tables := hv.tables.trans hsame
    rw [hnone]
    have hinvite : Settles (((none : Option Role).getD Role.MEMBER).Fits ∧ v.tables.members.find (k, u) = none)
        (inviteUser ⟨u, k, none⟩) v k u :=
      settles_inviteUser (hv' ▸ hroom) hpop
    refine hinvite.bind ?_
    rintro r x ⟨hiff, hrows⟩
    rw [hv'] at hiff hrows
    have hfits : ((none : Option Role).getD Role.MEMBER).Fits := by decide
    cases r with
    | error e =>
      have hnot : ¬ s.tables.members.find (k, u) = none := fun h => nomatch (hiff.mp ⟨hfits, h⟩).choose_spec
      exact ⟨iff_of_false hnot nofun, fun h => absurd h hnot⟩
    | ok _ =>
      have hok := hiff.mpr ⟨_, rfl⟩
      dsimp only
      split
      · intro x₁ hx r x₂ he
        cases he
        refine ⟨iff_of_true hok.2 ⟨_, rfl⟩, fun _ => ?_⟩
        have htables : (x₁.setCache (inviteKeyPrefix ++ token) none).tables = x.tables := hx.tables
        rw [htables]
        exact hrows hok
      · exact ⟨iff_of_true hok.2 ⟨_, rfl⟩, fun _ => hrows hok⟩

/-- A join that goes through, from where it has found its room open. -/
theorem alone_joinRoom {i : Nat} {drift : RoomState → RoomState → Prop} (hdrift : ∀ s, drift s s) (key : String)
    (data : InviteLinkData) (hroom : s.tables.getRoomById k = .ok room) (hpop : room.poppedAt = none)
    (hfree : s.tables.members.find (k, u) = none) :
    ∃ t v, (Write.addMember ⟨u, k, Role.MEMBER⟩).apply s.now s.tables = .ok (t, 1) ∧
      Alone (Answers i) drift (joinRoom key data k u) s (.ok k) v ∧ v.tables = t ∧ v.found = s.found ∧
      v.admissions = (s.store i (.addMember ⟨u, k, Role.MEMBER⟩) t).admissions := by
  have hfits : Role.MEMBER.Fits := by decide
  obtain ⟨t, happly⟩ := (addMember_ok (m := ⟨u, k, Role.MEMBER⟩) s.now (hasRoom_open hroom hpop)).mpr ⟨hfits, hfree⟩
  have hinvite : Alone (Answers i) drift (inviteUser ⟨u, k, none⟩) s (.ok ()) _ :=
    alone_inviteUser hdrift hroom hpop happly
  have hnone : s.tables.answer (.getMemberByRoomIdAndMemberId k u) = .error .noRows := by
    show s.tables.getMemberByRoomIdAndMemberId k u = _
    unfold RoomTables.getMemberByRoomIdAndMemberId
    rw [hfree]
  have hmember := alone_read (i := i) hdrift (s := s) (.getMemberByRoomIdAndMemberId k u)
  rw [hnone] at hmember
  have hlast : ∀ w : RoomState, ∃ v, Alone (Answers i) drift (if data.singleUse then do
        let _ ← Prog.perform (RoomCmd.cacheDelete key)
        return .ok k
      else return .ok k : RoomProg (Result Uuid)) w (.ok k) v ∧ v.tables = w.tables ∧ v.found = w.found ∧
        v.admissions = w.admissions := by
    intro w
    split
    · exact ⟨_, .call (hdrift _) (.cacheDelete _ _) (.ret _ _), rfl, rfl, rfl⟩
    · exact ⟨_, .ret _ _, rfl, rfl, rfl⟩
  obtain ⟨v, hrest, htables, hfound, hadmissions⟩ := hlast (s.store i (.addMember ⟨u, k, Role.MEMBER⟩) t)
  refine ⟨t, v, happly, ?_, htables, hfound, hadmissions⟩
  exact .call (hdrift s) (.getUser s _ ⟨u.toText, "", "", ""⟩) (hmember.bind (hinvite.bind hrest))

theorem rejoins_joinByInviteLink (hroom : s.tables.getRoomById k = .ok room) (hpop : room.poppedAt = none)
    (hinactive : s.tables.getMemberByRoomIdAndMemberId k u = .error .noRows)
    (hlink : s.lookup (inviteKeyPrefix ++ token) = some data) (hdata : Uuid.parse data.roomId = some k) :
    Rejoins (joinByInviteLink token u) s k u ↔ s.tables.members.find (k, u) = none := by
  refine rejoins_iff_of_settles (settles_joinByInviteLink hroom hpop hinactive hlink hdata) fun hfree => ?_
  have hstart : (s.find 0 (inviteKeyPrefix ++ token) data).tables.getRoomById k = .ok room := hroom
  obtain ⟨-, v, -, hjoin, -⟩ :=
    alone_joinRoom (i := 0) Meanwhile.refl (inviteKeyPrefix ++ token) data hstart hpop hfree
  have hchecked : Alone (Answers 0) Meanwhile (unlessPopped k fun _ => joinRoom (inviteKeyPrefix ++ token) data k u)
      (s.find 0 (inviteKeyPrefix ++ token) data) (.ok k) v :=
    alone_unlessPopped Meanwhile.refl hroom hpop hjoin
  refine ⟨.ok k, v, .call (.refl s) (.cacheHit hlink) ?_⟩
  dsimp only [Prog.bind]
  rw [hdata]
  exact hchecked

end Join

section History

variable {p p' : RoomPool} {l : RoomLabel} {trace : List RoomLabel}

def Change.Admits (k u : Uuid) (t : RoomTables) : Change → Prop
  | .statement w => ∃ m, w.inserts t = some m ∧ m.roomId = k ∧ m.userId = u
  | .creation d => ∃ m, d.owner = some m ∧ m.key = (k, u)

/-- The step made the user a member of the room. -/
def Admits (k u : Uuid) (p : RoomPool) (l : RoomLabel) : Prop :=
  ∃ change, changeOf p l = some change ∧ change.Admits k u p.shared.tables

theorem find_write {w : Write} {now : Nat} {t t' : RoomTables} (heff : w.Effect now t t')
    (hnone : t.members.find (k, u) = none) :
    t'.members.find (k, u) = none ↔ ¬ (Change.statement w).Admits k u t := by
  cases hins : w.inserts t with
  | none =>
    rw [heff.updated hins, hnone]
    refine iff_of_true rfl ?_
    rintro ⟨m, hm, -⟩
    cases hins.symm.trans hm
  | some m =>
    rw [(heff.inserted m hins).2]
    split
    · next h =>
      refine iff_of_false nofun fun hnot => hnot ⟨m, hins, h.1.symm, h.2.symm⟩
    · next h =>
      refine iff_of_true hnone ?_
      rintro ⟨m', hm', rfl, rfl⟩
      obtain rfl := Option.some.inj (hins.symm.trans hm')
      exact h ⟨rfl, rfl⟩

theorem find_create {d : Draft} {t : RoomTables} (hfree : t.rooms.find d.room.id = none)
    (hnone : t.members.find (k, u) = none) :
    (t.create d hfree).members.find (k, u) = none ↔ ¬ (Change.creation d).Admits k u t := by
  cases howner : d.owner with
  | none =>
    rw [RoomTables.members_create_none hfree howner]
    refine iff_of_true hnone ?_
    rintro ⟨m, hm, -⟩
    cases howner.symm.trans hm
  | some m =>
    obtain ⟨hm, heq⟩ := RoomTables.members_create_some hfree howner
    rw [heq, KeyedTable.find_insert]
    split
    · next h => exact iff_of_false nofun fun hnot => hnot ⟨m, howner, h.symm⟩
    · next h =>
      refine iff_of_true hnone ?_
      rintro ⟨m', hm', hkey⟩
      obtain rfl := Option.some.inj (howner.symm.trans hm')
      exact h hkey.symm

theorem find_step (hp : AllOrdinary p) (hnone : p.shared.tables.members.find (k, u) = none)
    (hstep : RoomStep p l p') : p'.shared.tables.members.find (k, u) = none ↔ ¬ Admits k u p l := by
  have hchanges := changes_step hp hstep
  unfold Admits
  revert hchanges
  generalize changeOf p l = change
  rintro (hsame | ⟨hord, happly⟩ | ⟨hfree, hcreate⟩)
  · rw [hsame]
    exact iff_of_true hnone fun ⟨_, h, _⟩ => nomatch h
  · rw [find_write (Write.effect_of_apply happly) hnone]
    exact not_congr ⟨fun h => ⟨_, rfl, h⟩, fun ⟨_, hc, h⟩ => Option.some.inj hc ▸ h⟩
  · rw [hcreate, find_create hfree hnone]
    exact not_congr ⟨fun h => ⟨_, rfl, h⟩, fun ⟨_, hc, h⟩ => Option.some.inj hc ▸ h⟩

theorem row_write {w : Write} {now : Nat} {t t' : RoomTables} (heff : w.Effect now t t')
    (hrow : t.members.find (k, u) ≠ none) : t'.members.find (k, u) ≠ none := by
  obtain ⟨m, hm⟩ := Option.ne_none_iff_exists'.mp hrow
  cases hins : w.inserts t with
  | none =>
    rw [heff.updated hins, hm]
    exact nofun
  | some m' =>
    rw [(heff.inserted m' hins).2]
    split
    · exact nofun
    · exact hrow

theorem row_create {d : Draft} {t : RoomTables} (hfree : t.rooms.find d.room.id = none)
    (hrow : t.members.find (k, u) ≠ none) : (t.create d hfree).members.find (k, u) ≠ none := by
  have hk : k ≠ d.room.id := by
    rintro rfl
    have hnone := RoomTables.find_member_of_no_room (m := ⟨d.room.id, u, 0, 0, none⟩) hfree
    exact hrow hnone
  rw [(sameRoom_create hk).members]
  exact hrow

/-- A row is never deleted. -/
theorem row_stays (hp : AllOrdinary p) (hrow : p.shared.tables.members.find (k, u) ≠ none)
    (hstep : RoomStep p l p') : p'.shared.tables.members.find (k, u) ≠ none := by
  have hchanges := changes_step hp hstep
  revert hchanges
  generalize changeOf p l = change
  rintro (hsame | ⟨hord, happly⟩ | ⟨hfree, hcreate⟩)
  · rwa [hsame]
  · exact row_write (Write.effect_of_apply happly) hrow
  · rw [hcreate]
    exact row_create hfree hrow

/-- No step of the run made the user a member of the room. -/
def NeverAdmitted (k u : Uuid) (p : RoomPool) (trace : List RoomLabel) (p' : RoomPool) : Prop :=
  ∀ before l after q q', trace = before ++ l :: after → Run RoomStep p before q → RoomStep q l q' →
    Run RoomStep q' after p' → ¬ Admits k u q l

theorem find_run (hp : AllOrdinary p) (hnone : p.shared.tables.members.find (k, u) = none)
    (hrun : Run RoomStep p trace p') :
    p'.shared.tables.members.find (k, u) = none ↔ NeverAdmitted k u p trace p' := by
  have hinv : ∀ q l q', AllOrdinary q → RoomStep q l q' → AllOrdinary q' := fun _ _ _ => allOrdinary_step
  have hstep : ∀ q l q', AllOrdinary q → q.shared.tables.members.find (k, u) = none → RoomStep q l q' →
      (q'.shared.tables.members.find (k, u) = none ↔ ¬ Admits k u q l) := fun _ _ _ hq hfree h => find_step hq hfree h
  have hkeep : ∀ q l q', AllOrdinary q → q.shared.tables.members.find (k, u) ≠ none → RoomStep q l q' →
      q'.shared.tables.members.find (k, u) ≠ none := fun _ _ _ hq hrow h => row_stays hq hrow h
  exact Run.good_iff hinv hstep hkeep hrun hp hnone

/-- Into an open room a user who is not an active member can be invited, or can join by a link,
exactly if the user has never been a member. -/
theorem rejoin_iff (hinit : RoomInit p) (hnew : p.shared.tables.members.find (k, u) = none)
    (hrun : Run RoomStep p trace p') (hroom : p'.shared.tables.getRoomById k = .ok room)
    (hpop : room.poppedAt = none)
    (hinactive : p'.shared.tables.getMemberByRoomIdAndMemberId k u = .error .noRows) :
    (∀ role : Option Role, Rejoins (inviteUser ⟨u, k, role⟩) p'.shared k u ↔
      (role.getD Role.MEMBER).Fits ∧ NeverAdmitted k u p trace p') ∧
    ∀ (token : String) (data : InviteLinkData), p'.shared.lookup (inviteKeyPrefix ++ token) = some data →
      Uuid.parse data.roomId = some k →
      (Rejoins (joinByInviteLink token u) p'.shared k u ↔ NeverAdmitted k u p trace p') := by
  have hfind := find_run (allOrdinary_init hinit) hnew hrun
  constructor
  · intro role
    rw [← hfind]
    exact rejoins_inviteUser hroom hpop
  · intro token data hlink hdata
    rw [← hfind]
    exact rejoins_joinByInviteLink hroom hpop hinactive hlink hdata

end History

section Sample

/-- Somebody new is invited. -/
theorem rejoin_stranger : Rejoins (inviteUser ⟨bob, den, none⟩)
    (restingState (sampleTables (sampleRoom 16 none none) rfl)) den bob := by
  have hinit := restingState_init (sampleTables (sampleRoom 16 none none) rfl)
  have hroom : (sampleTables (sampleRoom 16 none none) rfl).getRoomById den = .ok (sampleRoom 16 none none) := rfl
  refine ((rejoin_iff hinit rfl (.nil _) hroom rfl rfl).1 none).mpr ⟨by decide, ?_⟩
  intro before l after q q' htrace
  exact absurd htrace.symm (List.append_ne_nil_of_right_ne_nil _ (List.cons_ne_nil _ _))

/-- Bob is invited and kicked. -/
theorem bob_kicked : ∃ trace p,
    Run RoomStep ⟨restingState (sampleTables (sampleRoom 16 none none) rfl), []⟩ trace p ∧
    p.shared.tables.getRoomById den = .ok (sampleRoom 16 none none) ∧
    p.shared.tables.members.find (den, bob) = some ⟨den, bob, Role.MEMBER, 1, some 1⟩ := by
  have hroom : (sampleTables (sampleRoom 16 none none) rfl).getRoomById den = .ok (sampleRoom 16 none none) := rfl
  generalize htables : sampleTables (sampleRoom 16 none none) rfl = t at hroom
  have hfree : t.members.find (den, bob) = none := by
    rw [← htables]
    rfl
  obtain ⟨t₁, hadd⟩ := (addMember_ok (m := ⟨bob, den, Role.MEMBER⟩) 1 (hasRoom_open hroom rfl)).mpr ⟨by decide, hfree⟩
  have hinvite : Alone (Exec 0) Eq (Call.inviteUser ⟨bob, den, none⟩).prog (restingState t) () _ :=
    (Answers.alone (alone_inviteUser (fun _ => rfl) hroom rfl hadd)).bind (.ret _ _)
  obtain ⟨first, hfirst⟩ : ∃ trace, Run RoomStep ⟨restingState t, []⟩ trace ⟨_, [.ret ()]⟩ :=
    hinvite.spawn_run [] ⟨_, rfl⟩
  have heff := Write.effect_of_apply hadd
  have hroom₁ : t₁.getRoomById den = .ok (sampleRoom 16 none none) :=
    (getRoom_congr (heff.room_kept (fun _ => rfl) den)).trans hroom
  have hjoined : t₁.members.find (den, bob) = some ⟨den, bob, Role.MEMBER, 1, none⟩ :=
    ((heff.inserted _ (if_pos (hasRoom_open hroom rfl))).2 _ _).trans (if_pos ⟨rfl, rfl⟩)
  obtain ⟨t₂, n, hremove⟩ : ∃ t₂ n, (Write.removeMember bob den).apply 1 t₁ = .ok (t₂, n) := ⟨_, _, rfl⟩
  obtain ⟨r, haffect, -⟩ := alone_affect (i := 1) (s := (restingState t).store 0 (.addMember ⟨bob, den, Role.MEMBER⟩) t₁)
    (fun _ => rfl) errNotFound hremove
  have hkick : Alone (Exec 1) Eq (Call.kickUser ⟨bob, den, none⟩).prog
      ((restingState t).store 0 (.addMember ⟨bob, den, Role.MEMBER⟩) t₁) () _ :=
    (Answers.alone (alone_unlessPopped (fun _ => rfl) hroom₁ rfl haffect)).bind (.ret _ _)
  have hcall : Calls (Call.kickUser ⟨bob, den, none⟩).prog := ⟨_, rfl⟩
  obtain ⟨second, hsecond⟩ := hkick.spawn_run (S := roomSemantics) [.ret ()] hcall
  have heff' := Write.effect_of_apply hremove
  have hroom₂ : t₂.getRoomById den = .ok (sampleRoom 16 none none) :=
    (getRoom_congr (heff'.room_kept (fun _ => rfl) den)).trans hroom₁
  have hleft : t₂.members.find (den, bob) = some ⟨den, bob, Role.MEMBER, 1, some 1⟩ := by
    have hselect : (Write.removeMember bob den).selectsMember t₁ ⟨den, bob, Role.MEMBER, 1, none⟩ = true := by
      simp [Write.selectsMember, RoomMember.isOf, hasRoom_open hroom₁ rfl]
    rw [heff'.updated rfl, hjoined, Option.map_some, if_pos hselect]
    rfl
  exact ⟨first ++ second, _, hfirst.append hsecond, hroom₂, hleft⟩

theorem getMember_left {t : RoomTables} {m : RoomMember} (hfind : t.members.find (k, u) = some m) (hleft : m.leftAt ≠ none) :
    t.getMemberByRoomIdAndMemberId k u = .error .noRows := by
  have hinactive : ¬ m.isActive = true := fun h => hleft (Option.isNone_iff_eq_none.mp h)
  unfold RoomTables.getMemberByRoomIdAndMemberId
  rw [hfind]
  exact if_neg hinactive

/-- Who was kicked cannot be invited again. -/
theorem rejoin_refused : ∃ trace p,
    Run RoomStep ⟨restingState (sampleTables (sampleRoom 16 none none) rfl), []⟩ trace p ∧
    p.shared.tables.getRoomById den = .ok (sampleRoom 16 none none) ∧
    p.shared.tables.getMemberByRoomIdAndMemberId den bob = .error .noRows ∧
    ¬ Rejoins (inviteUser ⟨bob, den, none⟩) p.shared den bob := by
  obtain ⟨trace, p, hrun, hroom, hleft⟩ := bob_kicked
  refine ⟨trace, p, hrun, hroom, getMember_left hleft nofun, fun h => ?_⟩
  obtain ⟨-, hnone⟩ := (rejoins_inviteUser hroom rfl).mp h
  cases hleft.symm.trans hnone

end Sample

end Chinwag.Rooms

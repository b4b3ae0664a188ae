import Chinwag.Rooms.Rejoin

/-!
# Operations on who is not a member

Whoever leaves keeps a row. `UpdateMember` asks for `left_at IS NULL`; the removals and the changes of
a role do not, and write the row of a past membership again.
-/
namespace Chinwag.Rooms

open Program Transition Auth

variable {s : RoomState} {k u : Uuid} {ok : Prop}

/-- The statements on one member. -/
inductive MemberWrite where
  | removeMember
  | setUserRole (role : Role)
  | adminRemoveMember
  | adminSetUserRole (role : Role)

namespace MemberWrite

def write (k u : Uuid) : MemberWrite → Write
  | removeMember => .removeMember u k
  | setUserRole role => .setUserRole u k role
  | adminRemoveMember => .adminRemoveMember u k
  | adminSetUserRole role => .adminSetUserRole u k role

def Fits : MemberWrite → Prop
  | setUserRole role | adminSetUserRole role => role.Fits
  | _ => True

/-- What `EXISTS` asks of the room; the statements of an administrator ask nothing. -/
def Reaches (t : RoomTables) (k : Uuid) : MemberWrite → Prop
  | removeMember | setUserRole _ => t.hasRoom Room.isOpen k = true
  | _ => True

theorem reaches_open {t : RoomTables} (w : MemberWrite) (h : t.hasRoom Room.isOpen k = true) : w.Reaches t k := by
  cases w with
  | removeMember | setUserRole role => exact h
  | adminRemoveMember | adminSetUserRole role => trivial

def revise (now : Nat) : MemberWrite → RoomMember → RoomMember
  | removeMember, m | adminRemoveMember, m => { m with leftAt := some now }
  | setUserRole role, m | adminSetUserRole role, m => { m with role := role }

variable {now n : Nat} {t t' : RoomTables}

theorem revise_key (w : MemberWrite) (m : RoomMember) : (w.revise now m).key = m.key := by
  cases w <;> rfl

theorem apply_unfit {w : MemberWrite} (h : ¬ w.Fits) : (w.write k u).apply now t = .error .valueOutOfRange := by
  cases w with
  | setUserRole role | adminSetUserRole role => exact if_neg h
  | removeMember | adminRemoveMember => exact absurd trivial h

theorem apply_unreached {w : MemberWrite} (hfits : w.Fits) (h : ¬ w.Reaches t k) :
    (w.write k u).apply now t = .ok (t, 0) := by
  cases w with
  | removeMember => exact congrArg Except.ok (if_neg h)
  | setUserRole role => exact (if_pos hfits).trans (congrArg Except.ok (if_neg h))
  | adminRemoveMember | adminSetUserRole role => exact absurd trivial h

/-- The rows affected are those with the key, also of a past membership. -/
theorem apply_reached {w : MemberWrite} (hfits : w.Fits) (h : w.Reaches t k) :
    (w.write k u).apply now t = .ok (t.updateMembers (fun m => m.isOf k u) (w.revise now) w.revise_key) := by
  cases w with
  | removeMember => exact congrArg Except.ok (if_pos h)
  | setUserRole role => exact (if_pos hfits).trans (congrArg Except.ok (if_pos h))
  | adminRemoveMember => rfl
  | adminSetUserRole role => exact if_pos hfits

theorem count_isOf : (t.members.count fun m => m.isOf k u) = if t.members.find (k, u) = none then 0 else 1 := by
  rw [KeyedTable.count_key _ key_of_isOf]
  cases hfind : t.members.find (k, u) with
  | none => rfl
  | some m =>
    obtain ⟨hroom, huser⟩ := Prod.ext_iff.mp (KeyedTable.key_of_find hfind)
    have hof : m.isOf k u = true := Bool.and_eq_true_iff.mpr ⟨beq_iff_eq.mpr hroom, beq_iff_eq.mpr huser⟩
    rw [Option.any_some, if_pos hof]
    rfl

theorem apply_fits {w : MemberWrite} (hfits : w.Fits) : ∃ result, (w.write k u).apply now t = .ok result := by
  by_cases h : w.Reaches t k
  · exact ⟨_, apply_reached hfits h⟩
  · exact ⟨_, apply_unreached hfits h⟩

theorem updateMembers_of_free {f : RoomMember → RoomMember} {hf : ∀ m, (f m).key = m.key}
    (hfree : t.members.find (k, u) = none) : (t.updateMembers (fun m => m.isOf k u) f hf).1 = t := by
  cases t with
  | mk rooms members fkey => exact (RoomTables.mk.injEq ..).mpr ⟨rfl, KeyedTable.update_of_free key_of_isOf hfree⟩

/-- A statement that goes through affects no row and changes none, or affects one. -/
theorem affected {w : MemberWrite} (hfits : w.Fits) (h : (w.write k u).apply now t = .ok (t', n)) :
    ((w.Reaches t k → t.members.find (k, u) = none) ∧ n = 0 ∧ t' = t) ∨
      ¬ (w.Reaches t k → t.members.find (k, u) = none) ∧ n = 1 := by
  by_cases hreach : w.Reaches t k
  · have hpair := Except.ok.inj (h.symm.trans (apply_reached hfits hreach))
    have hn : n = if t.members.find (k, u) = none then 0 else 1 := (congrArg Prod.snd hpair).trans count_isOf
    by_cases hfree : t.members.find (k, u) = none
    · rw [if_pos hfree] at hn
      exact Or.inl ⟨fun _ => hfree, hn, (congrArg Prod.fst hpair).trans (updateMembers_of_free hfree)⟩
    · rw [if_neg hfree] at hn
      exact Or.inr ⟨fun hor => hfree (hor hreach), hn⟩
  · have hpair := Except.ok.inj (h.symm.trans (apply_unreached hfits hreach))
    exact Or.inl ⟨fun h => absurd h hreach, congrArg Prod.snd hpair, congrArg Prod.fst hpair⟩

end MemberWrite

/-- The operations on one member, of the repository and of the service over it. The service's own for
administrators are the repository's. -/
inductive MemberOp where
  | repo (w : MemberWrite)
  | kickUser (role : Option Role)
  | setUserRole (role : Role)

def MemberOp.prog (k u : Uuid) : MemberOp → RoomProg (Result Unit)
  | repo w => affect errNotFound (w.write k u)
  | kickUser role => Rooms.kickUser ⟨u, k, role⟩
  | setUserRole role => Rooms.setUserRole u k role

/-- An error that the handlers answer with 404. -/
def NotFound (r : Result Unit) : Prop := ∃ e message, r = .error e ∧ parseError e = .error errNotFound.status message

/-- When nothing fails the call returns a not-found error, and every row of `room_member` is as before. -/
structure ChangesNothing (p : RoomProg (Result Unit)) (s : RoomState) : Prop where
  returns : ∃ r t, Alone (Answers 0) Meanwhile p s r t
  refused : ∀ r t, Alone (Answers 0) Meanwhile p s r t → NotFound r ∧ t.tables.members = s.tables.members

/-- Whether the call changes nothing is settled by `ok`. -/
def SettlesNothing (ok : Prop) (p : RoomProg (Result Unit)) (s : RoomState) : Prop :=
  Solo (Answers 0) Meanwhile (fun r t => ok ↔ NotFound r ∧ t.tables.members = s.tables.members) p s

theorem changesNothing_iff {p : RoomProg (Result Unit)} (h : SettlesNothing ok p s)
    (hrun : ∃ r t, Alone (Answers 0) Meanwhile p s r t) : ChangesNothing p s ↔ ok := by
  constructor
  · intro hnothing
    obtain ⟨r, t, halone⟩ := hrun
    exact (h.alone halone).mpr (hnothing.refused r t halone)
  · intro hok
    exact ⟨hrun, fun r t halone => (h.alone halone).mp hok⟩

theorem runs_affect (missing : AppError) (w : Write) : ∃ r t, Alone (Answers 0) Meanwhile (affect missing w) s r t := by
  cases happly : w.apply s.now s.tables with
  | error e => exact ⟨_, _, .call (.refl s) (.writeRefused happly) (.ret _ _)⟩
  | ok result =>
    obtain ⟨r, halone, -⟩ := alone_affect (i := 0) Meanwhile.refl missing happly
    exact ⟨r, _, halone⟩

theorem getRoom_error {t : RoomTables} {e : DbError} (h : t.getRoomById k = .error e) : e = .noRows := by
  unfold RoomTables.getRoomById at h
  split at h
  · split at h
    · cases h
    · exact (Except.error.inj h).symm
  · exact (Except.error.inj h).symm

theorem runs_unlessPopped {next : Room → RoomProg (Result Unit)}
    (h : ∀ room, ∃ r t, Alone (Answers 0) Meanwhile (next room) s r t) :
    ∃ r t, Alone (Answers 0) Meanwhile (unlessPopped k next) s r t := by
  have hread := alone_read (i := 0) Meanwhile.refl (s := s) (.getRoomById k)
  cases hroom : s.tables.getRoomById k with
  | error e =>
    rw [show s.tables.answer (.getRoomById k) = .error e from hroom] at hread
    exact ⟨_, _, hread.bind (.ret _ _)⟩
  | ok room =>
    rw [show s.tables.answer (.getRoomById k) = .ok room from hroom] at hread
    by_cases hpop : room.poppedAt = none
    · obtain ⟨r, t, halone⟩ := h room
      exact ⟨r, t, alone_unlessPopped Meanwhile.refl hroom hpop halone⟩
    · have hsome : room.poppedAt.isSome = true := Option.isSome_iff_ne_none.mpr hpop
      refine ⟨.error (.app errRoomPopped), s, hread.bind ?_⟩
      show Alone _ _ (if room.poppedAt.isSome then _ else _) _ _ _
      rw [if_pos hsome]
      exact .ret _ _

/-- A statement on one member changes nothing exactly if its role fits and it finds no row. -/
theorem settles_affect (w : MemberWrite) :
    SettlesNothing (w.Fits ∧ (w.Reaches s.tables k → s.tables.members.find (k, u) = none))
      (affect errNotFound (w.write k u)) s := by
  intro s₁ h₁ r s₂ he
  cases he with
  | @write _ _ tables n happly =>
    rw [h₁.tables] at happly
    have hfits : w.Fits := by
      by_contra hnot
      cases happly.symm.trans (MemberWrite.apply_unfit hnot)
    rcases MemberWrite.affected hfits happly with ⟨hfree, rfl, rfl⟩ | ⟨hfound, rfl⟩
    · exact iff_of_true ⟨hfits, hfree⟩ ⟨⟨.app errNotFound, _, rfl, rfl⟩, rfl⟩
    · refine iff_of_false (fun h => hfound h.2) ?_
      rintro ⟨⟨e, message, hr, -⟩, -⟩
      cases hr
  | writeRefused hrefuse =>
    rw [h₁.tables] at hrefuse
    have hunfit : ¬ w.Fits := by
      intro hfits
      have happly : ∃ result, (w.write k u).apply s₁.now s.tables = .ok result := MemberWrite.apply_fits hfits
      obtain ⟨result, happly⟩ := happly
      cases hrefuse.symm.trans happly
    obtain rfl := Except.error.inj (hrefuse.symm.trans (MemberWrite.apply_unfit hunfit))
    refine iff_of_false (fun h => hunfit h.1) ?_
    rintro ⟨⟨e, message, hr, hparse⟩, -⟩
    obtain rfl := Except.error.inj hr
    cases hparse

/-- The same behind the check that the room is there and has not popped. -/
theorem settles_unlessPopped (w : MemberWrite) :
    SettlesNothing (s.tables.getRoomById k = .error .noRows ∨
        (∃ room, s.tables.getRoomById k = .ok room ∧ room.poppedAt = none) ∧ w.Fits ∧ s.tables.members.find (k, u) = none)
      (unlessPopped k fun _ => affect errNotFound (w.write k u)) s := by
  refine (solo_answers_read (fun _ => Meanwhile.tables) (.getRoomById k)).bind ?_
  rintro _ t ⟨ht, rfl⟩
  cases hroom : s.tables.getRoomById k with
  | error e =>
    obtain rfl := getRoom_error hroom
    rw [show s.tables.answer (.getRoomById k) = .error .noRows from hroom]
    exact iff_of_true (Or.inl rfl) ⟨⟨.db .noRows, _, rfl, rfl⟩, congrArg RoomTables.members ht.tables⟩
  | ok room =>
    rw [show s.tables.answer (.getRoomById k) = .ok room from hroom]
    show Solo _ _ _ (if room.poppedAt.isSome then _ else _) t
    by_cases hpop : room.poppedAt = none
    · have hreach : w.Reaches s.tables k := MemberWrite.reaches_open w (hasRoom_open hroom hpop)
      have hnot : ¬ room.poppedAt.isSome = true := by
        rw [hpop]
        exact nofun
      rw [if_neg hnot]
      have hafter := settles_affect (s := t) (k := k) (u := u) w
      unfold SettlesNothing at hafter
      rw [ht.tables] at hafter
      refine hafter.mono fun r v hiff => Iff.trans ?_ hiff
      constructor
      · intro hok
        rcases hok with hmissing | ⟨-, hfits, hfree⟩
        · cases hmissing
        · exact ⟨hfits, fun _ => hfree⟩
      · intro hok
        exact Or.inr ⟨⟨room, rfl, hpop⟩, hok.1, hok.2 hreach⟩
    · rw [if_pos (Option.isSome_iff_ne_none.mpr hpop)]
      refine iff_of_false ?_ ?_
      · intro hok
        rcases hok with hmissing | ⟨⟨room', hroom', hpop'⟩, -⟩
        · cases hmissing
        · obtain rfl := Except.ok.inj hroom'
          exact hpop hpop'
      · rintro ⟨⟨e, message, hr, hparse⟩, -⟩
        obtain rfl := Except.error.inj hr
        cases hparse

/-- What the exact behaviour takes, given whether the user has no row at all. -/
def MemberOp.Spares (never : Prop) (t : RoomTables) (k : Uuid) : MemberOp → Prop
  | repo w => w.Fits ∧ (w.Reaches t k → never)
  | kickUser _ => t.getRoomById k = .error .noRows ∨ (∃ room, t.getRoomById k = .ok room ∧ room.poppedAt = none) ∧ never
  | setUserRole role => t.getRoomById k = .error .noRows ∨
      (∃ room, t.getRoomById k = .ok room ∧ room.poppedAt = none) ∧ role.Fits ∧ never

theorem changesNothing_op (op : MemberOp) :
    ChangesNothing (op.prog k u) s ↔ op.Spares (s.tables.members.find (k, u) = none) s.tables k := by
  cases op with
  | repo w => exact changesNothing_iff (settles_affect w) (runs_affect errNotFound _)
  | kickUser role =>
    have hsettles := settles_unlessPopped (s := s) (k := k) (u := u) .removeMember
    rw [show MemberWrite.removeMember.Fits = True from rfl, true_and] at hsettles
    exact changesNothing_iff hsettles (runs_unlessPopped fun _ => runs_affect errNotFound _)
  | setUserRole role =>
    exact changesNothing_iff (settles_unlessPopped (.setUserRole role)) (runs_unlessPopped fun _ => runs_affect errNotFound _)

section History

variable {t₀ t t' : RoomTables} {change : Change} {history : List Change}

/-- Any change of the tables: a statement, an administrator's too, or the creation of a room. -/
inductive TableStep : RoomTables → Change → RoomTables → Prop where
  | statement {t t' : RoomTables} {w : Write} {now n : Nat} (happly : w.apply now t = .ok (t', n)) :
      TableStep t (.statement w) t'
  | creation {t : RoomTables} {d : Draft} (hfree : t.rooms.find d.room.id = none) :
      TableStep t (.creation d) (t.create d hfree)

/-- The steps of the services are such changes. -/
theorem history_of_run {p p' : RoomPool} {trace : List RoomLabel} (hp : AllOrdinary p) (hrun : Run RoomStep p trace p') :
    ∃ history, Run TableStep p.shared.tables history p'.shared.tables := by
  induction hrun with
  | nil p => exact ⟨[], .nil _⟩
  | @cons p q p' l trace hstep _ ih =>
    obtain ⟨history, hrest⟩ := ih (allOrdinary_step hp hstep)
    have hchanges := changes_step hp hstep
    revert hchanges
    generalize changeOf p l = change
    rintro (hsame | ⟨hord, happly⟩ | ⟨hfree, hcreate⟩)
    · rw [← hsame]
      exact ⟨history, hrest⟩
    · exact ⟨_, .cons (.statement happly) hrest⟩
    · rw [hcreate] at hrest
      exact ⟨_, .cons (.creation hfree) hrest⟩

theorem find_change (h : TableStep t change t') (hnone : t.members.find (k, u) = none) :
    t'.members.find (k, u) = none ↔ ¬ change.Admits k u t := by
  cases h with
  | statement happly => exact find_write (Write.effect_of_apply happly) hnone
  | creation hfree => exact find_create hfree hnone

theorem row_change (h : TableStep t change t') (hrow : t.members.find (k, u) ≠ none) :
    t'.members.find (k, u) ≠ none := by
  cases h with
  | statement happly => exact row_write (Write.effect_of_apply happly) hrow
  | creation hfree => exact row_create hfree hrow

/-- The user has no row at the start, and no change has made the user a member. -/
def NeverJoined (k u : Uuid) (t₀ : RoomTables) (history : List Change) (t : RoomTables) : Prop :=
  t₀.members.find (k, u) = none ∧ ∀ before change after t₁ t₂, history = before ++ change :: after →
    Run TableStep t₀ before t₁ → TableStep t₁ change t₂ → Run TableStep t₂ after t → ¬ change.Admits k u t₁

theorem find_history (hrun : Run TableStep t₀ history t) :
    t.members.find (k, u) = none ↔ NeverJoined k u t₀ history t := by
  have hkeep : ∀ t change t', t.members.find (k, u) ≠ none → TableStep t change t' → t'.members.find (k, u) ≠ none :=
    fun _ _ _ hrow hstep => row_change hstep hrow
  by_cases hnone : t₀.members.find (k, u) = none
  · have hstep : ∀ t change t', True → t.members.find (k, u) = none → TableStep t change t' →
        (t'.members.find (k, u) = none ↔ ¬ change.Admits k u t) := fun _ _ _ _ hfree hstep => find_change hstep hfree
    rw [Run.good_iff (fun _ _ _ _ _ => trivial) hstep (fun t c t' _ => hkeep t c t') hrun trivial hnone]
    exact (and_iff_right hnone).symm
  · have hrow : t.members.find (k, u) ≠ none := hrun.invariant hkeep hnone
    exact iff_of_false hrow fun h => hnone h.1

/-- After any history of the tables a member operation on a user changes nothing, and says that there is
nothing to change, exactly if the user has never been a member, or the room, the check or the role stops it. -/
theorem nonmember_untouched_iff (hrun : Run TableStep t₀ history s.tables) (op : MemberOp) :
    ChangesNothing (op.prog k u) s ↔ op.Spares (NeverJoined k u t₀ history s.tables) s.tables k := by
  rw [changesNothing_op, propext (find_history hrun)]

end History

section Sample

/-- A stranger to a room is kicked out of it. -/
theorem nonmember_untouched_stranger : ChangesNothing (MemberOp.prog den bob (.kickUser none))
    (restingState (sampleTables (sampleRoom 16 none none) rfl)) := by
  have hroom : (sampleTables (sampleRoom 16 none none) rfl).getRoomById den = .ok (sampleRoom 16 none none) := rfl
  refine (nonmember_untouched_iff (.nil _) _).mpr (Or.inr ⟨⟨_, hroom, rfl⟩, rfl, ?_⟩)
  intro before change after t₁ t₂ hnil
  exact absurd hnil.symm (List.append_ne_nil_of_right_ne_nil _ (List.cons_ne_nil _ _))

/-- Bob was kicked already. Every operation finds his row, and he can be made an administrator. -/
theorem left_member_touched : ∃ t₀ history s, Run TableStep t₀ history s.tables ∧
    s.tables.getMemberByRoomIdAndMemberId den bob = .error .noRows ∧
    (∀ op : MemberOp, ¬ ChangesNothing (op.prog den bob) s) ∧
    ∃ t, Alone (Answers 0) Meanwhile (setUserRole bob den Role.ADMIN) s (.ok ()) t ∧
      t.tables.members ≠ s.tables.members := by
  obtain ⟨trace, p, hrun, hroom, hleft⟩ := bob_kicked
  obtain ⟨history, hhistory⟩ := history_of_run (allOrdinary_init (restingState_init _)) hrun
  have hopen : p.shared.tables.hasRoom Room.isOpen den = true := hasRoom_open hroom rfl
  have hrow : p.shared.tables.members.find (den, bob) ≠ none := by
    rw [hleft]
    exact nofun
  refine ⟨_, history, p.shared, hhistory, getMember_left hleft nofun, ?_, ?_⟩
  · intro op
    rw [changesNothing_op]
    cases op with
    | repo w => exact fun h => hrow (h.2 (w.reaches_open hopen))
    | kickUser role =>
      intro h
      rcases h with hmissing | h
      · cases hroom.symm.trans hmissing
      · exact hrow h.2
    | setUserRole role =>
      intro h
      rcases h with hmissing | h
      · cases hroom.symm.trans hmissing
      · exact hrow h.2.2
  · have hfits : (MemberWrite.setUserRole Role.ADMIN).Fits := show Role.ADMIN.Fits by decide
    have happly : ∃ result, ((MemberWrite.setUserRole Role.ADMIN).write den bob).apply p.shared.now p.shared.tables =
        .ok result := MemberWrite.apply_fits hfits
    obtain ⟨⟨tables, n⟩, happly⟩ := happly
    obtain ⟨h, -⟩ | ⟨-, rfl⟩ := MemberWrite.affected hfits happly
    · exact absurd (h hopen) hrow
    obtain ⟨r, haffect, hr⟩ := alone_affect (i := 0) Meanwhile.refl errNotFound happly
    obtain rfl := hr Nat.one_pos
    refine ⟨_, alone_unlessPopped Meanwhile.refl hroom rfl haffect, fun hsame => ?_⟩
    have hselect : ((MemberWrite.setUserRole Role.ADMIN).write den bob).selectsMember p.shared.tables
        ⟨den, bob, Role.MEMBER, 1, some 1⟩ = true := by
      simp [MemberWrite.write, Write.selectsMember, RoomMember.isOf, hopen]
    have hfind := (Write.effect_of_apply happly).updated rfl den bob
    rw [hleft, Option.map_some, if_pos hselect] at hfind
    have hmember : tables.members = p.shared.tables.members := hsame
    rw [hmember, hleft] at hfind
    have hrole : Role.MEMBER = Role.ADMIN := congrArg RoomMember.role (Option.some.inj hfind)
    exact absurd hrole (by decide)

end Sample

end Chinwag.Rooms

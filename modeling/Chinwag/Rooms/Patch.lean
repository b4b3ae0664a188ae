import Chinwag.Rooms.Service

/-!
# The patch of a struct by a request

`patch.Patch` walks the fields of a struct by reflection. A field of the request counts by its
name, and is written if it is a pointer that is not nil and what it points to has the type of the
field. A type is assignable to itself only: none of the types here is an interface.
-/
namespace Chinwag.Rooms

open Program

/-- The types of the fields. -/
inductive GoType where
  | string
  | int
  | role
  | uuid
  | time
  | ptr (elem : GoType)
  deriving DecidableEq

namespace GoType

def name : GoType → String
  | .string => "string"
  | .int => "int"
  | .role => "domain.Role"
  | .uuid => "uuid.UUID"
  | .time => "time.Time"
  | .ptr elem => "*" ++ elem.name

def kind : GoType → String
  | .string => "string"
  | .int => "int"
  | .role => "int"
  | .uuid => "array"
  | .time => "struct"
  | .ptr _ => "ptr"

abbrev Val : GoType → Type
  | .string => String
  | .int => Int
  | .role => Role
  | .uuid => Uuid
  | .time => Nat
  | .ptr elem => Option elem.Val

end GoType

/-- A value with its type, as `any` holds one. -/
abbrev GoValue := (type : GoType) × type.Val

/-- A field of the struct that is patched. -/
structure Field where
  name : String
  type : GoType
  value : type.Val
  exported : Bool := true
  anon : Bool := false
  tag : String := ""

def Field.set (f : Field) (v : GoValue) : Option Field :=
  if h : v.1 = f.type then some { f with value := h ▸ v.2 } else none

/-- The fields of a request, by name. -/
abbrev PatchFields := List (String × GoValue)

/-- What a function of the options makes of a value; `skip` is `ErrSkip`. -/
inductive Transformed where
  | value (v : GoValue)
  | null
  | skip
  | error (text : String)

abbrev TransformFunc := String → GoValue → Transformed

structure PatchConfig where
  ignore : List String := []
  manual : List String := []
  transforms : String → Option TransformFunc := fun _ => none
  before : List TransformFunc := []
  manualHandler : Option (String → GoValue → Option String) := none

structure PatchResult where
  updated : List String := []
  manual : List (String × GoValue) := []

/-- The functions for every field, one after the other. -/
def runBefore (name : String) : List TransformFunc → GoValue → Transformed
  | [], v => .value v
  | fn :: fns, v =>
    match fn name v with
    | .value w => runBefore name fns w
    | r => r

def PatchConfig.transform (cfg : PatchConfig) (name : String) (v : GoValue) : Transformed :=
  match cfg.transforms name with
  | some fn => fn name v
  | none => runBefore name cfg.before v

/-- A field that is patched, given what the pointer of the request points to. It is exported, so
it can be set. -/
def assignField (cfg : PatchConfig) (f : Field) (v : GoValue) (result : PatchResult) :
    Except String (Field × PatchResult) :=
  if v.1 ≠ f.type then .error s!"field {f.name}: type mismatch ({v.1.name} -> {f.type.name})"
  else
    match cfg.transform f.name v with
    | .skip => .ok (f, result)
    | .null => .error s!"field {f.name}: transform returned nil"
    | .error text => .error s!"field {f.name}: transform error: {text}"
    | .value w =>
      match f.set w with
      | none => .error s!"field {f.name}: value type mismatch ({w.1.name} -> {f.type.name})"
      | some f' => .ok (f', { result with updated := result.updated ++ [f.name] })

def manualField (cfg : PatchConfig) (f : Field) (v : GoValue) (result : PatchResult) :
    Except String (Field × PatchResult) :=
  match cfg.manualHandler.bind fun handler => handler f.name v with
  | some text => .error s!"field {f.name}: manual handler error: {text}"
  | none => .ok (f, { result with manual := result.manual ++ [(f.name, v)] })

/-- One turn of the loop over the fields. -/
def patchField (cfg : PatchConfig) (p : PatchFields) (f : Field) (result : PatchResult) :
    Except String (Field × PatchResult) :=
  if !f.exported || f.anon then .ok (f, result)
  else if f.name ∈ cfg.ignore || f.tag = "ignore" then .ok (f, result)
  else if f.name ∈ cfg.manual || f.tag = "manual" then
    match p.lookup f.name with
    | some ⟨.ptr elem, some v⟩ => manualField cfg f ⟨elem, v⟩ result
    | _ => .ok (f, result)
  else
    match p.lookup f.name with
    | none => .ok (f, result)
    | some ⟨.ptr _, none⟩ => .ok (f, result)
    | some ⟨.ptr elem, some v⟩ => assignField cfg f ⟨elem, v⟩ result
    | some ⟨type, _⟩ => .error s!"field {f.name}: patch field must be a pointer, got {type.kind}"

def patchFields (cfg : PatchConfig) (p : PatchFields) : List Field → PatchResult →
    Except String (List Field × PatchResult)
  | [], result => .ok ([], result)
  | f :: fs, result =>
    match patchField cfg p f result with
    | .error e => .error e
    | .ok (f, result) =>
      match patchFields cfg p fs result with
      | .error e => .error e
      | .ok (fs, result) => .ok (f :: fs, result)

/-- `patch.Patch` on the fields of a struct. On an error its callers drop the struct. -/
def patch (dst : List Field) (p : PatchFields) (cfg : PatchConfig) : Except String (List Field × PatchResult) :=
  match cfg.ignore.find? (· ∈ cfg.manual) with
  | some name => .error s!"patch.Patch: field {name.quote} is in both ignore and manual"
  | none => patchFields cfg p dst {}

section Ignoring

/-- `patch.WithIgnore` as the only option. -/
def ignoring (names : List String) : PatchConfig := { ignore := names }

variable {names : List String} {p : PatchFields} {f f' : Field} {fs fs' : List Field} {result result' : PatchResult}

/-- A field as the structs of the domain have them. -/
def Field.Plain (f : Field) : Prop := f.exported = true ∧ f.anon = false ∧ f.tag = ""

/-- A field before and after: what is given is taken, and all of it has the right type. -/
inductive Field.Patched (names : List String) (p : PatchFields) (f : Field) : Field → Prop where
  | ignored (h : f.name ∈ names) : Patched names p f f
  | absent (h : p.lookup f.name = none) : Patched names p f f
  | null {elem : GoType} (h : p.lookup f.name = some ⟨.ptr elem, none⟩) : Patched names p f f
  | given {v : f.type.Val} (hname : f.name ∉ names) (h : p.lookup f.name = some ⟨.ptr f.type, some v⟩) :
      Patched names p f { f with value := v }

theorem assignField_ignoring (v : GoValue) :
    (∃ r, assignField (ignoring names) f v result = .ok (f', r)) ↔ f.set v = some f' := by
  unfold assignField Field.set
  by_cases h : v.1 = f.type
  · have htransform : (ignoring names).transform f.name v = .value v := rfl
    rw [if_neg (not_not_intro h), htransform]
    simp only [dif_pos h]
    constructor
    · rintro ⟨r, hr⟩
      obtain ⟨rfl, -⟩ := Prod.mk.inj (Except.ok.inj hr)
      rfl
    · intro hf
      obtain rfl := Option.some.inj hf
      exact ⟨_, rfl⟩
  · rw [if_pos h, dif_neg h]
    exact ⟨fun ⟨_, hr⟩ => (nomatch hr), nofun⟩

/-- A field that is left as it is. -/
theorem left_iff (h : patchField (ignoring names) p f result = .ok (f, result)) :
    (∃ r, patchField (ignoring names) p f result = .ok (f', r)) ↔ f' = f := by
  rw [h]
  constructor
  · rintro ⟨r, hr⟩
    exact (Prod.mk.inj (Except.ok.inj hr)).1.symm
  · rintro rfl
    exact ⟨_, rfl⟩

theorem patchField_ignoring (hf : f.Plain) :
    (∃ r, patchField (ignoring names) p f result = .ok (f', r)) ↔ f.Patched names p f' := by
  obtain ⟨hexp, hanon, htag⟩ := hf
  by_cases hname : f.name ∈ names
  · rw [left_iff (by simp [patchField, ignoring, hname])]
    constructor
    · rintro rfl
      exact .ignored hname
    · intro h
      cases h with
      | given hfree _ => exact absurd hname hfree
      | _ => rfl
  · rcases hlook : p.lookup f.name with _ | ⟨type, value⟩
    · rw [left_iff (by simp [patchField, ignoring, hname, hexp, hanon, htag, hlook])]
      constructor
      · rintro rfl
        exact .absent hlook
      · intro h
        cases h with
        | given _ h => cases hlook.symm.trans h
        | _ => rfl
    · cases type with
      | ptr elem =>
        cases value with
        | none =>
          rw [left_iff (by simp [patchField, ignoring, hname, hexp, hanon, htag, hlook])]
          constructor
          · rintro rfl
            exact .null hlook
          · intro h
            cases h with
            | given _ h => cases hlook.symm.trans h
            | _ => rfl
        | some v =>
          have hassign : patchField (ignoring names) p f result = assignField (ignoring names) f ⟨elem, v⟩ result := by
            simp [patchField, ignoring, hname, hexp, hanon, htag, hlook]
          rw [hassign, assignField_ignoring]
          by_cases htype : elem = f.type
          · subst htype
            have hset : f.set ⟨f.type, v⟩ = some { f with value := v } := dif_pos rfl
            rw [hset]
            constructor
            · rintro ⟨⟩
              exact .given hname hlook
            · intro h
              cases h with
              | ignored h => exact absurd h hname
              | absent h => cases hlook.symm.trans h
              | null h => cases hlook.symm.trans h
              | given _ h =>
                cases hlook.symm.trans h
                rfl
          · have hset : f.set ⟨elem, v⟩ = none := dif_neg htype
            rw [hset]
            refine ⟨nofun, fun h => ?_⟩
            cases h with
            | ignored h => exact absurd h hname
            | absent h => cases hlook.symm.trans h
            | null h => cases hlook.symm.trans h
            | given _ h =>
              cases hlook.symm.trans h
              exact absurd rfl htype
      | _ =>
        -- what is not a pointer is refused
        constructor
        · rintro ⟨r, hr⟩
          simp [patchField, ignoring, hname, hexp, hanon, htag, hlook] at hr
        · intro h
          cases h with
          | ignored h => exact absurd h hname
          | absent h => cases hlook.symm.trans h
          | null h => cases hlook.symm.trans h
          | given _ h => cases hlook.symm.trans h

theorem patchFields_ignoring (hfs : ∀ f ∈ fs, f.Plain) :
    (∃ r, patchFields (ignoring names) p fs result = .ok (fs', r)) ↔ List.Forall₂ (Field.Patched names p) fs fs' := by
  induction fs generalizing fs' result with
  | nil =>
    rw [List.forall₂_nil_left_iff]
    constructor
    · rintro ⟨r, hr⟩
      exact (Prod.mk.inj (Except.ok.inj hr)).1.symm
    · rintro rfl
      exact ⟨_, rfl⟩
  | cons f fs ih =>
    have hf := hfs f List.mem_cons_self
    have hrest : ∀ g ∈ fs, g.Plain := fun g hg => hfs g (List.mem_cons_of_mem _ hg)
    rw [List.forall₂_cons_left_iff]
    constructor
    · rintro ⟨r, hr⟩
      unfold patchFields at hr
      split at hr
      · cases hr
      · next g result₁ hfield =>
        split at hr
        · cases hr
        · next gs result₂ hfields =>
          obtain ⟨rfl, -⟩ := Prod.mk.inj (Except.ok.inj hr)
          exact ⟨g, gs, (patchField_ignoring hf).mp ⟨_, hfield⟩, (ih hrest).mp ⟨_, hfields⟩, rfl⟩
    · rintro ⟨g, gs, hg, hgs, rfl⟩
      obtain ⟨r, hfield⟩ : ∃ r, patchField (ignoring names) p f result = .ok (g, r) :=
        (patchField_ignoring hf).mpr hg
      obtain ⟨r', hfields⟩ : ∃ r', patchFields (ignoring names) p fs r = .ok (gs, r') := (ih hrest).mpr hgs
      exact ⟨r', by rw [patchFields, hfield]; dsimp only; rw [hfields]⟩

/-- What a patch does that only ignores fields. -/
theorem patch_ignoring (hfs : ∀ f ∈ fs, f.Plain) :
    (∃ r, patch fs p (ignoring names) = .ok (fs', r)) ↔ List.Forall₂ (Field.Patched names p) fs fs' := by
  have hclash : (ignoring names).ignore.find? (· ∈ (ignoring names).manual) = none :=
    List.find?_eq_none.mpr fun _ _ => by simp [ignoring]
  rw [← patchFields_ignoring hfs, patch, hclash]

end Ignoring

section Domain

def Room.fields (room : Room) : List Field :=
  [⟨"Id", .uuid, room.id, true, false, ""⟩,
    ⟨"Name", .string, room.name, true, false, ""⟩,
    ⟨"Description", .ptr .string, room.description, true, false, ""⟩,
    ⟨"MaxMembers", .int, room.maxMembers, true, false, ""⟩,
    ⟨"OwnerId", .uuid, room.ownerId, true, false, ""⟩,
    ⟨"PopAt", .ptr .time, room.popAt, true, false, ""⟩,
    ⟨"PoppedAt", .ptr .time, room.poppedAt, true, false, ""⟩,
    ⟨"CreatedAt", .time, room.createdAt, true, false, ""⟩,
    ⟨"UpdatedAt", .time, room.updatedAt, true, false, ""⟩,
    ⟨"DeletedAt", .ptr .time, room.deletedAt, true, false, ""⟩]

def UpdateRoomRequest.fields (req : UpdateRoomRequest) : PatchFields :=
  [("Name", ⟨.ptr .string, req.name⟩),
    ("Description", ⟨.ptr .string, req.description⟩),
    ("MaxMembers", ⟨.ptr .int, req.maxMembers⟩)]

/-- The fields that both updates of a room ignore. -/
def roomIgnored : List String := ["Id", "OwnerId", "CreatedAt", "UpdatedAt", "DeletedAt", "PopAt", "PoppedAt"]

def RoomMember.fields (member : RoomMember) : List Field :=
  [⟨"RoomId", .uuid, member.roomId, true, false, ""⟩,
    ⟨"UserId", .uuid, member.userId, true, false, ""⟩,
    ⟨"Role", .role, member.role, true, false, ""⟩,
    ⟨"JoinedAt", .time, member.joinedAt, true, false, ""⟩,
    ⟨"LeftAt", .ptr .time, member.leftAt, true, false, ""⟩]

def UpdateRoomMemberRequest.fields (req : UpdateRoomMemberRequest) : PatchFields :=
  [("Role", ⟨.ptr .role, req.role⟩)]

def memberIgnored : List String := ["RoomId", "UserId", "JoinedAt", "LeftAt"]

/-- A request that gives a description fails at that field. -/
theorem patch_room (room : Room) (req : UpdateRoomRequest) :
    (patch room.fields req.fields (ignoring roomIgnored)).map Prod.fst =
      match patchRoom room req with
      | .ok room => .ok room.fields
      | .error _ => .error "field Description: type mismatch (string -> *string)" := by
  obtain ⟨name, description, maxMembers⟩ := req
  cases name <;> cases description <;> cases maxMembers <;> rfl

theorem patch_member (member : RoomMember) (req : UpdateRoomMemberRequest) :
    (patch member.fields req.fields (ignoring memberIgnored)).map Prod.fst = .ok (patchMember member req).fields := by
  obtain ⟨role⟩ := req
  cases role <;> rfl

end Domain

end Chinwag.Rooms

import Chinwag.Rooms.Patch
import Chinwag.Rooms.Frozen

/-!
# The patch in place

`patch.Patch` over any types. It writes the fields of the struct one by one as it comes to them, and
what it has written stays when a later field is refused.
-/
namespace Chinwag.Reflect

/-- The types of a program and their values, as reflection shows them. -/
structure Types where
  Typ : Type
  Val : Typ → Type
  name : Typ → String
  kind : Typ → String
  /-- What a pointer type points to. -/
  elem : Typ → Option Typ
  deref : {t e : Typ} → elem t = some e → Val t → Option (Val e)
  /-- `Interface`: for an interface what it holds, if anything, and otherwise the value itself. -/
  dynamic : (t : Typ) → Val t → Option (Σ d, Val d)
  assignableTo : Typ → Typ → Bool
  convert : {s t : Typ} → assignableTo s t = true → Val s → Val t

variable (T : Types)

/-- A value with its type. -/
abbrev Value := Σ t, T.Val t

/-- What an `any` holds; `none` is its nil. -/
abbrev AnyValue := Option (Value T)

/-- A value seen as a pointer. -/
inductive Pointer where
  | other
  | null
  | target (v : Value T)

variable {T}

def Types.pointer (v : Value T) : Pointer T :=
  match h : T.elem v.1 with
  | none => .other
  | some e =>
    match T.deref h v.2 with
    | none => .null
    | some w => .target ⟨e, w⟩

variable (T)

/-- A field of the struct that is patched. -/
structure Field where
  name : String
  type : T.Typ
  value : T.Val type
  exported : Bool := true
  anon : Bool := false
  tag : String := ""

abbrev PatchFields := List (String × Value T)

/-- `ErrSkip`, or any other error. -/
inductive TransformError where
  | skip
  | other (text : String)

/-- Each is called once for a name at most, so that its answers in one patch are a function of the arguments. -/
abbrev TransformFunc := String → AnyValue T → Except TransformError (AnyValue T)

structure Config where
  ignore : List String := []
  manual : List String := []
  transforms : String → Option (TransformFunc T) := fun _ => none
  before : List (TransformFunc T) := []
  manualHandler : Option (String → AnyValue T → Option String) := none

structure Result where
  updated : List String := []
  manual : List (String × AnyValue T) := []

/-- What the functions of the options make of a value. -/
inductive Transformed where
  | value (v : AnyValue T)
  | skip
  | error (text : String)

/-- How one turn of the loop ends. -/
inductive Turn where
  | next (f : Field T) (result : Result T)
  | error (text : String)
  | crash

inductive Outcome where
  | ok (result : Result T)
  | error (text : String)
  | crash

variable {T}

def TransformFunc.run (fn : TransformFunc T) (name : String) (v : AnyValue T) : Transformed T :=
  match fn name v with
  | .error .skip => .skip
  | .error (.other text) => .error s!"field {name}: transform error: {text}"
  | .ok none => .error s!"field {name}: transform returned nil"
  | .ok (some w) => .value (some w)

/-- The functions for every field, one after the other. -/
def runBefore (name : String) : List (TransformFunc T) → AnyValue T → Transformed T
  | [], v => .value v
  | fn :: fns, v =>
    match fn.run name v with
    | .value w => runBefore name fns w
    | r => r

def Config.transform (cfg : Config T) (name : String) (v : AnyValue T) : Transformed T :=
  match cfg.transforms name with
  | some fn => fn.run name v
  | none => runBefore name cfg.before v

/-- A field that is patched, given what the pointer of the request points to. An exported field of an
addressable struct can be set. The reflected value of a nil has no type to ask for. -/
def assignField (cfg : Config T) (f : Field T) (v : Value T) (result : Result T) : Turn T :=
  if T.assignableTo v.1 f.type = false then
    .error s!"field {f.name}: type mismatch ({T.name v.1} -> {T.name f.type})"
  else
    match cfg.transform f.name (T.dynamic v.1 v.2) with
    | .skip => .next f result
    | .error text => .error text
    | .value none => .crash
    | .value (some w) =>
      if h : T.assignableTo w.1 f.type = true then
        .next { f with value := T.convert h w.2 } { result with updated := result.updated ++ [f.name] }
      else .error s!"field {f.name}: value type mismatch ({T.name w.1} -> {T.name f.type})"

def manualField (cfg : Config T) (f : Field T) (v : Value T) (result : Result T) : Turn T :=
  match cfg.manualHandler.bind fun handler => handler f.name (T.dynamic v.1 v.2) with
  | some text => .error s!"field {f.name}: manual handler error: {text}"
  | none => .next f { result with manual := result.manual ++ [(f.name, T.dynamic v.1 v.2)] }

def Field.Passed (f : Field T) (cfg : Config T) : Prop :=
  f.exported = false ∨ f.anon = true ∨ f.name ∈ cfg.ignore ∨ f.tag = "ignore"

instance (f : Field T) (cfg : Config T) : Decidable (f.Passed cfg) := inferInstanceAs (Decidable (_ ∨ _))

def Field.Manual (f : Field T) (cfg : Config T) : Prop := f.name ∈ cfg.manual ∨ f.tag = "manual"

instance (f : Field T) (cfg : Config T) : Decidable (f.Manual cfg) := inferInstanceAs (Decidable (_ ∨ _))

/-- One turn of the loop over the fields. -/
def patchField (cfg : Config T) (p : PatchFields T) (f : Field T) (result : Result T) : Turn T :=
  if f.Passed cfg then .next f result
  else if f.Manual cfg then
    match p.lookup f.name with
    | none => .next f result
    | some field =>
      match T.pointer field with
      | .target v => manualField cfg f v result
      | _ => .next f result
  else
    match p.lookup f.name with
    | none => .next f result
    | some field =>
      match T.pointer field with
      | .other => .error s!"field {f.name}: patch field must be a pointer, got {T.kind field.1}"
      | .null => .next f result
      | .target v => assignField cfg f v result

/-- The loop, with the fields as it leaves them. -/
def patchFields (cfg : Config T) (p : PatchFields T) : List (Field T) → Result T → Outcome T × List (Field T)
  | [], result => (.ok result, [])
  | f :: fs, result =>
    match patchField cfg p f result with
    | .error text => (.error text, f :: fs)
    | .crash => (.crash, f :: fs)
    | .next f' result' =>
      let (outcome, fs') := patchFields cfg p fs result'
      (outcome, f' :: fs')

/-- `patch.Patch` on a struct, and the struct after it. -/
def patch (cfg : Config T) (p : PatchFields T) (dst : List (Field T)) : Outcome T × List (Field T) :=
  match cfg.ignore.find? (· ∈ cfg.manual) with
  | some name => (.error s!"patch.Patch: field {name.quote} is in both ignore and manual", dst)
  | none => patchFields cfg p dst {}

section Turns

variable {cfg : Config T} {p : PatchFields T} {f f' : Field T} {v : Value T} {result result' : Result T}

/-- The request has a pointer for the field, which the options do not pass over, and it is not nil. -/
def Given (cfg : Config T) (p : PatchFields T) (f : Field T) (v : Value T) : Prop :=
  ¬ f.Passed cfg ∧ ∃ field, p.lookup f.name = some field ∧ T.pointer field = .target v

/-- A non-nil, not ignored, not manual field of the request. -/
def Named (cfg : Config T) (p : PatchFields T) (f : Field T) : Prop := ¬ f.Manual cfg ∧ ∃ v, Given cfg p f v

/-- A field of the request that is no pointer, where one is asked for. -/
def Unpointed (cfg : Config T) (p : PatchFields T) (f : Field T) : Prop :=
  ¬ f.Passed cfg ∧ ∃ field, p.lookup f.name = some field ∧ T.pointer field = .other

/-- Its type, a function of the options, or the type of what that function makes of it is in the way. -/
def ValueRefused (cfg : Config T) (f : Field T) (v : Value T) : Prop :=
  T.assignableTo v.1 f.type = false ∨ (∃ text, cfg.transform f.name (T.dynamic v.1 v.2) = .error text) ∨
    ∃ w, cfg.transform f.name (T.dynamic v.1 v.2) = .value (some w) ∧ T.assignableTo w.1 f.type = false

def HandlerRefused (cfg : Config T) (f : Field T) (v : Value T) : Prop :=
  ∃ handler text, cfg.manualHandler = some handler ∧ handler f.name (T.dynamic v.1 v.2) = some text

/-- The field ends the patch with an error. -/
def Refused (cfg : Config T) (p : PatchFields T) (f : Field T) : Prop :=
  (f.Manual cfg ∧ ∃ v, Given cfg p f v ∧ HandlerRefused cfg f v) ∨
    ¬ f.Manual cfg ∧ (Unpointed cfg p f ∨ ∃ v, Given cfg p f v ∧ ValueRefused cfg f v)

/-- The field is given another value. -/
def Rewritten (cfg : Config T) (p : PatchFields T) (f : Field T) : Prop :=
  ¬ f.Manual cfg ∧ ∃ v, Given cfg p f v ∧ T.assignableTo v.1 f.type = true ∧
    ∃ w, cfg.transform f.name (T.dynamic v.1 v.2) = .value (some w) ∧
      ∃ h : T.assignableTo w.1 f.type = true, T.convert h w.2 ≠ f.value

theorem Given.unique {w : Value T} (hv : Given cfg p f v) (hw : Given cfg p f w) : w = v := by
  obtain ⟨-, field, hfield, hto⟩ := hv
  obtain ⟨-, field', hfield', hto'⟩ := hw
  obtain rfl := Option.some.inj (hfield.symm.trans hfield')
  exact (Pointer.target.inj (hto.symm.trans hto')).symm

theorem patchField_given (h : Given cfg p f v) : patchField cfg p f result =
    if f.Manual cfg then manualField cfg f v result else assignField cfg f v result := by
  obtain ⟨hpass, field, hfield, hto⟩ := h
  unfold patchField
  rw [if_neg hpass, hfield]
  dsimp only
  rw [hto]

theorem patchField_unpointed (result : Result T) (h : Unpointed cfg p f) :
    ∃ text, patchField cfg p f result = if f.Manual cfg then .next f result else .error text := by
  obtain ⟨hpass, field, hfield, hother⟩ := h
  unfold patchField
  rw [if_neg hpass, hfield]
  dsimp only
  rw [hother]
  exact ⟨_, rfl⟩

theorem patchField_left (hgiven : ∀ v, ¬ Given cfg p f v) (hpointed : ¬ Unpointed cfg p f) :
    patchField cfg p f result = .next f result := by
  unfold patchField
  by_cases hpass : f.Passed cfg
  · rw [if_pos hpass]
  rw [if_neg hpass]
  cases hfield : p.lookup f.name with
  | none => exact ite_self _
  | some field =>
    dsimp only
    cases hto : T.pointer field with
    | other => exact absurd ⟨hpass, field, hfield, hto⟩ hpointed
    | null => exact ite_self _
    | target v => exact absurd ⟨hpass, field, hfield, hto⟩ (hgiven v)

/-- What one turn comes to. -/
inductive Turned (cfg : Config T) (p : PatchFields T) (f : Field T) : Turn T → Prop where
  | kept {result : Result T} (hrefused : ¬ Refused cfg p f) (hkept : ¬ Rewritten cfg p f) : Turned cfg p f (.next f result)
  | written {value : T.Val f.type} {result : Result T} (hrefused : ¬ Refused cfg p f) (hnamed : Named cfg p f)
      (hiff : Rewritten cfg p f ↔ value ≠ f.value) : Turned cfg p f (.next { f with value := value } result)
  | refused {text : String} (h : Refused cfg p f) : Turned cfg p f (.error text)
  | crash (hnamed : Named cfg p f) : Turned cfg p f .crash

theorem turned_assignField (hmanual : ¬ f.Manual cfg) (hgiven : Given cfg p f v) :
    Turned cfg p f (assignField cfg f v result) := by
  have hunpointed : ¬ Unpointed cfg p f := by
    intro h
    obtain ⟨-, field, hfield, hother⟩ := h
    obtain ⟨-, field', hfield', hto⟩ := hgiven
    obtain rfl := Option.some.inj (hfield.symm.trans hfield')
    cases hother.symm.trans hto
  have hrefused : Refused cfg p f ↔ ValueRefused cfg f v := by
    constructor
    · intro h
      rcases h with ⟨hman, -⟩ | ⟨-, hun | ⟨w, hw, hvalue⟩⟩
      · exact absurd hman hmanual
      · exact absurd hun hunpointed
      · rwa [hgiven.unique hw] at hvalue
    · intro h
      exact Or.inr ⟨hmanual, Or.inr ⟨v, hgiven, h⟩⟩
  have hrewritten : Rewritten cfg p f ↔ T.assignableTo v.1 f.type = true ∧
      ∃ w, cfg.transform f.name (T.dynamic v.1 v.2) = .value (some w) ∧
        ∃ h : T.assignableTo w.1 f.type = true, T.convert h w.2 ≠ f.value := by
    constructor
    · intro h
      obtain ⟨-, w, hw, hrest⟩ := h
      rwa [hgiven.unique hw] at hrest
    · intro h
      exact ⟨hmanual, v, hgiven, h⟩
  have hnamed : Named cfg p f := ⟨hmanual, v, hgiven⟩
  unfold assignField
  by_cases htype : T.assignableTo v.1 f.type = false
  · rw [if_pos htype]
    exact .refused (hrefused.mpr (Or.inl htype))
  rw [if_neg htype]
  have hassignable : T.assignableTo v.1 f.type = true := (Bool.not_eq_false _).mp htype
  unfold ValueRefused at hrefused
  cases htransform : cfg.transform f.name (T.dynamic v.1 v.2) with
  | skip =>
    rw [htransform] at hrefused hrewritten
    exact .kept (by simp [hrefused, htype]) (by simp [hrewritten])
  | error text => exact .refused (hrefused.mpr (Or.inr (Or.inl ⟨text, htransform⟩)))
  | value made =>
    rw [htransform] at hrefused hrewritten
    cases made with
    | none => exact .crash hnamed
    | some w =>
      dsimp only
      split
      · next h => exact .written (by simp [hrefused, htype, h]) hnamed (by simp [hrewritten, hassignable, h])
      · next h => exact .refused (hrefused.mpr (Or.inr (Or.inr ⟨w, rfl, (Bool.not_eq_true _).mp h⟩)))

theorem turned_manualField (hmanual : f.Manual cfg) (hgiven : Given cfg p f v) :
    Turned cfg p f (manualField cfg f v result) := by
  have hkept : ¬ Rewritten cfg p f := fun h => h.1 hmanual
  unfold manualField
  cases hanswer : cfg.manualHandler.bind fun handler => handler f.name (T.dynamic v.1 v.2) with
  | some text =>
    obtain ⟨handler, hhandler, herror⟩ := Option.bind_eq_some_iff.mp hanswer
    exact .refused (Or.inl ⟨hmanual, v, hgiven, handler, text, hhandler, herror⟩)
  | none =>
    refine .kept ?_ hkept
    intro h
    rcases h with ⟨-, w, hw, handler, text, hhandler, herror⟩ | ⟨hnot, -⟩
    · rw [hgiven.unique hw] at herror
      have hnone := Option.bind_eq_none_iff.mp hanswer handler hhandler
      cases herror.symm.trans hnone
    · exact hnot hmanual

theorem turned_patchField (cfg : Config T) (p : PatchFields T) (f : Field T) (result : Result T) :
    Turned cfg p f (patchField cfg p f result) := by
  by_cases hgiven : ∃ v, Given cfg p f v
  · obtain ⟨v, hgiven⟩ := hgiven
    rw [patchField_given hgiven]
    split
    · next hmanual => exact turned_manualField hmanual hgiven
    · next hmanual => exact turned_assignField hmanual hgiven
  · have hnone : ∀ v, ¬ Given cfg p f v := fun v h => hgiven ⟨v, h⟩
    have hkept : ¬ Rewritten cfg p f := fun ⟨_, v, hv, _⟩ => hnone v hv
    by_cases hunpointed : Unpointed cfg p f
    · obtain ⟨text, hturn⟩ := patchField_unpointed result hunpointed
      rw [hturn]
      split
      · next hmanual =>
        refine .kept ?_ hkept
        intro h
        rcases h with ⟨-, v, hv, -⟩ | ⟨hnot, -⟩
        · exact hnone v hv
        · exact hnot hmanual
      · next hmanual => exact .refused (Or.inr ⟨hmanual, Or.inl hunpointed⟩)
    · rw [patchField_left hnone hunpointed]
      refine .kept ?_ hkept
      intro h
      rcases h with ⟨-, v, hv, -⟩ | ⟨-, hun | ⟨v, hv, -⟩⟩
      · exact hnone v hv
      · exact hunpointed hun
      · exact hnone v hv

end Turns

section Walk

variable {cfg : Config T} {p : PatchFields T} {f f' : Field T} {fs fs' dst : List (Field T)} {result : Result T}

/-- A field after a patch is as before, or the request names it and it has some value. -/
def KeptUnlessNamed (cfg : Config T) (p : PatchFields T) (f f' : Field T) : Prop :=
  f' = f ∨ Named cfg p f ∧ ∃ value, f' = { f with value := value }

/-- The fields before and after a patch that the first refused field has ended. -/
inductive Stopped (cfg : Config T) (p : PatchFields T) : List (Field T) → List (Field T) → Prop where
  | mk {before before' after : List (Field T)} {f : Field T} (hrefused : Refused cfg p f)
      (hfirst : ∀ g ∈ before, ¬ Refused cfg p g) (hbefore : List.Forall₂ (KeptUnlessNamed cfg p) before before')
      (hiff : before' = before ↔ ∀ g ∈ before, ¬ Rewritten cfg p g) :
      Stopped cfg p (before ++ f :: after) (before' ++ f :: after)

/-- What the loop leaves of the fields, by its outcome. -/
def LoopLeaves (cfg : Config T) (p : PatchFields T) (dst : List (Field T)) : Outcome T → List (Field T) → Prop
  | .error _, fs => Stopped cfg p dst fs
  | _, fs => List.Forall₂ (KeptUnlessNamed cfg p) dst fs

theorem forall₂_kept (cfg : Config T) (p : PatchFields T) (fs : List (Field T)) :
    List.Forall₂ (KeptUnlessNamed cfg p) fs fs :=
  List.forall₂_same.mpr fun _ _ => Or.inl rfl

theorem Field.set_value_eq {value : T.Val f.type} : ({ f with value := value } : Field T) = f ↔ value = f.value := by
  cases f
  simp

theorem LoopLeaves.cons {outcome : Outcome T} (hrefused : ¬ Refused cfg p f) (hfield : KeptUnlessNamed cfg p f f')
    (hiff : f' = f ↔ ¬ Rewritten cfg p f) (h : LoopLeaves cfg p fs outcome fs') :
    LoopLeaves cfg p (f :: fs) outcome (f' :: fs') := by
  cases outcome with
  | ok result => exact List.Forall₂.cons hfield h
  | crash => exact List.Forall₂.cons hfield h
  | error text =>
    cases h with
    | @mk before before' after g hend hfirst hbefore hsame =>
      have hall : ∀ h ∈ f :: before, ¬ Refused cfg p h := List.forall_mem_cons.mpr ⟨hrefused, hfirst⟩
      have hstopped : Stopped cfg p ((f :: before) ++ g :: after) ((f' :: before') ++ g :: after) := by
        refine .mk hend hall (.cons hfield hbefore) ?_
        rw [List.cons.injEq, hiff, hsame, List.forall_mem_cons]
      exact hstopped

theorem patchFields_leaves (cfg : Config T) (p : PatchFields T) (fs : List (Field T)) (result : Result T) :
    LoopLeaves cfg p fs (patchFields cfg p fs result).1 (patchFields cfg p fs result).2 := by
  induction fs generalizing result with
  | nil => exact .nil
  | cons f fs ih =>
    have hturn := turned_patchField cfg p f result
    unfold patchFields
    revert hturn
    generalize patchField cfg p f result = turn
    intro hturn
    cases hturn with
    | @kept result' hrefused hkept => exact (ih result').cons hrefused (Or.inl rfl) (iff_of_true rfl hkept)
    | @written value result' hrefused hnamed hiff =>
      have hsame : ({ f with value := value } : Field T) = f ↔ ¬ Rewritten cfg p f := by
        rw [Field.set_value_eq, hiff, not_not]
      exact (ih result').cons hrefused (Or.inr ⟨hnamed, value, rfl⟩) hsame
    | refused h =>
      have hstopped : Stopped cfg p ([] ++ f :: fs) ([] ++ f :: fs) := by
        refine .mk h (fun _ hg => absurd hg List.not_mem_nil) .nil ?_
        exact iff_of_true rfl fun _ hg => absurd hg List.not_mem_nil
      exact hstopped
    | crash hnamed => exact forall₂_kept cfg p (f :: fs)

/-- What a patch leaves of the fields, by its outcome. -/
def Leaves (cfg : Config T) (p : PatchFields T) (dst : List (Field T)) : Outcome T → List (Field T) → Prop
  | .error _, fs => (∃ name ∈ cfg.ignore, name ∈ cfg.manual) ∧ fs = dst ∨ Stopped cfg p dst fs
  | _, fs => List.Forall₂ (KeptUnlessNamed cfg p) dst fs

/-- A patch that goes through writes only fields that the request names. One that fails has written the
fields before the first refused one, and only those. -/
theorem patch_leaves (cfg : Config T) (p : PatchFields T) (dst : List (Field T)) :
    Leaves cfg p dst (patch cfg p dst).1 (patch cfg p dst).2 := by
  unfold patch
  cases hclash : cfg.ignore.find? (· ∈ cfg.manual) with
  | some name =>
    have hboth := List.find?_some hclash
    exact Or.inl ⟨⟨name, List.mem_of_find?_eq_some hclash, of_decide_eq_true hboth⟩, rfl⟩
  | none =>
    have hloop := patchFields_leaves cfg p dst {}
    dsimp only
    generalize patchFields cfg p dst {} = left at hloop ⊢
    obtain ⟨outcome, fs⟩ := left
    cases outcome with
    | error text => exact Or.inr hloop
    | ok result => exact hloop
    | crash => exact hloop

/-- On an error every field is as before; otherwise only the fields that the request names may differ. -/
structure Atomic (cfg : Config T) (p : PatchFields T) (dst : List (Field T)) : Prop where
  unchanged : ∀ text, (patch cfg p dst).1 = .error text → (patch cfg p dst).2 = dst
  named : ∀ result, (patch cfg p dst).1 = .ok result → List.Forall₂ (KeptUnlessNamed cfg p) dst (patch cfg p dst).2

end Walk

end Chinwag.Reflect

namespace Chinwag.Rooms

open Reflect (Types)

/-- The types of the rooms: none is an interface. -/
def goTypes : Types where
  Typ := GoType
  Val := GoType.Val
  name := GoType.name
  kind := GoType.kind
  elem
    | .ptr elem => some elem
    | _ => none
  deref := fun {t _} h v =>
    match t, h, v with
    | .ptr _, rfl, v => v
  dynamic := fun t v => some ⟨t, v⟩
  assignableTo := fun s t => s = t
  convert := fun h v => of_decide_eq_true h ▸ v

def Field.reflected (f : Field) : Reflect.Field goTypes := ⟨f.name, f.type, f.value, f.exported, f.anon, f.tag⟩

def PatchFields.reflected (p : PatchFields) : Reflect.PatchFields goTypes := p

def TransformFunc.reflected (fn : TransformFunc) : Reflect.TransformFunc goTypes := fun name v =>
  match v with
  | none => .ok none
  | some v =>
    match fn name v with
    | .value w => .ok (some w)
    | .null => .ok none
    | .skip => .error .skip
    | .error text => .error (.other text)

def PatchConfig.reflected (cfg : PatchConfig) : Reflect.Config goTypes where
  ignore := cfg.ignore
  manual := cfg.manual
  transforms := fun name => (cfg.transforms name).map TransformFunc.reflected
  before := cfg.before.map TransformFunc.reflected
  manualHandler := cfg.manualHandler.map fun handler name v => v.bind (handler name)

def PatchResult.reflected (result : PatchResult) : Reflect.Result goTypes where
  updated := result.updated
  manual := result.manual.map fun field => (field.1, some field.2)

def Transformed.reflected (name : String) : Transformed → Reflect.Transformed goTypes
  | .value w => .value (some w)
  | .null => .error s!"field {name}: transform returned nil"
  | .skip => .skip
  | .error text => .error s!"field {name}: transform error: {text}"

def reflectedTurn : Except String (Field × PatchResult) → Reflect.Turn goTypes
  | .ok (f, result) => .next f.reflected result.reflected
  | .error text => .error text

variable {cfg : PatchConfig} {p : PatchFields} {f : Field} {result : PatchResult}

theorem run_reflected (fn : TransformFunc) (name : String) (v : GoValue) :
    Reflect.TransformFunc.run fn.reflected name (some v) = (fn name v).reflected name := by
  unfold Reflect.TransformFunc.run TransformFunc.reflected
  dsimp only
  cases fn name v <;> rfl

theorem runBefore_reflected (name : String) (fns : List TransformFunc) (v : GoValue) :
    Reflect.runBefore name (fns.map TransformFunc.reflected) (some v) = (runBefore name fns v).reflected name := by
  induction fns generalizing v with
  | nil => rfl
  | cons fn fns ih =>
    rw [List.map_cons, Reflect.runBefore, run_reflected, runBefore]
    cases fn name v with
    | value w => exact ih w
    | _ => rfl

theorem transform_reflected (name : String) (v : GoValue) :
    cfg.reflected.transform name (some v) = (cfg.transform name v).reflected name := by
  unfold Reflect.Config.transform PatchConfig.transform PatchConfig.reflected
  dsimp only
  cases cfg.transforms name with
  | none => exact runBefore_reflected name cfg.before v
  | some fn => exact run_reflected fn name v

theorem assignableTo_reflected (v : GoValue) : goTypes.assignableTo v.1 f.reflected.type = true ↔ v.1 = f.type := by
  show decide (v.1 = f.type) = true ↔ _
  exact decide_eq_true_iff

theorem assignField_reflected (v : GoValue) :
    Reflect.assignField cfg.reflected f.reflected v result.reflected = reflectedTurn (assignField cfg f v result) := by
  unfold Reflect.assignField assignField
  by_cases htype : v.1 = f.type
  · have hassignable : ¬ goTypes.assignableTo v.1 f.reflected.type = false :=
      (Bool.not_eq_false _).mpr ((assignableTo_reflected v).mpr htype)
    have htransform : cfg.reflected.transform f.reflected.name (goTypes.dynamic v.1 v.2) =
        (cfg.transform f.name v).reflected f.name := transform_reflected f.name v
    rw [if_neg hassignable, if_neg (not_not_intro htype), htransform]
    cases cfg.transform f.name v with
    | value w =>
      by_cases hw : w.1 = f.type
      · have hset : f.set w = some { f with value := hw ▸ w.2 } := dif_pos hw
        dsimp only
        rw [hset]
        exact dif_pos ((assignableTo_reflected w).mpr hw)
      · have hset : f.set w = none := dif_neg hw
        dsimp only
        rw [hset]
        exact dif_neg fun h => hw ((assignableTo_reflected w).mp h)
    | _ => rfl
  · have hassignable : goTypes.assignableTo v.1 f.reflected.type = false :=
      (Bool.not_eq_true _).mp fun h => htype ((assignableTo_reflected v).mp h)
    rw [if_pos hassignable, if_pos htype]
    rfl

theorem manualField_reflected (v : GoValue) :
    Reflect.manualField cfg.reflected f.reflected v result.reflected = reflectedTurn (manualField cfg f v result) := by
  unfold Reflect.manualField manualField
  have hanswer : (cfg.reflected.manualHandler.bind fun handler => handler f.reflected.name (goTypes.dynamic v.1 v.2)) =
      cfg.manualHandler.bind fun handler => handler f.name v := by
    show (cfg.manualHandler.map _).bind _ = _
    cases cfg.manualHandler <;> rfl
  rw [hanswer]
  cases cfg.manualHandler.bind fun handler => handler f.name v with
  | some text => rfl
  | none =>
    show Reflect.Turn.next _ _ = Reflect.Turn.next _ _
    congr 1
    show Reflect.Result.mk _ _ = Reflect.Result.mk _ _
    rw [List.map_append]
    rfl

theorem passed_reflected : f.reflected.Passed cfg.reflected ↔
    (!f.exported || f.anon) = true ∨ (f.name ∈ cfg.ignore || f.tag = "ignore") = true := by
  simp [Reflect.Field.Passed, Field.reflected, PatchConfig.reflected, or_assoc]

theorem manual_reflected : f.reflected.Manual cfg.reflected ↔ (f.name ∈ cfg.manual || f.tag = "manual") = true := by
  simp [Reflect.Field.Manual, Field.reflected, PatchConfig.reflected]

theorem patchField_reflected :
    Reflect.patchField cfg.reflected p.reflected f.reflected result.reflected = reflectedTurn (patchField cfg p f result) := by
  unfold Reflect.patchField patchField
  by_cases hpass : f.reflected.Passed cfg.reflected
  · rw [if_pos hpass]
    rcases passed_reflected.mp hpass with h | h
    · rw [if_pos h]
      rfl
    · rw [if_pos h, ite_self]
      rfl
  have hkept := fun h => hpass (passed_reflected.mpr h)
  rw [if_neg hpass, if_neg (fun h => hkept (Or.inl h)), if_neg (fun h => hkept (Or.inr h))]
  cases hfield : p.lookup f.name with
  | none =>
    rw [show p.reflected.lookup f.reflected.name = none from hfield, ite_self, ite_self]
    rfl
  | some field =>
    rw [show p.reflected.lookup f.reflected.name = some field from hfield]
    obtain ⟨type, value⟩ := field
    by_cases hmanual : f.reflected.Manual cfg.reflected
    · rw [if_pos hmanual, if_pos (manual_reflected.mp hmanual)]
      cases type with
      | ptr elem =>
        cases value with
        | none => rfl
        | some v => exact manualField_reflected ⟨elem, v⟩
      | _ => rfl
    · rw [if_neg hmanual, if_neg fun h => hmanual (manual_reflected.mpr h)]
      cases type with
      | ptr elem =>
        cases value with
        | none => rfl
        | some v => exact assignField_reflected ⟨elem, v⟩
      | _ => rfl

theorem patchFields_reflected (cfg : PatchConfig) (p : PatchFields) (fs : List Field) (result : PatchResult) :
    match patchFields cfg p fs result with
    | .ok (fs', result') =>
      Reflect.patchFields cfg.reflected p.reflected (fs.map Field.reflected) result.reflected =
        (.ok result'.reflected, fs'.map Field.reflected)
    | .error text =>
      (Reflect.patchFields cfg.reflected p.reflected (fs.map Field.reflected) result.reflected).1 = .error text := by
  induction fs generalizing result with
  | nil => rfl
  | cons f fs ih =>
    have hturn : Reflect.patchField cfg.reflected p.reflected f.reflected result.reflected =
        reflectedTurn (patchField cfg p f result) := patchField_reflected
    rw [List.map_cons, Reflect.patchFields, hturn, patchFields]
    cases patchField cfg p f result with
    | error text => rfl
    | ok done =>
      obtain ⟨f', result'⟩ := done
      have hrest := ih result'
      dsimp only [reflectedTurn]
      cases hfields : patchFields cfg p fs result' with
      | error text =>
        rw [hfields] at hrest
        exact hrest
      | ok rest =>
        rw [hfields] at hrest
        dsimp only at hrest ⊢
        rw [hrest]
        rfl

/-- The patch of the services is this one, which says moreover what it leaves behind when it fails. -/
theorem patch_reflected (cfg : PatchConfig) (p : PatchFields) (dst : List Field) :
    match patch dst p cfg with
    | .ok (fs, result) =>
      Reflect.patch cfg.reflected p.reflected (dst.map Field.reflected) = (.ok result.reflected, fs.map Field.reflected)
    | .error text => (Reflect.patch cfg.reflected p.reflected (dst.map Field.reflected)).1 = .error text := by
  unfold patch Reflect.patch
  have hclash : cfg.reflected.ignore.find? (· ∈ cfg.reflected.manual) = cfg.ignore.find? (· ∈ cfg.manual) := rfl
  rw [hclash]
  cases cfg.ignore.find? (· ∈ cfg.manual) with
  | some name => rfl
  | none => exact patchFields_reflected cfg p dst {}

section Sample

def atticRequest : UpdateRoomRequest := ⟨some "Attic", some "under the roof", none⟩

/-- A room is given a name and a description. The description is refused, and the name is the new one. -/
theorem room_half_patched : ¬ Reflect.Atomic (ignoring roomIgnored).reflected atticRequest.fields.reflected
    ((sampleRoom 16 none none).fields.map Field.reflected) := by
  have hleft : Reflect.patch (ignoring roomIgnored).reflected atticRequest.fields.reflected
      ((sampleRoom 16 none none).fields.map Field.reflected) =
        (.error "field Description: type mismatch (string -> *string)",
          ({ sampleRoom 16 none none with name := "Attic" } : Room).fields.map Field.reflected) := rfl
  intro h
  have hsame := h.unchanged _ (congrArg Prod.fst hleft)
  rw [hleft] at hsame
  have hsecond : (⟨"Name", .string, "Attic", true, false, ""⟩ : Reflect.Field goTypes) =
      ⟨"Name", .string, "Den", true, false, ""⟩ := Option.some.inj (congrArg (fun fs => fs[1]?) hsame)
  obtain ⟨-, -, hvalue, -⟩ := Reflect.Field.mk.inj hsecond
  have hname : "Attic" = "Den" := eq_of_heq hvalue
  exact absurd hname (by decide)

end Sample

end Chinwag.Rooms

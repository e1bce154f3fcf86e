import ApiSmith.Operation.WireType
import ApiSmith.Proofs.Logged

/-!
# Outcomes apart from places

The place of a schema in its document is in the reports of defects and in the log, and it has no
part in the type that the schema comes to. `Compile.outcome` is what a computation comes to without
the two, and the outcome of a schema is the same at all places (`outcome_resolve`,
`outcome_wireType`).

Nor does it matter what else stands beside the entries that a type is read from: two schemas with
the same of these have the same type (`wireType_congr`).
-/

namespace ApiSmith

/-! ## Outcomes -/

def Halt.unplaced : Halt → Halt
  | .defect d => .defect ⟨d.cause, ""⟩
  | h => h

namespace Compile

variable {α β : Type}

/-- What a computation comes to, apart from the place of a defect and from the log. -/
def outcome (x : Compile α) : Except Halt α := x.result.mapError Halt.unplaced

@[simp] theorem outcome_pure (a : α) : outcome (pure a : Compile α) = .ok a := rfl

@[simp] theorem outcome_fail (h : Halt) : outcome (.fail h : Compile α) = .error h.unplaced := rfl

@[simp] theorem outcome_defect (cause : Cause) (location : String) :
    outcome (.defect cause location : Compile α) = .error (.defect ⟨cause, ""⟩) := rfl

@[simp] theorem outcome_bind (x : Compile α) (f : α → Compile β) :
    outcome (x >>= f) = (outcome x).bind fun a => outcome (f a) := by
  unfold outcome
  rw [Logged.result_bind]
  cases x.result <;> rfl

theorem outcome_bind_congr {x x' : Compile α} {f f' : α → Compile β}
    (hx : outcome x = outcome x') (hf : ∀ a, outcome (f a) = outcome (f' a)) :
    outcome (x >>= f) = outcome (x' >>= f') := by
  rw [outcome_bind, outcome_bind, hx, funext hf]

theorem outcome_eq_ok {x : Compile α} {a : α} : outcome x = .ok a ↔ x.result = .ok a := by
  unfold outcome
  cases x.result <;> simp [Except.mapError]

theorem error_of_outcome {x : Compile α} {h : Halt} (hx : outcome x = .error h) :
    ∃ e, x.result = .error e ∧ e.unplaced = h := by
  unfold outcome at hx
  cases hresult : x.result with
  | error e =>
    rw [hresult] at hx
    cases hx
    exact ⟨e, rfl, rfl⟩
  | ok a =>
    rw [hresult] at hx
    cases hx

theorem outcome_of_error {x : Compile α} {h : Halt} (hx : x.result = .error h) :
    outcome x = .error h.unplaced := by
  rw [outcome, hx]
  rfl

end Compile

open Compile

/-! ## Enums -/

namespace EnumSpec

variable {p : Profile} (place other : String)

theorem outcome_memberValue (v : Value) :
    (memberValue v place).outcome = (memberValue v other).outcome := by
  unfold memberValue
  split
  · rfl
  · split
    · rfl
    · split <;> rfl

theorem outcome_memberName (text : List Char) :
    (memberName p text place).outcome = (memberName p text other).outcome := by
  unfold memberName
  refine outcome_bind_congr rfl fun cleaned => ?_
  dsimp only
  split
  · rfl
  · split <;> rfl

theorem outcome_membersOfValues (vs : List Value) :
    (membersOfValues p place vs).outcome = (membersOfValues p other vs).outcome := by
  induction vs with
  | nil => rfl
  | cons v rest ih =>
    refine outcome_bind_congr (outcome_memberValue place other v) fun n => ?_
    exact outcome_bind_congr ih fun more => rfl

theorem outcome_memberOfSegment (segment : List Char) :
    (memberOfSegment p place segment).outcome = (memberOfSegment p other segment).outcome := by
  unfold memberOfSegment
  split
  · rfl
  · split
    · rfl
    · refine outcome_bind_congr (outcome_memberName place other _) fun name => ?_
      exact outcome_bind_congr (outcome_memberValue place other _) fun n => rfl

theorem outcome_membersOfSegments (segments : List (List Char)) :
    (membersOfSegments p place segments).outcome =
      (membersOfSegments p other segments).outcome := by
  induction segments with
  | nil => rfl
  | cons s rest ih =>
    refine outcome_bind_congr (outcome_memberOfSegment place other s) fun m => ?_
    exact outcome_bind_congr ih fun more => rfl

theorem outcome_membersOfDescription (description : List Char) :
    (membersOfDescription p place description).outcome =
      (membersOfDescription p other description).outcome := by
  refine outcome_bind_congr ?_ fun inside => outcome_membersOfSegments place other _
  unfold listText
  split
  · rfl
  · split <;> rfl

def ofMembers (c : NamingContext) (members : List EnumMember) : Compile EnumSpec :=
  if members.isEmpty then .defect .noMembers c.location
  else
    match duplicate? [] (members.map (·.name)) with
    | some n => .defect (.duplicateMember n) c.location
    | none => do
      let name ← Compile.shaped (nameIn? c)
      pure ⟨name, members⟩

end EnumSpec

/-- Two contexts with the same names; their places may differ. -/
structure NamingContext.SameNames (c c' : NamingContext) : Prop where
  owner : c.owner = c'.owner
  member : c.member = c'.member

theorem NamingContext.SameNames.child {c c' : NamingContext} (h : c.SameNames c') (step : String) :
    (c.child step).SameNames (c'.child step) := ⟨h.owner, h.member⟩

theorem NamingContext.sameNames_child (c : NamingContext) (step : String) :
    (c.child step).SameNames c := ⟨rfl, rfl⟩

section

variable {p : Profile} {c c' : NamingContext} (names : c.SameNames c')
include names

theorem nameIn?_eq : EnumSpec.nameIn? c = EnumSpec.nameIn? c' := by
  unfold EnumSpec.nameIn?
  rw [names.owner, names.member]

theorem outcome_ofMembers (members : List EnumMember) :
    (EnumSpec.ofMembers c members).outcome = (EnumSpec.ofMembers c' members).outcome := by
  unfold EnumSpec.ofMembers
  rw [nameIn?_eq names]
  split
  · rfl
  · split <;> rfl

theorem outcome_ofSchema (es : List (Value × Value)) :
    (EnumSpec.ofSchema p es c).outcome = (EnumSpec.ofSchema p es c').outcome := by
  unfold EnumSpec.ofSchema
  refine outcome_bind_congr rfl fun values => outcome_bind_congr rfl fun description => ?_
  dsimp only
  split
  · refine outcome_bind_congr (EnumSpec.outcome_membersOfDescription _ _ _) fun members => ?_
    split
    · exact outcome_bind_congr rfl fun _ => outcome_ofMembers names members
    · exact outcome_ofMembers names members
  · exact outcome_bind_congr (EnumSpec.outcome_membersOfValues _ _ _) (outcome_ofMembers names)

/-! ## Types -/

/-- The type of a schema is the same at all places. -/
theorem outcome_resolve (node : Value) :
    (resolve p node c).outcome = (resolve p node c').outcome := by
  have kind (es : List (Value × Value)) (c c' : NamingContext) :
      (resolveKind p es c).outcome = (resolveKind p es c').outcome := by
    unfold resolveKind
    extract_lets type format kind
    split
    · rfl
    · cases kind <;> rfl
  -- by the cases of the resolution: the path through them depends on the entries alone
  fun_induction resolve p node c generalizing c' with
  | case1 c es henum =>
    simp only [resolve_map, henum, if_true]
    exact outcome_bind_congr (outcome_ofSchema names es) fun _ => rfl
  | case2 c es henum htype items hitems hpresent ih =>
    simp only [resolve_map, henum, htype, hitems, hpresent, if_true]
    exact outcome_bind_congr (ih (names.child "items")) fun _ => rfl
  | case3 c es henum htype items hitems hpresent =>
    simp only [resolve_map, henum, htype, hitems, hpresent, if_true]
    rfl
  | case4 c es henum htype hitems =>
    simp only [resolve_map, henum, htype, hitems, if_true]
    rfl
  | case5 c es henum htype ref href =>
    simp only [resolve_map, henum, htype, href]
    rfl
  | case6 c es henum htype ref hne href =>
    simp only [resolve_map, henum, htype, href]
    rfl
  | case7 c es henum htype href v hv x hx ih =>
    simp only [resolve_map, henum, htype, href, hv, hx, Option.map_some]
    exact ih (names.child "allOf")
  | case8 c es henum htype href v hv hx =>
    simp only [resolve_map, henum, htype, href, hv, hx, Option.map_some]
    rfl
  | case9 c es henum htype href v hv hx =>
    simp only [resolve_map, henum, htype, href, hv, hx, Option.map_some]
    exact kind es c c'
  | case10 c es henum htype href hv =>
    simp only [resolve_map, henum, htype, href, hv, Option.map_none]
    exact kind es c c'
  | case11 node c hmap =>
    rw [resolve]
    exact hmap

theorem outcome_wireType (node : Value) :
    (wireType p node c).outcome = (wireType p node c').outcome := by
  refine outcome_bind_congr rfl fun es => outcome_bind_congr rfl fun inPlace => ?_
  cases inPlace with
  | some e => rfl
  | none => exact outcome_bind_congr (outcome_resolve names node) fun _ => rfl

end

/-! ## Entries -/

def schemaKeys : List String :=
  ["enum", "type", "items", "$ref", "allOf", "properties", "format", "description"]

/-- Two schemas with the same entries as far as their types are read from them. -/
def SameSchema (es es' : List (Value × Value)) : Prop :=
  ∀ key ∈ schemaKeys, lookupText key es = lookupText key es'

section

variable {p : Profile} {es es' : List (Value × Value)} (same : SameSchema es es')
include same

theorem resolve_congr (c : NamingContext) : resolve p (.map es) c = resolve p (.map es') c := by
  have henum := same "enum" (by decide)
  have htype := same "type" (by decide)
  have hschema : EnumSpec.ofSchema p es c = EnumSpec.ofSchema p es' c := by
    unfold EnumSpec.ofSchema
    rw [henum, same "description" (by decide)]
  have hkind : resolveKind p es c = resolveKind p es' c := by
    unfold resolveKind
    rw [htype, same "properties" (by decide), same "format" (by decide)]
  rw [resolve_map, resolve_map, henum, htype, same "items" (by decide), same "$ref" (by decide),
    same "allOf" (by decide), hschema, hkind]

theorem InlineEnum.ofEntries?_congr : ofEntries? es = ofEntries? es' := by
  unfold ofEntries?
  rw [same "enum" (by decide), same "type" (by decide), same "items" (by decide)]

theorem wireType_congr (c : NamingContext) :
    wireType p (.map es) c = wireType p (.map es') c := by
  unfold wireType
  simp only [Value.entries?, Compile.shaped_some, pure_bind, InlineEnum.ofEntries?_congr same,
    resolve_congr same]

end

end ApiSmith

import ApiSmith.Proofs.AddedTypes
import ApiSmith.Proofs.ListTypes
import ApiSmith.Proofs.Places
import Mathlib.Logic.Function.Iterate

/-!
# The steps to the schema that decides

The type of a schema is decided at one schema, which is reached by steps to the items of an array
and to the only entry of an `allOf` (`LeadsTo`). The schema at the end is an enum, a reference, or
one whose type and format are looked up, and it settles to a type (`Settles`) or it fails (`Fails`).
`resolve_follows_steps` says that this is all there is: the type of the first schema is that of the
last one in as many arrays as there are steps to items, and a defect is that of the last one, at the
place that spells the steps.
-/

namespace ApiSmith

open Value

/-! ## Steps -/

/-- A step from a schema to one that its type depends on. -/
inductive SchemaStep where
  | items
  | allOf
  deriving DecidableEq, Repr

namespace SchemaStep

def key : SchemaStep → String
  | .items => "items"
  | .allOf => "allOf"

def text : List SchemaStep → String
  | [] => ""
  | s :: rest => "." ++ s.key ++ text rest

end SchemaStep

def NamingContext.along (c : NamingContext) (steps : List SchemaStep) : NamingContext :=
  { c with location := c.location ++ SchemaStep.text steps }

@[simp] theorem NamingContext.location_along (c : NamingContext) (steps : List SchemaStep) :
    (c.along steps).location = c.location ++ SchemaStep.text steps := rfl

theorem NamingContext.along_nil (c : NamingContext) : c.along [] = c := by
  simp [along, SchemaStep.text]

theorem NamingContext.along_cons (c : NamingContext) (s : SchemaStep) (rest : List SchemaStep) :
    c.along (s :: rest) = (c.child s.key).along rest := by
  simp [along, child, SchemaStep.text, String.append_assoc]

/-- A schema that decides its own type: it has an enum, or it is no array and is not left to a
single `allOf`. -/
def Value.IsLast (v : Value) : Prop :=
  ∀ es, v = .map es → valueAt es "enum" ≠ .null ∨
    valueAt es "type" ≠ .text "array" ∧
      ∀ x, lookupText "$ref" es = none → AllOf.of (valueAt es "allOf") ≠ .single x

/-- Steps from a schema to the one that decides its type. An array without items has an empty
schema for them. -/
inductive Value.LeadsTo : Value → List SchemaStep → Value → Prop
  | here {v : Value} (last : v.IsLast) : LeadsTo v [] v
  | items {es : List (Value × Value)} (enum : valueAt es "enum" = .null)
    (type : valueAt es "type" = .text "array") {steps : List SchemaStep} {leaf : Value}
    (inner : LeadsTo ((valueAt es "items").orElse (.map [])) steps leaf) :
    LeadsTo (.map es) (.items :: steps) leaf
  | allOf {es : List (Value × Value)} (enum : valueAt es "enum" = .null)
    (type : valueAt es "type" ≠ .text "array") (ref : lookupText "$ref" es = none) {x : Value}
    (single : AllOf.of (valueAt es "allOf") = .single x) {steps : List SchemaStep} {leaf : Value}
    (inner : LeadsTo x steps leaf) : LeadsTo (.map es) (.allOf :: steps) leaf

theorem Value.isLast_empty : (Value.map []).IsLast := by
  intro es h
  cases h
  exact .inr ⟨nofun, nofun⟩

theorem items_cases (es : List (Value × Value)) :
    (valueAt es "items").orElse (.map []) = .map [] ∨
      sizeOf ((valueAt es "items").orElse (.map [])) < sizeOf es := by
  unfold Value.orElse
  split
  · next present =>
    have hne : valueAt es "items" ≠ .null := by
      intro h
      rw [h] at present
      cases present
    exact .inr (sizeOf_lookupText (lookup_of_valueAt rfl hne))
  · exact .inl rfl

theorem sizeOf_of_single {es : List (Value × Value)} {x : Value}
    (h : AllOf.of (valueAt es "allOf") = .single x) : sizeOf x < sizeOf es := by
  have hne : valueAt es "allOf" ≠ .null := by
    intro hnull
    rw [hnull] at h
    cases h
  exact Nat.lt_trans (sizeOf_allOf h) (sizeOf_lookupText (lookup_of_valueAt rfl hne))

theorem Value.exists_leadsTo (v : Value) : ∃ steps leaf, v.LeadsTo steps leaf := by
  by_cases hlast : v.IsLast
  · exact ⟨[], v, .here hlast⟩
  · unfold Value.IsLast at hlast
    push Not at hlast
    obtain ⟨es, hv, henum, hstep⟩ := hlast
    rw [hv]
    by_cases htype : valueAt es "type" = .text "array"
    · rcases items_cases es with hempty | hsmaller
      · exact ⟨[.items], .map [], .items henum htype (by rw [hempty]; exact .here isLast_empty)⟩
      · obtain ⟨steps, leaf, h⟩ := exists_leadsTo ((valueAt es "items").orElse (.map []))
        exact ⟨_, leaf, .items henum htype h⟩
    · obtain ⟨x, href, hsingle⟩ := hstep htype
      obtain ⟨steps, leaf, h⟩ := exists_leadsTo x
      exact ⟨_, leaf, .allOf henum htype href hsingle h⟩
termination_by sizeOf v
decreasing_by
  · rw [hv, Value.map.sizeOf_spec]
    omega
  · have := sizeOf_of_single hsingle
    rw [hv, Value.map.sizeOf_spec]
    omega

theorem Value.LeadsTo.isLast {v leaf : Value} {steps : List SchemaStep}
    (h : v.LeadsTo steps leaf) : leaf.IsLast := by
  induction h with
  | here last => exact last
  | items _ _ _ ih => exact ih
  | allOf _ _ _ _ _ ih => exact ih

/-- The steps and their end are determined by the schema. -/
theorem Value.LeadsTo.unique {v leaf leaf' : Value} {steps steps' : List SchemaStep}
    (h : v.LeadsTo steps leaf) (h' : v.LeadsTo steps' leaf') : steps' = steps ∧ leaf' = leaf := by
  -- a schema that decides its own type leads nowhere, so the two take the same kind of step
  induction h generalizing steps' leaf' with
  | here last =>
    cases h' with
    | here => exact ⟨rfl, rfl⟩
    | items enum type =>
      rcases last _ rfl with other | ⟨other, -⟩
      · exact absurd enum other
      · exact absurd type other
    | allOf enum _ ref single =>
      rcases last _ rfl with other | ⟨-, other⟩
      · exact absurd enum other
      · exact absurd single (other _ ref)
  | items enum type inner ih =>
    cases h' with
    | here last =>
      rcases last _ rfl with other | ⟨other, -⟩
      · exact absurd enum other
      · exact absurd type other
    | items _ _ inner' =>
      obtain ⟨rfl, rfl⟩ := ih inner'
      exact ⟨rfl, rfl⟩
    | allOf _ other => exact absurd type other
  | allOf enum type ref single inner ih =>
    cases h' with
    | here last =>
      rcases last _ rfl with other | ⟨-, other⟩
      · exact absurd enum other
      · exact absurd single (other _ ref)
    | items _ array => exact absurd array type
    | allOf _ _ _ single' inner' =>
      rw [single] at single'
      cases single'
      obtain ⟨rfl, rfl⟩ := ih inner'
      exact ⟨rfl, rfl⟩

/-! ## What the last schema says -/

/-- The format that a type is looked up with: an object with properties has none. -/
def formatAt (es : List (Value × Value)) : Value :=
  if (valueAt es "type").isText "object" && (lookupText "properties" es).isSome then .null
  else valueAt es "format"

def formatValue : Option String → Value
  | some f => .text f
  | none => .null

/-- A schema whose type is looked up. -/
structure IsLookedUp (es : List (Value × Value)) : Prop where
  enum : valueAt es "enum" = .null
  type : valueAt es "type" ≠ .text "array"
  ref : lookupText "$ref" es = none
  allOf : AllOf.of (valueAt es "allOf") = .none

/-- A type and a format are no key of the table of primitive types. -/
def Profile.Lacks (p : Profile) (type format : Value) : Prop :=
  ∀ e ∈ p.primitiveTypes, ¬ (type = .text e.1.1 ∧ format = formatValue e.1.2)

/-- What a schema that decides its own type comes to. -/
inductive Value.Settles (p : Profile) (c : NamingContext) : Value → Descriptor → Prop
  | enum {es : List (Value × Value)} {spec : EnumSpec} (own : valueAt es "enum" ≠ .null)
    (made : (EnumSpec.ofSchema p es c).result = .ok spec) : Settles p c (.map es) (.enum spec)
  | reference {es : List (Value × Value)} {ref : String} (enum : valueAt es "enum" = .null)
    (type : valueAt es "type" ≠ .text "array") (own : lookupText "$ref" es = some (.text ref)) :
    Settles p c (.map es) (.reference (refName ref))
  | primitive {es : List (Value × Value)} {key : TypeKey} {kind : PrimitiveKind}
    (own : IsLookedUp es) (type : valueAt es "type" = .text key.1)
    (format : formatAt es = formatValue key.2) (entry : p.kindOf? key = some kind) :
    Settles p c (.map es) (.primitive kind)

/-- Why a schema that decides its own type comes to nothing: its enum is malformed, or the table
lacks what is looked up. -/
inductive Value.Fails (p : Profile) (c : NamingContext) : Value → Cause → Prop
  | enum {es : List (Value × Value)} {cause : Cause} (own : valueAt es "enum" ≠ .null)
    (failed : (EnumSpec.ofSchema p es c).result = .error (.defect ⟨cause, c.location⟩))
    (malformed : cause.class = .malformedEnum) : Fails p c (.map es) cause
  | lookup {es : List (Value × Value)} (own : IsLookedUp es)
    (type : (valueAt es "type").isHashable = true) (format : (formatAt es).isHashable = true)
    (absent : p.Lacks (valueAt es "type") (formatAt es)) :
    Fails p c (.map es) (.unmappedType (valueAt es "type") (formatAt es))

/-! ## Defects of enums -/

namespace Compile

variable {α β : Type} {location : String}

def FailsAt (location : String) (x : Compile α) : Prop :=
  ∀ d, x.result = .error (.defect d) → d.location = location ∧ d.cause.class = .malformedEnum

theorem failsAt_of_ok {x : Compile α} {a : α} (h : x.result = .ok a) : FailsAt location x := by
  intro d hd
  rw [h] at hd
  cases hd

theorem failsAt_pure (a : α) : FailsAt location (pure a : Compile α) := failsAt_of_ok rfl

theorem failsAt_shape : FailsAt location (.fail .shape : Compile α) := nofun

theorem failsAt_shaped (x : Option α) : FailsAt location (shaped x) := by
  cases x with
  | none => exact failsAt_shape
  | some a => exact failsAt_pure a

theorem failsAt_defect {cause : Cause} (h : cause.class = .malformedEnum) :
    FailsAt location (defect cause location : Compile α) := by
  intro d hd
  cases hd
  exact ⟨rfl, h⟩

theorem FailsAt.bind {x : Compile α} {f : α → Compile β} (hx : FailsAt location x)
    (hf : ∀ a, FailsAt location (f a)) : FailsAt location (x >>= f) := by
  intro d hd
  rw [Logged.result_bind] at hd
  cases hresult : x.result with
  | error e =>
    rw [hresult] at hd
    cases hd
    exact hx d hresult
  | ok a =>
    rw [hresult] at hd
    exact hf a d hd

end Compile

namespace EnumSpec

open Compile

variable {p : Profile} {location : String}

theorem failsAt_memberValue (v : Value) : FailsAt location (memberValue v location) := by
  unfold memberValue
  split
  · exact failsAt_defect rfl
  · split
    · exact failsAt_shape
    · split
      · exact failsAt_pure _
      · exact failsAt_defect rfl

theorem failsAt_memberName (text : List Char) : FailsAt location (memberName p text location) := by
  refine (failsAt_shaped _).bind fun cleaned => ?_
  dsimp only
  split
  · exact failsAt_defect rfl
  · split
    · exact failsAt_shaped _
    · exact failsAt_pure _

theorem failsAt_membersOfValues (vs : List Value) :
    FailsAt location (membersOfValues p location vs) := by
  induction vs with
  | nil => exact failsAt_pure _
  | cons v rest ih =>
    exact (failsAt_memberValue v).bind fun n => ih.bind fun more => failsAt_pure _

theorem failsAt_memberOfSegment (segment : List Char) :
    FailsAt location (memberOfSegment p location segment) := by
  unfold memberOfSegment
  split
  · exact failsAt_defect rfl
  · split
    · exact failsAt_defect rfl
    · refine (failsAt_memberName _).bind fun name => ?_
      exact (failsAt_memberValue _).bind fun n => failsAt_pure _

theorem failsAt_membersOfSegments (segments : List (List Char)) :
    FailsAt location (membersOfSegments p location segments) := by
  induction segments with
  | nil => exact failsAt_pure _
  | cons s rest ih =>
    exact (failsAt_memberOfSegment s).bind fun m => ih.bind fun more => failsAt_pure _

theorem failsAt_membersOfDescription (description : List Char) :
    FailsAt location (membersOfDescription p location description) := by
  refine FailsAt.bind ?_ fun inside => failsAt_membersOfSegments _
  unfold listText
  split
  · exact failsAt_defect rfl
  · split
    · exact failsAt_pure _
    · exact failsAt_defect rfl

theorem failsAt_ofMembers (c : NamingContext) (members : List EnumMember) :
    FailsAt c.location (ofMembers c members) := by
  unfold ofMembers
  split
  · exact failsAt_defect rfl
  · split
    · exact failsAt_defect rfl
    · exact (failsAt_shaped _).bind fun name => failsAt_pure _

theorem failsAt_ofSchema (es : List (Value × Value)) (c : NamingContext) :
    FailsAt c.location (ofSchema p es c) := by
  refine (failsAt_shaped _).bind fun values => (failsAt_shaped _).bind fun description => ?_
  dsimp only
  split
  · refine (failsAt_membersOfDescription _).bind fun members => ?_
    split
    · exact (failsAt_of_ok rfl).bind fun _ => failsAt_ofMembers c members
    · exact failsAt_ofMembers c members
  · exact (failsAt_membersOfValues _).bind (failsAt_ofMembers c)

end EnumSpec

/-! ## The last schema -/

section

variable {p : Profile} {c : NamingContext} {es : List (Value × Value)} {type format : Value}

/-- The kind of a type and a format, if the table has them. -/
def Profile.kindAt? (p : Profile) (type format : Value) : Option PrimitiveKind :=
  match type, format with
  | .text t, .text f => p.kindOf? (t, some f)
  | .text t, .null => p.kindOf? (t, none)
  | _, _ => none

theorem Profile.kindAt?_key (key : TypeKey) :
    p.kindAt? (.text key.1) (formatValue key.2) = p.kindOf? key := by
  obtain ⟨t, _ | f⟩ := key <;> rfl

theorem Profile.kindAt?_eq_some_iff {kind : PrimitiveKind} :
    p.kindAt? type format = some kind ↔
      ∃ key : TypeKey, type = .text key.1 ∧ format = formatValue key.2 ∧
        p.kindOf? key = some kind := by
  constructor
  · intro h
    unfold kindAt? at h
    split at h
    · next t f => exact ⟨(t, some f), rfl, rfl, h⟩
    · next t => exact ⟨(t, none), rfl, rfl, h⟩
    · cases h
  · rintro ⟨key, rfl, rfl, h⟩
    rw [kindAt?_key, h]

theorem Profile.kindAt?_eq_none_iff : p.kindAt? type format = none ↔ p.Lacks type format := by
  constructor
  · rintro h e he ⟨rfl, rfl⟩
    rw [kindAt?_key] at h
    have hsome := isSome_kindOf?.mpr (List.mem_map_of_mem he)
    rw [h] at hsome
    cases hsome
  · intro h
    rw [Option.eq_none_iff_forall_ne_some]
    intro kind hkind
    obtain ⟨key, htype, hformat, hkey⟩ := kindAt?_eq_some_iff.mp hkind
    obtain ⟨e, he, rfl⟩ := List.mem_map.mp (isSome_kindOf?.mp (Option.isSome_of_mem hkey))
    exact h e he ⟨htype, hformat⟩

theorem resolveKind_eq : resolveKind p es c =
    if !((valueAt es "type").isHashable && (formatAt es).isHashable) then .fail .shape
    else match p.kindAt? (valueAt es "type") (formatAt es) with
      | some k => pure (.primitive k)
      | none => .defect (.unmappedType (valueAt es "type") (formatAt es)) c.location := rfl

theorem resolveKind_eq_ok_iff {d : Descriptor} : (resolveKind p es c).result = .ok d ↔
    ∃ kind, p.kindAt? (valueAt es "type") (formatAt es) = some kind ∧ d = .primitive kind := by
  rw [resolveKind_eq]
  cases hkind : p.kindAt? (valueAt es "type") (formatAt es) with
  | none => split <;> simp
  | some kind =>
    obtain ⟨⟨t, f⟩, htype, hformat, -⟩ := Profile.kindAt?_eq_some_iff.mp hkind
    rw [htype, hformat]
    cases f <;> simp [formatValue, isHashable, eq_comm]

theorem resolveKind_eq_defect_iff {d : Defect} :
    (resolveKind p es c).result = .error (.defect d) ↔
      (valueAt es "type").isHashable = true ∧ (formatAt es).isHashable = true ∧
        p.Lacks (valueAt es "type") (formatAt es) ∧
        d = ⟨.unmappedType (valueAt es "type") (formatAt es), c.location⟩ := by
  rw [resolveKind_eq, ← Profile.kindAt?_eq_none_iff]
  cases (valueAt es "type").isHashable <;> cases (formatAt es).isHashable <;>
    cases p.kindAt? (valueAt es "type") (formatAt es) <;> simp [eq_comm]

theorem resolve_lookup (own : IsLookedUp es) : resolve p (.map es) c = resolveKind p es c := by
  rw [resolve_allOf own.enum own.type own.ref, own.allOf]

variable {v leaf : Value} {steps : List SchemaStep} {d : Descriptor}

theorem resolve_of_settles (h : leaf.Settles p c d) : (resolve p leaf c).result = .ok d := by
  cases h with
  | enum own made =>
    rw [resolve_enum own, Logged.result_bind_of_ok made]
    rfl
  | reference enum type own =>
    rw [resolve_reference enum type own]
    rfl
  | primitive own type format entry =>
    rw [resolve_lookup own, resolveKind_eq_ok_iff]
    exact ⟨_, Profile.kindAt?_eq_some_iff.mpr ⟨_, type, format, entry⟩, rfl⟩

theorem resolve_of_fails {cause : Cause} (h : leaf.Fails p c cause) :
    (resolve p leaf c).result = .error (.defect ⟨cause, c.location⟩) := by
  cases h with
  | enum own failed => rw [resolve_enum own, Logged.result_bind_of_error failed]
  | lookup own type format absent =>
    rw [resolve_lookup own, resolveKind_eq_defect_iff]
    exact ⟨type, format, absent, rfl⟩

/-- There is neither a result nor a defect. -/
def Compile.Stops {α : Type} (x : Compile α) : Prop :=
  ∃ e, x.result = .error e ∧ ∀ d, e ≠ .defect d

theorem Compile.stops_of_shape {α : Type} {x : Compile α} (h : x.result = .error .shape) :
    x.Stops := ⟨_, h, fun _ => nofun⟩

theorem last_cases_of_enum (own : valueAt es "enum" ≠ .null) :
    (∃ d, (Value.map es).Settles p c d) ∨ (∃ cause, (Value.map es).Fails p c cause) ∨
      (resolve p (.map es) c).Stops := by
  cases hspec : (EnumSpec.ofSchema p es c).result with
  | ok spec => exact .inl ⟨_, .enum own hspec⟩
  | error e =>
    have hresolve : (resolve p (.map es) c).result = .error e := by
      rw [resolve_enum own, Logged.result_bind_of_error hspec]
    cases e with
    | defect d =>
      obtain ⟨hplace, hclass⟩ := EnumSpec.failsAt_ofSchema es c d hspec
      exact .inr (.inl ⟨d.cause, .enum own (by rw [hspec, ← hplace]) hclass⟩)
    | shape => exact .inr (.inr ⟨_, hresolve, fun _ => nofun⟩)
    | template => exact .inr (.inr ⟨_, hresolve, fun _ => nofun⟩)

theorem last_cases_of_reference (enum : valueAt es "enum" = .null)
    (type : valueAt es "type" ≠ .text "array") {ref : Value}
    (own : lookupText "$ref" es = some ref) :
    (∃ d, (Value.map es).Settles p c d) ∨ (resolve p (.map es) c).Stops := by
  by_cases htext : ref.IsText
  · obtain ⟨s, rfl⟩ := htext
    exact .inl ⟨_, .reference enum type own⟩
  · have hother := isText_of_ne type
    rw [valueAt] at enum hother
    refine .inr (Compile.stops_of_shape ?_)
    rw [resolve_map, enum, hother, own]
    cases ref with
    | text s => exact absurd ⟨s, rfl⟩ htext
    | _ => rfl

theorem last_cases_of_lookup (own : IsLookedUp es) :
    (∃ d, (Value.map es).Settles p c d) ∨ (∃ cause, (Value.map es).Fails p c cause) ∨
      (resolve p (.map es) c).Stops := by
  cases hkind : p.kindAt? (valueAt es "type") (formatAt es) with
  | some kind =>
    obtain ⟨key, htype, hformat, hentry⟩ := Profile.kindAt?_eq_some_iff.mp hkind
    exact .inl ⟨_, .primitive own htype hformat hentry⟩
  | none =>
    cases hkeys : (valueAt es "type").isHashable && (formatAt es).isHashable with
    | true =>
      obtain ⟨htype, hformat⟩ := Bool.and_eq_true_iff.mp hkeys
      exact .inr (.inl ⟨_, .lookup own htype hformat (Profile.kindAt?_eq_none_iff.mp hkind)⟩)
    | false =>
      refine .inr (.inr (Compile.stops_of_shape ?_))
      rw [resolve_lookup own, resolveKind_eq, hkeys]
      rfl

theorem last_cases (last : leaf.IsLast) : (∃ d, leaf.Settles p c d) ∨
    (∃ cause, leaf.Fails p c cause) ∨ (resolve p leaf c).Stops := by
  cases leaf with
  | map es =>
    by_cases henum : valueAt es "enum" = .null
    swap
    · exact last_cases_of_enum henum
    obtain ⟨htype, hsingle⟩ := (last es rfl).resolve_left fun h => h henum
    cases href : lookupText "$ref" es with
    | some ref =>
      rcases last_cases_of_reference henum htype href with hsettles | hstops
      · exact .inl hsettles
      · exact .inr (.inr hstops)
    | none =>
      cases hof : AllOf.of (valueAt es "allOf") with
      | single x => exact absurd hof (hsingle x href)
      | malformed =>
        refine .inr (.inr (Compile.stops_of_shape ?_))
        rw [resolve_allOf henum htype href, hof]
        rfl
      | none => exact last_cases_of_lookup ⟨henum, htype, href, hof⟩
  | _ => exact .inr (.inr (Compile.stops_of_shape (by simp [resolve])))

theorem resolve_last_eq_ok_iff (last : leaf.IsLast) :
    (resolve p leaf c).result = .ok d ↔ leaf.Settles p c d := by
  refine ⟨fun h => ?_, resolve_of_settles⟩
  rcases last_cases (p := p) (c := c) last with ⟨own, hown⟩ | ⟨cause, hfails⟩ | ⟨e, he, -⟩
  · rw [resolve_of_settles hown] at h
    cases h
    exact hown
  · rw [resolve_of_fails hfails] at h
    cases h
  · rw [he] at h
    cases h

theorem resolve_last_eq_defect_iff (last : leaf.IsLast) {d : Defect} :
    (resolve p leaf c).result = .error (.defect d) ↔
      d.location = c.location ∧ leaf.Fails p c d.cause := by
  constructor
  · intro h
    rcases last_cases (p := p) (c := c) last with ⟨own, hown⟩ | ⟨cause, hfails⟩ | ⟨e, he, hno⟩
    · rw [resolve_of_settles hown] at h
      cases h
    · rw [resolve_of_fails hfails] at h
      cases h
      exact ⟨rfl, hfails⟩
    · rw [he] at h
      cases h
      exact absurd rfl (hno d)
  · rintro ⟨hplace, hfails⟩
    rw [resolve_of_fails hfails, ← hplace]

/-! ## Along the steps -/

theorem resolve_empty (c : NamingContext) :
    resolve p (.map []) c = .defect (.unmappedType .null .null) c.location := by
  rw [resolve_map]
  rfl

theorem resolve_noItems (enum : valueAt es "enum" = .null)
    (type : valueAt es "type" = .text "array") (absent : (valueAt es "items").isPresent = false) :
    resolve p (.map es) c = .defect (.unmappedType .null .null) (c.child "items").location := by
  rw [valueAt] at enum type absent
  rw [resolve_map, enum, type]
  simp only [Value.isNull, Bool.not_true, Bool.false_eq_true, if_false, isText, beq_self_eq_true,
    if_true]
  cases hitems : lookupText "items" es with
  | none => rfl
  | some items =>
    rw [hitems] at absent
    simp only [Option.getD_some] at absent
    simp only [absent, Bool.false_eq_true, if_false]

theorem resolve_array (enum : valueAt es "enum" = .null)
    (type : valueAt es "type" = .text "array") :
    (resolve p (.map es) c).result =
      (resolve p ((valueAt es "items").orElse (.map [])) (c.child "items")).result.map .array := by
  unfold Value.orElse
  cases hpresent : (valueAt es "items").isPresent with
  | false =>
    rw [if_neg Bool.false_ne_true, resolve_noItems enum type hpresent, resolve_empty]
    rfl
  | true =>
    have hne : valueAt es "items" ≠ .null := by
      intro h
      rw [h] at hpresent
      cases hpresent
    rw [if_pos rfl, resolve_items enum type (lookup_of_valueAt rfl hne) hpresent,
      Logged.result_bind]
    cases (resolve p (valueAt es "items") (c.child "items")).result <;> rfl

/-- The type of a schema is that of the last one, in an array for each step to items. -/
theorem resolve_eq_of_leadsTo (h : v.LeadsTo steps leaf) : (resolve p v c).result =
    (resolve p leaf (c.along steps)).result.map Descriptor.array^[steps.count .items] := by
  induction h generalizing c with
  | @here v last =>
    rw [NamingContext.along_nil]
    cases (resolve p v c).result <;> rfl
  | @items es enum type steps leaf inner ih =>
    rw [resolve_array enum type, ih, NamingContext.along_cons, List.count_cons_self,
      Function.iterate_succ', SchemaStep.key]
    cases (resolve p leaf ((c.child "items").along steps)).result <;> rfl
  | @allOf es enum type ref x single steps leaf inner ih =>
    rw [resolve_allOf enum type ref, single, NamingContext.along_cons,
      List.count_cons_of_ne (by decide)]
    exact ih

theorem resolve_eq_ok_iff (h : v.LeadsTo steps leaf) : (resolve p v c).result = .ok d ↔
    ∃ own, leaf.Settles p (c.along steps) own ∧ d = Descriptor.array^[steps.count .items] own := by
  rw [resolve_eq_of_leadsTo h]
  simp only [← resolve_last_eq_ok_iff h.isLast]
  cases (resolve p leaf (c.along steps)).result <;> simp [Except.map, eq_comm]

theorem resolve_eq_defect_iff (h : v.LeadsTo steps leaf) {d : Defect} :
    (resolve p v c).result = .error (.defect d) ↔
      d.location = c.location ++ SchemaStep.text steps ∧ leaf.Fails p (c.along steps) d.cause := by
  rw [resolve_eq_of_leadsTo h, ← NamingContext.location_along,
    ← resolve_last_eq_defect_iff h.isLast]
  cases (resolve p leaf (c.along steps)).result <;> simp [Except.map]

end

/-- Steps lead from each schema to one that decides its type, and to no other. The schema has a type
exactly if that one settles, in an array for each step to items. It has a defect exactly if that one
fails, at the place that spells the steps; a type and a format that are reported are looked up there
and are not in the table. -/
theorem resolve_follows_steps (p : Profile) (node : Value) (c : NamingContext) :
    ∃ steps leaf, node.LeadsTo steps leaf ∧
      (∀ steps' leaf', node.LeadsTo steps' leaf' → steps' = steps ∧ leaf' = leaf) ∧
      (∀ d, (resolve p node c).result = .ok d ↔
        ∃ own, leaf.Settles p (c.along steps) own ∧
          d = Descriptor.array^[steps.count .items] own) ∧
      (∀ d : Defect, (resolve p node c).result = .error (.defect d) ↔
        d.location = c.location ++ SchemaStep.text steps ∧
          leaf.Fails p (c.along steps) d.cause) ∧
      ∀ type format location,
        (resolve p node c).result = .error (.defect ⟨.unmappedType type format, location⟩) →
        ∃ es, leaf = .map es ∧ IsLookedUp es ∧ type = valueAt es "type" ∧ format = formatAt es ∧
          p.Lacks type format := by
  obtain ⟨steps, leaf, h⟩ := node.exists_leadsTo
  refine ⟨steps, leaf, h, fun _ _ => h.unique, fun _ => resolve_eq_ok_iff h,
    fun _ => resolve_eq_defect_iff h, fun type format location hfound => ?_⟩
  obtain ⟨-, hfails⟩ := (resolve_eq_defect_iff h).mp hfound
  cases hfails with
  | enum _ _ malformed => cases malformed
  | lookup own _ _ absent => exact ⟨_, rfl, own, rfl, rfl, absent⟩

def fileEntries : List (Value × Value) := [(.text "type", .text "file")]

def nestedEntries : List (Value × Value) :=
  [(.text "type", .text "array"), (.text "items", .map [
    (.text "allOf", .list [
      .map [(.text "type", .text "array"), (.text "items", .map fileEntries)]])])]

def tagsContext : NamingContext := ⟨.text "User", .text "tags", "definitions.User.properties.tags"⟩

theorem isLookedUp_fileEntries : IsLookedUp fileEntries where
  enum := rfl
  type := by simp [valueAt, fileEntries, lookupText, isText]
  ref := rfl
  allOf := rfl

theorem leadsTo_fileEntries :
    (Value.map nestedEntries).LeadsTo [.items, .allOf, .items] (.map fileEntries) := by
  refine .items rfl rfl (.allOf rfl ?_ rfl rfl (.items rfl rfl (.here fun es h => ?_)))
  · simp [valueAt, lookupText, isText]
  · cases h
    refine .inr ⟨isLookedUp_fileEntries.type, fun x _ hx => ?_⟩
    rw [isLookedUp_fileEntries.allOf] at hx
    cases hx

theorem Profile.common_lacks_file : Profile.common.Lacks (.text "file") .null := by
  have htypes : ∀ e ∈ Profile.standardTypes, e.1.1 ≠ "file" := by decide
  rintro e he ⟨htype, -⟩
  exact htypes e he (Value.text.inj htype).symm

/-- Files in a nested array are reported where they stand. -/
theorem resolve_follows_steps_of_files :
    (Value.map nestedEntries).LeadsTo [.items, .allOf, .items] (.map fileEntries) ∧
      (resolve .common (.map nestedEntries) tagsContext).result =
        .error (.defect ⟨.unmappedType (.text "file") .null,
          "definitions.User.properties.tags.items.allOf.items"⟩) ∧
      Profile.common.Lacks (.text "file") .null := by
  obtain ⟨steps, leaf, -, hunique, -, hdefect, htable⟩ :=
    resolve_follows_steps .common (.map nestedEntries) tagsContext
  obtain ⟨rfl, rfl⟩ := hunique _ _ leadsTo_fileEntries
  have hfound := (hdefect ⟨.unmappedType (.text "file") .null,
    "definitions.User.properties.tags.items.allOf.items"⟩).mpr
      ⟨by decide, .lookup isLookedUp_fileEntries rfl rfl Profile.common_lacks_file⟩
  obtain ⟨-, -, -, -, -, hlacks⟩ := htable _ _ _ hfound
  exact ⟨leadsTo_fileEntries, hfound, hlacks⟩

end ApiSmith

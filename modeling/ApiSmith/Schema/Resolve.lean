import ApiSmith.Schema.Enum

/-!
# The type of a schema node

A node with an enum is that enum; an array is resolved through its items; a reference is named by
the last part of its pointer; a single `allOf` entry stands for the node; all else is looked up by
type and format. The place of a defect follows the steps to the node that has it.
-/

namespace ApiSmith

open Text

def refName (ref : String) : String := String.ofList (afterLast '/' ref.toList)

/-- What the `allOf` of a node says. -/
inductive AllOf where
  /-- Nothing, or several entries. -/
  | none
  | single (entry : Value)
  /-- It is not a list of entries. -/
  | malformed

/-- What an `allOf` value says. -/
def AllOf.of (v : Value) : AllOf :=
  if !v.isPresent then .none
  else match v with
    | .list [x] => .single x
    | .tuple [x] => .single x
    | .map [(k, x)] => if k.same (.int 0) then .single x else .malformed
    | .list _ | .tuple _ | .map _ => .none
    | .text s => if s.length == 1 then .malformed else .none
    | .bytes octets => if octets.length == 1 then .malformed else .none
    | .object fields => if fields.length == 1 then .malformed else .none
    | _ => .malformed

/-- The kind of a node by its type and format. An object with properties has no format. -/
def resolveKind (p : Profile) (es : List (Value × Value)) (c : NamingContext) :
    Compile Descriptor :=
  let type := (lookupText "type" es).getD .null
  let format :=
    if type.isText "object" && (lookupText "properties" es).isSome then .null
    else (lookupText "format" es).getD .null
  if !(type.isHashable && format.isHashable) then .fail .shape
  else
    let kind := match type, format with
      | .text t, .text f => p.kindOf? (t, some f)
      | .text t, .null => p.kindOf? (t, none)
      | _, _ => none
    match kind with
    | some k => pure (.primitive k)
    | none => .defect (.unmappedType type format) c.location

theorem sizeOf_allOf {v x : Value} (h : AllOf.of v = .single x) : sizeOf x < sizeOf v := by
  unfold AllOf.of at h
  split at h
  · simp at h
  · split at h <;> try simp at h
    · subst h; simp; omega
    · subst h; simp; omega
    · split at h
      · simp only [AllOf.single.injEq] at h; subst h; simp; omega
      · simp at h
    all_goals split at h <;> simp at h

def resolve (p : Profile) (node : Value) (c : NamingContext) : Compile Descriptor :=
  match node with
  | .map es =>
    if !((lookupText "enum" es).getD .null).isNull then do
      let spec ← EnumSpec.ofSchema p es c
      pure (.enum spec)
    else if ((lookupText "type" es).getD .null).isText "array" then
      match _h : lookupText "items" es with
      | some items =>
        if items.isPresent then do
          let element ← resolve p items (c.child "items")
          pure (.array element)
        else .defect (.unmappedType .null .null) (c.child "items").location
      | none => .defect (.unmappedType .null .null) (c.child "items").location
    else
      match lookupText "$ref" es with
      | some (.text ref) => pure (.reference (refName ref))
      | some _ => .fail .shape
      | none =>
        match _h : lookupText "allOf" es with
        | some v =>
          match _h' : AllOf.of v with
          | .single x => resolve p x (c.child "allOf")
          | .malformed => .fail .shape
          | .none => resolveKind p es c
        | none => resolveKind p es c
  | _ => .fail .shape
termination_by sizeOf node
decreasing_by
  · have := sizeOf_lookupText _h
    simp only [Value.map.sizeOf_spec]
    omega
  · have := sizeOf_lookupText _h
    have := sizeOf_allOf _h'
    simp only [Value.map.sizeOf_spec]
    omega

/-- The type of a map, its cases in a row. -/
theorem resolve_map (p : Profile) (es : List (Value × Value)) (c : NamingContext) :
    resolve p (.map es) c =
      if !((lookupText "enum" es).getD .null).isNull then
        EnumSpec.ofSchema p es c >>= fun spec => pure (.enum spec)
      else if ((lookupText "type" es).getD .null).isText "array" then
        match lookupText "items" es with
        | some items =>
          if items.isPresent then
            resolve p items (c.child "items") >>= fun element => pure (.array element)
          else .defect (.unmappedType .null .null) (c.child "items").location
        | none => .defect (.unmappedType .null .null) (c.child "items").location
      else
        match lookupText "$ref" es with
        | some (.text ref) => pure (.reference (refName ref))
        | some _ => .fail .shape
        | none =>
          match (lookupText "allOf" es).map AllOf.of with
          | some (.single x) => resolve p x (c.child "allOf")
          | some .malformed => .fail .shape
          | _ => resolveKind p es c := by
  rw [resolve]
  split
  · rfl
  · split
    · split <;> next hitems => simp only [hitems]
    · cases lookupText "$ref" es with
      | some ref => cases ref <;> rfl
      | none =>
        simp only
        split
        · next v hv =>
          simp only [hv, Option.map_some]
          split <;> next hof => simp only [hof]
        · next hv => simp only [hv, Option.map_none]

theorem enums_of_resolveKind {p : Profile} {es : List (Value × Value)} {c : NamingContext}
    {d : Descriptor} (h : (resolveKind p es c).result = .ok d) : d.enums = [] := by
  unfold resolveKind at h
  extract_lets type format kind at h
  clear_value kind
  split at h
  · cases h
  · split at h
    · cases h
      rfl
    · cases h

theorem exists_ofSchema_of_resolve {p : Profile} {node : Value} {c : NamingContext} {d : Descriptor}
    (h : (resolve p node c).result = .ok d) {spec : EnumSpec} (hspec : spec ∈ d.enums) :
    ∃ es location, (EnumSpec.ofSchema p es { c with location := location }).result = .ok spec := by
  fun_induction resolve p node c generalizing d with
  | case1 c es henum =>
    rw [Logged.result_bind] at h
    cases hown : (EnumSpec.ofSchema p es c).result with
    | error e =>
      rw [hown] at h
      cases h
    | ok own =>
      rw [hown] at h
      cases h
      rw [List.mem_singleton.mp hspec]
      exact ⟨es, c.location, hown⟩
  | case2 c es henum htype items hitems hpresent ih =>
    rw [Logged.result_bind] at h
    cases helement : (resolve p items (c.child "items")).result with
    | error e =>
      rw [helement] at h
      cases h
    | ok element =>
      rw [helement] at h
      cases h
      exact ih helement hspec
  | case3 => cases h
  | case4 => cases h
  | case5 =>
    cases h
    cases hspec
  | case6 => cases h
  | case7 c es henum htype href v hv x hx ih => exact ih h hspec
  | case8 => cases h
  | case9 c es henum htype href v hv hx =>
    rw [enums_of_resolveKind h] at hspec
    cases hspec
  | case10 c es henum htype href hv =>
    rw [enums_of_resolveKind h] at hspec
    cases hspec
  | case11 => cases h

end ApiSmith

import ApiSmith.Operation
import ApiSmith.Proofs.Keys
import ApiSmith.Proofs.Logged
import ApiSmith.Schema.Definition

/-!
# Steps of compiling

A field, a model and an operation are compiled by steps, each of which can fail. What has compiled
went through all of them, and is made of what they gave: `Field.Steps`, `Model.Steps` and
`Operation.Steps` hold one entry for each step, so that a proof about what has compiled takes the
step that it needs and opens no other.
-/

namespace ApiSmith

open Naming

/-! ## Fields -/

/-- The steps from a property of a definition to its field, after the fields before it. -/
structure Field.Steps (p : Profile) (owner : Value) (required : List Value) (earlier : List Field)
    (property schema : Value) (f : Field) : Prop where
  key : property = .text f.key
  type : (resolve p schema ⟨owner, property,
    "definitions." ++ owner.display ++ ".properties." ++ property.display⟩).result = .ok f.type
  name : f.name = safeName p.nameAliases Model.reservedFields (Model.identifierOf f.key)
  fresh : ∀ g ∈ earlier, g.name.same f.name = false
  required : f.required = property.isAmong required
  description : ∃ text, schema.part? "description" = some text ∧
    (Model.comment p text).result = .ok f.description

namespace Model

variable {p : Profile} {owner : Value} {required : List Value}

theorem steps_of_compileField {earlier : List Field} {property schema : Value} {f : Field}
    (h : (compileField p owner required earlier property schema).result = .ok f) :
    f.Steps p owner required earlier property schema := by
  unfold compileField at h
  obtain ⟨type, htype, h⟩ := Logged.result_bind_eq_ok.mp h
  obtain ⟨key, hkey, h⟩ := Logged.result_bind_eq_ok.mp h
  rw [Compile.result_shaped_eq_ok, Value.text?_eq_some] at hkey
  dsimp only at h
  split at h
  · cases h
  · next hfresh =>
    obtain ⟨text, htext, h⟩ := Logged.result_bind_eq_ok.mp h
    obtain ⟨description, hdescription, h⟩ := Logged.result_bind_eq_ok.mp h
    cases h
    exact ⟨hkey, htype, rfl, fun g hg => Bool.eq_false_iff.mpr fun hsame =>
      hfresh (List.any_eq_true.mpr ⟨g, hg, hsame⟩), rfl, text,
      Compile.result_shaped_eq_ok.mp htext, hdescription⟩

theorem steps_of_compileFields {properties : List (Value × Value)} {earlier fields : List Field}
    (h : (compileFields p owner required earlier properties).result = .ok fields) :
    ∃ made, fields = earlier ++ made ∧ List.Forall₂
      (fun property f => ∃ before, f.Steps p owner required before property.1 property.2)
      properties made := by
  induction properties generalizing earlier with
  | nil =>
    cases h
    exact ⟨[], by rw [List.append_nil], .nil⟩
  | cons property rest ih =>
    obtain ⟨f, hf, h⟩ := Logged.result_bind_eq_ok.mp h
    obtain ⟨made, rfl, hmade⟩ := ih h
    exact ⟨f :: made, by rw [List.append_assoc]; rfl,
      .cons ⟨earlier, steps_of_compileField hf⟩ hmade⟩

/-! ## Models -/

/-- The steps from a named definition to its model, with the required names and the properties. -/
structure Steps (p : Profile) (owner schema : Value) (required : List Value)
    (properties : List (Value × Value)) (m : Model) : Prop where
  name : m.name = owner
  fields : (compileFields p owner required [] properties).result = .ok m.fields
  required : ∃ part, schema.part? "required" = some part ∧ part.elementsOrNone? = some required ∧
    required.all Value.isHashable = true
  properties : ∃ part, schema.part? "properties" = some part ∧
    part.entriesOrNone? = some properties
  description : ∃ text, schema.part? "description" = some text ∧
    (comment p text).result = .ok m.description

theorem steps_of_compile {name schema : Value} {m : Model}
    (h : (compile p name schema).result = .ok m) :
    ∃ required properties, m.Steps p name schema required properties := by
  unfold compile at h
  obtain ⟨named, hnamed, h⟩ := Logged.result_bind_eq_ok.mp h
  obtain ⟨required, hrequired, h⟩ := Logged.result_bind_eq_ok.mp h
  split at h
  · cases h
  · next hhashable =>
    obtain ⟨part, hpart, h⟩ := Logged.result_bind_eq_ok.mp h
    obtain ⟨properties, hproperties, h⟩ := Logged.result_bind_eq_ok.mp h
    obtain ⟨fields, hfields, h⟩ := Logged.result_bind_eq_ok.mp h
    obtain ⟨text, htext, h⟩ := Logged.result_bind_eq_ok.mp h
    obtain ⟨description, hdescription, h⟩ := Logged.result_bind_eq_ok.mp h
    cases h
    rw [Compile.result_shaped_eq_ok] at hnamed hrequired hpart hproperties htext
    exact ⟨required, properties, rfl, hfields,
      ⟨named, hnamed, hrequired, by simpa using hhashable⟩, ⟨part, hpart, hproperties⟩,
      text, htext, hdescription⟩

theorem Steps.rows {name schema : Value} {properties : List (Value × Value)} {m : Model}
    (h : m.Steps p name schema required properties) : List.Forall₂
      (fun property f => ∃ before, f.Steps p name required before property.1 property.2)
      properties m.fields := by
  obtain ⟨made, hmade, hrow⟩ := steps_of_compileFields h.fields
  rwa [hmade, List.nil_append]

end Model

/-! ## Operations -/

namespace Operation

/-- The steps from an operation of a document to the method that calls it. -/
structure Steps (p : Profile) (shared path : Value) (method : String) (operation : Value)
    (op : Operation) : Prop where
  template : path = .text op.path
  verb : op.verb = Text.lowerString method
  named : ∃ root, pathRoot? p = some root ∧
    op.methodName = Naming.methodName root op.verb op.path ∧
    op.groupKey = String.ofList (Naming.groupKey root op.path.toList)
  response : ∃ schema, Response.schema? operation = some schema ∧ schema.isNull = false ∧
    (wireType p schema ⟨.text op.methodName, .text "response",
      place path op.verb ++ ".responses.200"⟩).result = .ok op.response
  parameters : ∃ part entries, operation.part? "parameters" = some part ∧
    part.elementsOrNone? = some entries ∧
    (Parameter.compileAll p shared op.methodName (place path op.verb) [] entries).result =
      .ok op.parameters
  url : (ApiSmith.urlText op.parameters (place path op.verb) (PathPart.parts op.path.toList)).result =
    .ok op.urlTemplate.toList
  summary : ∃ text, operation.part? "summary" = some text ∧
    (Model.comment p text).result = .ok op.summary

theorem steps_of_compile {p : Profile} {shared path operation : Value} {method : String}
    {op : Operation} (h : (compile p shared path method operation).result = .ok op) :
    op.Steps p shared path method operation := by
  unfold compile at h
  obtain ⟨pathText, hpath, h⟩ := Logged.result_bind_eq_ok.mp h
  obtain ⟨root, hroot, h⟩ := Logged.result_bind_eq_ok.mp h
  obtain ⟨schema, hschema, h⟩ := Logged.result_bind_eq_ok.mp h
  split at h
  · cases h
  · next hnull =>
    obtain ⟨response, hresponse, h⟩ := Logged.result_bind_eq_ok.mp h
    obtain ⟨part, hpart, h⟩ := Logged.result_bind_eq_ok.mp h
    obtain ⟨entries, hentries, h⟩ := Logged.result_bind_eq_ok.mp h
    obtain ⟨params, hparams, h⟩ := Logged.result_bind_eq_ok.mp h
    obtain ⟨url, hurl, h⟩ := Logged.result_bind_eq_ok.mp h
    obtain ⟨text, htext, h⟩ := Logged.result_bind_eq_ok.mp h
    obtain ⟨summary, hsummary, h⟩ := Logged.result_bind_eq_ok.mp h
    cases h
    rw [Compile.result_shaped_eq_ok] at hpath hroot hschema hpart hentries htext
    refine ⟨Value.text?_eq_some.mp hpath, rfl, ⟨root, hroot, rfl, rfl⟩,
      ⟨schema, hschema, Bool.eq_false_iff.mpr hnull, hresponse⟩,
      ⟨part, entries, hpart, hentries, hparams⟩, ?_, text, htext, hsummary⟩
    rwa [String.toList_ofList]

end Operation

end ApiSmith

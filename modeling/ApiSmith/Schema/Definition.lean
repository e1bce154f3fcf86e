import ApiSmith.Schema.Resolve

/-!
# Definitions

A definition of a document becomes a model: one field per property, in order. Field names are made
fit for the generated class; two properties that come to one field name are a defect. The enums and
references of a model are those of its field types, a reference of a model to itself left out.
-/

namespace ApiSmith

open Naming

structure Field where
  name : Value
  key : String
  type : Descriptor
  required : Bool
  description : String

/-- A model made from a definition. -/
structure Model where
  name : Value
  /-- The fields in the order of the properties. -/
  fields : List Field
  description : String

/-- The list with later repetitions left out. -/
def firstOccurrences (seen : List String) : List String → List String
  | [] => []
  | n :: rest => if seen.contains n then firstOccurrences seen rest else n :: firstOccurrences (n :: seen) rest

namespace Model

def enums (m : Model) : List EnumSpec := m.fields.flatMap fun f => f.type.enums

def references (m : Model) : List String :=
  firstOccurrences [] ((m.fields.flatMap fun f => f.type.references).filter fun r => !m.name.isText r)

def reservedFields : List String := ["field", "from_json", "to_json"]

/-- The text of a property or parameter name as an identifier: itself where it is one. -/
def identifierOf (name : String) : String :=
  if Text.isIdentifier name.toList then name else String.ofList (identifierText name.toList)

def comment (p : Profile) (text : Value) : Compile String :=
  match cleanComment text p.commentReplacements with
  | .ok s => pure s
  | .error .notText => .fail .shape
  | .error .template => .fail .template

/-- The field of a property, after the fields before it. -/
def compileField (p : Profile) (owner : Value) (required : List Value) (earlier : List Field)
    (property schema : Value) : Compile Field := do
  let location := "definitions." ++ owner.display ++ ".properties." ++ property.display
  let type ← resolve p schema ⟨owner, property, location⟩
  let key ← Compile.shaped property.text?
  let name := safeName p.nameAliases reservedFields (identifierOf key)
  if earlier.any fun f => f.name.same name then .defect (.collidingField key name) location
  else do
    let text ← Compile.shaped (schema.part? "description")
    let description ← comment p text
    pure ⟨name, key, type, property.isAmong required, description⟩

/-- The fields of properties, after the fields before them. -/
def compileFields (p : Profile) (owner : Value) (required : List Value) (earlier : List Field) :
    List (Value × Value) → Compile (List Field)
  | [] => pure earlier
  | (property, schema) :: rest => do
    let f ← compileField p owner required earlier property schema
    compileFields p owner required (earlier ++ [f]) rest

/-- The model of a named definition. -/
def compile (p : Profile) (name schema : Value) : Compile Model := do
  let named ← Compile.shaped (schema.part? "required")
  let required ← Compile.shaped named.elementsOrNone?
  if !required.all Value.isHashable then .fail .shape
  else do
    let part ← Compile.shaped (schema.part? "properties")
    let properties ← Compile.shaped part.entriesOrNone?
    let fields ← compileFields p name required [] properties
    let text ← Compile.shaped (schema.part? "description")
    let description ← comment p text
    pure ⟨name, fields, description⟩

end Model

end ApiSmith

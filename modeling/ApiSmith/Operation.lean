import ApiSmith.Operation.PathTemplate
import ApiSmith.Operation.Response

/-!
# Operations

An HTTP method of a path becomes a method of a client: its name, its group, its parameters, its URL
and the type of its response.
-/

namespace ApiSmith

open Text Naming

structure Operation where
  /-- The HTTP method in lower case. -/
  verb : String
  path : String
  methodName : String
  groupKey : String
  /-- The path with arguments for placeholders. -/
  urlTemplate : String
  parameters : List Parameter
  response : Descriptor
  summary : String

namespace Operation

def parametersIn (op : Operation) (placement : Placement) : List Parameter :=
  op.parameters.filter fun q => q.placement = placement

def bodyParameter? (op : Operation) : Option Parameter :=
  op.parameters.find? fun q => q.placement = .body

def types (op : Operation) : List Descriptor := op.response :: op.parameters.map (·.type)

def references (op : Operation) : List String := op.types.flatMap Descriptor.references

def pathRoot? (p : Profile) : Option (List Char) :=
  match p.pathRoot with
  | .text s => some s.toList
  | v => if v.isPresent then none else some []

def place (path : Value) (verb : String) : String := "paths." ++ path.display ++ "." ++ verb

def compile (p : Profile) (shared path : Value) (method : String) (operation : Value) :
    Compile Operation := do
  let verb := lowerString method
  let location := place path verb
  let pathText ← Compile.shaped path.text?
  let root ← Compile.shaped (pathRoot? p)
  let name := Naming.methodName root verb pathText
  let schema ← Compile.shaped (Response.schema? operation)
  if schema.isNull then .defect .noResponse location
  else do
    let response ←
      wireType p schema ⟨.text name, .text "response", location ++ ".responses.200"⟩
    let part ← Compile.shaped (operation.part? "parameters")
    let entries ← Compile.shaped part.elementsOrNone?
    let params ← Parameter.compileAll p shared name location [] entries
    let url ← urlText params location (PathPart.parts pathText.toList)
    let text ← Compile.shaped (operation.part? "summary")
    let summary ← Model.comment p text
    pure {
      verb := verb
      path := pathText
      methodName := name
      groupKey := String.ofList (Naming.groupKey root pathText.toList)
      urlTemplate := String.ofList url
      parameters := params
      response := response
      summary := summary }

end Operation

end ApiSmith

import ApiSmith.Package.Grouping

/-!
# Pages of a package

What is written on the page of a model and on the page of a group: names of classes and modules,
annotations, signatures and the imports that they need.
-/

namespace ApiSmith

open Naming

structure ClassPlace where
  module : String
  className : String
  deriving DecidableEq, Repr

def Profile.places? (p : Profile) (names : List String) : Option (List ClassPlace) :=
  names.mapM fun name => (p.modelClass? (.text name)).map fun c => ⟨moduleName name, c⟩

structure Needs where
  dates : Bool
  decimals : Bool
  objects : Bool
  deriving DecidableEq, Repr

def Needs.of (types : List Descriptor) : Needs :=
  ⟨types.any (·.uses .date), types.any (·.uses .decimal), types.any (·.uses .object)⟩

structure FieldLine where
  name : Value
  key : String
  renamed : Bool
  annotation : String
  required : Bool
  description : String
  /-- The class of its enum, where its type is one. -/
  enumClass : Option String
  /-- The name of the accessor for the member of its enum. -/
  accessor : String

/-- A field as it stands on the page. A field of an enum holds the integer. -/
def FieldLine.of? (p : Profile) (f : Field) : Option FieldLine := do
  let type ← f.type.typeText? p
  let isEnum := match f.type with
    | .enum _ => true
    | _ => false
  let annotation := if isEnum then "int" else type
  pure {
    name := f.name
    key := f.key
    renamed := !f.name.isText f.key
    annotation := if f.required then annotation else "Optional[" ++ annotation ++ "]"
    required := f.required
    description := f.description
    enumClass := if isEnum then some type else none
    accessor := f.name.display ++ "Value" }

structure EnumClass where
  className : String
  members : List EnumMember
  deriving DecidableEq, Repr

def EnumClass.of? (p : Profile) (spec : EnumSpec) : Option EnumClass :=
  (p.enumClass? spec).map fun c => ⟨c, spec.members⟩

structure ModelPage where
  name : String
  place : ClassPlace
  description : String
  /-- Whether instances are immutable, as the profile says it. -/
  frozen : Value
  supportModule : Value
  fields : List FieldLine
  enums : List EnumClass
  needs : Needs
  /-- The other models that are used. -/
  references : List ClassPlace

def ModelPage.of? (p : Profile) (m : Model) : Option ModelPage := do
  let fields ← m.fields.mapM (FieldLine.of? p)
  let name ← m.name.text?
  let className ← p.modelClass? (.text name)
  let enums ← m.enums.mapM (EnumClass.of? p)
  let references ← p.places? m.references
  pure {
    name := name
    place := ⟨moduleName name, className⟩
    description := m.description
    frozen := p.frozenModels
    supportModule := p.supportModule
    fields := fields
    enums := enums
    needs := .of (m.fields.map (·.type))
    references := references }

structure ParameterLine where
  identifier : Value
  key : String
  placement : Placement
  /-- The argument with its annotation and default. -/
  signature : String
  description : String
  /-- Whether it is a date or holds dates. -/
  isDate : Bool

/-- The description with the values that are allowed, if these can be written out. -/
def ParameterLine.describe? (description : String) (allowed : List Value) : Option String :=
  if allowed.isEmpty then some description
  else if !allowed.all Value.hasLiteral then none
  else
    let values := Text.joinStrings ", " (allowed.map Value.display)
    some (String.ofList (Text.trim (description ++ " (values: " ++ values ++ ")").toList))

def ParameterLine.of? (p : Profile) (q : Parameter) : Option ParameterLine := do
  let type ← q.type.typeText? p
  let description ← describe? q.description q.allowed
  let start := q.identifier.display ++ ": "
  pure {
    identifier := q.identifier
    key := q.key
    placement := q.placement
    signature := match q.zero with
      | none => start ++ "Optional[" ++ type ++ "] = None"
      | some zero => start ++ type ++ " = " ++ zero
    description := description
    isDate := q.type.uses .date }

structure MethodPart where
  methodName : String
  httpMethod : String
  path : String
  summary : String
  params : List ParameterLine
  /-- The argument that makes the body. -/
  body : Option Value
  /-- The path with arguments for placeholders. -/
  urlTemplate : String
  urlExpression : String
  result : String

def MethodPart.query (m : MethodPart) : List ParameterLine :=
  m.params.filter fun q => q.placement = .query

/-- The expression for the URL of an operation, a plain text where no argument stands in it. -/
def Operation.urlText (op : Operation) : String :=
  (if (op.parametersIn .path).isEmpty then "" else "f") ++ "\"" ++ op.urlTemplate ++ "\""

def MethodPart.of? (p : Profile) (op : Operation) : Option MethodPart := do
  let params ← op.parameters.mapM (ParameterLine.of? p)
  let result ← op.response.typeText? p
  pure {
    methodName := op.methodName
    httpMethod := Text.upperString op.verb
    path := op.path
    summary := op.summary
    params := params
    body := op.bodyParameter?.map (·.identifier)
    urlTemplate := op.urlTemplate
    urlExpression := op.urlText
    result := result }

structure GroupPage where
  key : String
  place : ClassPlace
  supportModule : Value
  methods : List MethodPart
  needs : Needs
  /-- Whether dates go into a query. -/
  formatsDates : Bool
  references : List ClassPlace

def GroupPage.of? (p : Profile) (g : Group) : Option GroupPage := do
  let ending ← p.groupEnd.text?
  let className ← g.className? p
  let methods ← g.operations.mapM (MethodPart.of? p)
  let references ← p.places? g.references
  pure {
    key := g.key
    place := ⟨moduleName g.key ++ "_" ++ moduleName ending, className⟩
    supportModule := p.supportModule
    methods := methods
    needs := .of g.types
    formatsDates := g.operations.any fun op =>
      (op.parametersIn .query).any fun q => q.type.uses .date
    references := references }

end ApiSmith

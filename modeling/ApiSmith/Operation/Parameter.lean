import ApiSmith.Operation.WireType
import ApiSmith.Schema.Definition

/-!
# Parameters

A parameter of an operation stands in the path, the query or the body; others are skipped. Its type
is that of the node itself or, where that stands for no kind, that of its `schema`. Its argument is
named by the last part of its dotted name. References point to the shared parameters.
-/

namespace ApiSmith

open Text Naming

inductive Placement where
  | path
  | query
  | body
  deriving DecidableEq, Repr

namespace Placement

def name : Placement → String
  | .path => "path"
  | .query => "query"
  | .body => "body"

def ofValue? (v : Value) : Option Placement := [path, query, body].find? fun p => v.isText p.name

end Placement

structure Parameter where
  name : String
  identifier : Value
  /-- The last part of its name. -/
  key : String
  placement : Placement
  type : Descriptor
  /-- Its zero default, where it has one. -/
  zero : Option String
  /-- The literals that it may take, where they are given. -/
  allowed : List Value
  description : String

namespace Parameter

/-- The argument names that a generated method needs for itself. -/
def reservedArguments : List String :=
  ["self", "mock", "query", "url", "datetime", "format_date", "with_query"]

def argument (p : Profile) (key : String) : Value :=
  safeName p.nameAliases reservedArguments (Model.identifierOf key)

/-- The type of a parameter: its own, or that of its `schema`. -/
def resolveType (p : Profile) (es : List (Value × Value)) (c : NamingContext) :
    Compile Descriptor :=
  let own := wireType p (.map es) c
  match own.result with
  | .error (.defect d) =>
    let schema := (lookupText "schema" es).getD .null
    if d.cause.class = .unresolvableType && schema.isPresent then
      ⟨.ok (), own.log⟩ >>= fun (_ : Unit) => wireType p schema (c.child "schema")
    else own
  | _ => own

def zeroFor (p : Profile) (placement : Placement) : Descriptor → Option String
  | .primitive kind =>
    if placement = .path || p.defaultPolicy = .all then p.zeroOf? kind else none
  | _ => none

def follow (shared : List (Value × Value)) (ref : Value) (location : String) : Compile Value := do
  let text ← Compile.shaped ref.text?
  let target := (lookupText (refName text) shared).getD .null
  if target.isNull then .defect (.unknownParameter text) location else pure target

/-- The parameter that a node describes, after the parameters before it; none if it is skipped. -/
def compileNode (p : Profile) (methodName location : String) (earlier : List Parameter)
    (es : List (Value × Value)) : Compile (Option Parameter) := do
  let nameValue ← Compile.shaped (lookupText "name" es)
  let place := (lookupText "in" es).getD (.text "query")
  match Placement.ofValue? place with
  | none => do
    Logged.note .warning .paths (location ++ ": skipping parameter " ++ nameValue.literal ++
      " placed in " ++ place.literal)
    pure none
  | some placement => do
    let name ← Compile.shaped nameValue.text?
    let key := String.ofList (afterLast '.' name.toList)
    let here := location ++ ".parameters." ++ name
    let type ← resolveType p es ⟨.text methodName, .text key, here⟩
    let inPlace ← Compile.shaped (InlineEnum.ofParameter? es)
    let identifier := argument p key
    if earlier.any fun q => q.identifier.same identifier then
      .defect (.duplicateArgument name identifier) here
    else do
      let description ← Model.comment p ((lookupText "description" es).getD .null)
      pure (some {
        name := name
        identifier := identifier
        key := key
        placement := placement
        type := type
        zero := zeroFor p placement type
        allowed := (inPlace.map InlineEnum.values).getD []
        description := description })

/-- The parameter that an entry of the parameter list stands for. -/
def compile (p : Profile) (shared : Value) (methodName location : String)
    (earlier : List Parameter) (entry : Value) : Compile (Option Parameter) := do
  let es ← Compile.shaped entry.entries?
  match lookupText "$ref" es with
  | none => compileNode p methodName location earlier es
  | some ref => do
    let shared ← Compile.shaped shared.entriesOrNone?
    let target ← follow shared ref location
    let es ← Compile.shaped target.entries?
    compileNode p methodName location earlier es

def compileAll (p : Profile) (shared : Value) (methodName location : String)
    (earlier : List Parameter) : List Value → Compile (List Parameter)
  | [] => pure earlier
  | entry :: rest => do
    let found ← compile p shared methodName location earlier entry
    compileAll p shared methodName location (earlier ++ found.toList) rest

end Parameter

end ApiSmith

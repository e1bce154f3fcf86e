import ApiSmith.Data.Value.Literal
import ApiSmith.Log

/-!
# Defects of descriptions

What keeps a definition or an operation from being generated, and where in the document it is. A
defect concerns one artifact only. A description that has not the shape of one, and a replacement
text that is no template, halt the whole run.
-/

namespace ApiSmith

/-- What is wrong with a part of a description. -/
inductive Cause where
  | unmappedType (type format : Value)
  | booleanMember (value : Value)
  | nonIntegerMember (value : Value)
  /-- An enum member whose name comes to nothing. -/
  | emptyMember (text : String)
  /-- A description of an enum without an opening parenthesis. -/
  | noList (description : String)
  /-- A description of an enum without a closing parenthesis. -/
  | openList (description : String)
  /-- A part of an enum description that is not a value and a name. -/
  | notAPair (segment : String)
  | noMembers
  | duplicateMember (name : String)
  | noResponse
  /-- A property whose field name is taken. -/
  | collidingField (property : String) (field : Value)
  /-- A reference to a parameter that is not there. -/
  | unknownParameter (ref : String)
  /-- A parameter whose argument name is taken. -/
  | duplicateArgument (name : String) (identifier : Value)
  /-- A placeholder without a path parameter. -/
  | unmatchedPlaceholder (name : String)
  /-- A reference to a definition that is not generated. -/
  | missingDefinition (name : String)

inductive CauseClass where
  /-- A type stands for no kind. -/
  | unresolvableType
  | malformedEnum
  | missingResponse
  | missingDependency
  | general
  deriving DecidableEq, Repr

def Cause.class : Cause → CauseClass
  | .unmappedType .. => .unresolvableType
  | .booleanMember _ | .nonIntegerMember _ | .emptyMember _ | .noList _ | .openList _ | .notAPair _
  | .noMembers | .duplicateMember _ => .malformedEnum
  | .noResponse => .missingResponse
  | .missingDefinition _ => .missingDependency
  | .collidingField .. | .unknownParameter _ | .duplicateArgument .. | .unmatchedPlaceholder _ =>
    .general

def Cause.message : Cause → String
  | .unmappedType type format =>
    "cannot map type=" ++ type.literal ++ " format=" ++ format.literal
  | .booleanMember v => "boolean enum value " ++ v.literal
  | .nonIntegerMember v => "enum value " ++ v.literal ++ " is not an integer"
  | .emptyMember t => "empty member name in " ++ literalOf t
  | .noList d => "no '(' in enum description " ++ literalOf d
  | .openList d => "unterminated '(' in enum description " ++ literalOf d
  | .notAPair s => "segment " ++ literalOf s ++ " is not a single 'value = name' pair"
  | .noMembers => "enum has no members"
  | .duplicateMember n => "duplicate enum member " ++ literalOf n
  | .noResponse => "no schema for the 200 response"
  | .collidingField p f => "property " ++ literalOf p ++ " collides with field " ++ f.literal
  | .unknownParameter r => "unknown parameter reference " ++ literalOf r
  | .duplicateArgument n i => "parameter " ++ literalOf n ++ " duplicates argument " ++ i.literal
  | .unmatchedPlaceholder n => "placeholder \x7b" ++ n ++ "\x7d has no path parameter"
  | .missingDefinition n => "depends on definition " ++ literalOf n ++ ", which was not generated"

structure Defect where
  cause : Cause
  location : String

def Defect.message (d : Defect) : String :=
  if d.location.isEmpty then d.cause.message else d.location ++ ": " ++ d.cause.message

/-- Why compiling stops. -/
inductive Halt where
  | shape
  /-- A replacement text is no template. -/
  | template
  | defect (d : Defect)

/-- Compiling a part of a description: a result or a halt, with the log. -/
abbrev Compile := Logged Halt

namespace Compile

variable {α : Type}

def defect (cause : Cause) (location : String) : Compile α := .fail (.defect ⟨cause, location⟩)

/-- A result that is there only for values of the right shape. -/
def shaped (x : Option α) : Compile α :=
  match x with
  | some a => pure a
  | none => .fail .shape

@[simp] theorem shaped_some (a : α) : shaped (some a) = pure a := rfl

@[simp] theorem shaped_none : shaped (none : Option α) = .fail .shape := rfl

end Compile

end ApiSmith

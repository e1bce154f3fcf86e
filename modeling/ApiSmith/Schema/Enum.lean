import ApiSmith.Data.Value.Access
import ApiSmith.Defect
import ApiSmith.Naming
import ApiSmith.Schema.Descriptor

/-!
# Enums from schemas

An integer enum carries the names of its members only in its description, as a list in parentheses
at the end: `Account status (1 = Active , 2 = Closed)`. The parts stand between `" , "`, value and
name around `" = "`. A description whose last parenthesis is followed by an equals sign is held to
this grammar. Without it the members are named from their values.
-/

namespace ApiSmith

open Text Naming Number

/-- Whose part a schema is: names for the enum that is made from it, and the place for reports. -/
structure NamingContext where
  owner : Value
  /-- The name of the schema in its owner. -/
  member : Value
  location : String

def NamingContext.child (c : NamingContext) (step : String) : NamingContext :=
  { c with location := c.location ++ "." ++ step }

namespace EnumSpec

def pairSeparator : List Char := [' ', '=', ' ']

def listSeparator : List Char := [' ', ',', ' ']

/-- Whether a description holds a list of members, or one with the wrong separators. -/
def carriesList (description : List Char) : Bool :=
  occursIn pairSeparator description ||
    match afterLast? '(' description with
    | some tail => tail.contains '='
    | none => false

def nameIn? (c : NamingContext) : Option String :=
  match c.owner, c.member with
  | .text owner, .text member => some (owner ++ String.ofList (capitalized member.toList))
  | .text owner, v => if v.isPresent then none else some owner
  | _, _ => none

/-- The integer that an enum value stands for. A defect names its value, so one that cannot be written
out is none. -/
def memberValue (v : Value) (location : String) : Compile Int :=
  match v with
  | .bool _ => .defect (.booleanMember v) location
  | v =>
    if !v.hasLiteral then .fail .shape
    else match readInt? v.display.toList with
    | some n => pure n
    | none => .defect (.nonIntegerMember v) location

def memberName (p : Profile) (text : List Char) (location : String) : Compile String := do
  let mapped := safeName p.nameAliases [] (String.ofList (uncapitalized (trim text)))
  let cleaned ← Compile.shaped mapped.text?
  let name := identifierText cleaned.toList
  if name.isEmpty then .defect (.emptyMember (String.ofList text)) location
  else if name.head? == some '_' then
    Compile.shaped (p.memberStart.concat? (.text (String.ofList name)))
  else pure (String.ofList name)

def membersOfValues (p : Profile) (location : String) : List Value → Compile (List EnumMember)
  | [] => pure []
  | v :: rest => do
    let n ← memberValue v location
    let text := (p.memberStart.display ++ v.display).toList.map fun c => if c == '-' then '_' else c
    let more ← membersOfValues p location rest
    pure (⟨String.ofList text, n⟩ :: more)

def memberOfSegment (p : Profile) (location : String) (segment : List Char) :
    Compile EnumMember :=
  match cutAt pairSeparator segment with
  | none => .defect (.notAPair (String.ofList segment)) location
  | some (value, name) =>
    if occursIn pairSeparator name then .defect (.notAPair (String.ofList segment)) location
    else do
      let name ← memberName p name location
      let n ← memberValue (.text (String.ofList value)) location
      pure ⟨name, n⟩

def membersOfSegments (p : Profile) (location : String) :
    List (List Char) → Compile (List EnumMember)
  | [] => pure []
  | s :: rest => do
    let m ← memberOfSegment p location s
    let more ← membersOfSegments p location rest
    pure (m :: more)

/-- What stands between the last opening parenthesis and the next closing one. -/
def listText (description : List Char) (location : String) : Compile (List Char) :=
  match afterLast? '(' description with
  | none => .defect (.noList (String.ofList description)) location
  | some tail =>
    match cutAtChar ')' tail with
    | (inside, some _) => pure inside
    | (_, none) => .defect (.openList (String.ofList description)) location

def membersOfDescription (p : Profile) (location : String) (description : List Char) :
    Compile (List EnumMember) := do
  let inside ← listText description location
  membersOfSegments p location (pieces listSeparator inside)

def duplicate? (seen : List String) : List String → Option String
  | [] => none
  | n :: rest => if seen.contains n then some n else duplicate? (n :: seen) rest

/-- The description of a schema as a text; what is not present is empty. -/
def descriptionText? (v : Value) : Option (List Char) :=
  match v with
  | .text s => some s.toList
  | v => if v.isPresent then none else some []

def ofSchema (p : Profile) (es : List (Value × Value)) (c : NamingContext) : Compile EnumSpec := do
  let values ← Compile.shaped ((lookupText "enum" es).getD .null).elementsOrNone?
  let description ← Compile.shaped (descriptionText? ((lookupText "description" es).getD .null))
  let members ←
    if carriesList description then do
      let members ← membersOfDescription p c.location description
      if members.length != values.length then
        Logged.note .warning .enums (c.location ++ ": description lists " ++
          intString members.length ++ " enum members, enum has " ++ intString values.length ++
          " values")
      pure members
    else membersOfValues p c.location values
  if members.isEmpty then .defect .noMembers c.location
  else
    match duplicate? [] (members.map (·.name)) with
    | some n => .defect (.duplicateMember n) c.location
    | none => do
      let name ← Compile.shaped (nameIn? c)
      pure ⟨name, members⟩

end EnumSpec

end ApiSmith

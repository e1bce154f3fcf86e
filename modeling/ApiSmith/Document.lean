import ApiSmith.Data.Value.Access
import ApiSmith.Data.Value.Literal
import ApiSmith.Json.Reading
import ApiSmith.Text.Lowercase
import ApiSmith.Yaml.Reading

/-!
# Documents

A document describes an API: named definitions, paths with their operations, shared parameters, and
a title and version. Definitions are found at their older or newer place. The order of the text is
kept throughout. A document is read as JSON or YAML, by the name of its file.
-/

namespace ApiSmith

open Text

structure Document where
  definitions : List (Value × Value)
  distinct : HasDistinctKeys definitions
  /-- The path templates, each with its operations by HTTP method. -/
  paths : List (Value × List (String × Value))
  parameters : List (Value × Value)
  title : Value
  version : String

namespace Document

def httpMethods : List String := ["get", "put", "post", "delete", "options", "head", "patch"]

/-- The entries of a path that are operations. Every key must be a text. -/
def operations? : List (Value × Value) → Option (List (String × Value))
  | [] => some []
  | (.text method, operation) :: rest => do
    let more ← operations? rest
    if httpMethods.contains (lowerString method) then pure ((method, operation) :: more)
    else pure more
  | _ => none

def paths? : List (Value × Value) → Option (List (Value × List (String × Value)))
  | [] => some []
  | (template, entry) :: rest => do
    let es ← entry.entriesOrNone?
    let ops ← operations? es
    let more ← paths? rest
    pure ((template, ops) :: more)

/-- The definitions of a description: under `definitions`, or else under `components/schemas`. -/
def definitions? (spec : List (Value × Value)) : Option (List (Value × Value)) :=
  match lookupText "definitions" spec with
  | some ds => (ds.orElse (.map [])).asEntries?
  | none => do
    let components := (lookupText "components" spec).getD (.map [])
    let schemas ← components.part? "schemas"
    (schemas.orElse (.map [])).asEntries?

def ofValue? (v : Value) : Option Document := do
  let spec ← v.entries?
  let paths ← ((lookupText "paths" spec).getD (.map [])).entriesOrNone? >>= paths?
  let info ← ((lookupText "info" spec).getD (.map [])).entriesOrNone?
  let definitions ← definitions? spec
  let parameters ← (((lookupText "parameters" spec).getD .null).orElse (.map [])).asEntries?
  pure {
    definitions := overlay [] definitions
    distinct := HasDistinctKeys.overlay .nil definitions
    paths := paths
    parameters := parameters
    title := (lookupText "title" info).getD (.text "")
    version := ((lookupText "version" info).getD (.text "")).display }

/-! ## Files -/

inductive ReadFault where
  | json
  | yaml
  /-- A number or a date in it has no value. -/
  | scalar
  /-- A character in it has a number out of all range. -/
  | range
  deriving DecidableEq, Repr

def unifyBreaks : List Char → List Char
  | [] => []
  | '\r' :: '\n' :: rest => '\n' :: unifyBreaks rest
  | '\r' :: rest => '\n' :: unifyBreaks rest
  | c :: rest => c :: unifyBreaks rest

def readYaml (text : String) : Except ReadFault Value :=
  match Yaml.read (unifyBreaks text.toList) with
  | .ok v => .ok v
  | .error .malformed => .error .yaml
  | .error .badScalar => .error .scalar
  | .error .hugeEscape => .error .range

def readJson (text : String) : Except ReadFault Value :=
  match Json.read (unifyBreaks text.toList) with
  | .ok v => .ok v
  | .error .syntaxError => .error .json
  | .error .tooManyDigits => .error .scalar

/-- The data in the text of a file with the given ending: JSON for `.json` in any case, YAML
otherwise. -/
def readEnding (ending text : String) : Except ReadFault Value :=
  if lowerString ending == ".json" then readJson text else readYaml text

end Document

end ApiSmith

import ApiSmith.Data.Value.Access

/-!
# The schema of a response

Only the answer with status 200 counts. Its schema stands in the answer itself, or with the first of
a few content types that has one.
-/

namespace ApiSmith.Response

/-- The content types that are looked at, in order. -/
def contentTypes : List String := ["application/json", "text/json", "text/plain"]

def schemaOfType? (content : List (Value × Value)) (type : String) : Option Value :=
  ((lookupText type content).getD (.map [])).part? "schema"

def schemaOfTypes? (content : List (Value × Value)) : List String → Option Value
  | [] => some .null
  | type :: rest => do
    let schema ← schemaOfType? content type
    if schema.isPresent then pure schema else schemaOfTypes? content rest

/-- The answer with status 200 among the answers of an operation; the status may be a text or a
number. -/
def success (responses : List (Value × Value)) : Value :=
  match lookupText "200" responses with
  | some answer => answer
  | none => (lookup (.int 200) responses).getD .null

/-- The schema of the response of an operation, null where there is none. No result means that the
operation has not the shape of one. -/
def schema? (operation : Value) : Option Value := do
  let part ← operation.part? "responses"
  let responses ← part.entriesOrNone?
  let answer ← (success responses).entriesOrNone?
  let direct := (lookupText "schema" answer).getD .null
  if direct.isPresent then pure direct
  else do
    let content ← ((lookupText "content" answer).getD .null).entriesOrNone?
    schemaOfTypes? content contentTypes

end ApiSmith.Response

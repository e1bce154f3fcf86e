import ApiSmith.Payload.Dynamic
import ApiSmith.Text.Base64
import ApiSmith.Text.Percent

/-!
# Writing typed data

A value is written as plain JSON data: a model as a map without its null fields, an enum member as
its value, a whole decimal as an integer and any other as a double, a moment as a text in the form
that servers take, octets in Base64. A moment without an offset is written in the time zone of the
process.
-/

namespace ApiSmith

open Text Number Time

inductive EncodeFault where
  /-- Values of the kind are not written. -/
  | unsupported (kind : String)
  /-- An infinite decimal is no integer. -/
  | infinite
  /-- A signalling decimal is not compared. -/
  | signalling
  /-- The time zone has no place for a moment without offset. -/
  | noOffset

def EncodeFault.message : EncodeFault → String
  | .unsupported kind => "Cannot encode " ++ kind
  | .infinite | .signalling | .noOffset => ""

def encodeDecimal (d : Decimal) : Except EncodeFault Value :=
  match d with
  | .finite negative c e =>
    if Decimal.isIntegral c e then .ok (.int (Decimal.wholeNumber negative c e))
    else .ok (.float d.toDouble)
  | .infinite _ => .error .infinite
  | .nan _ true _ => .error .signalling
  | .nan .. => .ok (.float nanDouble)

section

variable (zone : Zone)

def encodeMoment (m : Moment) : Except EncodeFault Value :=
  match m.sendText? zone with
  | some cs => .ok (.text (String.ofList cs))
  | none => .error .noOffset

mutual

def encode : Value → Except EncodeFault Value
  | .null => .ok .null
  | .bool b => .ok (.bool b)
  | .int n => .ok (.int n)
  | .float x => .ok (.float x)
  | .text s => .ok (.text s)
  | .decimal d => encodeDecimal d
  | .moment m => encodeMoment zone m
  | .bytes octets => .ok (.text (String.ofList (Base64.encode octets)))
  | .list items => (encodeAll items).map .list
  | .tuple items => (encodeAll items).map .list
  | .map entries => (encodeEntries entries).map fun es => .map (overlay [] es)
  | .object fields => .ok (DynamicObject.plain fields)
  | .member _ _ value _ => .ok value
  | .model _ fields => (encodeFields fields).map fun es => .map (overlay [] es)
  | .date d => .error (.unsupported (Value.date d).kindName)
  | .foreign => .error (.unsupported Value.foreign.kindName)

def encodeAll : List Value → Except EncodeFault (List Value)
  | [] => .ok []
  | v :: rest => do
    let x ← encode v
    let more ← encodeAll rest
    pure (x :: more)

def encodeEntries : List (Value × Value) → Except EncodeFault (List (Value × Value))
  | [] => .ok []
  | (k, v) :: rest => do
    let x ← encode v
    let more ← encodeEntries rest
    pure ((.text k.display, x) :: more)

def encodeFields : List (String × String × Value) → Except EncodeFault (List (Value × Value))
  | [] => .ok []
  | (_, key, v) :: rest =>
    if v.isNull then encodeFields rest
    else do
      let x ← encode v
      let more ← encodeFields rest
      pure ((.text key, x) :: more)

end

/-! ## Queries -/

inductive FormatFault where
  /-- It is of a kind that is no moment. -/
  | notAMoment (kind : String)
  /-- It is a moment that has no text. -/
  | unsent (f : EncodeFault)

/-- A date as a method formats it for a query: a moment as a text, null as it is. -/
def formatDate : Value → Except FormatFault Value
  | .null => .ok .null
  | .moment m => (encodeMoment zone m).mapError .unsent
  | v => .error (.notAMoment v.kindName)

mutual

def queryValue : Value → Except EncodeFault Value
  | .list items => (queryValues items).map .list
  | .tuple items => (queryValues items).map .list
  | .moment m => encodeMoment zone m
  | .member _ _ value _ => .ok value
  | .decimal d => .ok (.text d.string)
  | v => .ok v

def queryValues : List Value → Except EncodeFault (List Value)
  | [] => .ok []
  | v :: rest => do
    let x ← queryValue v
    let more ← queryValues rest
    pure (x :: more)

end

def queryText : Value → String
  | .null => ""
  | .bool b => if b then "true" else "false"
  | v => v.display

def queryTexts : Value → List String
  | .list items => items.map queryText
  | .tuple items => items.map queryText
  | v => [queryText v]

def queryEntries : List (Value × Value) → Except EncodeFault (List (Value × List String))
  | [] => .ok []
  | (k, v) :: rest =>
    if v.isNull then queryEntries rest
    else do
      let x ← queryValue zone v
      let more ← queryEntries rest
      pure ((.text k.display, queryTexts x) :: more)

def queryPairs (args : List (Value × Value)) : Except EncodeFault (List (String × String)) := do
  let entries ← queryEntries zone args
  pure ((overlay [] entries).flatMap fun e => e.2.map fun t => (e.1.display, t))

def withQuery (url : String) (args : List (Value × Value)) : Except EncodeFault String := do
  let pairs ← queryPairs zone args
  if pairs.isEmpty then pure url
  else pure (url ++ "?" ++ String.ofList (Percent.formPairs pairs))

end

end ApiSmith

import ApiSmith.Json.Reading
import ApiSmith.Payload.Decoding
import ApiSmith.Text.Encoding

/-!
# The body of an answer

Octets are taken raw. A text stands between quotes, which are taken off. Anything else is JSON.
-/

namespace ApiSmith

open Text

inductive AnswerFault where
  | empty
  /-- It is to be a text and is not UTF-8. -/
  | notUtf8
  /-- It is to be a text and is not quoted. -/
  | notQuoted (start : String)
  | notJson
  /-- Its data do not match. -/
  | decode (f : DecodeFault)

def AnswerFault.message : AnswerFault → String
  | .empty => "response body is empty"
  | .notUtf8 => "response body is not UTF-8 text"
  | .notQuoted start => "expected a quoted string, got " ++ (Value.text start).literal
  | .notJson => "response body is not JSON"
  | .decode (.mismatch m) => m.message
  | .decode _ => ""

def unquoted (cs : List Char) : Except AnswerFault Value :=
  if 2 ≤ cs.length && cs.head? == some '"' && cs.getLast? == some '"' then
    .ok (.text (String.ofList (cs.drop 1).dropLast))
  else .error (.notQuoted (String.ofList (cs.take 40)))

def textBody (octets : List UInt8) : Except AnswerFault Value :=
  match utf8Text? octets with
  | some cs => unquoted cs
  | none => .error .notUtf8

def jsonBody (octets : List UInt8) : Except AnswerFault Value :=
  match (sniffedText? octets).map Json.read with
  | some (.ok v) => .ok v
  | _ => .error .notJson

def readAnswer (table : TypeTable) (t : DataType) (octets : List UInt8) :
    Logged AnswerFault Value :=
  if octets.isEmpty then .fail .empty
  else match t with
    | .bytes => pure (.bytes octets)
    | .text => .ofExcept (textBody octets)
    | t => do
      let v ← Logged.ofExcept (jsonBody octets)
      let x := decode table t v
      ⟨x.result.mapError .decode, x.log⟩

end ApiSmith

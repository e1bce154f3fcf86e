import ApiSmith.Payload.Answer
import ApiSmith.Payload.Encoding

/-!
# Outcomes of requests

Every request resolves to an outcome: a value, a failure, or the word that the caller is not
authorized. An answer is judged by its status first and by its body only then. A refused
authorization is never a failure, and statuses from 400 to 599 are; any other status leaves the
judgement to the body.
-/

namespace ApiSmith

open Text

inductive RequestFault where
  /-- The server answered with an error status. -/
  | status (code : Nat) (body : String)
  /-- The exchange with the server broke. -/
  | transport (text : String)
  | aborted (method path : String)
  /-- A mock payload asked for a failure. -/
  | mocked
  /-- The body of the answer has no value of the expected type. -/
  | body (f : AnswerFault)

def RequestFault.message : RequestFault → String
  | .status code _ => "HTTP " ++ toString code
  | .transport text => text
  | .aborted method path => method ++ " " ++ path ++ " was cancelled"
  | .mocked => "mock payload requested a failure"
  | .body f => f.message

/-- What a request resolves to. -/
inductive Outcome where
  | success (v : Value)
  | failure (f : RequestFault)
  /-- The caller is not authorized. -/
  | unauthorized (status : Nat)

def unauthorizedText (status : Nat) : String := "HTTP " ++ toString status

def Outcome.isSuccess : Outcome → Bool
  | .success _ => true
  | _ => false

/-- What keeps a request from having an outcome at all. -/
inductive Breakdown where
  | encode (f : EncodeFault)
  /-- Its encoded body cannot be written. -/
  | unwritable
  /-- There is no token left. -/
  | noToken
  | header
  | address
  /-- Its address has no scheme, which shows when the answer is there. -/
  | noScheme
  /-- The data of the answer are beyond what decoding can hold. -/
  | decode (f : DecodeFault)

structure Response where
  status : Nat
  body : List UInt8

def unauthorizedStatus : Nat := 401

def isErrorStatus (status : Nat) : Bool := 400 ≤ status && status ≤ 599

def Response.text (r : Response) : String := String.ofList (utf8TextReplacing r.body)

def bodyOutcome (table : TypeTable) (t : DataType) (body : List UInt8) :
    Logged Breakdown Outcome :=
  let x := readAnswer table t body
  match x.result with
  | .ok v => ⟨.ok (.success v), x.log⟩
  | .error (.decode (.mismatch m)) => ⟨.ok (.failure (.body (.decode (.mismatch m)))), x.log⟩
  | .error (.decode f) => ⟨.error (.decode f), x.log⟩
  | .error f => ⟨.ok (.failure (.body f)), x.log⟩

def Response.outcome (table : TypeTable) (t : DataType) (r : Response) :
    Logged Breakdown Outcome :=
  if r.status == unauthorizedStatus then pure (.unauthorized r.status)
  else if isErrorStatus r.status then pure (.failure (.status r.status r.text))
  else bodyOutcome table t r.body

def mockFailure : String := "400"

def mockOutcome (table : TypeTable) (t : DataType) (payload : String) : Logged Breakdown Outcome :=
  if payload == mockFailure then pure (.failure .mocked)
  else bodyOutcome table t (utf8Octets payload)

end ApiSmith

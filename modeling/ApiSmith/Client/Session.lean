import ApiSmith.Client.Config
import ApiSmith.Client.Outcome
import ApiSmith.Client.Url
import ApiSmith.Json.Writing
import ApiSmith.Notices.Center
import ApiSmith.Text.Base64
import ApiSmith.Text.Uppercase

/-!
# Sessions

A session is the state of one client: its settings, the tasks that were started for requests, and
the journal of what was sent, posted and logged. Requests run side by side, so the life of a task is
cut into the steps between which other tasks may run:

* `start` creates the task, and `launch` is its first step, which hands the request to the transport;
* `receive` is its last step, with what the transport brought;
* `settle` forgets the ended task, and `resolve` tells the caller its resolution.

An abort marks every unfinished task. The mark takes effect when the task would next go on, also
when the abort comes from an observer in the middle of the last step. A task that was aborted
resolves to a failure; one whose caller went away is cancelled.
-/

namespace ApiSmith

open Notices Text Time

def unauthorizedNotice : String := "ResponseReceiveHTTPStatusCodeNotAuthorized"

/-- What observers may ask of a session. -/
inductive Signal where
  | abortAll
  deriving DecidableEq, Repr

structure Request where
  path : String
  /-- The method, as given. -/
  method : String
  /-- The body; null is none. -/
  body : Value
  type : DataType
  /-- The payload that stands for the answer where mocks are enabled. -/
  mock : Option String

/-- What the transport brings for a request. -/
inductive Reply where
  | response (r : Response)
  /-- A broken exchange: its kind and what is said of it. -/
  | broken (kind text : String)

/-- What is handed to the transport. -/
structure Dispatch where
  method : String
  url : Url
  authorization : String
  userAgent : String
  /-- The body as JSON text, if there is one. -/
  body : Option String
  deriving DecidableEq, Repr

def Dispatch.contentType (d : Dispatch) : Option String := d.body.map fun _ => "application/json"

inductive Ending where
  | outcome (o : Outcome)
  | breakdown (b : Breakdown)
  | cancelled

inductive Phase where
  /-- Its first step is to come. -/
  | created
  | waiting (d : Dispatch)
  | ended (e : Ending)

structure Task where
  request : Request
  phase : Phase
  marked : Bool

def Task.isEnded (t : Task) : Bool :=
  match t.phase with
  | .ended _ => true
  | _ => false

/-- A task at its end. A requested cancellation replaces an outcome, but not a breakdown. -/
def Task.finish (t : Task) (e : Ending) : Task :=
  match e with
  | .outcome _ => { t with phase := .ended (if t.marked then .cancelled else e), marked := false }
  | _ => { t with phase := .ended e, marked := false }

/-- A task whose caller goes away. The caller of an ended task is not told its ending any more. -/
def Task.abandon (t : Task) : Task :=
  if t.isEnded then { t with phase := .ended .cancelled } else { t with marked := true }

structure Journal where
  /-- What was handed to the transport. -/
  sent : List Dispatch
  events : List (Event Signal)
  log : List LogRecord

structure Session where
  /-- The time zone of the process that the client is in. -/
  zone : Zone
  config : ClientConfig
  types : TypeTable
  /-- Where the next token comes from. -/
  tokens : TokenSource
  /-- Whether the transport was set up. -/
  configured : Bool
  /-- The tasks; their numbers are their places. -/
  tasks : List Task
  /-- The tasks that were not settled. -/
  inflight : List Nat
  /-- The tasks that were aborted and not resolved. -/
  aborted : List Nat
  center : Center Signal
  journal : Journal

namespace Session

def begin (zone : Zone) (config : ClientConfig) (types : TypeTable) (center : Center Signal) :
    Session :=
  ⟨zone, config, types, config.tokenSource, false, [], [], [], center, ⟨[], [], []⟩⟩

/-! ## Journal -/

def note (s : Session) (level : Level) (text : String) : Session :=
  { s with journal.log := s.journal.log ++ [⟨level, .client, text⟩] }

def noteAll (s : Session) (log : List LogRecord) : Session :=
  { s with journal.log := s.journal.log ++ log }

def forget (s : Session) : Session := { s with journal := ⟨[], [], []⟩ }

/-! ## Steps -/

def configure (s : Session) : Session :=
  if s.configured then s
  else { s.note .debug ("Configured HTTP transport for " ++ s.config.urlHost) with configured := true }

def modifyTask (s : Session) (id : Nat) (f : Task → Task) : Session :=
  { s with tasks := s.tasks.modify id f }

def start (s : Session) (r : Request) : Session × Nat :=
  let id := s.tasks.length
  ({ s with tasks := s.tasks ++ [⟨r, .created, false⟩], inflight := s.inflight ++ [id] }, id)

def unfinished (s : Session) : List Nat :=
  s.inflight.filter fun id => s.tasks[id]?.any fun t => !t.isEnded

/-- Aborts the unfinished tasks, and says how many there are. -/
def abortAll (s : Session) : Session × Nat :=
  let ids := s.unfinished
  let marked := ids.foldl (fun s id => s.modifyTask id fun t => { t with marked := true }) s
  let s := { marked with aborted := s.aborted.filter (!ids.contains ·) ++ ids }
  (if ids.isEmpty then s
    else s.note .info ("Cancelled " ++ toString ids.length ++ " in-flight requests"), ids.length)

/-- Cancels a task on behalf of its caller, who was not told its ending yet. -/
def cancelCaller (s : Session) (id : Nat) : Session := s.modifyTask id Task.abandon

def isAscii (s : String) : Bool := s.toList.all fun c => c.toNat < 128

def bodyText (s : Session) (r : Request) : Except Breakdown (Option Value) :=
  match r.body with
  | .null => .ok none
  | v =>
    match encode s.zone v with
    | .ok .null => .ok none
    | .ok e => .ok (some e)
    | .error f => .error (.encode f)

/-- The authorization of an address that names a user, or else a token. -/
def authorization (url : Url) (token : String) : String :=
  match url.credentials? with
  | some octets => "Basic " ++ String.ofList (Base64.encode octets)
  | none => "Bearer " ++ token

def address? (s : Session) (path : String) : Option Url := do
  let host ← Url.read? s.config.urlHost.toList
  let base ← host.asBase?
  base.below? path.toList

def dispatch (s : Session) (r : Request) (token : String) (body : Option Value) :
    Except Breakdown Dispatch :=
  match s.address? r.path with
  | none => .error .address
  | some url =>
    if !(isAscii token && isAscii s.config.userAgent) then .error .header
    else
      let text (v : Value) : Except Breakdown (Option String) :=
        match Json.text? .compact v with
        | some t => .ok (some t)
        | none => .error .unwritable
      match body with
      | none => .ok ⟨upperString r.method, url, authorization url token, s.config.userAgent, none⟩
      | some v => (text v).map (⟨upperString r.method, url, authorization url token,
          s.config.userAgent, ·⟩)

def send (s : Session) (r : Request) : Session × Phase :=
  match s.bodyText r with
  | .error b => (s, .ended (.breakdown b))
  | .ok body =>
    match s.tokens.next? with
    | none => (s, .ended (.breakdown .noToken))
    | some (token, tokens) =>
      let s := { s with tokens := tokens }
      match s.dispatch r token body with
      | .error b => (s, .ended (.breakdown b))
      | .ok d => ({ s with journal.sent := s.journal.sent ++ [d] }, .waiting d)

def launch (s : Session) (id : Nat) : Session :=
  match s.tasks[id]? with
  | some ⟨r, .created, marked⟩ =>
    if marked then s.modifyTask id (·.finish .cancelled)
    else
      let (s, phase) := s.send r
      s.modifyTask id fun t => { t with phase := phase }
  | _ => s

def obey (s : Session) : Deed Signal → Session
  | .failed _ _ => s.noteAll [failureRecord]
  | .signalled .abortAll => s.abortAll.1

def keep (s : Session) (run : Run Signal) : Session :=
  { s with center := run.center, journal.events := s.journal.events ++ run.events }

/-- Acts on the center, with posts nested at most `depth` deep, and obeys the deeds in order. -/
def act (depth : Nat) (s : Session) (a : Action Signal) : Session :=
  let run := s.center.run depth [a]
  (eventDeeds run.events).foldl obey (s.keep run)

def post (depth : Nat) (s : Session) (name : String) (payload : Value) : Session :=
  s.act depth (.post name payload)

/-- The ending that an answer leads to, told to the observers if it refuses authorization. -/
def conclude (depth : Nat) (s : Session) (r : Request) (answer : Response) : Session × Ending :=
  let x := answer.outcome s.types r.type
  let s := s.noteAll x.log
  let ending :=
    match x.result with
    | .ok o => Ending.outcome o
    | .error b => .breakdown b
  if answer.status == unauthorizedStatus then
    let s := s.note .info (r.method ++ " " ++ r.path ++ " answered 401")
    (s.post depth unauthorizedNotice (.int answer.status), ending)
  else (s, ending)

def reply (depth : Nat) (s : Session) (r : Request) (d : Dispatch) : Reply → Session × Ending
  | .broken kind text =>
    let s := s.note .warning (r.method ++ " " ++ r.path ++ " failed: " ++ text)
    (s, .outcome (.failure (.transport (if text.isEmpty then kind else text))))
  | .response answer =>
    if d.url.scheme.isEmpty then (s, .breakdown .noScheme) else s.conclude depth r answer

/-- The last step of a task, with the reply to its request. A task that is to be cancelled does not
look at the reply. -/
def receive (depth : Nat) (s : Session) (id : Nat) (answer : Reply) : Session :=
  match s.tasks[id]? with
  | some ⟨r, .waiting d, marked⟩ =>
    if marked then s.modifyTask id (·.finish .cancelled)
    else
      let (s, ending) := s.reply depth r d answer
      s.modifyTask id (·.finish ending)
  | _ => s

/-- The step of a task that is to be cancelled and has no reply. -/
def interrupt (s : Session) (id : Nat) : Session :=
  match s.tasks[id]? with
  | some ⟨_, .waiting _, true⟩ => s.modifyTask id (·.finish .cancelled)
  | _ => s

def settle (s : Session) (id : Nat) : Session :=
  if s.tasks[id]?.any Task.isEnded then { s with inflight := s.inflight.erase id } else s

/-- Tells the caller how an ended task resolves. A task that was aborted resolves to a failure. -/
def resolve (s : Session) (id : Nat) : Option (Session × Ending) :=
  match s.tasks[id]? with
  | some ⟨r, .ended e, _⟩ =>
    match e with
    | .cancelled =>
      if s.aborted.contains id then
        some ({ s with aborted := s.aborted.erase id },
          .outcome (.failure (.aborted r.method r.path)))
      else some (s, .cancelled)
    | e => some (s, e)
  | _ => none

/-! ## Whole requests -/

def mock? (s : Session) (r : Request) : Option String :=
  if s.config.mocksEnabled then r.mock else none

def mocked (s : Session) (r : Request) (payload : String) : Session × Ending :=
  let x := mockOutcome s.types r.type payload
  (s.noteAll x.log,
    match x.result with
    | .ok o => .outcome o
    | .error b => .breakdown b)

/-- A request that was begun: a mocked one ended, any other one has a task. -/
inductive Begun where
  | ended (e : Ending)
  | task (id : Nat)

def request (s : Session) (r : Request) : Session × Begun :=
  let s := s.configure
  match s.mock? r with
  | some payload =>
    let (s, e) := s.mocked r payload
    (s, .ended e)
  | none =>
    let (s, id) := s.start r
    (s, .task id)

/-- A request from its beginning to its end, with nothing else between. -/
def exchange (depth : Nat) (s : Session) (r : Request) (answer : Reply) :
    Option (Session × Ending) :=
  match s.request r with
  | (s, .ended e) => some (s, e)
  | (s, .task id) => (((s.launch id).receive depth id answer).settle id).resolve id

def openAll (s : Session) : List Request → Session × List Begun
  | [] => (s, [])
  | r :: rest =>
    let (s, b) := s.request r
    let s := match b with
      | .task id => s.launch id
      | .ended _ => s
    let (s, bs) := s.openAll rest
    (s, b :: bs)

/-- The endings of requests that were begun, of those that are still waiting after their
cancellation. -/
def closeAll (s : Session) : List Begun → Option (Session × List Ending)
  | [] => some (s, [])
  | .ended e :: rest => do
    let (s, es) ← s.closeAll rest
    pure (s, e :: es)
  | .task id :: rest => do
    let (s, e) ← ((s.interrupt id).settle id).resolve id
    let (s, es) ← s.closeAll rest
    pure (s, e :: es)

/-- Requests that hang in the transport until all of them are aborted: how many were, and how the
requests end. -/
def abortHanging (s : Session) (rs : List Request) : Option (Session × Nat × List Ending) := do
  let (s, begun) := s.openAll rs
  let (s, n) := s.abortAll
  let (s, es) ← s.closeAll begun
  pure (s, n, es)

/-- Requests that hang in the transport until their callers go away. -/
def abandonHanging (s : Session) (rs : List Request) : Option (Session × List Ending) :=
  let (s, begun) := s.openAll rs
  let s := begun.foldl (fun s b =>
    match b with
    | .task id => s.cancelCaller id
    | .ended _ => s) s
  s.closeAll begun

end Session

end ApiSmith

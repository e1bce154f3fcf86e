import ApiSmith.Data.Value
import ApiSmith.Log
import ApiSmith.Notices.Registry

/-!
# Actions and events

An *action* is something an observer does when it is told a notice; an *event* is what a run of
actions leaves. A posted notice has one call for each observer that was told, and a call has the
events that the observer itself caused, so the events of a run are a forest. Actions that concern
something outside of the notices are signals of a type `ε`.
-/

namespace ApiSmith.Notices

inductive Action (ε : Type) where
  /-- Subscribes an observer. What the observer does is settled when it is first named. -/
  | subscribe (s : Subscription) (handle : String) (actions : List (Action ε)) (fails : Bool)
  /-- Settles anew what an observer does, so that it need not do the same whenever it is told. -/
  | alter (observer : String) (actions : List (Action ε)) (fails : Bool)
  /-- Takes back the subscription that was last made with a handle. -/
  | unsubscribe (handle : String)
  | post (name : String) (payload : Value)
  | signal (e : ε)

/-- What an observer does when it is told a notice: its actions, and then it may fail. -/
structure Behaviour (ε : Type) where
  actions : List (Action ε)
  fails : Bool

mutual

inductive Event (ε : Type) where
  /-- A notice was posted and observers were told. -/
  | posted (name : String) (payload : Value) (calls : List (Call ε))
  | signalled (e : ε)

inductive Call (ε : Type) where
  /-- The observer, what it caused, and whether it failed. -/
  | mk (observer : String) (events : List (Event ε)) (failed : Bool)

end

variable {ε : Type}

def Call.observer : Call ε → String
  | .mk o _ _ => o

/-! ## Records

The observers that were told, each with the payload, in the order of the calls. -/

mutual

def Event.records : Event ε → List (String × Value)
  | .posted _ payload calls => callRecords payload calls
  | .signalled _ => []

def callRecords (payload : Value) : List (Call ε) → List (String × Value)
  | [] => []
  | .mk o events _ :: rest => (o, payload) :: (eventRecords events ++ callRecords payload rest)

def eventRecords : List (Event ε) → List (String × Value)
  | [] => []
  | e :: rest => e.records ++ eventRecords rest

end

/-! ## Deeds

What a run of actions did to the outside: the signals it gave and the observers that failed, each
where it happened. An observer fails when it ends, so after the deeds it caused. -/

/-- Something that is to be seen outside of the center. -/
inductive Deed (ε : Type) where
  /-- An observer failed when it was told a notice. -/
  | failed (observer name : String)
  | signalled (e : ε)

mutual

def Event.deeds : Event ε → List (Deed ε)
  | .posted name _ calls => callDeeds name calls
  | .signalled e => [.signalled e]

def callDeeds (name : String) : List (Call ε) → List (Deed ε)
  | [] => []
  | .mk o events failed :: rest =>
    eventDeeds events ++ (if failed then [.failed o name] else []) ++ callDeeds name rest

def eventDeeds : List (Event ε) → List (Deed ε)
  | [] => []
  | e :: rest => e.deeds ++ eventDeeds rest

end

/-- What the log says of a failed observer; the log gives no names. -/
def failureRecord : LogRecord := ⟨.error, .notices, "Observer %r failed handling %s"⟩

def Deed.record? : Deed ε → Option LogRecord
  | .failed _ _ => some failureRecord
  | .signalled _ => none

def eventLog (events : List (Event ε)) : List LogRecord := (eventDeeds events).filterMap Deed.record?

end ApiSmith.Notices

import ApiSmith.Notices.Event

/-!
# The center of notices

A center tells observers the notices that are posted under their name. A post calls the observers
that are registered when it begins, whatever they do to the registry meanwhile. An observer that
fails does not keep the next ones from being told.

Observers may post again. How deep posts may be nested is bounded by a depth; a post that would go
deeper fails, and with it the observer that made it.
-/

namespace ApiSmith.Notices

variable {ε : Type}

structure Center (ε : Type) where
  registry : Registry
  /-- What the observers do, as given last. -/
  behaviours : List (String × Behaviour ε)
  /-- The subscriptions by handle, newest first. -/
  handles : List (String × Subscription)

structure Run (ε : Type) where
  center : Center ε
  events : List (Event ε)
  succeeded : Bool

/-- How an action posts a notice: the calls it leads to, if posts are not nested too deep. -/
abbrev Poster (ε : Type) := Center ε → String → Value → Option (Center ε × List (Call ε))

namespace Center

def empty : Center ε := ⟨[], [], []⟩

/-- What an observer does; one that was never named does nothing. -/
def behaviour (c : Center ε) (observer : String) : Behaviour ε :=
  (c.behaviours.lookup observer).getD ⟨[], false⟩

/-- Settles what an observer does, if it is not settled yet. -/
def declare (c : Center ε) (observer : String) (b : Behaviour ε) : Center ε :=
  if (c.behaviours.lookup observer).isSome then c
  else { c with behaviours := (observer, b) :: c.behaviours }

def alter (c : Center ε) (observer : String) (b : Behaviour ε) : Center ε :=
  { c with behaviours := (observer, b) :: c.behaviours }

def subscribe (c : Center ε) (s : Subscription) (handle : String) (b : Behaviour ε) : Center ε :=
  let c := c.declare s.observer b
  { c with registry := c.registry.subscribe s, handles := (handle, s) :: c.handles }

def unsubscribe (c : Center ε) (s : Subscription) : Center ε :=
  { c with registry := c.registry.unsubscribe s }

/-- Runs actions one after another. The first one that fails ends the run; an action fails if it
names an unknown handle or posts too deep. -/
def perform (post : Poster ε) (c : Center ε) : List (Action ε) → Run ε
  | [] => ⟨c, [], true⟩
  | .subscribe s handle actions fails :: rest =>
    (c.subscribe s handle ⟨actions, fails⟩).perform post rest
  | .alter observer actions fails :: rest =>
    (c.alter observer ⟨actions, fails⟩).perform post rest
  | .unsubscribe handle :: rest =>
    match c.handles.lookup handle with
    | none => ⟨c, [], false⟩
    | some s => (c.unsubscribe s).perform post rest
  | .post name payload :: rest =>
    match post c name payload with
    | none => ⟨c, [], false⟩
    | some (c, calls) =>
      let run := c.perform post rest
      { run with events := .posted name payload calls :: run.events }
  | .signal e :: rest =>
    let run := c.perform post rest
    { run with events := .signalled e :: run.events }

def callAll (post : Poster ε) (c : Center ε) : List String → Center ε × List (Call ε)
  | [] => (c, [])
  | o :: rest =>
    let b := c.behaviour o
    let run := c.perform post b.actions
    let (c, calls) := run.center.callAll post rest
    (c, .mk o run.events (b.fails || !run.succeeded) :: calls)

/-- Posts a notice, with posts nested less deep than `depth`. -/
def post : Nat → Poster ε
  | 0, _, _, _ => none
  | depth + 1, c, name, _ => some (c.callAll (post depth) (c.registry.observers name))

/-- Runs actions whose notices lead to posts nested at most `depth` deep. -/
def run (depth : Nat) (c : Center ε) (actions : List (Action ε)) : Run ε :=
  c.perform (post (depth + 1)) actions

theorem callAll_observers (post : Poster ε) (c : Center ε) (os : List String) :
    (c.callAll post os).2.map Call.observer = os := by
  induction os generalizing c with
  | nil => rfl
  | cons o rest ih => simp [callAll, Call.observer, ih]

/-- Posting a notice alone leaves one event, with a call for each observer under its name. -/
theorem run_post (depth : Nat) (c : Center ε) (name : String) (payload : Value) :
    ∃ calls, calls.map Call.observer = c.registry.observers name ∧
      (c.run depth [.post name payload]).events = [.posted name payload calls] :=
  ⟨_, callAll_observers _ _ _, rfl⟩

end Center

end ApiSmith.Notices

import ApiSmith.Notices.Center

/-!
# What a post does

A center runs the actions of observers in the middle of a post, and these may subscribe, take
subscriptions back, fail and post again. The rules of that are `Performs` and `Tells`. The one that
matters is that of a post: whom it calls is settled by the registry at its beginning, and the
registry that each of them finds is the one that the calls before have left. Every run of a center
goes by the rules (`performs_perform`), so what they say holds at any depth of nested posts.

Along with the events, the rules keep what is done to the registry, in order (`Deal`). A
subscription is known there by its number, so that two equal ones are told apart.

Two things follow by induction on the rules. The registry after a run is the one before it with the
deals of the run (`Performs.desk`), and nobody is told a notice under a name without being
subscribed under this name (`Performs.told`).
-/

namespace ApiSmith.Notices

variable {ε : Type}

/-! ## Deals -/

/-- Something that is done to a registry. Subscriptions are numbered in the order in which they are
made. -/
inductive Deal where
  | subscribe (s : Subscription)
  /-- The function is called that the subscription with this number returned. -/
  | takeBack (number : Nat)
  deriving DecidableEq

/-- All subscriptions that were ever made, oldest first, and those that are registered. -/
structure Desk where
  made : List Subscription
  registry : Registry

namespace Desk

def empty : Desk := ⟨[], []⟩

def deal (d : Desk) : Deal → Desk
  | .subscribe s => ⟨d.made ++ [s], d.registry.subscribe s⟩
  | .takeBack n =>
    match d.made[n]? with
    | some s => { d with registry := d.registry.unsubscribe s }
    | none => d

def dealAll (d : Desk) (ds : List Deal) : Desk := ds.foldl deal d

theorem dealAll_append (d : Desk) (ds ds' : List Deal) :
    d.dealAll (ds ++ ds') = (d.dealAll ds).dealAll ds' :=
  List.foldl_append

theorem mem_registry_deal {d : Desk} {a : Deal} {s : Subscription}
    (h : s ∈ (d.deal a).registry) : s ∈ d.registry ∨ a = .subscribe s := by
  cases a with
  | subscribe t =>
    rcases List.mem_append.mp h with h | h
    · exact .inl h
    · exact .inr (by rw [List.mem_singleton.mp h])
  | takeBack n =>
    simp only [deal] at h
    split at h
    · exact .inl (List.mem_of_mem_erase h)
    · exact .inl h

theorem mem_registry_dealAll {d : Desk} {ds : List Deal} {s : Subscription}
    (h : s ∈ (d.dealAll ds).registry) : s ∈ d.registry ∨ .subscribe s ∈ ds := by
  induction ds generalizing d with
  | nil => exact .inl h
  | cons a rest ih =>
    rcases ih (d := d.deal a) h with h | h
    · rcases mem_registry_deal h with h | rfl
      · exact .inl h
      · exact .inr List.mem_cons_self
    · exact .inr (List.mem_cons_of_mem _ h)

end Desk

/-! ## Numbers of subscriptions -/

/-- The number of the subscription that was last made with a handle. The newest one comes first. -/
def numberIn? (handle : String) : List (String × Subscription) → Option Nat
  | [] => none
  | (h, _) :: older => if handle == h then some older.length else numberIn? handle older

namespace Center

def number? (c : Center ε) (handle : String) : Option Nat := numberIn? handle c.handles

def made (c : Center ε) : List Subscription := (c.handles.map (·.2)).reverse

def desk (c : Center ε) : Desk := ⟨c.made, c.registry⟩

end Center

theorem numberIn?_cases (handle : String) (handles : List (String × Subscription)) :
    (handles.lookup handle = none ∧ numberIn? handle handles = none) ∨
      ∃ s n, handles.lookup handle = some s ∧ numberIn? handle handles = some n ∧
        (handles.map (·.2)).reverse[n]? = some s := by
  induction handles with
  | nil => exact .inl ⟨rfl, rfl⟩
  | cons e older ih =>
    obtain ⟨h, t⟩ := e
    by_cases heq : handle == h
    · refine .inr ⟨t, older.length, ?_, ?_, ?_⟩
      · simp [List.lookup_cons, heq]
      · simp [numberIn?, heq]
      · simp
    · rcases ih with ⟨hlook, hnum⟩ | ⟨s, n, hlook, hnum, hmade⟩
      · refine .inl ⟨?_, ?_⟩
        · simpa [List.lookup_cons, heq] using hlook
        · simpa [numberIn?, heq] using hnum
      · refine .inr ⟨s, n, ?_, ?_, ?_⟩
        · simpa [List.lookup_cons, heq] using hlook
        · simpa [numberIn?, heq] using hnum
        · have hlt := (List.getElem?_eq_some_iff.mp hmade).1
          rw [List.map_cons, List.reverse_cons, List.getElem?_append_left hlt]
          exact hmade

/-! ## Rules -/

def Call.events : Call ε → List (Event ε)
  | .mk _ es _ => es

mutual

/-- Actions are performed one after another by a center that allows posts to be nested less deep
than the number says. They lead to deals and events, those of the calls on the way included, and
leave a center. -/
inductive Performs :
    Nat → Center ε → List (Action ε) → List Deal → List (Event ε) → Center ε → Prop where
  | done {depth c} : Performs depth c [] [] [] c
  | subscribe {depth c s handle actions fails rest ds es c'} :
      Performs depth (c.subscribe s handle ⟨actions, fails⟩) rest ds es c' →
      Performs depth c (.subscribe s handle actions fails :: rest) (.subscribe s :: ds) es c'
  | alter {depth c o actions fails rest ds es c'} :
      Performs depth (c.alter o ⟨actions, fails⟩) rest ds es c' →
      Performs depth c (.alter o actions fails :: rest) ds es c'
  | takeBack {depth c handle n s rest ds es c'} :
      c.number? handle = some n → c.made[n]? = some s →
      Performs depth (c.unsubscribe s) rest ds es c' →
      Performs depth c (.unsubscribe handle :: rest) (.takeBack n :: ds) es c'
  /-- A handle without a subscription ends the run. -/
  | unknown {depth c handle rest} :
      c.number? handle = none → Performs depth c (.unsubscribe handle :: rest) [] [] c
  /-- A post calls the observers that are registered under its name when it begins. -/
  | post {depth c name payload rest calls ds c' ds' es c''} :
      calls.map Call.observer = c.registry.observers name → Tells depth c calls ds c' →
      Performs (depth + 1) c' rest ds' es c'' →
      Performs (depth + 1) c (.post name payload :: rest) (ds ++ ds')
        (.posted name payload calls :: es) c''
  | tooDeep {c name payload rest} : Performs 0 c (.post name payload :: rest) [] [] c
  | signal {depth c e rest ds es c'} :
      Performs depth c rest ds es c' →
      Performs depth c (.signal e :: rest) ds (.signalled e :: es) c'

/-- Calls are made one after another. Each observer performs the actions that are settled for it
when its turn comes; that it fails does not concern the others. -/
inductive Tells : Nat → Center ε → List (Call ε) → List Deal → Center ε → Prop where
  | nobody {depth c} : Tells depth c [] [] c
  | next {depth c o es failed ds c' calls ds' c''} :
      Performs depth c (c.behaviour o).actions ds es c' → Tells depth c' calls ds' c'' →
      Tells depth c (.mk o es failed :: calls) (ds ++ ds') c''

end

namespace Center

/-- If posts at a depth go by the rules, so do runs of actions. -/
theorem performs_of_posts {depth : Nat}
    (none : ∀ (c : Center ε) name payload, post depth c name payload = none → depth = 0)
    (some : ∀ (c : Center ε) name payload r, post depth c name payload = some r →
      ∃ below ds, depth = below + 1 ∧ r.2.map Call.observer = c.registry.observers name ∧
        Tells below c r.2 ds r.1)
    (c : Center ε) (actions : List (Action ε)) :
    ∃ ds, Performs depth c actions ds (c.perform (post depth) actions).events
      (c.perform (post depth) actions).center := by
  -- one rule for each kind of action; the row ends where one of them fails
  induction actions generalizing c with
  | nil => exact ⟨[], .done⟩
  | cons a rest ih =>
    cases a with
    | subscribe s handle actions fails =>
      obtain ⟨ds, h⟩ := ih (c.subscribe s handle ⟨actions, fails⟩)
      exact ⟨_, .subscribe h⟩
    | alter o actions fails =>
      obtain ⟨ds, h⟩ := ih (c.alter o ⟨actions, fails⟩)
      exact ⟨ds, .alter h⟩
    | unsubscribe handle =>
      rcases numberIn?_cases handle c.handles with ⟨hlook, hnum⟩ | ⟨s, n, hlook, hnum, hmade⟩
      · simp only [perform, hlook]
        exact ⟨[], .unknown hnum⟩
      · obtain ⟨ds, h⟩ := ih (c.unsubscribe s)
        simp only [perform, hlook]
        exact ⟨_, .takeBack hnum hmade h⟩
    | post name payload =>
      cases hpost : Center.post depth c name payload with
      | none =>
        obtain rfl := none c name payload hpost
        simp only [perform, hpost]
        exact ⟨[], .tooDeep⟩
      | some r =>
        obtain ⟨below, ds, rfl, hobs, htells⟩ := some c name payload r hpost
        obtain ⟨ds', h⟩ := ih r.1
        simp only [perform, hpost]
        exact ⟨_, .post hobs htells h⟩
    | signal e =>
      obtain ⟨ds, h⟩ := ih c
      exact ⟨ds, .signal h⟩

theorem tells_of_performs {depth : Nat}
    (h : ∀ (c : Center ε) actions, ∃ ds, Performs depth c actions ds
      (c.perform (post depth) actions).events (c.perform (post depth) actions).center)
    (c : Center ε) (os : List String) :
    ∃ ds, Tells depth c (c.callAll (post depth) os).2 ds (c.callAll (post depth) os).1 := by
  induction os generalizing c with
  | nil => exact ⟨[], .nobody⟩
  | cons o rest ih =>
    obtain ⟨ds, hrun⟩ := h c (c.behaviour o).actions
    obtain ⟨ds', hrest⟩ := ih (c.perform (post depth) (c.behaviour o).actions).center
    exact ⟨_, .next hrun hrest⟩

/-- Every run of actions goes by the rules, at every depth. -/
theorem performs_perform (depth : Nat) (c : Center ε) (actions : List (Action ε)) :
    ∃ ds, Performs depth c actions ds (c.perform (post depth) actions).events
      (c.perform (post depth) actions).center := by
  induction depth generalizing c actions with
  | zero =>
    refine performs_of_posts (fun _ _ _ _ => rfl) ?_ c actions
    intro c name payload r h
    cases h
  | succ depth ih =>
    refine performs_of_posts ?_ ?_ c actions <;> intro c name payload
    · intro h
      cases h
    intro r h
    obtain ⟨ds, htells⟩ := tells_of_performs ih c (c.registry.observers name)
    cases h
    exact ⟨depth, ds, rfl, callAll_observers _ _ _, htells⟩

end Center

/-! ## The registry -/

@[simp] theorem Center.desk_subscribe (c : Center ε) (s : Subscription) (handle : String)
    (b : Behaviour ε) : (c.subscribe s handle b).desk = c.desk.deal (.subscribe s) := by
  simp only [Center.desk, Center.made, Center.subscribe, Center.declare, Desk.deal]
  split <;> simp

theorem Center.desk_unsubscribe {c : Center ε} {n : Nat} {s : Subscription}
    (h : c.made[n]? = some s) : (c.unsubscribe s).desk = c.desk.deal (.takeBack n) := by
  simp only [Center.desk, Desk.deal, h]
  rfl

mutual

theorem Performs.desk {depth : Nat} {c c' : Center ε} {actions : List (Action ε)} {ds : List Deal}
    {es : List (Event ε)} : Performs depth c actions ds es c' → c'.desk = c.desk.dealAll ds
  | .done | .unknown _ | .tooDeep => rfl
  | .subscribe h => by rw [h.desk, Center.desk_subscribe]; rfl
  | .alter h | .signal h => h.desk
  | .takeBack _ hmade h => by rw [h.desk, Center.desk_unsubscribe hmade]; rfl
  | .post _ htells h => by rw [h.desk, htells.desk, Desk.dealAll_append]

theorem Tells.desk {depth : Nat} {c c' : Center ε} {calls : List (Call ε)} {ds : List Deal} :
    Tells depth c calls ds c' → c'.desk = c.desk.dealAll ds
  | .nobody => rfl
  | .next h hrest => by rw [hrest.desk, h.desk, Desk.dealAll_append]

end

/-! ## Whoever is told is subscribed -/

mutual

/-- Whom a post told at any depth, each with the name under which it was told. -/
def Event.told : Event ε → List Subscription
  | .posted name _ calls => callsTold name calls
  | .signalled _ => []

def callsTold (name : String) : List (Call ε) → List Subscription
  | [] => []
  | .mk o events _ :: rest => ⟨name, o⟩ :: (eventsTold events ++ callsTold name rest)

def eventsTold : List (Event ε) → List Subscription
  | [] => []
  | e :: rest => e.told ++ eventsTold rest

end

/-- What is registered after some deals, or subscribed later, was registered before them, or is
subscribed by some of all the deals. -/
theorem registered_before {c c' : Center ε} (ds : List Deal) {ds' : List Deal}
    (h : c'.desk = c.desk.dealAll ds) {s : Subscription}
    (hs : s ∈ c'.registry ∨ .subscribe s ∈ ds') :
    s ∈ c.registry ∨ .subscribe s ∈ ds ++ ds' := by
  rcases hs with hs | hs
  · have hdesk : s ∈ (c.desk.dealAll ds).registry := h ▸ hs
    rcases Desk.mem_registry_dealAll hdesk with hs | hs
    · exact .inl hs
    · exact .inr (List.mem_append_left _ hs)
  · exact .inr (List.mem_append_right _ hs)

theorem mem_registry_of_observers {r : Registry} {name o : String} (h : o ∈ r.observers name) :
    ⟨name, o⟩ ∈ r := by
  obtain ⟨s, hs, rfl⟩ := List.mem_map.mp h
  obtain ⟨hs, hname⟩ := List.mem_filter.mp hs
  rwa [← beq_iff_eq.mp hname]

theorem mem_callsTold {name : String} {o : String} {es : List (Event ε)} {failed : Bool}
    {calls : List (Call ε)} {s : Subscription}
    (h : s ∈ callsTold name (.mk o es failed :: calls)) :
    s = ⟨name, o⟩ ∨ s ∈ eventsTold es ∨ s ∈ callsTold name calls := by
  rw [callsTold, List.mem_cons, List.mem_append] at h
  exact h

mutual

theorem Performs.told {depth : Nat} {c c' : Center ε} {actions : List (Action ε)} {ds : List Deal}
    {es : List (Event ε)} {s : Subscription} : Performs depth c actions ds es c' →
      s ∈ eventsTold es → s ∈ c.registry ∨ .subscribe s ∈ ds
  | .done, hs | .unknown _, hs | .tooDeep, hs => by cases hs
  | .subscribe h, hs =>
    registered_before [.subscribe _] (Center.desk_subscribe _ _ _ _) (h.told hs)
  | .alter h, hs | .signal h, hs => h.told hs
  | .takeBack _ hmade h, hs =>
    registered_before [.takeBack _] (Center.desk_unsubscribe hmade) (h.told hs)
  | .post hobs htells h, hs => by
    rcases List.mem_append.mp hs with hs | hs
    · rcases htells.told hs with ⟨o, ho, rfl⟩ | hs | hs
      · exact .inl (mem_registry_of_observers (hobs ▸ ho))
      · exact .inl hs
      · exact .inr (List.mem_append_left _ hs)
    · exact registered_before _ htells.desk (h.told hs)

theorem Tells.told {depth : Nat} {c c' : Center ε} {calls : List (Call ε)} {ds : List Deal}
    {name : String} {s : Subscription} : Tells depth c calls ds c' → s ∈ callsTold name calls →
      (∃ o ∈ calls.map Call.observer, s = ⟨name, o⟩) ∨ s ∈ c.registry ∨ .subscribe s ∈ ds
  | .nobody, hs => by cases hs
  | .next h hrest, hs => by
    rcases mem_callsTold hs with rfl | hs | hs
    · exact .inl ⟨_, List.mem_cons_self, rfl⟩
    · exact .inr ((h.told hs).imp id (List.mem_append_left _))
    · rcases hrest.told hs with ⟨o, ho, rfl⟩ | hs
      · exact .inl ⟨o, List.mem_cons_of_mem _ ho, rfl⟩
      · exact .inr (registered_before _ h.desk hs)

end

/-! ## Posts -/

theorem callRecords_eq (payload : Value) (calls : List (Call ε)) :
    callRecords payload calls =
      calls.flatMap fun call => (call.observer, payload) :: eventRecords call.events := by
  induction calls with
  | nil => rfl
  | cons call rest ih =>
    cases call
    rw [callRecords, ih]
    rfl

/-- Whatever the center is and the observers do, a post under a name calls the observers that are
registered under this name when it begins, each as often as it is, in the order of the
registrations, and tells each of them the payload. What the observers cause in between goes by the
rules again: the posts they make, and the deals that alone change the registry. Whoever is told
under some name was registered under this name at the beginning, or is subscribed on the way. -/
theorem post_tells_registered (c : Center ε) (depth : Nat) (name : String) (payload : Value) :
    let run := c.run depth [.post name payload]
    ∃ calls ds,
      run.succeeded = true ∧ run.events = [.posted name payload calls] ∧
      calls.map Call.observer = c.registry.observers name ∧
      eventRecords run.events =
        calls.flatMap (fun call => (call.observer, payload) :: eventRecords call.events) ∧
      Tells depth c calls ds run.center ∧
      run.center.desk = c.desk.dealAll ds ∧
      ∀ s ∈ eventsTold run.events, s ∈ c.registry ∨ .subscribe s ∈ ds := by
  intro run
  obtain ⟨ds, htells⟩ := Center.tells_of_performs (Center.performs_perform depth) c
    (c.registry.observers name)
  have hobs := Center.callAll_observers (Center.post depth) c (c.registry.observers name)
  refine ⟨_, ds, rfl, rfl, hobs, ?_, htells, htells.desk, fun s hs => ?_⟩
  · show callRecords payload _ ++ [] = _
    rw [List.append_nil, callRecords_eq]
  · have hperforms : Performs (depth + 1) c [.post name payload] (ds ++ []) run.events run.center :=
      .post hobs htells .done
    exact List.append_nil ds ▸ hperforms.told hs

end ApiSmith.Notices

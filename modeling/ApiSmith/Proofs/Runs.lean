import ApiSmith.Proofs.Sessions

/-!
# Runs of a client

A run is a sequence of moves in any order: callers begin requests, tasks make their steps, the
transport replies, ended tasks are forgotten, callers are told how their requests ended or go away,
requests are aborted, and the center is acted on from elsewhere. A move that is not possible changes
nothing, so every list of moves is a run.

A history is a session with what callers were told so far. A caller is told at most once, and only
when the task of its request ended. From its end until its caller is told, a task stands still
(`History.Stands`): its caller may go away, and nothing else can happen to it.
-/

namespace ApiSmith

open Notices

/-- What may happen next in a run of a client. -/
inductive Move where
  | request (r : Request)
  /-- A task makes its first step. -/
  | launch (id : Nat)
  /-- The transport replies to the request of a task. -/
  | receive (id : Nat) (a : Reply)
  /-- A task that is to be cancelled is woken without a reply. -/
  | interrupt (id : Nat)
  | settle (id : Nat)
  /-- The caller of a task is told how the task ended. -/
  | resolve (id : Nat)
  /-- The caller of a task goes away. -/
  | abandon (id : Nat)
  | abortAll
  /-- The center is acted on by something that is not a request. -/
  | act (a : Action Signal)

namespace Move

def task? : Move → Option Nat
  | .launch id | .receive id _ | .interrupt id | .settle id | .resolve id | .abandon id => some id
  | .request _ | .abortAll | .act _ => none

def tells (id : Nat) : Move → Bool
  | .resolve i => i == id
  | _ => false

def abandons (id : Nat) : Move → Bool
  | .abandon i => i == id
  | _ => false

def isOfCaller : Move → Bool
  | .resolve _ | .abandon _ => true
  | _ => false

end Move

/-- A session with what callers were told so far. -/
structure History where
  session : Session
  /-- What callers were told, with the tasks of their requests if these had one. -/
  told : List (Option Nat × Ending)

namespace History

def begin (zone : Time.Zone) (config : ClientConfig) (types : TypeTable) (center : Center Signal) :
    History :=
  ⟨.begin zone config types center, []⟩

def isTold (h : History) (id : Nat) : Bool := h.told.any (·.1 == some id)

/-- A move, with posts nested at most `depth` deep. -/
def step (depth : Nat) (h : History) : Move → History
  | .request r =>
    match h.session.request r with
    | (s, .ended e) => ⟨s, h.told ++ [(none, e)]⟩
    | (s, .task _) => { h with session := s }
  | .launch id => { h with session := h.session.launch id }
  | .receive id a => { h with session := h.session.receive depth id a }
  | .interrupt id => { h with session := h.session.interrupt id }
  | .settle id => { h with session := h.session.settle id }
  | .resolve id =>
    if h.isTold id then h
    else
      match h.session.resolve id with
      | none => h
      | some (s, e) => ⟨s, h.told ++ [(some id, e)]⟩
  | .abandon id => if h.isTold id then h else { h with session := h.session.cancelCaller id }
  | .abortAll => { h with session := h.session.abortAll.1 }
  | .act a => { h with session := h.session.act depth a }

def run (depth : Nat) (h : History) (ms : List Move) : History := ms.foldl (step depth) h

/-- The events that the moves of a task add to the journal along a run. -/
def eventsOf (depth : Nat) (h : History) (id : Nat) : List Move → List (Event Signal)
  | [] => []
  | m :: rest =>
    let next := h.step depth m
    (if m.task? = some id then
      next.session.journal.events.drop h.session.journal.events.length else []) ++
      next.eventsOf depth id rest

variable {depth : Nat}

@[simp] theorem run_nil (h : History) : h.run depth [] = h := rfl

@[simp] theorem run_cons (h : History) (m : Move) (ms : List Move) :
    h.run depth (m :: ms) = (h.step depth m).run depth ms := rfl

theorem eventsOf_append (h : History) (id : Nat) (ms ns : List Move) :
    h.eventsOf depth id (ms ++ ns) =
      h.eventsOf depth id ms ++ (h.run depth ms).eventsOf depth id ns := by
  induction ms generalizing h with
  | nil => rfl
  | cons m rest ih => simp [eventsOf, ih]

/-! ## Soundness -/

theorem session_request (h : History) (r : Request) :
    (h.step depth (.request r)).session = (h.session.request r).1 := by
  simp only [step]
  split <;> next heq => rw [heq]

/-- A caller is told once, when its task ended. The tasks stay as they are, and the word that one was
aborted may go from the task of this caller. -/
theorem step_resolve (h : History) (id : Nat) :
    h.step depth (.resolve id) = h ∨
      ∃ r e marked s, h.session.tasks[id]? = some ⟨r, .ended e, marked⟩ ∧
        h.step depth (.resolve id) =
          ⟨s, h.told ++ [(some id, Session.told r (h.session.aborted.contains id) e)]⟩ ∧
        s.tasks = h.session.tasks ∧ s.inflight = h.session.inflight ∧
        s.journal = h.session.journal ∧ (∀ i, i ∈ s.aborted → i ∈ h.session.aborted) ∧
        ∀ i, i ≠ id → (i ∈ s.aborted ↔ i ∈ h.session.aborted) := by
  simp only [step]
  cases h.isTold id with
  | true => exact .inl rfl
  | false =>
    cases hend : h.session.hasEnded id with
    | false => exact .inl (by simp [Session.resolve_of_open hend])
    | true =>
      obtain ⟨⟨r, phase, marked⟩, ht, hphase⟩ := Session.hasEnded_iff.mp hend
      cases phase with
      | created => cases hphase
      | waiting d => cases hphase
      | ended e =>
        obtain ⟨s, hs, hrest⟩ := Session.resolve_of_ended ht
        exact .inr ⟨r, e, marked, s, ht, by simp [hs], hrest⟩

theorem advances_step (depth : Nat) (h : History) {m : Move} (hm : m.isOfCaller = false) :
    h.session.Advances (h.step depth m).session := by
  cases m with
  | request r =>
    rw [session_request]
    exact (Session.advances_request _ r).1
  | launch i => exact (Session.advances_launch _ i).1
  | receive i a => exact Session.advances_receive depth _ i a
  | interrupt i => exact (Session.advances_interrupt _ i).1
  | settle i => exact (Session.advances_settle _ i).1
  | abortAll => exact Session.advances_abortAll _
  | act a => exact Session.advances_act _ depth a
  | resolve i => cases hm
  | abandon i => cases hm

theorem sound_step {h : History} (hs : h.session.Sound) (m : Move) :
    (h.step depth m).session.Sound := by
  cases hm : m.isOfCaller with
  | false => exact (advances_step depth h hm).sound hs
  | true =>
    cases m with
    | resolve id =>
      rcases h.step_resolve id with heq | ⟨r, e, marked, s, -, heq, htasks, hin, -, hab, -⟩
      · rwa [heq]
      · rw [heq]
        exact ⟨by rw [htasks, hin]; exact hs.inflight,
          fun {i} hi => by rw [htasks]; exact hs.aborted (hab i hi)⟩
    | abandon id =>
      simp only [step]
      split
      · exact hs
      · exact hs.cancelCaller id
    | _ => cases hm

/-- Every session of a run is sound. -/
theorem sound_run (zone : Time.Zone) (config : ClientConfig) (types : TypeTable)
    (center : Center Signal)
    (ms : List Move) : ((begin zone config types center).run depth ms).session.Sound := by
  suffices ∀ h : History, h.session.Sound → (h.run depth ms).session.Sound from
    this _ (Session.sound_begin zone config types center)
  induction ms with
  | nil => exact fun _ hs => hs
  | cons m rest ih => exact fun h hs => ih _ (sound_step hs m)

/-! ## Ended tasks -/

theorem step_of_ended (depth : Nat) (h : History) (m : Move) (id : Nat)
    (tells : m.tells id = false) (abandons : m.abandons id = false) {t : Task}
    (ht : h.session.tasks[id]? = some t) (hend : t.isEnded = true) :
    (h.step depth m).session.tasks[id]? = some t ∧
      (id ∈ (h.step depth m).session.aborted ↔ id ∈ h.session.aborted) := by
  cases hm : m.isOfCaller with
  | false => exact (advances_step depth h hm).ended ht hend
  | true =>
    cases m with
    | resolve i =>
      have hne : id ≠ i := by
        rintro rfl
        simp [Move.tells] at tells
      rcases h.step_resolve i with heq | ⟨r, e, marked, s, -, heq, htasks, -, -, -, hab⟩
      · rw [heq]
        exact ⟨ht, Iff.rfl⟩
      · rw [heq]
        exact ⟨htasks ▸ ht, hab id hne⟩
    | abandon i =>
      have hne : i ≠ id := by simpa [Move.abandons] using abandons
      simp only [step]
      split
      · exact ⟨ht, Iff.rfl⟩
      · exact ⟨by rwa [Session.cancelCaller, Session.getElem?_modifyTask, if_neg hne], Iff.rfl⟩
    | _ => cases hm

theorem hasEnded_step (depth : Nat) {h : History} {id : Nat}
    (hend : h.session.hasEnded id = true) (m : Move) :
    (h.step depth m).session.hasEnded id = true := by
  obtain ⟨t, ht, hphase⟩ := Session.hasEnded_iff.mp hend
  rw [Session.hasEnded_iff]
  cases hm : m.isOfCaller with
  | false => exact ⟨t, ((advances_step depth h hm).ended ht hphase).1, hphase⟩
  | true =>
    cases m with
    | resolve i =>
      rcases h.step_resolve i with heq | ⟨r, e, marked, s, -, heq, htasks, -⟩
      · rw [heq]
        exact ⟨t, ht, hphase⟩
      · rw [heq]
        exact ⟨t, htasks ▸ ht, hphase⟩
    | abandon i =>
      simp only [step]
      split
      · exact ⟨t, ht, hphase⟩
      · rw [Session.cancelCaller, Session.getElem?_modifyTask, ht]
        by_cases hi : i = id
        · exact ⟨t.abandon, by rw [if_pos hi]; rfl, by simpa using hphase⟩
        · exact ⟨t, by rw [if_neg hi], hphase⟩
    | _ => cases hm

theorem hasEnded_run {h : History} {id : Nat} (hend : h.session.hasEnded id = true)
    (ms : List Move) : (h.run depth ms).session.hasEnded id = true := by
  induction ms generalizing h with
  | nil => exact hend
  | cons m rest ih => exact ih (hasEnded_step depth hend m)

theorem isTold_step (h : History) {id : Nat} {m : Move} (tells : m.tells id = false) :
    (h.step depth m).isTold id = h.isTold id := by
  cases m with
  | request r =>
    simp only [step]
    split <;> simp [isTold]
  | resolve i =>
    have hne : i ≠ id := by simpa [Move.tells] using tells
    rcases h.step_resolve i with heq | ⟨r, e, marked, s, -, heq, -⟩ <;> rw [heq]
    simp [isTold, hne]
  | abandon i =>
    simp only [step]
    split <;> rfl
  | _ => rfl

theorem hasEnded_of_isTold_step {h : History} {id : Nat} {m : Move} (before : h.isTold id = false)
    (after : (h.step depth m).isTold id = true) : (h.step depth m).session.hasEnded id = true := by
  cases tells : m.tells id with
  | false =>
    rw [isTold_step h tells, before] at after
    cases after
  | true =>
    cases m <;> simp only [Move.tells, Bool.false_eq_true, beq_iff_eq] at tells
    subst tells
    rcases h.step_resolve _ with heq | ⟨r, e, marked, s, ht, heq, htasks, -⟩
    · rw [heq, before] at after
      cases after
    · rw [heq]
      exact Session.hasEnded_iff.mpr ⟨_, htasks ▸ ht, rfl⟩

theorem hasEnded_of_isTold (zone : Time.Zone) (config : ClientConfig) (types : TypeTable)
    (center : Center Signal)
    (ms : List Move) (id : Nat)
    (htold : ((begin zone config types center).run depth ms).isTold id = true) :
    ((begin zone config types center).run depth ms).session.hasEnded id = true := by
  suffices ∀ h : History, (h.isTold id = true → h.session.hasEnded id = true) →
      (h.run depth ms).isTold id = true → (h.run depth ms).session.hasEnded id = true from
    this _ (by simp [begin, isTold]) htold
  clear htold
  induction ms with
  | nil => exact fun _ hs => hs
  | cons m rest ih =>
    refine fun h hs => ih (h.step depth m) fun htold => ?_
    cases hbefore : h.isTold id with
    | true => exact hasEnded_step depth (hs hbefore) m
    | false => exact hasEnded_of_isTold_step hbefore htold

theorem untold_of_open (zone : Time.Zone) (config : ClientConfig) (types : TypeTable)
    (center : Center Signal) (ms : List Move) {id : Nat}
    (hopen : ((begin zone config types center).run depth ms).session.hasEnded id = false) :
    ((begin zone config types center).run depth ms).isTold id = false := by
  by_contra htold
  rw [hasEnded_of_isTold zone config types center ms id (by simpa using htold)] at hopen
  cases hopen

/-! ## Standing still -/

/-- A task ended, and its caller was not told yet. -/
structure Stands (h : History) (id : Nat) (r : Request) (e : Ending) (aborted : Bool) : Prop where
  task : h.session.tasks[id]? = some ⟨r, .ended e, false⟩
  aborted : h.session.aborted.contains id = aborted
  /-- Its caller was not told. -/
  untold : h.isTold id = false

theorem Stands.step (depth : Nat) {h : History} {id : Nat} {r : Request} {e : Ending} {aborted : Bool}
    (hs : h.Stands id r e aborted) {m : Move} (tells : m.tells id = false) :
    (h.step depth m).Stands id r (if m.abandons id then .cancelled else e) aborted := by
  cases abandons : m.abandons id with
  | false =>
    obtain ⟨ht, hab⟩ := step_of_ended depth h m id tells abandons hs.task rfl
    refine ⟨ht, ?_, (isTold_step h tells).trans hs.untold⟩
    rw [← hs.aborted, Bool.eq_iff_iff]
    simpa using hab
  | true =>
    cases m <;> simp only [Move.abandons, Bool.false_eq_true, beq_iff_eq] at abandons
    subst abandons
    simp only [History.step, hs.untold, Bool.false_eq_true, if_false]
    refine ⟨?_, hs.aborted, hs.untold⟩
    rw [Session.cancelCaller, Session.getElem?_modifyTask, if_pos rfl, hs.task]
    rfl

/-- A task stands still until its caller is told; only its caller may go away. -/
theorem Stands.run {h : History} {id : Nat} {r : Request} {e : Ending} {aborted : Bool}
    (hs : h.Stands id r e aborted) {ms : List Move} (tells : ms.all (!·.tells id) = true) :
    (h.run depth ms).Stands id r (if ms.any (·.abandons id) then .cancelled else e) aborted := by
  induction ms generalizing h e with
  | nil => exact hs
  | cons m rest ih =>
    simp only [List.all_cons, Bool.and_eq_true, Bool.not_eq_true'] at tells
    have := ih (hs.step depth tells.1) tells.2
    cases hm : m.abandons id <;> simpa [hm] using this

theorem Stands.told {h : History} {id : Nat} {r : Request} {e : Ending} {aborted : Bool}
    (hs : h.Stands id r e aborted) :
    (h.step depth (.resolve id)).told = h.told ++ [(some id, Session.told r aborted e)] := by
  obtain ⟨s, hr, -⟩ := Session.resolve_of_ended hs.task
  simp only [History.step, hs.untold, hr, hs.aborted, Bool.false_eq_true, if_false]

theorem stands_of_noScheme {h : History} (hs : h.session.Sound) {id : Nat} {r : Request}
    {d : Dispatch} (ht : h.session.tasks[id]? = some ⟨r, .waiting d, false⟩)
    (untold : h.isTold id = false) (hd : d.url.scheme = []) (answer : Response) :
    (h.step depth (.receive id (.response answer))).Stands id r (.breakdown .noScheme) false := by
  have hstep : (h.step depth (.receive id (.response answer))).session =
      h.session.modifyTask id (·.finish (.breakdown .noScheme)) := by
    simp only [step, Session.receive, ht, Bool.false_eq_true, if_false, Session.reply, hd,
      List.isEmpty_nil, if_true]
  refine ⟨?_, ?_, untold⟩
  · rw [hstep, Session.getElem?_modifyTask, if_pos rfl, ht]
    rfl
  · rw [hstep]
    have hnot := hs.not_mem_aborted ht rfl rfl
    simpa [Session.modifyTask] using hnot

/-! ## Events -/

theorem events_step (depth : Nat) (h : History) {m : Move} {id : Nat} (hm : m.task? = some id) :
    (h.step depth m).session.journal.events = h.session.journal.events ∨
      ∃ a r d, m = .receive id a ∧ h.session.tasks[id]? = some ⟨r, .waiting d, false⟩ ∧
        a.refuses d = true := by
  cases m with
  | request r => cases hm
  | abortAll => cases hm
  | act a => cases hm
  | launch i => exact .inl (Session.advances_launch _ i).2
  | interrupt i => exact .inl (Session.advances_interrupt _ i).2
  | settle i => exact .inl (Session.advances_settle _ i).2
  | resolve i =>
    rcases h.step_resolve i with heq | ⟨r, e, marked, s, -, heq, -, -, hj, -⟩ <;> rw [heq]
    · exact .inl rfl
    · exact .inl (by rw [hj])
  | abandon i =>
    simp only [step]
    split <;> exact .inl rfl
  | receive i a =>
    obtain rfl : i = id := Option.some.inj hm
    simp only [step]
    rcases h.session.receive_cases depth i a with heq | ⟨r, d, marked, ht, heq⟩
    · exact .inl (by rw [heq])
    · cases marked with
      | true => exact .inl (by rw [heq]; rfl)
      | false =>
        cases href : a.refuses d with
        | true => exact .inr ⟨a, r, d, rfl, ht, href⟩
        | false =>
          rw [heq]
          exact .inl (Session.reply_of_not_refuses depth _ r d href).2

theorem eventsOf_of_ended {h : History} {id : Nat} (hend : h.session.hasEnded id = true)
    (ms : List Move) : h.eventsOf depth id ms = [] := by
  induction ms generalizing h with
  | nil => rfl
  | cons m rest ih =>
    have hrest := ih (hasEnded_step depth hend m)
    simp only [eventsOf, hrest, List.append_nil, ite_eq_right_iff]
    intro hm
    rcases h.events_step depth hm with heq | ⟨a, r, d, -, ht, -⟩
    · rw [heq, List.drop_length]
    · simp [Session.hasEnded, ht, Task.isEnded] at hend

theorem eventsOf_of_open {h : History} {id : Nat} {ms : List Move}
    (hopen : (h.run depth ms).session.hasEnded id = false) : h.eventsOf depth id ms = [] := by
  induction ms generalizing h with
  | nil => rfl
  | cons m rest ih =>
    simp only [eventsOf, ih hopen, List.append_nil, ite_eq_right_iff]
    intro hm
    rcases h.events_step depth hm with heq | ⟨a, r, d, rfl, ht, href⟩
    · rw [heq, List.drop_length]
    · have hend : (h.step depth (.receive id a)).session.hasEnded id = true :=
        Session.hasEnded_receive depth ht a
      rw [run_cons, hasEnded_run hend] at hopen
      cases hopen

end History

end ApiSmith

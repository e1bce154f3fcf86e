import Mathlib.Data.List.Basic
import ApiSmith.Client.Session
import ApiSmith.Proofs.Logged

/-!
# What the steps of a session do to its tasks

Two facts hold of a session at every moment (`Session.Sound`): a task that did not end is in flight,
and a task that was aborted is to be cancelled or ended. The first one makes an abort reach every
task that did not end, so what an abort does can be said without a look at the tasks in flight
(`tasks_abortAll`).

A task that ended is out of reach. Whatever other tasks, observers and aborts do, it stays as it is,
and so does the word whether it was aborted. Every step but those of callers is such an advance
(`Session.Advances`), and there is one lemma for each step that says so.
-/

namespace ApiSmith

open Notices

def Task.abort (t : Task) : Task := { t with marked := t.marked || !t.isEnded }

@[simp] theorem Task.isEnded_abort (t : Task) : t.abort.isEnded = t.isEnded := rfl

@[simp] theorem Task.isEnded_finish (t : Task) (e : Ending) : (t.finish e).isEnded = true := by
  cases e <;> rfl

@[simp] theorem Task.isEnded_abandon (t : Task) : t.abandon.isEnded = t.isEnded := by
  unfold abandon
  split
  · next h => rw [h]; rfl
  · rfl

/-- Whether a reply to what was dispatched is an answer that refuses authorization, and reaches the
session. -/
def Reply.refuses : Reply → Dispatch → Bool
  | .response answer, d => answer.status == unauthorizedStatus && !d.url.scheme.isEmpty
  | .broken _ _, _ => false

namespace Session

/-! ## Tasks by number -/

theorem getElem?_modifyTask (s : Session) (id i : Nat) (f : Task → Task) :
    (s.modifyTask id f).tasks[i]? = if id = i then s.tasks[i]?.map f else s.tasks[i]? := by
  simp only [modifyTask, List.getElem?_modify]
  split <;> simp

def hasEnded (s : Session) (id : Nat) : Bool := s.tasks[id]?.any Task.isEnded

theorem hasEnded_iff {s : Session} {id : Nat} :
    s.hasEnded id = true ↔ ∃ t, s.tasks[id]? = some t ∧ t.isEnded = true := by
  simp [hasEnded, Option.any_eq_true]

theorem hasEnded_of_task {s : Session} {id : Nat} {t : Task} (ht : s.tasks[id]? = some t) :
    s.hasEnded id = t.isEnded := by
  rw [hasEnded, ht, Option.any_some]

theorem mem_unfinished {s : Session} {id : Nat} :
    id ∈ s.unfinished ↔ id ∈ s.inflight ∧ ∃ t, s.tasks[id]? = some t ∧ t.isEnded = false := by
  simp [unfinished, Option.any_eq_true]

/-! ## Soundness -/

/-- What holds of a session at every moment. -/
structure Sound (s : Session) : Prop where
  inflight : ∀ {id t}, s.tasks[id]? = some t → t.isEnded = false → id ∈ s.inflight
  /-- A task that was aborted is to be cancelled or ended. -/
  aborted : ∀ {id}, id ∈ s.aborted →
    ∃ t, s.tasks[id]? = some t ∧ (t.marked = true ∨ t.isEnded = true)

theorem sound_begin (zone : Time.Zone) (config : ClientConfig) (types : TypeTable)
    (center : Center Signal) :
    (begin zone config types center).Sound := ⟨by simp [begin], by simp [begin]⟩

theorem Sound.not_mem_aborted {s : Session} (h : s.Sound) {id : Nat} {t : Task}
    (ht : s.tasks[id]? = some t) (hopen : t.isEnded = false) (hmark : t.marked = false) :
    id ∉ s.aborted := by
  intro hid
  obtain ⟨u, hu, hcase⟩ := h.aborted hid
  obtain rfl : t = u := Option.some.inj (ht.symm.trans hu)
  rw [hopen, hmark] at hcase
  rcases hcase with hcase | hcase <;> cases hcase

theorem Sound.modifyTask {s : Session} (h : s.Sound) (id : Nat) (f : Task → Task)
    (ended : ∀ t, s.tasks[id]? = some t → t.isEnded = true → (f t).isEnded = true)
    (marked : ∀ t, s.tasks[id]? = some t → t.marked = true →
      (f t).marked = true ∨ (f t).isEnded = true) : (s.modifyTask id f).Sound := by
  constructor
  · intro i t ht hopen
    rw [getElem?_modifyTask] at ht
    split at ht
    · next heq =>
      subst heq
      obtain ⟨u, hu, rfl⟩ := Option.map_eq_some_iff.mp ht
      refine h.inflight hu ?_
      by_contra hend
      rw [ended u hu (by simpa using hend)] at hopen
      cases hopen
    · exact h.inflight ht hopen
  · intro i hi
    obtain ⟨t, ht, hmark⟩ := h.aborted hi
    rw [getElem?_modifyTask]
    split
    · next heq =>
      subst heq
      refine ⟨f t, by simp [ht], ?_⟩
      rcases hmark with hmark | hend
      · exact marked t ht hmark
      · exact .inr (ended t ht hend)
    · exact ⟨t, ht, hmark⟩

theorem Sound.cancelCaller {s : Session} (h : s.Sound) (id : Nat) : (s.cancelCaller id).Sound := by
  refine h.modifyTask id _ (fun t _ hend => by simpa using hend) fun t _ hmark => ?_
  unfold Task.abandon
  split
  · exact .inl hmark
  · exact .inl rfl

/-! ## Advances -/

/-- What every step does that is not one of a caller: a sound session stays sound, no task goes, and
tasks that ended stay as they are, with the word whether they were aborted. -/
structure Advances (s s' : Session) : Prop where
  sound : s.Sound → s'.Sound
  length : s.tasks.length ≤ s'.tasks.length
  ended : ∀ {id t}, s.tasks[id]? = some t → t.isEnded = true →
    s'.tasks[id]? = some t ∧ (id ∈ s'.aborted ↔ id ∈ s.aborted)

theorem Advances.refl (s : Session) : s.Advances s :=
  ⟨fun hs => hs, Nat.le_refl _, fun ht _ => ⟨ht, Iff.rfl⟩⟩

theorem Advances.trans {s s' s'' : Session} (h : s.Advances s') (h' : s'.Advances s'') :
    s.Advances s'' := by
  refine ⟨fun hs => h'.sound (h.sound hs), Nat.le_trans h.length h'.length, fun ht hend => ?_⟩
  obtain ⟨ht', ha⟩ := h.ended ht hend
  obtain ⟨ht'', ha'⟩ := h'.ended ht' hend
  exact ⟨ht'', ha'.trans ha⟩

/-- A session has the tasks of another one, in the same states. -/
structure SameTasks (s s' : Session) : Prop where
  tasks : s'.tasks = s.tasks
  inflight : s'.inflight = s.inflight
  aborted : s'.aborted = s.aborted

theorem SameTasks.refl (s : Session) : s.SameTasks s := ⟨rfl, rfl, rfl⟩

theorem SameTasks.advances {s s' : Session} (h : s.SameTasks s') : s.Advances s' := by
  obtain ⟨ht, hi, ha⟩ := h
  refine ⟨fun hs => ⟨?_, ?_⟩, Nat.le_of_eq (by rw [ht]), fun hid _ => ⟨by rwa [ht], by rw [ha]⟩⟩
  · rw [ht, hi]
    exact hs.inflight
  · rw [ht, ha]
    exact hs.aborted

theorem Advances.modifyTask {s s' : Session} (h : s.Advances s') {id : Nat} {f : Task → Task}
    (hopen : s.hasEnded id = false)
    (ended : ∀ t, s'.tasks[id]? = some t → t.isEnded = true → (f t).isEnded = true)
    (marked : ∀ t, s'.tasks[id]? = some t → t.marked = true →
      (f t).marked = true ∨ (f t).isEnded = true) : s.Advances (s'.modifyTask id f) := by
  refine ⟨fun hs => (h.sound hs).modifyTask id f ended marked, ?_, fun {i t} ht hend => ?_⟩
  · simpa [Session.modifyTask] using h.length
  · have hne : id ≠ i := by
      rintro rfl
      rw [hasEnded_of_task ht, hend] at hopen
      cases hopen
    obtain ⟨ht', ha⟩ := h.ended ht hend
    exact ⟨by rwa [getElem?_modifyTask, if_neg hne], ha⟩

theorem Advances.finish {s s' : Session} (h : s.Advances s') {id : Nat}
    (hopen : s.hasEnded id = false) (e : Ending) :
    s.Advances (s'.modifyTask id (·.finish e)) :=
  h.modifyTask hopen (by simp) (by simp)

/-! ## Aborts -/

theorem foldl_mark (ids : List Nat) (s : Session) :
    ids.foldl (fun s id => s.modifyTask id fun t => { t with marked := true }) s =
      { s with tasks := s.tasks.mapIdx fun i t => if i ∈ ids then { t with marked := true } else t } := by
  induction ids generalizing s with
  | nil =>
    have : (s.tasks.mapIdx fun _ t => t) = s.tasks := List.ext_getElem? fun i => by simp
    simp [this]
  | cons id rest ih =>
    rw [List.foldl_cons, ih]
    simp only [modifyTask, Session.mk.injEq, and_self, and_true, true_and]
    refine List.ext_getElem? fun i => ?_
    simp only [List.getElem?_mapIdx, List.getElem?_modify, List.mem_cons]
    rcases eq_or_ne id i with rfl | hne
    · cases s.tasks[id]? <;> simp
    · simp [hne, hne.symm]

/-- An abort marks the unfinished tasks, notes them as aborted and changes nothing else but the
log. -/
theorem abortAll_eq (s : Session) :
    ∃ log, s.abortAll.1 = { s with
      tasks := s.tasks.mapIdx fun i t => if i ∈ s.unfinished then { t with marked := true } else t
      aborted := s.aborted.filter (!s.unfinished.contains ·) ++ s.unfinished
      journal.log := log } := by
  unfold abortAll
  simp only [foldl_mark]
  split
  · exact ⟨s.journal.log, rfl⟩
  · exact ⟨_, rfl⟩

theorem mem_aborted_abortAll {s : Session} {i : Nat} :
    i ∈ s.abortAll.1.aborted ↔ i ∈ s.aborted ∨ i ∈ s.unfinished := by
  obtain ⟨log, heq⟩ := s.abortAll_eq
  rw [heq]
  by_cases hi : i ∈ s.unfinished <;> simp [hi]

/-- In a sound session, an abort reaches every task that did not end. -/
theorem Sound.tasks_abortAll {s : Session} (h : s.Sound) :
    s.abortAll.1.tasks = s.tasks.map Task.abort := by
  obtain ⟨log, heq⟩ := s.abortAll_eq
  rw [heq]
  refine List.ext_getElem? fun i => ?_
  rw [List.getElem?_mapIdx, List.getElem?_map]
  cases ht : s.tasks[i]? with
  | none => rfl
  | some t =>
    have hmem : i ∈ s.unfinished ↔ t.isEnded = false := by
      rw [mem_unfinished]
      refine ⟨?_, fun hopen => ⟨h.inflight ht hopen, t, ht, hopen⟩⟩
      rintro ⟨-, u, hu, hopen⟩
      rwa [← Option.some.inj (ht.symm.trans hu)] at hopen
    cases hend : t.isEnded <;> simp [hmem, hend, Task.abort]

theorem Sound.abortAll {s : Session} (h : s.Sound) : s.abortAll.1.Sound := by
  constructor
  · intro i t ht hopen
    rw [h.tasks_abortAll, List.getElem?_map, Option.map_eq_some_iff] at ht
    obtain ⟨u, hu, rfl⟩ := ht
    obtain ⟨log, heq⟩ := s.abortAll_eq
    rw [heq]
    exact h.inflight hu (by simpa using hopen)
  · intro i hi
    rw [h.tasks_abortAll, List.getElem?_map]
    rw [mem_aborted_abortAll, mem_unfinished] at hi
    rcases hi with hi | ⟨-, t, ht, hopen⟩
    · obtain ⟨t, ht, hmark⟩ := h.aborted hi
      refine ⟨t.abort, by simp [ht], ?_⟩
      rcases hmark with hmark | hend
      · exact .inl (by simp [Task.abort, hmark])
      · exact .inr (by simpa using hend)
    · exact ⟨t.abort, by simp [ht], .inl (by simp [Task.abort, hopen])⟩

theorem advances_abortAll (s : Session) : s.Advances s.abortAll.1 := by
  obtain ⟨log, heq⟩ := s.abortAll_eq
  refine ⟨Sound.abortAll, by rw [heq]; simp, fun {i t} ht hend => ?_⟩
  have hout : i ∉ s.unfinished := by
    rw [mem_unfinished]
    rintro ⟨-, u, hu, hopen⟩
    rw [← Option.some.inj (ht.symm.trans hu), hend] at hopen
    cases hopen
  refine ⟨?_, by simp [mem_aborted_abortAll, hout]⟩
  rw [heq]
  simp [List.getElem?_mapIdx, ht, hout]

theorem events_abortAll (s : Session) : s.abortAll.1.journal.events = s.journal.events := by
  obtain ⟨log, heq⟩ := s.abortAll_eq
  rw [heq]

/-! ## Observers -/

/-- Whether a deed asks to abort every request. -/
def isAbort : Deed Signal → Bool
  | .failed _ _ => false
  | .signalled .abortAll => true

def aborts (deeds : List (Deed Signal)) : Bool := deeds.any isAbort

theorem sameTasks_noteAll (s : Session) (log : List LogRecord) : s.SameTasks (s.noteAll log) :=
  ⟨rfl, rfl, rfl⟩

theorem sameTasks_keep (s : Session) (run : Run Signal) : s.SameTasks (s.keep run) :=
  ⟨rfl, rfl, rfl⟩

theorem advances_obey (s : Session) (d : Deed Signal) : s.Advances (s.obey d) := by
  rcases d with _ | ⟨⟨⟩⟩
  · exact (sameTasks_noteAll s _).advances
  · exact advances_abortAll s

theorem advances_obeyAll (s : Session) (deeds : List (Deed Signal)) :
    s.Advances (deeds.foldl obey s) := by
  induction deeds generalizing s with
  | nil => exact .refl s
  | cons d rest ih => exact (advances_obey s d).trans (ih _)

theorem events_obeyAll (s : Session) (deeds : List (Deed Signal)) :
    (deeds.foldl obey s).journal.events = s.journal.events := by
  induction deeds generalizing s with
  | nil => rfl
  | cons d rest ih =>
    rw [List.foldl_cons, ih]
    rcases d with _ | ⟨⟨⟩⟩
    · rfl
    · exact events_abortAll s

theorem Sound.obeyAll_of_open {s : Session} (h : s.Sound) {id : Nat} {t : Task}
    (ht : s.tasks[id]? = some t) (hopen : t.isEnded = false) (deeds : List (Deed Signal)) :
    (deeds.foldl obey s).tasks[id]? = some { t with marked := t.marked || aborts deeds } ∧
      (id ∈ (deeds.foldl obey s).aborted ↔ id ∈ s.aborted ∨ aborts deeds = true) := by
  induction deeds generalizing s t with
  | nil => simp [aborts, ht]
  | cons d rest ih =>
    rw [List.foldl_cons]
    rcases d with _ | ⟨⟨⟩⟩
    · exact ih ((advances_obey s _).sound h) ht hopen
    · have hmark : s.abortAll.1.tasks[id]? = some { t with marked := true } := by
        rw [h.tasks_abortAll, List.getElem?_map, ht]
        simp [Task.abort, hopen]
      have hmem : id ∈ s.abortAll.1.aborted :=
        mem_aborted_abortAll.mpr (.inr (mem_unfinished.mpr ⟨h.inflight ht hopen, t, ht, hopen⟩))
      obtain ⟨htask, hab⟩ := ih h.abortAll hmark hopen
      refine ⟨htask.trans (by simp [aborts, isAbort]), hab.trans ?_⟩
      simp [aborts, isAbort, hmem]

theorem advances_act (s : Session) (depth : Nat) (a : Action Signal) :
    s.Advances (s.act depth a) :=
  (sameTasks_keep s _).advances.trans (advances_obeyAll _ _)

theorem Sound.post_of_open {s : Session} (h : s.Sound) {id : Nat} {t : Task}
    (ht : s.tasks[id]? = some t) (hopen : t.isEnded = false) (depth : Nat) (name : String)
    (payload : Value) : ∃ calls,
      calls.map Call.observer = s.center.registry.observers name ∧
      (s.post depth name payload).journal.events =
        s.journal.events ++ [.posted name payload calls] ∧
      (s.post depth name payload).tasks[id]? =
        some { t with marked := t.marked || aborts (callDeeds name calls) } ∧
      (id ∈ (s.post depth name payload).aborted ↔
        id ∈ s.aborted ∨ aborts (callDeeds name calls) = true) := by
  obtain ⟨calls, hobs, hev⟩ := s.center.run_post depth name payload
  have hdeeds : eventDeeds (s.center.run depth [.post name payload]).events =
      callDeeds name calls := by
    rw [hev]
    simp [eventDeeds, Event.deeds]
  have hs := (sameTasks_keep s (s.center.run depth [.post name payload])).advances.sound h
  obtain ⟨htask, hab⟩ := hs.obeyAll_of_open ht hopen (callDeeds name calls)
  unfold post act
  simp only [hdeeds]
  exact ⟨calls, hobs, by rw [events_obeyAll, keep, hev], htask, hab⟩

/-! ## Requests -/

theorem configure_eq (s : Session) :
    s.SameTasks s.configure ∧ s.configure.journal.events = s.journal.events := by
  unfold configure
  split <;> exact ⟨⟨rfl, rfl, rfl⟩, rfl⟩

theorem Sound.start {s : Session} (h : s.Sound) (r : Request) : (s.start r).1.Sound := by
  constructor
  · intro id t ht hopen
    rw [Session.start, List.mem_append, List.mem_singleton]
    rcases Nat.lt_or_ge id s.tasks.length with hlt | hge
    · rw [Session.start, List.getElem?_append_left hlt] at ht
      exact .inl (h.inflight ht hopen)
    · have := (List.getElem?_eq_some_iff.mp ht).1
      simp only [Session.start, List.length_append, List.length_singleton] at this
      exact .inr (by omega)
  · intro id hid
    obtain ⟨t, ht, hmark⟩ := h.aborted hid
    have hlt := (List.getElem?_eq_some_iff.mp ht).1
    exact ⟨t, by rw [Session.start, List.getElem?_append_left hlt, ht], hmark⟩

theorem advances_start (s : Session) (r : Request) : s.Advances (s.start r).1 := by
  refine ⟨fun hs => hs.start r, by simp [start], fun ht _ => ⟨?_, Iff.rfl⟩⟩
  have hlt := (List.getElem?_eq_some_iff.mp ht).1
  rw [start, List.getElem?_append_left hlt, ht]

theorem advances_request (s : Session) (r : Request) :
    s.Advances (s.request r).1 ∧ (s.request r).1.journal.events = s.journal.events := by
  obtain ⟨same, hevents⟩ := s.configure_eq
  simp only [request]
  cases s.configure.mock? r with
  | none => exact ⟨same.advances.trans (advances_start _ r), hevents⟩
  | some payload => exact ⟨same.advances.trans (sameTasks_noteAll _ _).advances, hevents⟩

/-! ## First steps -/

theorem send_eq (s : Session) (r : Request) :
    s.SameTasks (s.send r).1 ∧ (s.send r).1.journal.events = s.journal.events := by
  unfold send
  cases s.bodyText r with
  | error b => exact ⟨.refl s, rfl⟩
  | ok body =>
    cases s.tokens.next? with
    | none => exact ⟨.refl s, rfl⟩
    | some next =>
      simp only
      cases dispatch _ r next.1 body <;> exact ⟨⟨rfl, rfl, rfl⟩, rfl⟩

theorem launch_cases (s : Session) (id : Nat) :
    s.launch id = s ∨ ∃ r marked, s.tasks[id]? = some ⟨r, .created, marked⟩ ∧
      s.launch id =
        if marked then s.modifyTask id (·.finish .cancelled)
        else (s.send r).1.modifyTask id fun t => { t with phase := (s.send r).2 } := by
  unfold launch
  split
  · next r marked ht => exact .inr ⟨r, marked, ht, rfl⟩
  · exact .inl rfl

theorem advances_launch (s : Session) (id : Nat) :
    s.Advances (s.launch id) ∧ (s.launch id).journal.events = s.journal.events := by
  rcases s.launch_cases id with heq | ⟨r, marked, ht, heq⟩
  · rw [heq]
    exact ⟨.refl s, rfl⟩
  · have hopen : s.hasEnded id = false := hasEnded_of_task ht
    rw [heq]
    cases marked with
    | true => exact ⟨(Advances.refl s).finish hopen _, rfl⟩
    | false =>
      obtain ⟨same, hevents⟩ := s.send_eq r
      refine ⟨same.advances.modifyTask hopen (fun t ht' hend => ?_) fun t _ hmark => .inl hmark,
        hevents⟩
      rw [same.tasks, ht] at ht'
      rw [← Option.some.inj ht'] at hend
      cases hend

theorem launch_of_dispatch {s : Session} {id : Nat} {r : Request} {body : Option Value}
    {token : String} {tokens : TokenSource} {d : Dispatch}
    (ht : s.tasks[id]? = some ⟨r, .created, false⟩) (hbody : s.bodyText r = .ok body)
    (htoken : s.tokens.next? = some (token, tokens))
    (hd : { s with tokens := tokens }.dispatch r token body = .ok d) :
    (s.launch id).tasks[id]? = some ⟨r, .waiting d, false⟩ := by
  have hsend : s.send r = ({ s with
      tokens := tokens, journal.sent := s.journal.sent ++ [d] }, .waiting d) := by
    simp only [send, hbody, htoken, hd]
  simp only [launch, ht, hsend, Bool.false_eq_true, if_false]
  rw [getElem?_modifyTask, if_pos rfl]
  simp [ht]

theorem launch_request {s : Session} {r : Request} {body : Option Value} {token : String}
    {tokens : TokenSource} {d : Dispatch} (unmocked : s.mock? r = none)
    (hbody : s.bodyText r = .ok body) (htoken : s.tokens.next? = some (token, tokens))
    (hd : (s.dispatch r token body).toOption = some d) :
    ((s.request r).1.launch s.tasks.length).tasks[s.tasks.length]? =
      some ⟨r, .waiting d, false⟩ := by
  obtain ⟨hconfig, htokens, hzone, htasks⟩ : s.configure.config = s.config ∧
      s.configure.tokens = s.tokens ∧ s.configure.zone = s.zone ∧ s.configure.tasks = s.tasks := by
    unfold configure
    split <;> exact ⟨rfl, rfl, rfl, rfl⟩
  have hstart : (s.request r).1 = (s.configure.start r).1 := by
    have hmock : s.configure.mock? r = none := by rwa [mock?, hconfig]
    simp only [request, hmock]
  have hcreated : (s.configure.start r).1.tasks[s.tasks.length]? = some ⟨r, .created, false⟩ := by
    simp [start, htasks]
  have hbody' : (s.configure.start r).1.bodyText r = .ok body := by
    rw [← hbody]
    simp only [bodyText, start, hzone]
  have htoken' : (s.configure.start r).1.tokens.next? = some (token, tokens) :=
    (congrArg TokenSource.next? htokens).trans htoken
  rw [hstart]
  apply launch_of_dispatch hcreated hbody' htoken'
  rw [← toOption_eq_some, ← hd]
  simp only [dispatch, address?, start, hconfig]

/-! ## Last steps -/

theorem reply_of_not_refuses (depth : Nat) (s : Session) (r : Request) (d : Dispatch) {a : Reply}
    (h : a.refuses d = false) :
    s.SameTasks (s.reply depth r d a).1 ∧
      (s.reply depth r d a).1.journal.events = s.journal.events := by
  cases a with
  | broken kind text => exact ⟨⟨rfl, rfl, rfl⟩, rfl⟩
  | response answer =>
    by_cases hscheme : d.url.scheme.isEmpty = true
    · rw [reply, if_pos hscheme]
      exact ⟨.refl s, rfl⟩
    · have hstatus : (answer.status == unauthorizedStatus) = false := by
        simpa [Reply.refuses, hscheme] using h
      simp only [reply, hscheme, conclude, hstatus, Bool.false_eq_true, if_false]
      exact ⟨⟨rfl, rfl, rfl⟩, rfl⟩

theorem reply_of_refuses (depth : Nat) (s : Session) (r : Request) (d : Dispatch) {a : Reply}
    (h : a.refuses d = true) :
    ∃ s', s.SameTasks s' ∧ s'.journal.events = s.journal.events ∧ s'.center = s.center ∧
      s.reply depth r d a = (s'.post depth unauthorizedNotice (.int unauthorizedStatus),
        .outcome (.unauthorized unauthorizedStatus)) := by
  cases a with
  | broken kind text => cases h
  | response answer =>
    obtain ⟨hstatus, hscheme⟩ : answer.status = unauthorizedStatus ∧ d.url.scheme.isEmpty = false :=
      by simpa [Reply.refuses] using h
    refine ⟨s.note .info (r.method ++ " " ++ r.path ++ " answered 401"), ⟨rfl, rfl, rfl⟩, rfl, rfl,
      ?_⟩
    have houtcome : answer.outcome s.types r.type = pure (.unauthorized unauthorizedStatus) := by
      simp [Response.outcome, hstatus]
    have hnone : s.noteAll [] = s := by simp [noteAll]
    simp only [reply, hscheme, conclude, houtcome, hstatus, beq_self_eq_true, if_true, if_false,
      Bool.false_eq_true]
    rw [show (pure (Outcome.unauthorized unauthorizedStatus) : Logged Breakdown Outcome).log = []
      from rfl, hnone]
    rfl

theorem advances_reply (depth : Nat) (s : Session) (r : Request) (d : Dispatch) (a : Reply) :
    s.Advances (s.reply depth r d a).1 := by
  cases href : a.refuses d with
  | false => exact (reply_of_not_refuses depth s r d href).1.advances
  | true =>
    obtain ⟨s', same, -, -, heq⟩ := reply_of_refuses depth s r d href
    rw [heq]
    exact same.advances.trans (advances_act s' depth _)

/-- A last step changes nothing, ends a task that is to be cancelled, or ends one by the reply. -/
theorem receive_cases (depth : Nat) (s : Session) (id : Nat) (a : Reply) :
    s.receive depth id a = s ∨ ∃ r d marked, s.tasks[id]? = some ⟨r, .waiting d, marked⟩ ∧
      s.receive depth id a =
        if marked then s.modifyTask id (·.finish .cancelled)
        else (s.reply depth r d a).1.modifyTask id (·.finish (s.reply depth r d a).2) := by
  unfold receive
  split
  · next r d marked ht => exact .inr ⟨r, d, marked, ht, rfl⟩
  · exact .inl rfl

theorem advances_receive (depth : Nat) (s : Session) (id : Nat) (a : Reply) :
    s.Advances (s.receive depth id a) := by
  rcases s.receive_cases depth id a with heq | ⟨r, d, marked, ht, heq⟩
  · rw [heq]
    exact .refl s
  · have hopen : s.hasEnded id = false := hasEnded_of_task ht
    rw [heq]
    split
    · exact (Advances.refl s).finish hopen _
    · exact (advances_reply depth s r d a).finish hopen _

theorem hasEnded_receive (depth : Nat) {s : Session} {id : Nat} {r : Request} {d : Dispatch}
    (ht : s.tasks[id]? = some ⟨r, .waiting d, false⟩) (a : Reply) :
    (s.receive depth id a).hasEnded id = true := by
  have hlt : id < (s.reply depth r d a).1.tasks.length :=
    Nat.lt_of_lt_of_le (List.getElem?_eq_some_iff.mp ht).1 (advances_reply depth s r d a).length
  simp only [receive, ht, Bool.false_eq_true, if_false, hasEnded]
  rw [getElem?_modifyTask, if_pos rfl, List.getElem?_eq_getElem hlt]
  simp

theorem advances_interrupt (s : Session) (id : Nat) :
    s.Advances (s.interrupt id) ∧ (s.interrupt id).journal.events = s.journal.events := by
  unfold interrupt
  split
  · next ht => exact ⟨(Advances.refl s).finish (hasEnded_of_task ht) _, rfl⟩
  · exact ⟨.refl s, rfl⟩

/-! ## After the end -/

theorem advances_settle (s : Session) (id : Nat) :
    s.Advances (s.settle id) ∧ (s.settle id).journal.events = s.journal.events := by
  unfold settle
  split
  · next hended =>
    refine ⟨⟨fun hs => ⟨fun {i t} ht hopen => ?_, hs.aborted⟩, Nat.le_refl _,
      fun ht _ => ⟨ht, Iff.rfl⟩⟩, rfl⟩
    have hne : i ≠ id := by
      rintro rfl
      have hend := (hasEnded_of_task ht).symm.trans hended
      rw [hopen] at hend
      cases hend
    exact (List.mem_erase_of_ne hne).mpr (hs.inflight ht hopen)
  · exact ⟨.refl s, rfl⟩

/-- The ending that a caller is told of a task: one that was cancelled by an abort failed. -/
def told (r : Request) (aborted : Bool) : Ending → Ending
  | .cancelled => if aborted then .outcome (.failure (.aborted r.method r.path)) else .cancelled
  | e => e

theorem resolve_of_ended {s : Session} {id : Nat} {r : Request} {e : Ending} {marked : Bool}
    (ht : s.tasks[id]? = some ⟨r, .ended e, marked⟩) :
    ∃ s', s.resolve id = some (s', told r (s.aborted.contains id) e) ∧ s'.tasks = s.tasks ∧
      s'.inflight = s.inflight ∧ s'.journal = s.journal ∧
      (∀ i, i ∈ s'.aborted → i ∈ s.aborted) ∧ ∀ i, i ≠ id → (i ∈ s'.aborted ↔ i ∈ s.aborted) := by
  simp only [resolve, ht]
  cases e with
  | cancelled =>
    cases hab : s.aborted.contains id with
    | true =>
      exact ⟨_, rfl, rfl, rfl, rfl, fun _ => List.mem_of_mem_erase,
        fun _ hne => List.mem_erase_of_ne hne⟩
    | false => exact ⟨s, rfl, rfl, rfl, rfl, fun _ h => h, fun _ _ => Iff.rfl⟩
  | outcome o => exact ⟨s, rfl, rfl, rfl, rfl, fun _ h => h, fun _ _ => Iff.rfl⟩
  | breakdown b => exact ⟨s, rfl, rfl, rfl, rfl, fun _ h => h, fun _ _ => Iff.rfl⟩

theorem resolve_of_open {s : Session} {id : Nat} (h : s.hasEnded id = false) :
    s.resolve id = none := by
  unfold resolve
  split
  · next ht => simp [hasEnded, ht, Task.isEnded] at h
  · rfl

end Session

end ApiSmith

import ApiSmith.Proofs.Answers
import ApiSmith.Proofs.Sessions

/-!
# Open tasks

What the steps of a session do to a task that did not end. A step of another task, or of none, only
marks it and notes it as aborted, and does both or neither (`Session.Marks`): whether it does is to
be seen from the notices that were left meanwhile, since observers abort when they are told one
(`Session.abortsSince`). The task's own steps hand its request to the transport or end it, and what
it ends with depends on the reply and on that word alone.

The tasks in flight are distinct at every moment, and so are the aborted ones (`Session.Tidy`), so an
abort counts the tasks that did not end, each once (`Session.Sound.abortAll_count`).
-/

namespace ApiSmith

open Notices

/-- The ending that a reply to what was dispatched leads to. -/
def Reply.ending (types : TypeTable) (r : Request) (d : Dispatch) : Reply → Ending
  | .broken kind text => .outcome (.failure (.transport (if text.isEmpty then kind else text)))
  | .response answer =>
    if d.url.scheme.isEmpty then .breakdown .noScheme
    else
      match (answer.outcome types r.type).result with
      | .ok o => .outcome o
      | .error b => .breakdown b

theorem Reply.ending_of_noScheme (types : TypeTable) (r : Request) {d : Dispatch}
    (hd : d.url.scheme = []) (answer : Response) :
    Reply.ending types r d (.response answer) = .breakdown .noScheme := by
  rw [Reply.ending, hd]
  rfl

theorem Reply.exists_ending {types : TypeTable} (htypes : types.IsGenerated) {r : Request}
    (hr : r.type.Generated types) {d : Dispatch} (hd : d.url.scheme ≠ []) (a : Reply) :
    ∃ o, a.ending types r d = .outcome o := by
  cases a with
  | broken kind text => exact ⟨_, rfl⟩
  | response answer =>
    obtain ⟨o, ho⟩ := answer.exists_outcome htypes hr
    refine ⟨o, ?_⟩
    simp only [Reply.ending, List.isEmpty_iff, hd, if_false, ho]

/-- A reply leads to no outcome exactly if it is an answer to an address without a scheme. -/
theorem Reply.exists_ending_iff {types : TypeTable} (htypes : types.IsGenerated) {r : Request}
    (hr : r.type.Generated types) (d : Dispatch) (a : Reply) :
    (∃ o, a.ending types r d = .outcome o) ↔
      d.url.scheme ≠ [] ∨ ∃ kind text, a = .broken kind text := by
  cases a with
  | broken kind text => exact iff_of_true ⟨_, rfl⟩ (.inr ⟨kind, text, rfl⟩)
  | response answer =>
    constructor
    · rintro ⟨o, ho⟩
      refine .inl fun hd => ?_
      rw [Reply.ending_of_noScheme types r hd] at ho
      cases ho
    · rintro (hd | ⟨kind, text, heq⟩)
      · exact Reply.exists_ending htypes hr hd _
      · cases heq

def Request.abortedEnding (r : Request) : Ending := .outcome (.failure (.aborted r.method r.path))

theorem Reply.ending_ne_cancelled (types : TypeTable) (r : Request) (d : Dispatch) (a : Reply) :
    a.ending types r d ≠ .cancelled := by
  cases a with
  | broken kind text => simp [Reply.ending]
  | response answer =>
    simp only [Reply.ending]
    split
    · simp
    · split <;> simp

theorem bodyOutcome_ne_aborted (types : TypeTable) (t : DataType) (body : List UInt8)
    (method path : String) :
    (bodyOutcome types t body).result ≠ .ok (.failure (.aborted method path)) := by
  simp only [bodyOutcome]
  split <;> simp

theorem Reply.ending_ne_aborted (types : TypeTable) (r : Request) (d : Dispatch) (a : Reply) :
    a.ending types r d ≠ r.abortedEnding := by
  cases a with
  | broken kind text => simp [Reply.ending, Request.abortedEnding]
  | response answer =>
    simp only [Reply.ending, Request.abortedEnding]
    split
    · simp
    · split
      · next o ho =>
        rintro h
        rw [Ending.outcome.injEq] at h
        subst h
        unfold Response.outcome at ho
        split at ho
        · cases ho
        · split at ho
          · cases ho
          · exact bodyOutcome_ne_aborted _ _ _ _ _ ho
      · simp

namespace Session

/-! ## What steps keep -/

/-- The types stay, no task comes or goes, the tasks in flight stay, and no task is noted twice as
aborted. -/
structure Keeps (s s' : Session) : Prop where
  types : s'.types = s.types
  length : s'.tasks.length = s.tasks.length
  inflight : s'.inflight = s.inflight
  aborted : s.inflight.Nodup → s.aborted.Nodup → s'.aborted.Nodup

theorem Keeps.refl (s : Session) : s.Keeps s := ⟨rfl, rfl, rfl, fun _ h => h⟩

theorem Keeps.trans {s s' s'' : Session} (h : s.Keeps s') (h' : s'.Keeps s'') : s.Keeps s'' :=
  ⟨h'.types.trans h.types, h'.length.trans h.length, h'.inflight.trans h.inflight,
    fun hin hab => h'.aborted (h.inflight ▸ hin) (h.aborted hin hab)⟩

theorem Keeps.modifyTask {s s' : Session} (h : s.Keeps s') (id : Nat) (f : Task → Task) :
    s.Keeps (s'.modifyTask id f) :=
  ⟨h.types, by simp [Session.modifyTask, h.length], h.inflight, h.aborted⟩

theorem SameTasks.keeps {s s' : Session} (h : s.SameTasks s') (types : s'.types = s.types) :
    s.Keeps s' :=
  ⟨types, by rw [h.tasks], h.inflight, fun _ hab => by rwa [h.aborted]⟩

theorem keeps_abortAll (s : Session) : s.Keeps s.abortAll.1 := by
  obtain ⟨log, heq⟩ := s.abortAll_eq
  rw [heq]
  refine ⟨rfl, by simp, rfl, fun hin hab => List.nodup_append.mpr ⟨hab.filter _, hin.filter _, ?_⟩⟩
  rintro i hi j hj rfl
  obtain ⟨-, hout⟩ := List.mem_filter.mp hi
  simp [hj] at hout

theorem keeps_act (s : Session) (depth : Nat) (a : Action Signal) : s.Keeps (s.act depth a) := by
  have hkeep : s.Keeps (s.keep (s.center.run depth [a])) := ⟨rfl, rfl, rfl, fun _ h => h⟩
  suffices ∀ (deeds : List (Deed Signal)) (s : Session), s.Keeps (deeds.foldl obey s) from
    hkeep.trans (this _ _)
  intro deeds
  induction deeds with
  | nil => exact .refl
  | cons d rest ih =>
    intro s
    refine Keeps.trans ?_ (ih _)
    rcases d with _ | ⟨⟨⟩⟩
    · exact ⟨rfl, rfl, rfl, fun _ h => h⟩
    · exact s.keeps_abortAll

theorem keeps_send (s : Session) (r : Request) : s.Keeps (s.send r).1 := by
  unfold send
  cases s.bodyText r with
  | error b => exact .refl s
  | ok body =>
    cases s.tokens.next? with
    | none => exact .refl s
    | some next =>
      simp only
      cases dispatch _ r next.1 body <;> exact ⟨rfl, rfl, rfl, fun _ h => h⟩

theorem keeps_launch (s : Session) (id : Nat) : s.Keeps (s.launch id) := by
  rcases s.launch_cases id with heq | ⟨r, marked, -, heq⟩
  · rw [heq]
    exact .refl s
  · rw [heq]
    split
    · exact (Keeps.refl s).modifyTask id _
    · exact (s.keeps_send r).modifyTask id _

theorem keeps_reply (depth : Nat) (s : Session) (r : Request) (d : Dispatch) (a : Reply) :
    s.Keeps (s.reply depth r d a).1 := by
  cases a with
  | broken kind text => exact ⟨rfl, rfl, rfl, fun _ h => h⟩
  | response answer =>
    simp only [reply, conclude]
    split
    · exact .refl s
    · split
      · refine Keeps.trans ?_ (keeps_act _ depth (.post unauthorizedNotice (.int answer.status)))
        exact ⟨rfl, rfl, rfl, fun _ h => h⟩
      · exact ⟨rfl, rfl, rfl, fun _ h => h⟩

theorem keeps_receive (depth : Nat) (s : Session) (id : Nat) (a : Reply) :
    s.Keeps (s.receive depth id a) := by
  rcases s.receive_cases depth id a with heq | ⟨r, d, marked, -, heq⟩
  · rw [heq]
    exact .refl s
  · rw [heq]
    split
    · exact (Keeps.refl s).modifyTask id _
    · exact (keeps_reply depth s r d a).modifyTask id _

theorem keeps_interrupt (s : Session) (id : Nat) : s.Keeps (s.interrupt id) := by
  unfold interrupt
  split
  · exact (Keeps.refl s).modifyTask id _
  · exact .refl s

/-! ## Tidiness -/

/-- The tasks in flight are distinct tasks, and so are the aborted ones. -/
structure Tidy (s : Session) : Prop where
  inflight : s.inflight.Nodup
  /-- What is in flight is a task. -/
  known : ∀ id ∈ s.inflight, id < s.tasks.length
  aborted : s.aborted.Nodup

theorem tidy_begin (zone : Time.Zone) (config : ClientConfig) (types : TypeTable)
    (center : Center Signal) :
    (begin zone config types center).Tidy := by
  constructor <;> simp [begin]

theorem Keeps.tidy {s s' : Session} (h : s.Keeps s') (ht : s.Tidy) : s'.Tidy := by
  refine ⟨h.inflight ▸ ht.inflight, fun id hid => ?_, h.aborted ht.inflight ht.aborted⟩
  rw [h.length]
  exact ht.known id (h.inflight ▸ hid)

theorem Tidy.start {s : Session} (h : s.Tidy) (r : Request) : (s.start r).1.Tidy := by
  refine ⟨?_, ?_, h.aborted⟩
  · refine List.nodup_append.mpr ⟨h.inflight, List.pairwise_singleton _ _, ?_⟩
    rintro i hi j hj rfl
    exact Nat.lt_irrefl _ (List.mem_singleton.mp hj ▸ h.known i hi)
  · intro id hid
    simp only [Session.start, List.mem_append, List.mem_singleton, List.length_append,
      List.length_singleton] at hid ⊢
    rcases hid with hid | rfl
    · exact Nat.lt_succ_of_lt (h.known id hid)
    · exact Nat.lt_succ_self _

theorem Tidy.settle {s : Session} (h : s.Tidy) (id : Nat) : (s.settle id).Tidy := by
  unfold Session.settle
  split
  · exact ⟨h.inflight.erase _, fun i hi => h.known i (List.mem_of_mem_erase hi), h.aborted⟩
  · exact h

theorem Tidy.not_mem_settle {s : Session} (h : s.Tidy) {id : Nat} (hend : s.hasEnded id = true) :
    id ∉ (s.settle id).inflight := by
  rw [hasEnded] at hend
  rw [Session.settle, if_pos hend]
  exact h.inflight.not_mem_erase

theorem keeps_resolve {s s' : Session} {id : Nat} {e : Ending}
    (h : s.resolve id = some (s', e)) : s.Keeps s' := by
  unfold resolve at h
  split at h
  · split at h
    · split at h <;> cases h
      · exact ⟨rfl, rfl, rfl, fun _ hab => hab.erase _⟩
      · exact .refl s
    · cases h
      exact .refl s
  · cases h

theorem Tidy.not_mem_resolve {s s' : Session} (h : s.Tidy) {id : Nat} {r : Request} {e e' : Ending}
    {marked : Bool} (ht : s.tasks[id]? = some ⟨r, .ended e, marked⟩)
    (hcause : id ∈ s.aborted → e = .cancelled) (hres : s.resolve id = some (s', e')) :
    id ∉ s'.aborted := by
  simp only [resolve, ht] at hres
  by_cases hab : id ∈ s.aborted
  · simp only [hcause hab, List.contains_iff_mem, hab, if_true] at hres
    cases hres
    exact h.aborted.not_mem_erase
  · split at hres
    · rw [if_neg (by simpa using hab)] at hres
      cases hres
      exact hab
    · cases hres
      exact hab

theorem Sound.abortAll_count {s : Session} (h : s.Sound) (ht : s.Tidy) :
    s.abortAll.2 = ((List.range s.tasks.length).filter fun id => !s.hasEnded id).length := by
  have hcount : s.abortAll.2 = s.unfinished.length := rfl
  -- Both lists have no repetitions, so it is enough that they have the same tasks.
  refine hcount.trans (List.Perm.length_eq ?_)
  refine (List.perm_ext_iff_of_nodup (ht.inflight.filter _) (List.nodup_range.filter _)).mpr
    fun id => ?_
  rw [← unfinished, mem_unfinished, List.mem_filter, List.mem_range, Bool.not_eq_true']
  constructor
  · rintro ⟨-, t, htask, hopen⟩
    exact ⟨(List.getElem?_eq_some_iff.mp htask).1, (hasEnded_of_task htask).trans hopen⟩
  · rintro ⟨hlt, hopen⟩
    have htask := List.getElem?_eq_getElem hlt
    rw [hasEnded_of_task htask] at hopen
    exact ⟨h.inflight htask hopen, _, htask, hopen⟩

/-! ## Marks -/

/-- Whether observers asked for an abort between two moments of a session. -/
def abortsSince (s s' : Session) : Bool :=
  aborts (eventDeeds (s'.journal.events.drop s.journal.events.length))

theorem abortsSince_of_events {s s' : Session} (h : s'.journal.events = s.journal.events) :
    s.abortsSince s' = false := by
  rw [abortsSince, h, List.drop_length]
  rfl

/-- A task that did not end is marked and noted as aborted, or neither, and nothing else happens to
it. -/
def Marks (s s' : Session) (id : Nat) (aborted : Bool) : Prop :=
  ∀ t, s.tasks[id]? = some t → t.isEnded = false →
    s'.tasks[id]? = some { t with marked := t.marked || aborted } ∧
      (id ∈ s'.aborted ↔ id ∈ s.aborted ∨ aborted = true)

theorem SameTasks.marks {s s' : Session} (h : s.SameTasks s') (id : Nat) :
    s.Marks s' id false := fun t ht _ => by simp [h.tasks, h.aborted, ht]

theorem Marks.refl (s : Session) (id : Nat) : s.Marks s id false := (SameTasks.refl s).marks id

theorem SameTasks.marks_trans {s s' s'' : Session} {id : Nat} {aborted : Bool}
    (h : s.SameTasks s') (h' : s'.Marks s'' id aborted) : s.Marks s'' id aborted := by
  intro t ht hopen
  have := h' t (by rw [h.tasks, ht]) hopen
  rwa [h.aborted] at this

theorem Marks.modifyTask {s s' : Session} {id i : Nat} {aborted : Bool}
    (h : s.Marks s' id aborted) (hne : i ≠ id) (f : Task → Task) :
    s.Marks (s'.modifyTask i f) id aborted := by
  intro t ht hopen
  rw [getElem?_modifyTask, if_neg hne]
  exact h t ht hopen

theorem Sound.marks_abortAll {s : Session} (h : s.Sound) (id : Nat) :
    s.Marks s.abortAll.1 id true :=
  fun _ ht hopen => h.obeyAll_of_open ht hopen [.signalled .abortAll]

theorem Sound.marks_act {s : Session} (h : s.Sound) (depth : Nat) (a : Action Signal) (id : Nat) :
    s.Marks (s.act depth a) id (s.abortsSince (s.act depth a)) := by
  intro t ht hopen
  have hevents : (s.act depth a).journal.events =
      s.journal.events ++ (s.center.run depth [a]).events := events_obeyAll _ _
  rw [abortsSince, hevents, List.drop_left]
  exact ((sameTasks_keep s _).advances.sound h).obeyAll_of_open ht hopen _

theorem Sound.marks_reply {s : Session} (h : s.Sound) (depth : Nat) (r : Request) (d : Dispatch)
    (a : Reply) (id : Nat) :
    s.Marks (s.reply depth r d a).1 id (s.abortsSince (s.reply depth r d a).1) := by
  cases href : a.refuses d with
  | false =>
    obtain ⟨same, hevents⟩ := reply_of_not_refuses depth s r d href
    rw [abortsSince_of_events hevents]
    exact same.marks id
  | true =>
    obtain ⟨s', same, hevents, -, heq⟩ := reply_of_refuses depth s r d href
    rw [heq, abortsSince, ← hevents]
    exact same.marks_trans ((same.advances.sound h).marks_act depth _ id)

/-- The ending that a reply leads to is an outcome if observers abort while it is looked at. -/
theorem reply_ending (depth : Nat) (s : Session) (r : Request) (d : Dispatch) (a : Reply) :
    (s.reply depth r d a).2 = a.ending s.types r d ∧
      (s.abortsSince (s.reply depth r d a).1 = true →
        ∃ o, (s.reply depth r d a).2 = .outcome o) := by
  constructor
  · cases a with
    | broken kind text => rfl
    | response answer =>
      simp only [reply, Reply.ending]
      split
      · rfl
      · simp only [conclude]
        split <;> rfl
  · intro habort
    cases href : a.refuses d with
    | false =>
      rw [abortsSince_of_events (reply_of_not_refuses depth s r d href).2] at habort
      cases habort
    | true =>
      obtain ⟨s', -, -, -, heq⟩ := reply_of_refuses depth s r d href
      exact ⟨_, by rw [heq]⟩

theorem request_cases (s : Session) (r : Request) :
    ∃ s', s.SameTasks s' ∧ s'.types = s.types ∧
      ((∃ e, s.request r = (s', .ended e)) ∧ s.mock? r ≠ none ∨
        s.request r = ((s'.start r).1, .task s.tasks.length)) := by
  obtain ⟨same, -⟩ := s.configure_eq
  have hconfig : s.configure.types = s.types ∧ s.configure.config = s.config := by
    unfold configure
    split <;> exact ⟨rfl, rfl⟩
  have hmock : s.configure.mock? r = s.mock? r := by rw [mock?, mock?, hconfig.2]
  simp only [request]
  rw [hmock]
  cases hm : s.mock? r with
  | some payload =>
    exact ⟨(s.configure.mocked r payload).1, ⟨same.tasks, same.inflight, same.aborted⟩, hconfig.1,
      .inl ⟨⟨_, rfl⟩, by simp⟩⟩
  | none => exact ⟨_, same, hconfig.1, .inr (by simp only [start, same.tasks])⟩

theorem marks_request (s : Session) (r : Request) (id : Nat) :
    s.Marks (s.request r).1 id false := by
  obtain ⟨s', same, -, ⟨⟨e, heq⟩, -⟩ | heq⟩ := s.request_cases r
  · rw [heq]
    exact same.marks id
  · rw [heq]
    refine same.marks_trans fun t ht _ => ?_
    have hlt := (List.getElem?_eq_some_iff.mp ht).1
    simp [start, List.getElem?_append_left hlt, ht]

theorem marks_launch (s : Session) {id i : Nat} (hne : i ≠ id) :
    s.Marks (s.launch i) id false := by
  rcases s.launch_cases i with heq | ⟨r, marked, -, heq⟩ <;> rw [heq]
  · exact .refl s id
  · split
    · exact (Marks.refl s id).modifyTask hne _
    · exact ((s.send_eq r).1.marks id).modifyTask hne _

theorem Sound.marks_receive {s : Session} (h : s.Sound) (depth : Nat) {id i : Nat} (hne : i ≠ id)
    (a : Reply) :
    s.Marks (s.receive depth i a) id (s.abortsSince (s.receive depth i a)) := by
  rcases s.receive_cases depth i a with heq | ⟨r, d, marked, -, heq⟩
  · rw [heq, abortsSince_of_events rfl]
    exact .refl s id
  · cases marked with
    | true =>
      rw [abortsSince_of_events (by rw [heq]; rfl), heq]
      exact (Marks.refl s id).modifyTask hne _
    | false =>
      rw [heq]
      exact (h.marks_reply depth r d a id).modifyTask hne _

theorem marks_interrupt (s : Session) {id i : Nat} (hne : i ≠ id) :
    s.Marks (s.interrupt i) id false := by
  unfold interrupt
  split
  · exact (Marks.refl s id).modifyTask hne _
  · exact .refl s id

theorem marks_settle (s : Session) (id i : Nat) : s.Marks (s.settle i) id false := by
  intro t ht _
  unfold settle
  split <;> simp [ht]

theorem send_cases (s : Session) (r : Request) :
    (∃ d, (s.send r).2 = .waiting d) ∨ ∃ b, (s.send r).2 = .ended (.breakdown b) := by
  unfold send
  cases s.bodyText r with
  | error b => exact .inr ⟨b, rfl⟩
  | ok body =>
    cases s.tokens.next? with
    | none => exact .inr ⟨_, rfl⟩
    | some next =>
      simp only
      cases dispatch _ r next.1 body with
      | error b => exact .inr ⟨b, rfl⟩
      | ok d => exact .inl ⟨d, rfl⟩

end Session

end ApiSmith

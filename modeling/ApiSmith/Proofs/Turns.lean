import ApiSmith.Proofs.Runs
import ApiSmith.Proofs.Tasks

/-!
# What moves do to open tasks

While a task did not end, the session says twice whether it was aborted: the task is marked, and it is
noted among the aborted ones. In a run in which no caller goes away the two agree (`History.Open`),
and a move does one of two things to the task (`History.Turn`). It stays open, with mark and note set
if requests are aborted in the move; or it ends. It ends cancelled if it was aborted, also when that
happened in the middle of its last step, and else by itself (`History.Ends`).
-/

namespace ApiSmith

open Notices

namespace Move

def isAbandon : Move → Bool
  | .abandon _ => true
  | _ => false

def isOfFlight : Move → Bool
  | .request _ | .settle _ => true
  | _ => false

/-- Whether a move is the next step of a task in a phase, which may be marked. -/
def isDue (id : Nat) (p : Phase) (marked : Bool) : Move → Bool
  | .launch i => i == id && match p with
    | .created => true
    | _ => false
  | .receive i _ => i == id && match p with
    | .waiting _ => true
    | _ => false
  | .interrupt i => i == id && match p with
    | .waiting _ => marked
    | _ => false
  | _ => false

theorem isDue_of_task? {id : Nat} {m : Move} (hm : m.task? ≠ some id) (p : Phase) (marked : Bool) :
    m.isDue id p marked = false := by
  cases m with
  | launch i | receive i a | interrupt i =>
    have hne : (i == id) = false := beq_eq_false_iff_ne.mpr fun heq => hm (congrArg some heq)
    simp only [isDue, hne, Bool.false_and]
  | _ => rfl

end Move

namespace History

variable {depth : Nat} {types : TypeTable}

/-- Whether requests are aborted in a move, by an abort or by observers that are told a notice. -/
def aborts (depth : Nat) (h : History) : Move → Bool
  | .abortAll => true
  | m => h.session.abortsSince (h.step depth m).session

/-- The task of a request comes to an end of its own in a move. -/
inductive Ends (types : TypeTable) (h : History) (id : Nat) (r : Request) :
    Move → Ending → Prop where
  /-- It gets the reply to what was dispatched. -/
  | replied {d : Dispatch} (task : h.session.tasks[id]? = some ⟨r, .waiting d, false⟩) (a : Reply) :
      Ends types h id r (.receive id a) (a.ending types r d)
  /-- There is nothing that can be handed to the transport. -/
  | unsent {b : Breakdown} (task : h.session.tasks[id]? = some ⟨r, .created, false⟩)
      (sent : (h.session.send r).2 = .ended (.breakdown b)) :
      Ends types h id r (.launch id) (.breakdown b)

theorem Ends.ne {h : History} {id : Nat} {r : Request} {m : Move} {e : Ending}
    (he : h.Ends types id r m e) : e ≠ .cancelled ∧ e ≠ r.abortedEnding := by
  cases he with
  | replied task a => exact ⟨a.ending_ne_cancelled _ _ _, a.ending_ne_aborted _ _ _⟩
  | unsent task sent => exact ⟨nofun, nofun⟩

/-! ## What moves keep -/

theorem keeps_step (h : History) {m : Move} (hm : m.isOfFlight = false) :
    h.session.Keeps (h.step depth m).session := by
  cases m with
  | request r => cases hm
  | settle i => cases hm
  | launch i => exact h.session.keeps_launch i
  | receive i a => exact Session.keeps_receive depth _ i a
  | interrupt i => exact h.session.keeps_interrupt i
  | abortAll => exact h.session.keeps_abortAll
  | act a => exact h.session.keeps_act depth a
  | abandon i =>
    simp only [step]
    split
    · exact .refl _
    · exact (Session.Keeps.refl _).modifyTask i _
  | resolve i =>
    simp only [step]
    split
    · exact .refl _
    · split
      · exact .refl _
      · next hres => exact Session.keeps_resolve hres

theorem grows_step (depth : Nat) (h : History) (m : Move) :
    (h.step depth m).session.tasks.length = h.session.tasks.length ∨
      ∃ r s, m = .request r ∧ h.session.SameTasks s ∧ (h.step depth m).session = (s.start r).1 := by
  cases hm : m.isOfFlight with
  | false => exact .inl (h.keeps_step hm).length
  | true =>
    cases m with
    | request r =>
      obtain ⟨s, same, -, ⟨⟨e, heq⟩, -⟩ | heq⟩ := h.session.request_cases r <;>
      rw [session_request, heq]
      · exact .inl (by rw [same.tasks])
      · exact .inr ⟨r, s, rfl, same, rfl⟩
    | settle i =>
      simp only [step, Session.settle]
      split <;> exact .inl rfl
    | _ => cases hm

theorem length_step (h : History) (m : Move) :
    h.session.tasks.length ≤ (h.step depth m).session.tasks.length := by
  rcases h.grows_step depth m with heq | ⟨r, s, -, same, heq⟩
  · exact Nat.le_of_eq heq.symm
  · simp [heq, Session.start, same.tasks]

theorem types_step (h : History) (m : Move) : (h.step depth m).session.types = h.session.types := by
  cases hm : m.isOfFlight with
  | false => exact (h.keeps_step hm).types
  | true =>
    cases m with
    | request r =>
      obtain ⟨s, -, htypes, ⟨⟨e, heq⟩, -⟩ | heq⟩ := h.session.request_cases r <;>
      rw [session_request, heq] <;> exact htypes
    | settle i =>
      simp only [step, Session.settle]
      split <;> rfl
    | _ => cases hm

theorem tidy_step {h : History} (ht : h.session.Tidy) (m : Move) :
    (h.step depth m).session.Tidy := by
  cases hm : m.isOfFlight with
  | false => exact (h.keeps_step hm).tidy ht
  | true =>
    cases m with
    | request r =>
      obtain ⟨s, same, htypes, hcase⟩ := h.session.request_cases r
      have hs : s.Tidy := (same.keeps htypes).tidy ht
      rw [session_request]
      rcases hcase with ⟨⟨e, heq⟩, -⟩ | heq <;> rw [heq]
      · exact hs
      · exact hs.start r
    | settle i => exact ht.settle i
    | _ => cases hm

theorem mem_inflight_step {h : History} {m : Move} {id : Nat}
    (hid : id ∈ (h.step depth m).session.inflight) :
    id ∈ h.session.inflight ∨ id = h.session.tasks.length ∧ ∃ r, m = .request r := by
  cases hm : m.isOfFlight with
  | false => exact .inl ((h.keeps_step hm).inflight ▸ hid)
  | true =>
    cases m with
    | request r =>
      obtain ⟨s, same, -, ⟨⟨e, heq⟩, -⟩ | heq⟩ := h.session.request_cases r <;>
      rw [session_request, heq] at hid
      · exact .inl (same.inflight ▸ hid)
      · simp only [Session.start, same.inflight, same.tasks, List.mem_append,
          List.mem_singleton] at hid
        exact hid.imp_right fun heq => ⟨heq, r, rfl⟩
    | settle i =>
      simp only [step, Session.settle] at hid
      split at hid
      · exact .inl (List.mem_of_mem_erase hid)
      · exact .inl hid
    | _ => cases hm

/-! ## Open tasks -/

/-- The task of a request did not end, and it is marked and noted as aborted, or neither. -/
structure Open (h : History) (id : Nat) (r : Request) (p : Phase) (aborted : Bool) : Prop where
  task : h.session.tasks[id]? = some ⟨r, p, aborted⟩
  isOpen : Task.isEnded ⟨r, p, aborted⟩ = false
  aborted : id ∈ h.session.aborted ↔ aborted = true
  /-- Its caller was not told. -/
  untold : h.isTold id = false

/-- What a move does to an open task that was aborted or not. -/
inductive Turn (depth : Nat) (h : History) (m : Move) (id : Nat) (r : Request) (p : Phase)
    (aborted : Bool) : Prop where
  /-- It stays where it is, and requests may be aborted. -/
  | stays (opened : (h.step depth m).Open id r p (aborted || h.aborts depth m))
    (due : m.isDue id p aborted = false)
  /-- Its request is handed to the transport. -/
  | sent (d : Dispatch)
    (opened : (h.step depth m).Open id r (.waiting d) (aborted || h.aborts depth m))
    (created : p = .created)
  /-- It ends, by the abort if there was one and else on its own. -/
  | ends (e : Ending) (stands : (h.step depth m).Stands id r e (aborted || h.aborts depth m))
    (cause : if aborted || h.aborts depth m then e = .cancelled
      else h.Ends h.session.types id r m e)

section

variable {h : History} {id : Nat} {r : Request} {p : Phase} {aborted : Bool}

theorem aborts_of_events (m : Move) (hm : m ≠ .abortAll)
    (hevents : (h.step depth m).session.journal.events = h.session.journal.events) :
    h.aborts depth m = false := by
  cases m with
  | abortAll => exact absurd rfl hm
  | _ => exact Session.abortsSince_of_events hevents

theorem marks_step (depth : Nat) (hs : h.session.Sound) {m : Move} (hm : m.task? ≠ some id) :
    h.session.Marks (h.step depth m).session id (h.aborts depth m) := by
  have hne : ∀ i, m.task? = some i → i ≠ id := fun i hi heq => hm (heq ▸ hi)
  cases m with
  | abortAll => exact hs.marks_abortAll id
  | act a => exact hs.marks_act depth a id
  | receive i a => exact hs.marks_receive depth (hne i rfl) a
  | request r =>
    have hevents := (h.session.advances_request r).2
    rw [← @session_request depth] at hevents
    rw [aborts_of_events (.request r) (by simp) hevents, session_request]
    exact h.session.marks_request r id
  | launch i =>
    rw [aborts_of_events (.launch i) (by simp) (h.session.advances_launch i).2]
    exact h.session.marks_launch (hne i rfl)
  | interrupt i =>
    rw [aborts_of_events (.interrupt i) (by simp) (h.session.advances_interrupt i).2]
    exact h.session.marks_interrupt (hne i rfl)
  | settle i =>
    rw [aborts_of_events (.settle i) (by simp) (h.session.advances_settle i).2]
    exact h.session.marks_settle id i
  | resolve i =>
    rcases @step_resolve depth h i with heq | ⟨r, e, marked, s, -, heq, htasks, -, hj, -, hab⟩
    · rw [aborts_of_events (.resolve i) (by simp) (by rw [heq]), heq]
      exact .refl _ id
    · rw [aborts_of_events (.resolve i) (by simp) (by rw [heq, hj]), heq]
      intro t ht _
      simp [htasks, ht, hab id (hne i rfl).symm]
  | abandon i =>
    have hevents : (h.step depth (.abandon i)).session.journal.events =
        h.session.journal.events := by
      simp only [step]
      split <;> rfl
    rw [aborts_of_events (.abandon i) (by simp) hevents]
    simp only [step]
    split
    · exact .refl _ id
    · exact (Session.Marks.refl _ id).modifyTask (hne i rfl) _

theorem Open.turn_of_eq (ho : h.Open id r p aborted) {m : Move} (hm : m ≠ .abortAll)
    (heq : h.step depth m = h) (due : m.isDue id p aborted = false) :
    Turn depth h m id r p aborted := by
  refine .stays ?_ due
  rwa [aborts_of_events m hm (by rw [heq]), Bool.or_false, heq]

theorem Open.turn_of_finish (ho : h.Open id r p true) {m : Move}
    (hstep : h.step depth m = { h with session := h.session.modifyTask id (·.finish .cancelled) }) :
    Turn depth h m id r p true := by
  refine .ends .cancelled ⟨?_, ?_, ?_⟩ rfl
  · rw [hstep, Session.getElem?_modifyTask, if_pos rfl, ho.task]
    rfl
  · rw [hstep]
    exact List.contains_iff_mem.mpr (ho.aborted.mpr rfl)
  · rw [hstep]
    exact ho.untold

theorem Open.turn_launch (ho : h.Open id r p aborted) :
    Turn depth h (.launch id) id r p aborted := by
  have ht := ho.task
  cases p with
  | ended e => cases ho.isOpen
  | waiting d =>
    exact ho.turn_of_eq (by simp) (by simp only [step, Session.launch, ht]) (by simp [Move.isDue])
  | created =>
    cases aborted with
    | true => exact ho.turn_of_finish (by simp only [step, Session.launch, ht, if_true])
    | false =>
      obtain ⟨same, -⟩ := h.session.send_eq r
      have hstep : (h.step depth (.launch id)).session =
          (h.session.send r).1.modifyTask id fun t => { t with phase := (h.session.send r).2 } := by
        simp only [step, Session.launch, ht, Bool.false_eq_true, if_false]
      have htask : (h.step depth (.launch id)).session.tasks[id]? =
          some ⟨r, (h.session.send r).2, false⟩ := by
        rw [hstep, Session.getElem?_modifyTask, if_pos rfl, same.tasks, ht]
        rfl
      have haborted : (h.step depth (.launch id)).session.aborted = h.session.aborted := by
        rw [hstep]
        exact same.aborted
      have hnone : h.aborts depth (.launch id) = false :=
        aborts_of_events _ (by simp) (h.session.advances_launch id).2
      rcases h.session.send_cases r with ⟨d, hd⟩ | ⟨b, hb⟩
      · refine .sent d ⟨?_, rfl, ?_, ho.untold⟩ rfl
        · rw [htask, hd, hnone]
          rfl
        · rw [haborted, hnone]
          exact ho.aborted
      · refine .ends (.breakdown b) ⟨by rw [htask, hb], ?_, ho.untold⟩ ?_
        · rw [haborted, hnone]
          simpa using ho.aborted
        · rw [hnone]
          exact .unsent ht hb

/-- A task that waits and was not aborted stands behind its reply, with the ending that this leads to
or cancelled by an abort. -/
theorem stands_of_reply (hs : h.session.Sound) {d : Dispatch}
    (ht : h.session.tasks[id]? = some ⟨r, .waiting d, false⟩) (untold : h.isTold id = false)
    (a : Reply) :
    (h.step depth (.receive id a)).Stands id r
      (if h.aborts depth (.receive id a) then .cancelled else a.ending h.session.types r d)
      (h.aborts depth (.receive id a)) := by
  have hstep : (h.step depth (.receive id a)).session =
      (h.session.reply depth r d a).1.modifyTask id (·.finish (h.session.reply depth r d a).2) := by
    simp only [step, Session.receive, ht, Bool.false_eq_true, if_false]
  have haborts : h.aborts depth (.receive id a) =
      h.session.abortsSince (h.session.reply depth r d a).1 := by
    simp only [aborts, hstep]
    rfl
  -- observers may abort while the reply is looked at, so mark and note are those behind it
  obtain ⟨hmark, hnoted⟩ := hs.marks_reply depth r d a id _ ht rfl
  obtain ⟨hending, houtcome⟩ := Session.reply_ending depth h.session r d a
  refine ⟨?_, ?_, untold⟩
  · rw [hstep, Session.getElem?_modifyTask, if_pos rfl, hmark, ← haborts]
    cases hab : h.aborts depth (.receive id a) with
    | true =>
      obtain ⟨o, ho⟩ := houtcome (haborts ▸ hab)
      rw [ho]
      rfl
    | false =>
      rw [hending]
      cases a.ending h.session.types r d <;> rfl
  · rw [hstep, haborts, Bool.eq_iff_iff, List.contains_iff_mem]
    exact hnoted.trans (or_iff_right (hs.not_mem_aborted ht rfl rfl))

/-- A task that waits ends with its reply, unless it was aborted before or is while the reply is
looked at. -/
theorem Open.turn_receive (hs : h.session.Sound) (ho : h.Open id r p aborted) (a : Reply) :
    Turn depth h (.receive id a) id r p aborted := by
  have ht := ho.task
  cases p with
  | ended e => cases ho.isOpen
  | created =>
    exact ho.turn_of_eq (by simp) (by simp only [step, Session.receive, ht]) (by simp [Move.isDue])
  | waiting d =>
    cases aborted with
    | true => exact ho.turn_of_finish (by simp only [step, Session.receive, ht, if_true])
    | false =>
      refine .ends _ (stands_of_reply hs ht ho.untold a) ?_
      rw [Bool.false_or]
      cases h.aborts depth (.receive id a) with
      | true => rfl
      | false => exact .replied ht a

theorem Open.turn_interrupt (ho : h.Open id r p aborted) :
    Turn depth h (.interrupt id) id r p aborted := by
  have ht := ho.task
  cases p with
  | ended e => cases ho.isOpen
  | created =>
    exact ho.turn_of_eq (by simp) (by simp only [step, Session.interrupt, ht]) (by simp [Move.isDue])
  | waiting d =>
    cases aborted with
    | true => exact ho.turn_of_finish (by simp only [step, Session.interrupt, ht])
    | false =>
      exact ho.turn_of_eq (by simp) (by simp only [step, Session.interrupt, ht])
        (by simp [Move.isDue])

/-- What a move does to an open task whose caller does not go away. -/
theorem Open.turn (depth : Nat) (hs : h.session.Sound) (ho : h.Open id r p aborted) {m : Move}
    (stays : m.isAbandon = false) :
    Turn depth h m id r p aborted := by
  have hopen : h.session.hasEnded id = false := (Session.hasEnded_of_task ho.task).trans ho.isOpen
  by_cases hm : m.task? = some id
  · cases m with
    | request r => cases hm
    | abortAll => cases hm
    | act a => cases hm
    | abandon i => cases stays
    | launch i =>
      obtain rfl : i = id := Option.some.inj hm
      exact ho.turn_launch
    | receive i a =>
      obtain rfl : i = id := Option.some.inj hm
      exact ho.turn_receive hs a
    | interrupt i =>
      obtain rfl : i = id := Option.some.inj hm
      exact ho.turn_interrupt
    | settle i =>
      obtain rfl : i = id := Option.some.inj hm
      rw [Session.hasEnded] at hopen
      exact ho.turn_of_eq (by simp) (by simp only [step, Session.settle, hopen]; rfl) rfl
    | resolve i =>
      obtain rfl : i = id := Option.some.inj hm
      refine ho.turn_of_eq (by simp) ?_ rfl
      simp only [step, Session.resolve_of_open hopen, ho.untold, Bool.false_eq_true, if_false]
  · have tells : m.tells id = false := by
      cases m <;> simp only [Move.tells, beq_eq_false_iff_ne]
      exact fun heq => hm (congrArg some heq)
    obtain ⟨htask, hnoted⟩ := marks_step depth hs hm _ ho.task ho.isOpen
    refine .stays ⟨htask, ho.isOpen, ?_, (isTold_step h tells).trans ho.untold⟩
      (Move.isDue_of_task? hm p aborted)
    rw [hnoted, ho.aborted, Bool.or_eq_true]

end

end History

end ApiSmith

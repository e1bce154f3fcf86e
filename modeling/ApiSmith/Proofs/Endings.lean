import Mathlib.Data.List.Induction
import ApiSmith.Proofs.Turns

/-!
# How requests end

In a run in which no caller goes away, the task of a request is at every moment in one of three
states (`History.Fate`): it did not end, it ended and its caller was not told yet, or its caller was
told once. What it ends with turns on one word, whether requests were aborted since the task was
there and before it ended (`History.abortsOpen`). The move that creates a task begins its fate, and
every other move is a step from one fate to the next one (`History.Fate.step`).
-/

namespace ApiSmith.History

open Notices

variable {depth : Nat} {types : TypeTable}

def isOpen (h : History) (id : Nat) : Bool := h.session.tasks[id]?.any (!·.isEnded)

/-- Whether requests are aborted in a run while a task is there and did not end. -/
def abortsOpen (depth : Nat) (h : History) (id : Nat) : List Move → Bool
  | [] => false
  | m :: rest => h.isOpen id && h.aborts depth m || (h.step depth m).abortsOpen depth id rest

def toldOf (h : History) (id : Nat) : List Ending :=
  h.told.filterMap fun (i, e) => if i = some id then some e else none

/-- The task of a request comes to an end of its own in a run. -/
def EndsIn (depth : Nat) (types : TypeTable) (h : History) (id : Nat) (r : Request) (ms : List Move)
    (e : Ending) : Prop :=
  ∃ before m after, ms = before ++ m :: after ∧ (h.run depth before).Ends types id r m e

/-! ## Runs that grow -/

theorem run_concat (h : History) (ms : List Move) (m : Move) :
    h.run depth (ms ++ [m]) = (h.run depth ms).step depth m := by
  simp [run]

theorem length_run (h : History) (ms : List Move) :
    h.session.tasks.length ≤ (h.run depth ms).session.tasks.length := by
  induction ms generalizing h with
  | nil => exact Nat.le_refl _
  | cons m rest ih => exact Nat.le_trans (h.length_step m) (ih _)

theorem types_run (depth : Nat) (h : History) (ms : List Move) :
    (h.run depth ms).session.types = h.session.types := by
  induction ms generalizing h with
  | nil => rfl
  | cons m rest ih => rw [run_cons, ih, types_step]

theorem tidy_run (zone : Time.Zone) (config : ClientConfig) (types : TypeTable)
    (center : Center Signal)
    (ms : List Move) : ((begin zone config types center).run depth ms).session.Tidy := by
  suffices ∀ h : History, h.session.Tidy → (h.run depth ms).session.Tidy from
    this _ (Session.tidy_begin zone config types center)
  induction ms with
  | nil => exact fun _ ht => ht
  | cons m rest ih => exact fun h ht => ih _ (tidy_step ht m)

theorem abortsOpen_concat (h : History) (id : Nat) (ms : List Move) (m : Move) :
    h.abortsOpen depth id (ms ++ [m]) =
      (h.abortsOpen depth id ms ||
        (h.run depth ms).isOpen id && (h.run depth ms).aborts depth m) := by
  induction ms generalizing h with
  | nil => simp [abortsOpen]
  | cons n rest ih => simp [abortsOpen, ih, Bool.or_assoc]

theorem EndsIn.concat {h : History} {id : Nat} {r : Request} {ms : List Move} {e : Ending}
    (he : h.EndsIn depth types id r ms e) (m : Move) :
    h.EndsIn depth types id r (ms ++ [m]) e := by
  obtain ⟨before, n, after, rfl, he⟩ := he
  exact ⟨before, n, after ++ [m], by simp, he⟩

theorem Ends.endsIn {h : History} {id : Nat} {r : Request} {ms : List Move} {m : Move} {e : Ending}
    (he : (h.run depth ms).Ends types id r m e) : h.EndsIn depth types id r (ms ++ [m]) e :=
  ⟨ms, m, [], rfl, he⟩

theorem EndsIn.ne {h : History} {id : Nat} {r : Request} {ms : List Move} {e : Ending}
    (he : h.EndsIn depth types id r ms e) : e ≠ .cancelled ∧ e ≠ r.abortedEnding := by
  obtain ⟨before, m, after, -, he⟩ := he
  exact he.ne

theorem abortsOpen_of_length {h : History} {id : Nat} {ms : List Move}
    (hid : (h.run depth ms).session.tasks.length ≤ id) : h.abortsOpen depth id ms = false := by
  induction ms generalizing h with
  | nil => rfl
  | cons m rest ih =>
    have hlen : h.session.tasks.length ≤ id := Nat.le_trans (h.length_run (m :: rest)) hid
    simp only [abortsOpen, isOpen, List.getElem?_eq_none hlen, Option.any_none, Bool.false_and,
      Bool.false_or]
    exact ih hid

/-! ## What callers were told -/

section

variable {h : History} {id : Nat}

theorem toldOf_eq_nil : h.toldOf id = [] ↔ h.isTold id = false := by
  simp only [toldOf, isTold, List.filterMap_eq_nil_iff, List.any_eq_false, beq_iff_eq]
  exact forall₂_congr fun x _ => by simp

theorem toldOf_step {m : Move} (tells : m.tells id = false) :
    (h.step depth m).toldOf id = h.toldOf id := by
  cases m with
  | request r =>
    simp only [step]
    split <;> simp [toldOf]
  | resolve i =>
    have hne : i ≠ id := by simpa [Move.tells] using tells
    rcases @step_resolve depth h i with heq | ⟨r, e, marked, s, -, heq, -⟩ <;> rw [heq]
    simp [toldOf, hne]
  | abandon i =>
    simp only [step]
    split <;> rfl
  | _ => rfl

/-- The task of a request ended, and its caller was told once. -/
structure Done (h : History) (id : Nat) (r : Request) (e : Ending) : Prop where
  task : ∃ e', h.session.tasks[id]? = some ⟨r, .ended e', false⟩
  told : h.toldOf id = [e]
  /-- The task is not among the aborted ones. -/
  cleared : id ∉ h.session.aborted

variable {r : Request} {e : Ending} {aborted : Bool}

theorem Done.isTold (hd : h.Done id r e) : h.isTold id = true := by
  by_contra htold
  rw [Bool.not_eq_true, ← toldOf_eq_nil, hd.told] at htold
  cases htold

theorem Done.step (hd : h.Done id r e) (m : Move) : (h.step depth m).Done id r e := by
  by_cases hm : m.tells id = true ∨ m.abandons id = true
  · -- The caller is gone, so neither of its moves does anything.
    have heq : h.step depth m = h := by
      cases m <;> simp only [Move.tells, Move.abandons, beq_iff_eq, or_false, false_or,
        Bool.false_eq_true, or_self] at hm
      all_goals
        subst hm
        simp only [History.step, hd.isTold, if_true]
    rwa [heq]
  · simp only [not_or, Bool.not_eq_true] at hm
    obtain ⟨e', ht⟩ := hd.task
    obtain ⟨ht', hab⟩ := step_of_ended depth h m id hm.1 hm.2 ht rfl
    exact ⟨⟨e', ht'⟩, (toldOf_step hm.1).trans hd.told, fun hid => hd.cleared (hab.mp hid)⟩

theorem Stands.resolve (hs : h.Stands id r e aborted) (ht : h.session.Tidy)
    (hcause : aborted = true → e = .cancelled) :
    (h.step depth (.resolve id)).Done id r (Session.told r aborted e) := by
  obtain ⟨s, hres, htasks, -⟩ := Session.resolve_of_ended hs.task
  have hstep : h.step depth (.resolve id) =
      ⟨s, h.told ++ [(some id, Session.told r aborted e)]⟩ := by
    simp only [History.step, hs.untold, hres, hs.aborted, Bool.false_eq_true, if_false]
  rw [hstep]
  refine ⟨⟨e, by rw [htasks]; exact hs.task⟩, ?_, ?_⟩
  · have hnil : h.told.filterMap (fun (i, e) => if i = some id then some e else none) = [] :=
      toldOf_eq_nil.mpr hs.untold
    simp [toldOf, List.filterMap_append, hnil]
  · refine ht.not_mem_resolve hs.task (fun hab => hcause ?_) hres
    rw [← hs.aborted]
    exact List.contains_iff_mem.mpr hab

/-! ## Fates -/

/-- What became of the task of a request that was aborted or not: it is open, or it ended and its
caller was not told, or its caller was told once. One that was not aborted ends on its own. -/
inductive Fate (h : History) (id : Nat) (r : Request) (aborted : Bool) (own : Ending → Prop) :
    Prop where
  | pending (p : Phase) (opened : h.Open id r p aborted)
  | ended (e : Ending) (stands : h.Stands id r e aborted)
    (cause : if aborted then e = .cancelled else own e)
  | told (e : Ending) (done : h.Done id r e)
    (cause : if aborted then e = r.abortedEnding else own e)

variable {own own' : Ending → Prop}

theorem isOpen_eq (h : History) (id : Nat) {t : Task} (ht : h.session.tasks[id]? = some t) :
    h.isOpen id = !t.isEnded := by
  rw [isOpen, ht, Option.any_some]

theorem if_of_imp {c : Bool} {p q q' : Prop} (h : q → q') (hc : if c then p else q) :
    if c then p else q' := by
  cases c with
  | true => exact hc
  | false => exact h hc

theorem Stands.fate_step (hs : h.Stands id r e aborted) (ht : h.session.Tidy) {m : Move}
    (stays : m.isAbandon = false) (cause : if aborted then e = .cancelled else own e)
    (ne : aborted = false → e ≠ .cancelled) : (h.step depth m).Fate id r aborted own := by
  cases tells : m.tells id with
  | false =>
    have hgone : m.abandons id = false := by
      cases m <;> first | rfl | cases stays
    have hstep := hs.step depth tells
    rw [hgone, if_neg Bool.false_ne_true] at hstep
    exact .ended e hstep cause
  | true =>
    cases m <;> simp only [Move.tells, Bool.false_eq_true, beq_iff_eq] at tells
    subst tells
    cases aborted with
    | true =>
      obtain rfl : e = .cancelled := cause
      exact .told _ (hs.resolve ht fun _ => rfl) rfl
    | false =>
      have htold : Session.told r false e = e := by
        cases e with
        | cancelled => exact absurd rfl (ne rfl)
        | _ => rfl
      refine .told e (htold ▸ hs.resolve ht fun hab => absurd hab Bool.false_ne_true) cause

/-- One move leads from a fate to a fate. -/
theorem Fate.step (hf : h.Fate id r aborted own) (hs : h.session.Sound) (ht : h.session.Tidy)
    {m : Move} (stays : m.isAbandon = false) (ne : ∀ e, own e → e ≠ .cancelled)
    (keeps : ∀ e, own e → own' e) (ends : ∀ e, h.Ends h.session.types id r m e → own' e) :
    (h.step depth m).Fate id r (aborted || h.isOpen id && h.aborts depth m) own' := by
  cases hf with
  | pending p ho =>
    rw [h.isOpen_eq id ho.task, ho.isOpen, Bool.not_false, Bool.true_and]
    rcases ho.turn depth hs stays with ⟨opened, -⟩ | ⟨d, opened, -⟩ | ⟨e, stands, cause⟩
    · exact .pending p opened
    · exact .pending (.waiting d) opened
    · exact .ended e stands (if_of_imp (ends e) cause)
  | ended e stands cause =>
    rw [h.isOpen_eq id stands.task, Task.isEnded, Bool.not_true, Bool.false_and, Bool.or_false]
    refine stands.fate_step ht stays (if_of_imp (keeps e) cause) fun hab => ne e ?_
    rwa [hab] at cause
  | told e done cause =>
    obtain ⟨e', htask⟩ := done.task
    rw [h.isOpen_eq id htask, Task.isEnded, Bool.not_true, Bool.false_and, Bool.or_false]
    exact .told e (done.step m) (if_of_imp (keeps e) cause)

theorem Fate.request (hf : h.Fate id r aborted own) :
    h.session.tasks[id]?.map Task.request = some r := by
  rcases hf with ⟨p, opened⟩ | ⟨e, stands, -⟩ | ⟨e, ⟨⟨e', ht⟩, -, -⟩, -⟩
  · rw [opened.task, Option.map_some]
  · rw [stands.task, Option.map_some]
  · rw [ht, Option.map_some]

theorem open_of_new (hs : h.session.Sound) (untold : h.isTold id = false)
    (hge : h.session.tasks.length ≤ id) {m : Move}
    (hlt : id < (h.step depth m).session.tasks.length) :
    ∃ r, (h.step depth m).Open id r .created false := by
  rcases h.grows_step depth m with heq | ⟨r, s, rfl, same, heq⟩
  · rw [heq] at hlt
    exact absurd hlt (Nat.not_lt_of_le hge)
  · have hid : id = h.session.tasks.length := by
      simp only [heq, Session.start, same.tasks, List.length_append, List.length_singleton] at hlt
      omega
    refine ⟨r, ?_, rfl, ?_, (isTold_step _ rfl).trans untold⟩
    · rw [heq, hid, Session.start, same.tasks]
      simp
    · have hout : id ∉ h.session.aborted := by
        intro hab
        obtain ⟨t, ht, -⟩ := hs.aborted hab
        rw [List.getElem?_eq_none hge] at ht
        cases ht
      simp [heq, Session.start, same.aborted, hout]

end

section

variable (zone : Time.Zone) (config : ClientConfig) (center : Center Signal)

theorem untold_of_length (types : TypeTable) (ms : List Move) {id : Nat}
    (hge : ((begin zone config types center).run depth ms).session.tasks.length ≤ id) :
    ((begin zone config types center).run depth ms).isTold id = false := by
  apply untold_of_open zone config types center ms
  rw [Session.hasEnded, List.getElem?_eq_none hge, Option.any_none]

/-- The fate of every task at the end of a run in which no caller goes away. -/
theorem fate_run (depth : Nat) (types : TypeTable) (ms : List Move)
    (stays : ∀ m ∈ ms, m.isAbandon = false) {id : Nat}
    (hid : id < ((begin zone config types center).run depth ms).session.tasks.length) :
    ∃ r, ((begin zone config types center).run depth ms).Fate id r
      ((begin zone config types center).abortsOpen depth id ms)
      ((begin zone config types center).EndsIn depth types id r ms) := by
  -- By induction on the run from its end: a move creates the task or is a step of its fate.
  induction ms using List.reverseRecOn generalizing id with
  | nil => exact absurd hid (Nat.not_lt_zero _)
  | append_singleton ms m ih =>
    have hs := @sound_run depth zone config types center ms
    have htypes := types_run depth (begin zone config types center) ms
    rw [run_concat] at hid ⊢
    rw [abortsOpen_concat]
    rcases Nat.lt_or_ge id ((begin zone config types center).run depth ms).session.tasks.length with
      hlt | hge
    · obtain ⟨r, hf⟩ := ih (fun n hn => stays n (List.mem_append_left _ hn)) hlt
      refine ⟨r, hf.step hs (tidy_run zone config types center ms) (stays m (by simp))
        (fun e he => he.ne.1) (fun e he => he.concat m) fun e he => Ends.endsIn ?_⟩
      rwa [htypes] at he
    · obtain ⟨r, ho⟩ := open_of_new hs (untold_of_length zone config center types ms hge) hge hid
      have hclosed : ((begin zone config types center).run depth ms).isOpen id = false := by
        rw [isOpen, List.getElem?_eq_none hge, Option.any_none]
      rw [abortsOpen_of_length hge, hclosed]
      exact ⟨r, .pending .created ho⟩

theorem request_run (types : TypeTable) (before after : List Move) (r : Request)
    (stays : ∀ m ∈ before ++ .request r :: after, m.isAbandon = false)
    (unmocked : ((begin zone config types center).run depth before).session.mock? r = none) :
    ((begin zone config types center).run depth (before ++ .request r :: after)).session.tasks[
      ((begin zone config types center).run depth before).session.tasks.length]?.map Task.request =
        some r := by
  let h := (begin zone config types center).run depth before
  rw [List.append_cons] at stays ⊢
  have hnew : ((begin zone config types center).run depth (before ++ [.request r])).session.tasks[
      h.session.tasks.length]?.map Task.request = some r := by
    obtain ⟨s, same, -, ⟨-, hmock⟩ | heq⟩ := h.session.request_cases r
    · exact absurd unmocked hmock
    · rw [run_concat, session_request, heq, Session.start, same.tasks]
      simp
  -- Each move is a step of the task's fate, which leaves its request alone.
  induction after using List.reverseRecOn with
  | nil => rwa [List.append_nil]
  | append_singleton after m ih =>
    rw [← List.append_assoc] at stays ⊢
    have hrequest := ih fun n hn => stays n (List.mem_append_left _ hn)
    obtain ⟨t, ht, -⟩ := Option.map_eq_some_iff.mp hrequest
    obtain ⟨r', hf⟩ := fate_run zone config center depth types _
      (fun n hn => stays n (List.mem_append_left _ hn)) (List.getElem?_eq_some_iff.mp ht).1
    obtain rfl : r' = r := Option.some.inj (hf.request.symm.trans hrequest)
    rw [run_concat]
    exact (hf.step (sound_run zone config types center _) (tidy_run zone config types center _)
      (stays m (by simp)) (fun e he => he.ne.1) (fun _ _ => trivial) fun _ _ => trivial).request

end

end ApiSmith.History

import ApiSmith.Proofs.Endings

/-!
# Aborted requests

Whatever the order in which requests begin, get their replies and are aborted, every caller is told
once, and of an abort exactly if there was one while its task did not end (`tells_once`). That
callers are told at all is said by the stages of a request (`History.stage`): no move takes a request
back, and each of the moves that it waits for takes it on.
-/

namespace ApiSmith.History

open Notices

variable {depth : Nat}

/-! ## Stages -/

/-- How far a request is that has a task: the task is created, waits, ended, is forgotten, or its
caller was told. -/
def stage (h : History) (id : Nat) : Nat :=
  if h.isTold id then 4
  else
    match h.session.tasks[id]?.map Task.phase with
    | some (.ended _) => if id ∈ h.session.inflight then 2 else 3
    | some (.waiting _) => 1
    | _ => 0

/-- A move takes a request on from a stage. A task that was aborted needs no reply. -/
inductive TakesOn (id : Nat) (aborted : Bool) : Nat → Move → Prop where
  | launch : TakesOn id aborted 0 (.launch id)
  | receive (a : Reply) : TakesOn id aborted 1 (.receive id a)
  | interrupt (marked : aborted = true) : TakesOn id aborted 1 (.interrupt id)
  | settle : TakesOn id aborted 2 (.settle id)
  | resolve : TakesOn id aborted 3 (.resolve id)

section

variable {h : History} {id : Nat} {r : Request} {aborted : Bool} {own : Ending → Prop}

theorem Open.stage_created (ho : h.Open id r .created aborted) : h.stage id = 0 := by
  simp [stage, ho.untold, ho.task]

theorem Open.stage_waiting {d : Dispatch} (ho : h.Open id r (.waiting d) aborted) :
    h.stage id = 1 := by
  simp [stage, ho.untold, ho.task]

theorem Stands.stage_eq {e : Ending} (hs : h.Stands id r e aborted) :
    h.stage id = if id ∈ h.session.inflight then 2 else 3 := by
  simp [stage, hs.untold, hs.task]

theorem Done.stage_eq {e : Ending} (hd : h.Done id r e) : h.stage id = 4 := by
  rw [stage, if_pos hd.isTold]

theorem Stands.two_le_stage {e : Ending} (hs : h.Stands id r e aborted) : 2 ≤ h.stage id := by
  rw [hs.stage_eq]
  split <;> decide

theorem isTold_of_stage (hstage : 4 ≤ h.stage id) : h.isTold id = true := by
  by_contra htold
  simp only [stage, htold, if_false] at hstage
  split at hstage
  · split at hstage <;> omega
  · omega
  · omega

theorem Open.stage_step {p : Phase} (ho : h.Open id r p aborted) (hs : h.session.Sound) {m : Move}
    (stays : m.isAbandon = false) :
    h.stage id ≤ (h.step depth m).stage id ∧
      (TakesOn id aborted (h.stage id) m → h.stage id < (h.step depth m).stage id) := by
  cases p with
  | ended e => cases ho.isOpen
  | created =>
    rw [ho.stage_created]
    refine ⟨Nat.zero_le _, fun hm => ?_⟩
    cases hm
    rcases ho.turn depth hs stays with ⟨-, due⟩ | ⟨d, opened, -⟩ | ⟨e, stands, -⟩
    · simp [Move.isDue] at due
    · rw [opened.stage_waiting]
      decide
    · exact Nat.lt_of_lt_of_le (by decide) stands.two_le_stage
  | waiting d =>
    rw [ho.stage_waiting]
    rcases ho.turn depth hs stays with ⟨opened, due⟩ | ⟨d', -, hp⟩ | ⟨e, stands, -⟩
    · refine ⟨Nat.le_of_eq opened.stage_waiting.symm, fun hm => ?_⟩
      cases hm with
      | receive a => simp [Move.isDue] at due
      | interrupt marked => simp [Move.isDue, marked] at due
    · cases hp
    · exact ⟨Nat.le_of_succ_le stands.two_le_stage, fun _ => stands.two_le_stage⟩

theorem Stands.stage_step {e : Ending} (hs : h.Stands id r e aborted) (ht : h.session.Tidy)
    (hcause : aborted = true → e = .cancelled) (m : Move) :
    h.stage id ≤ (h.step depth m).stage id ∧
      (TakesOn id aborted (h.stage id) m → h.stage id < (h.step depth m).stage id) := by
  cases tells : m.tells id with
  | true =>
    cases m <;> simp only [Move.tells, Bool.false_eq_true, beq_iff_eq] at tells
    subst tells
    rw [(hs.resolve ht hcause).stage_eq, hs.stage_eq]
    split <;> exact ⟨by decide, fun _ => by decide⟩
  | false =>
    have hlt := (List.getElem?_eq_some_iff.mp hs.task).1
    rw [hs.stage_eq, (hs.step depth tells).stage_eq]
    by_cases hin : id ∈ h.session.inflight
    · rw [if_pos hin]
      refine ⟨by split <;> decide, fun hm => ?_⟩
      cases hm
      have hend : h.session.hasEnded id = true := Session.hasEnded_iff.mpr ⟨_, hs.task, rfl⟩
      rw [if_neg (show id ∉ (h.step depth (.settle id)).session.inflight from
        ht.not_mem_settle hend)]
      decide
    · have hout : id ∉ (h.step depth m).session.inflight := fun hid => by
        rcases mem_inflight_step hid with hid | ⟨heq, -⟩
        · exact hin hid
        · exact absurd hlt (heq ▸ Nat.lt_irrefl _)
      rw [if_neg hin, if_neg hout]
      refine ⟨Nat.le_refl _, fun hm => ?_⟩
      cases hm
      simp [Move.tells] at tells

/-- No move takes a request back, and a move that it waits for takes it on. -/
theorem Fate.stage_step (hf : h.Fate id r aborted own) (hs : h.session.Sound) (ht : h.session.Tidy)
    {m : Move} (stays : m.isAbandon = false) :
    h.stage id ≤ (h.step depth m).stage id ∧
      (TakesOn id aborted (h.stage id) m → h.stage id < (h.step depth m).stage id) := by
  cases hf with
  | pending p ho => exact ho.stage_step hs stays
  | ended e stands cause =>
    exact stands.stage_step ht (fun hab => by rwa [if_pos hab] at cause) m
  | told e done cause =>
    rw [done.stage_eq, (done.step m).stage_eq]
    exact ⟨Nat.le_refl _, fun hm => by cases hm⟩

end

/-- The moves that a request waits for from a stage on, one after another. -/
def Climbs (id : Nat) (aborted : Bool) : Nat → List Move → Prop
  | _, [] => True
  | k, m :: rest => TakesOn id aborted k m ∧ Climbs id aborted (k + 1) rest

theorem Climbs.drop {id j : Nat} {aborted : Bool} {ms : List Move} (h : Climbs id aborted j ms)
    (k : Nat) : Climbs id aborted (j + k) (ms.drop k) := by
  induction k generalizing j ms with
  | zero => exact h
  | succ k ih =>
    cases ms with
    | nil => trivial
    | cons m rest =>
      rw [List.drop_succ_cons, ← Nat.add_assoc, Nat.add_right_comm]
      exact ih h.2

theorem abortsOpen_mono {h : History} {id : Nat} {ms : List Move}
    (hab : h.abortsOpen depth id ms = true) (m : Move) :
    h.abortsOpen depth id (ms ++ [m]) = true := by
  rw [abortsOpen_concat, hab, Bool.true_or]

theorem lt_length_concat {h : History} {id : Nat} {ms : List Move}
    (hid : id < (h.run depth ms).session.tasks.length) (m : Move) :
    id < (h.run depth (ms ++ [m])).session.tasks.length := by
  rw [run_concat]
  exact Nat.lt_of_lt_of_le hid (length_step _ m)

theorem TakesOn.mono {id k : Nat} {aborted aborted' : Bool} {m : Move}
    (hm : TakesOn id aborted k m) (h : aborted = true → aborted' = true) :
    TakesOn id aborted' k m := by
  cases hm with
  | launch => exact .launch
  | receive a => exact .receive a
  | interrupt marked => exact .interrupt (h marked)
  | settle => exact .settle
  | resolve => exact .resolve

section

variable (zone : Time.Zone) (config : ClientConfig) (center : Center Signal)

theorem stage_concat (depth : Nat) (types : TypeTable) {id : Nat} {ms : List Move} {m : Move}
    (stays : ∀ n ∈ ms ++ [m], n.isAbandon = false)
    (hid : id < ((begin zone config types center).run depth ms).session.tasks.length) :
    let h := (begin zone config types center).run depth ms
    let h' := (begin zone config types center).run depth (ms ++ [m])
    h.stage id ≤ h'.stage id ∧
      (TakesOn id ((begin zone config types center).abortsOpen depth id ms) (h.stage id) m →
        h.stage id < h'.stage id) := by
  intro h h'
  obtain ⟨r, hf⟩ := fate_run zone config center depth types ms
    (fun n hn => stays n (List.mem_append_left _ hn)) hid
  simp only [h', run_concat]
  exact hf.stage_step (sound_run zone config types center ms) (tidy_run zone config types center ms)
    (stays m (by simp))

/-- Along a run a request gets as far as the moves take it that it waits for, whatever else happens
between them. -/
theorem stage_run (types : TypeTable) {aborted : Bool} {id k : Nat} {before after needed : List Move}
    (stays : ∀ m ∈ before ++ after, m.isAbandon = false)
    (hid : id < ((begin zone config types center).run depth before).session.tasks.length)
    (hab : aborted = true → (begin zone config types center).abortsOpen depth id before = true)
    (hneeded : Climbs id aborted k needed) (hsub : needed.Sublist after)
    (hk : k ≤ ((begin zone config types center).run depth before).stage id) :
    k + needed.length ≤ ((begin zone config types center).run depth (before ++ after)).stage id := by
  -- The rest of the run is taken apart move by move, and what is behind grows by each of them.
  induction hsub generalizing before k with
  | slnil => simpa using hk
  | @cons needed rest m hsub ih =>
    rw [List.append_cons] at stays ⊢
    obtain ⟨hkeeps, -⟩ := stage_concat zone config center depth types
      (fun n hn => stays n (List.mem_append_left _ hn)) hid
    exact ih stays (lt_length_concat hid m) (fun hm => abortsOpen_mono (hab hm) m) hneeded
      (Nat.le_trans hk hkeeps)
  | @cons_cons needed rest m hsub ih =>
    rw [List.append_cons] at stays ⊢
    obtain ⟨hkeeps, htakes⟩ := stage_concat zone config center depth types
      (fun n hn => stays n (List.mem_append_left _ hn)) hid
    rw [List.length_cons, Nat.add_comm needed.length, ← Nat.add_assoc]
    refine ih stays (lt_length_concat hid m) (fun hm => abortsOpen_mono (hab hm) m) hneeded.2 ?_
    rcases Nat.eq_or_lt_of_le hk with rfl | hlt
    · exact htakes (hneeded.1.mono hab)
    · exact Nat.le_trans hlt hkeeps

end

/-! ## Orderly runs -/

/-- Whether no caller is told before its task was forgotten. A task that ended calls those that wait
for it in the order in which they came to wait. The one that forgets it comes before its caller, so
every run that can happen is orderly. -/
def orderly (depth : Nat) (h : History) : List Move → Bool
  | [] => true
  | m :: rest =>
    !h.session.inflight.any (fun id => m.tells id) && (h.step depth m).orderly depth rest

theorem orderly_concat (h : History) (ms : List Move) (m : Move) :
    h.orderly depth (ms ++ [m]) =
      (h.orderly depth ms &&
        !(h.run depth ms).session.inflight.any fun id => m.tells id) := by
  induction ms generalizing h with
  | nil => simp [orderly]
  | cons n rest ih => simp only [List.cons_append, orderly, ih, run_cons, Bool.and_assoc]

section

variable (zone : Time.Zone) (config : ClientConfig) (center : Center Signal)

theorem untold_of_inflight (types : TypeTable) (ms : List Move)
    (ordered : (begin zone config types center).orderly depth ms = true) {id : Nat}
    (hid : id ∈ ((begin zone config types center).run depth ms).session.inflight) :
    ((begin zone config types center).run depth ms).isTold id = false := by
  induction ms using List.reverseRecOn generalizing id with
  | nil => exact absurd hid List.not_mem_nil
  | append_singleton ms m ih =>
    rw [orderly_concat, Bool.and_eq_true, Bool.not_eq_true', List.any_eq_false] at ordered
    rw [run_concat] at hid ⊢
    rcases mem_inflight_step hid with hin | ⟨rfl, r, rfl⟩
    · rw [isTold_step _ (by simpa using ordered.2 id hin)]
      exact ih ordered.1 hin
    · rw [isTold_step _ rfl]
      exact untold_of_length zone config center types ms (Nat.le_refl _)

theorem clean_of_told (types : TypeTable) (ms : List Move) (stays : ∀ m ∈ ms, m.isAbandon = false)
    (ordered : (begin zone config types center).orderly depth ms = true)
    (htold : ∀ id < ((begin zone config types center).run depth ms).session.tasks.length,
      ((begin zone config types center).run depth ms).isTold id = true) :
    ((begin zone config types center).run depth ms).session.inflight = [] ∧
      ((begin zone config types center).run depth ms).session.aborted = [] := by
  constructor
  · refine List.eq_nil_iff_forall_not_mem.mpr fun id hid => ?_
    have htold := htold id ((tidy_run zone config types center ms).known id hid)
    rw [untold_of_inflight zone config center types ms ordered hid] at htold
    cases htold
  · refine List.eq_nil_iff_forall_not_mem.mpr fun id hid => ?_
    obtain ⟨t, ht, -⟩ := (sound_run zone config types center ms).aborted hid
    have hlt := (List.getElem?_eq_some_iff.mp ht).1
    have htold := htold id hlt
    obtain ⟨r, ⟨p, opened⟩ | ⟨e, stands, -⟩ | ⟨e, done, -⟩⟩ :=
      fate_run zone config center depth types ms stays hlt
    · rw [opened.untold] at htold
      cases htold
    · rw [stands.untold] at htold
      cases htold
    · exact done.cleared hid

/-! ## Every request is told of once -/

/-- A caller is told at most once: of the abort if its task was aborted, and else of the end that the
task came to on its own. -/
theorem toldOf_run (types : TypeTable) (ms : List Move) (stays : ∀ m ∈ ms, m.isAbandon = false)
    (id : Nat) :
    let start := begin zone config types center
    let h := start.run depth ms
    h.toldOf id = [] ∨ ∃ t e, h.session.tasks[id]? = some t ∧ h.toldOf id = [e] ∧
      if start.abortsOpen depth id ms then e = t.request.abortedEnding
      else e ≠ t.request.abortedEnding ∧ start.EndsIn depth types id t.request ms e := by
  intro start h
  rcases Nat.lt_or_ge id h.session.tasks.length with hlt | hge
  · obtain ⟨r, ⟨p, opened⟩ | ⟨e, stands, -⟩ | ⟨e, done, cause⟩⟩ :=
      fate_run zone config center depth types ms stays hlt
    · exact .inl (toldOf_eq_nil.mpr opened.untold)
    · exact .inl (toldOf_eq_nil.mpr stands.untold)
    · obtain ⟨e', ht⟩ := done.task
      refine .inr ⟨_, e, ht, done.told, ?_⟩
      split at cause
      · next hab => rwa [if_pos hab]
      · next hab =>
        rw [if_neg hab]
        exact ⟨cause.ne.2, cause⟩
  · exact .inl (toldOf_eq_nil.mpr (untold_of_length zone config center types ms hge))

/-- A caller is told once the moves were made that its request still waits for. -/
theorem isTold_run (types : TypeTable) {before after : List Move} {id : Nat} {woken : Move}
    (stays : ∀ m ∈ before ++ after, m.isAbandon = false)
    (hid : id < ((begin zone config types center).run depth before).session.tasks.length)
    (hwoken : (∃ a, woken = .receive id a) ∨
      woken = .interrupt id ∧ (begin zone config types center).abortsOpen depth id before = true)
    (hsub : ([.launch id, woken, .settle id, .resolve id].drop
      (((begin zone config types center).run depth before).stage id)).Sublist after) :
    ((begin zone config types center).run depth (before ++ after)).isTold id = true := by
  have hclimbs : Climbs id ((begin zone config types center).abortsOpen depth id before) 0
      [.launch id, woken, .settle id, .resolve id] := by
    refine ⟨.launch, ?_, .settle, .resolve, trivial⟩
    rcases hwoken with ⟨a, rfl⟩ | ⟨rfl, hab⟩
    · exact .receive a
    · exact .interrupt hab
  have hstage := stage_run zone config center types stays hid (fun hab => hab)
    (hclimbs.drop (((begin zone config types center).run depth before).stage id)) hsub
    (Nat.le_of_eq (Nat.zero_add _))
  rw [List.length_drop] at hstage
  exact isTold_of_stage (Nat.le_trans (by simp; omega) hstage)

/-- Take any run in which no caller goes away.

* A request that is begun and not mocked has a task of its own, and keeps it.
* The caller of a task is told at most once. If requests were aborted while the task was there and
  did not end, it is told of the abort; if not, it is told the ending that the task came to on its
  own, by its reply or since nothing could be handed to the transport, and this is never an abort.
* It is told if the rest of the run has, in this order and with anything between them, the moves that
  its request still waits for: the first step of its task; the reply or, if it was aborted, an
  interrupt; the move that forgets the task; and the word to the caller.
* An abort counts the tasks that are there and did not end.
* If callers are told after their tasks were forgotten, and all of them were told, then no task is in
  flight and none is noted as aborted.
* For a type that generated code names, a reply leads to an outcome exactly if it breaks the exchange
  or the address has a scheme. An answer to an address without one breaks the request down. -/
theorem tells_once (depth : Nat) (types : TypeTable) (ms : List Move)
    (stays : ∀ m ∈ ms, m.isAbandon = false) :
    let start := begin zone config types center
    let h := start.run depth ms
    (∀ before r after, ms = before ++ .request r :: after →
      (start.run depth before).session.mock? r = none →
        h.session.tasks[(start.run depth before).session.tasks.length]?.map Task.request = some r) ∧
    (∀ id, h.toldOf id = [] ∨ ∃ t e, h.session.tasks[id]? = some t ∧ h.toldOf id = [e] ∧
      if start.abortsOpen depth id ms then e = t.request.abortedEnding
      else e ≠ t.request.abortedEnding ∧ start.EndsIn depth types id t.request ms e) ∧
    (∀ before after, ms = before ++ after →
      ∀ id < (start.run depth before).session.tasks.length, ∀ woken,
        (∃ a, woken = .receive id a) ∨
          woken = .interrupt id ∧ start.abortsOpen depth id before = true →
        ([.launch id, woken, .settle id, .resolve id].drop
          ((start.run depth before).stage id)).Sublist after →
          (h.toldOf id).length = 1) ∧
    h.session.abortAll.2 =
      ((List.range h.session.tasks.length).filter fun id => !h.session.hasEnded id).length ∧
    (start.orderly depth ms = true → (∀ id < h.session.tasks.length, h.isTold id = true) →
      h.session.inflight = [] ∧ h.session.aborted = []) ∧
    (types.IsGenerated → ∀ r d, r.type.Generated types → ∀ a : Reply,
      ((∃ o, a.ending types r d = .outcome o) ↔
        d.url.scheme ≠ [] ∨ ∃ kind text, a = .broken kind text) ∧
      ∀ answer, a = .response answer → d.url.scheme = [] →
        a.ending types r d = .breakdown .noScheme) := by
  intro start h
  refine ⟨?_, toldOf_run zone config center types ms stays, ?_,
    (sound_run zone config types center ms).abortAll_count (tidy_run zone config types center ms),
    clean_of_told zone config center types ms stays,
    fun htypes r d hr a => ⟨Reply.exists_ending_iff htypes hr d a, ?_⟩⟩
  · rintro before r after rfl unmocked
    exact request_run zone config center types before after r stays unmocked
  · rintro before after rfl id hid woken hwoken hsub
    have htold := isTold_run zone config center types stays hid hwoken hsub
    rcases toldOf_run zone config center types _ stays id with hnil | ⟨t, e, -, honce, -⟩
    · rw [toldOf_eq_nil.mp hnil] at htold
      cases htold
    · exact congrArg List.length honce
  · rintro answer rfl hd
    exact Reply.ending_of_noScheme types r hd answer

end

/-! ## Two requests and an abort -/

def bank : ClientConfig := { baseUrl := "https://bank.test" }

def balanceRequest : Request := ⟨"account/balance", "GET", .null, .int, none⟩

def balanceDispatch : Dispatch :=
  ⟨"GET", ⟨"https".toList, [], "bank.test".toList, none, "/api/account/balance".toList, none, none⟩,
    "Bearer ", "clientgen/0.1.0", none⟩

def unavailable : Reply := .response ⟨503, []⟩

def beginMoves : List Move := [.request balanceRequest, .request balanceRequest]

/-- They are handed to the transport, the first one gets its reply, and requests are aborted. -/
def abortMoves : List Move := [.launch 0, .launch 1, .receive 0 unavailable, .abortAll]

/-- Both tasks are forgotten, the second one after its end, and the callers are told. -/
def closingMoves : List Move := [.settle 0, .resolve 0, .interrupt 1, .settle 1, .resolve 1]

theorem stages_of_two :
    ((begin .utc bank [] .empty).run 0 beginMoves).session.tasks.length = 2 ∧
      ((begin .utc bank [] .empty).run 0 beginMoves).stage 0 = 0 ∧
      ((begin .utc bank [] .empty).run 0 (beginMoves ++ abortMoves)).session.tasks.length = 2 ∧
      ((begin .utc bank [] .empty).run 0 (beginMoves ++ abortMoves)).stage 1 = 1 ∧
      (begin .utc bank [] .empty).abortsOpen 0 1 (beginMoves ++ abortMoves) = true ∧
      (begin .utc bank [] .empty).abortsOpen 0 0 (beginMoves ++ abortMoves ++ closingMoves) = false ∧
      (begin .utc bank [] .empty).abortsOpen 0 1 (beginMoves ++ abortMoves ++ closingMoves) = true ∧
      (begin .utc bank [] .empty).orderly 0 (beginMoves ++ abortMoves ++ closingMoves) = true ∧
      ∀ id < ((begin .utc bank [] .empty).run 0
          (beginMoves ++ abortMoves ++ closingMoves)).session.tasks.length,
        ((begin .utc bank [] .empty).run 0 (beginMoves ++ abortMoves ++ closingMoves)).isTold id =
          true := by
  decide +kernel

def homelessDispatch : Dispatch :=
  ⟨"GET", ⟨[], [], [], none, "/api/account/balance".toList, none, none⟩, "Bearer ",
    "clientgen/0.1.0", none⟩

theorem tasks_homeless :
    ((begin .utc {} [] .empty).run 0 [.request balanceRequest, .launch 0]).session.tasks[0]? =
      some ⟨balanceRequest, .waiting homelessDispatch, false⟩ :=
  Session.launch_request (s := .begin .utc {} [] .empty) rfl rfl rfl (by decide +kernel)

/-- The first caller is told of the reply, the second one of the abort. Where the server has no
address, a value that answers the request breaks it down. -/
theorem tells_once_of_two :
    let h := (begin .utc bank [] .empty).run 0 (beginMoves ++ abortMoves ++ closingMoves)
    (∃ e, h.toldOf 0 = [e] ∧ e ≠ balanceRequest.abortedEnding) ∧
      h.toldOf 1 = [balanceRequest.abortedEnding] ∧
      h.session.inflight = [] ∧ h.session.aborted = [] ∧
      (∃ o, unavailable.ending [] balanceRequest balanceDispatch = .outcome o) ∧
      ((begin .utc {} [] .empty).run 0 [.request balanceRequest, .launch 0]).session.tasks[0]? =
        some ⟨balanceRequest, .waiting homelessDispatch, false⟩ ∧
      Reply.ending [] balanceRequest homelessDispatch (.response ⟨200, [0x37]⟩) =
        .breakdown .noScheme := by
  intro h
  obtain ⟨hbegun, hstage₀, hopen, hstage₁, haborting, haborts₀, haborts₁, hordered, hall⟩ :=
    stages_of_two
  obtain ⟨hrequest, htold, honce, -, hclean, hending⟩ := tells_once .utc bank .empty 0 []
    (beginMoves ++ abortMoves ++ closingMoves)
    (by simp [beginMoves, abortMoves, closingMoves, Move.isAbandon])
  have hfirst : (h.toldOf 0).length = 1 := by
    refine honce beginMoves (abortMoves ++ closingMoves) rfl 0 (by rw [hbegun]; decide)
      (.receive 0 unavailable) (.inl ⟨_, rfl⟩) ?_
    rw [hstage₀]
    exact .cons_cons _ (.cons _ (.cons_cons _ (.cons _ (.cons_cons _ (.cons_cons _
      (List.nil_sublist _))))))
  have hsecond : (h.toldOf 1).length = 1 := by
    refine honce (beginMoves ++ abortMoves) closingMoves rfl 1 (by rw [hopen]; decide)
      (.interrupt 1) (.inr ⟨rfl, haborting⟩) ?_
    rw [hstage₁]
    exact .cons _ (.cons _ (.refl _))
  have htypes : TypeTable.IsGenerated [] := fun _ _ hfind => by cases hfind
  have hreplied := hending htypes balanceRequest balanceDispatch (.scalar rfl) unavailable
  have hhomeless := hending htypes balanceRequest homelessDispatch (.scalar rfl)
    (.response ⟨200, [0x37]⟩)
  obtain ⟨hinflight, haborted⟩ := hclean hordered hall
  refine ⟨?_, ?_, hinflight, haborted, hreplied.1.mpr (.inl (by decide)), tasks_homeless,
    hhomeless.2 _ rfl rfl⟩
  · rcases htold 0 with hnil | ⟨t, e, ht, he, hcause⟩
    · rw [hnil] at hfirst
      cases hfirst
    · have hr := hrequest [] balanceRequest _ rfl rfl
      rw [haborts₀] at hcause
      rw [show ((begin .utc bank [] .empty).run 0 []).session.tasks.length = 0 from rfl, ht] at hr
      exact ⟨e, he, Option.some.inj hr ▸ hcause.1⟩
  · rcases htold 1 with hnil | ⟨t, e, ht, he, hcause⟩
    · rw [hnil] at hsecond
      cases hsecond
    · have hr := hrequest [.request balanceRequest] balanceRequest _ rfl rfl
      rw [haborts₁] at hcause
      rw [show ((begin .utc bank [] .empty).run 0 [.request balanceRequest]).session.tasks.length = 1
        from rfl, ht] at hr
      rw [← Option.some.inj hr, ← show e = t.request.abortedEnding from hcause]
      exact he

end ApiSmith.History

import ApiSmith.Proofs.Bodies
import ApiSmith.Proofs.Refusals

/-!
# Statuses of answers

A caller expects to learn from an outcome what status its answer had: a value only comes with a status
of success, and every status but these and a refused authorization is a failure that carries it
(`Outcome.Suits`). A session looks at the status of an answer first, but takes only the statuses from
400 to 599 for failures. Under all others it looks at the body, and so a redirection, a note in advance
or a status beyond the known classes gives a value if the body has one, and the fault of the body if not.

Hence outcomes suit the status of their answers exactly if it is one of success or an error status,
whatever the body is and whatever type is expected (`outcome_suits_status_iff`).
-/

namespace ApiSmith

open Notices

def isSuccessStatus (status : Nat) : Bool := 200 ≤ status && status ≤ 299

/-- An outcome says of the status of its answer what callers are promised. -/
structure Outcome.Suits (status : Nat) (o : Outcome) : Prop where
  success : ∀ v, o = .success v → isSuccessStatus status = true
  refusal : status = unauthorizedStatus → o = .unauthorized unauthorizedStatus
  /-- Any other status is carried by a failure. -/
  failure : isSuccessStatus status = false → status ≠ unauthorizedStatus →
    ∃ body, o = .failure (.status status body)

def Outcome.IsOfBody (types : TypeTable) (t : DataType) (body : List UInt8) : Outcome → Prop
  | .success v => (readAnswer types t body).result = .ok v
  | .failure (.body f) => (readAnswer types t body).result = .error f
  | _ => False

variable {types : TypeTable} {t : DataType}

theorem isOfBody_bodyOutcome {body : List UInt8} {o : Outcome}
    (h : (bodyOutcome types t body).result = .ok o) : o.IsOfBody types t body := by
  unfold bodyOutcome at h
  simp only at h
  split at h <;> cases h <;> assumption

theorem Outcome.IsOfBody.eq_success {body : List UInt8} {o : Outcome}
    (h : o.IsOfBody types t body) {v : Value} (hv : (readAnswer types t body).result = .ok v) :
    o = .success v := by
  cases o with
  | success w => rw [Except.ok.inj (hv.symm.trans h)]
  | unauthorized status => exact h.elim
  | failure f =>
    cases f with
    | body f => cases hv.symm.trans h
    | _ => exact h.elim

/-! ## What an answer leads to -/

section

variable {answer : Response}

theorem result_outcome_of_refusal (h : answer.status = unauthorizedStatus) :
    (answer.outcome types t).result = .ok (.unauthorized unauthorizedStatus) := by
  simp [Response.outcome, h]

theorem result_outcome_of_error (h : isErrorStatus answer.status = true)
    (hne : answer.status ≠ unauthorizedStatus) :
    (answer.outcome types t).result = .ok (.failure (.status answer.status answer.text)) := by
  simp [Response.outcome, h, hne]

theorem outcome_of_other (h : isErrorStatus answer.status = false) :
    answer.outcome types t = bodyOutcome types t answer.body := by
  have hne : answer.status ≠ unauthorizedStatus := by
    intro heq
    rw [heq] at h
    cases h
  simp [Response.outcome, h, hne]

/-- The outcome of an answer suits its status if this is one of success or an error status, and only
then: what the body leads to says nothing of the status. -/
theorem suits_iff {o : Outcome} (h : (answer.outcome types t).result = .ok o) :
    o.Suits answer.status ↔
      isSuccessStatus answer.status = true ∨ isErrorStatus answer.status = true := by
  by_cases hrefused : answer.status = unauthorizedStatus
  · rw [result_outcome_of_refusal hrefused] at h
    cases h
    rw [hrefused]
    exact iff_of_true ⟨nofun, fun _ => rfl, fun _ hne => absurd rfl hne⟩ (.inr rfl)
  cases herror : isErrorStatus answer.status with
  | true =>
    rw [result_outcome_of_error herror hrefused] at h
    cases h
    exact iff_of_true ⟨nofun, fun heq => absurd heq hrefused, fun _ _ => ⟨_, rfl⟩⟩ (.inr rfl)
  | false =>
    rw [outcome_of_other herror] at h
    have hbody := isOfBody_bodyOutcome h
    simp only [Bool.false_eq_true, or_false]
    constructor
    · intro hsuits
      by_contra hother
      obtain ⟨body, rfl⟩ := hsuits.failure (Bool.eq_false_iff.mpr hother) hrefused
      exact hbody
    · intro hsuccess
      refine ⟨fun _ _ => hsuccess, fun heq => absurd heq hrefused, fun hother => ?_⟩
      rw [hsuccess] at hother
      cases hother

theorem result_of_ending {r : Request} {d : Dispatch} {o : Outcome}
    (h : Reply.ending types r d (.response answer) = .outcome o) :
    (answer.outcome types r.type).result = .ok o := by
  simp only [Reply.ending] at h
  split at h
  · cases h
  · split at h
    · cases h
      assumption
    · cases h

theorem ending_of_result {r : Request} {d : Dispatch} (hd : d.url.scheme ≠ []) {o : Outcome}
    (h : (answer.outcome types r.type).result = .ok o) :
    Reply.ending types r d (.response answer) = .outcome o := by
  simp only [Reply.ending, List.isEmpty_iff, hd, if_false, h]

end

namespace History

variable {depth : Nat}

/-- The caller of an answered request is told what the answer leads to, if nothing cancels the request
up to the moment when the answer was looked at, and the caller stays. -/
theorem told_of_answer {h : History} (hs : h.session.Sound) {id : Nat} {r : Request} {d : Dispatch}
    (ht : h.session.tasks[id]? = some ⟨r, .waiting d, false⟩) (untold : h.isTold id = false)
    {answer : Response} (kept : h.aborts depth (.receive id (.response answer)) = false)
    {after : List Move} (tells : after.all (!·.tells id) = true)
    (stays : after.any (·.abandons id) = false) :
    let last := (h.step depth (.receive id (.response answer))).run depth after
    (last.step depth (.resolve id)).told =
      last.told ++ [(some id, Reply.ending h.session.types r d (.response answer))] := by
  intro last
  have stands : (h.step depth (.receive id (.response answer))).Stands id r _ _ :=
    stands_of_reply hs ht untold (.response answer)
  rw [kept, if_neg Bool.false_ne_true] at stands
  have later : last.Stands id r (if after.any (·.abandons id) then .cancelled else
      Reply.ending h.session.types r d (.response answer)) false := stands.run tells
  rw [stays, if_neg Bool.false_ne_true] at later
  rw [later.told]
  have hne := Reply.ending_ne_cancelled h.session.types r d (.response answer)
  cases hending : Reply.ending h.session.types r d (.response answer) with
  | cancelled => exact absurd hending hne
  | _ => rfl

/-- Take any run in which the task of a request waits and nothing asked to cancel it. Let it get an
answer, let nothing cancel it while the answer is looked at, and let its caller stay.

* A refusal tells the caller that it is not authorized, and any other error status is told with its
  number and text.
* Under all other statuses the caller is told the value of the body or its fault.
* An answer has an outcome, if the type is one that generated code names.
* The outcome suits the status exactly if that is one of success or an error status.

An address without a scheme gets no answer that is looked at. -/
theorem outcome_suits_status_iff (zone : Time.Zone) (config : ClientConfig) (types : TypeTable)
    (center : Center Signal) (depth : Nat) (before : List Move) {id : Nat} {r : Request}
    {d : Dispatch}
    (ht : ((begin zone config types center).run depth before).session.tasks[id]? =
      some ⟨r, .waiting d, false⟩) (hd : d.url.scheme ≠ []) (answer : Response)
    (kept : ((begin zone config types center).run depth before).aborts depth
      (.receive id (.response answer)) = false) (after : List Move)
    (tells : after.all (!·.tells id) = true) (stays : after.any (·.abandons id) = false) :
    let asked := (begin zone config types center).run depth before
    let last := (asked.step depth (.receive id (.response answer))).run depth after
    ∃ e, (last.step depth (.resolve id)).told = last.told ++ [(some id, e)] ∧
      (answer.status = unauthorizedStatus → e = .outcome (.unauthorized unauthorizedStatus)) ∧
      (isErrorStatus answer.status = true → answer.status ≠ unauthorizedStatus →
        e = .outcome (.failure (.status answer.status answer.text))) ∧
      (isErrorStatus answer.status = false →
        ∀ o, e = .outcome o → o.IsOfBody types r.type answer.body) ∧
      (types.IsGenerated → r.type.Generated types → ∃ o, e = .outcome o) ∧
      ∀ o, e = .outcome o → (o.Suits answer.status ↔
        isSuccessStatus answer.status = true ∨ isErrorStatus answer.status = true) := by
  intro asked last
  have hs : asked.session.Sound := sound_run zone config types center before
  have htypes : asked.session.types = types := types_run depth (begin zone config types center) before
  have untold : asked.isTold id = false :=
    untold_of_open zone config types center before (Session.hasEnded_of_task ht)
  have htold := told_of_answer hs ht untold kept tells stays
  rw [htypes] at htold
  have judged : ∀ o, Reply.ending types r d (.response answer) = .outcome o →
      (answer.outcome types r.type).result = .ok o := fun o ho => result_of_ending ho
  refine ⟨_, htold, fun hrefused => ?_, fun herror hne => ?_, fun hother o ho => ?_,
    fun hgenerated hr => Reply.exists_ending hgenerated hr hd (.response answer),
    fun o ho => suits_iff (judged o ho)⟩
  · exact ending_of_result hd (result_outcome_of_refusal hrefused)
  · exact ending_of_result hd (result_outcome_of_error herror hne)
  · have hbody := judged o ho
    rw [outcome_of_other hother] at hbody
    exact isOfBody_bodyOutcome hbody

/-! ## A value that came with a redirection -/

def numberHistory : History :=
  (begin .utc { baseUrl := "https://bank.test" } [] .empty).run 0 [.request userRequest, .launch 0]

theorem tasks_numberHistory :
    numberHistory.session.tasks[0]? = some ⟨userRequest, .waiting userDispatch, false⟩ :=
  Session.launch_request (s := .begin .utc { baseUrl := "https://bank.test" } [] .empty)
    rfl rfl rfl (by decide +kernel)

/-- Nothing was modified, says the status 304, and the caller is told the value 7 of the body. -/
theorem outcome_suits_status_iff_of_unmodified :
    ∃ o, ((numberHistory.step 0 (.receive 0 (.response ⟨304, [0x37]⟩))).step 0 (.resolve 0)).told =
        [(some 0, .outcome o)] ∧ o = .success (.int 7) ∧ ¬ o.Suits 304 := by
  have kept : numberHistory.aborts 0 (.receive 0 (.response ⟨304, [0x37]⟩)) = false := by
    decide +kernel
  obtain ⟨e, htold, -, -, hbody, hout, hsuits⟩ := outcome_suits_status_iff .utc
    { baseUrl := "https://bank.test" } [] .empty 0 [.request userRequest, .launch 0]
    tasks_numberHistory (by decide) ⟨304, [0x37]⟩ kept [] rfl rfl
  obtain ⟨o, rfl⟩ := hout (fun _ _ hfind => nomatch hfind) (.scalar rfl)
  refine ⟨o, htold, ?_, ?_⟩
  · have data : DataType.int ≠ .text ∧ DataType.int ≠ .bytes := ⟨nofun, nofun⟩
    have hjson : jsonBody [0x37] = .ok (.int 7) := rfl
    have hread : (readAnswer [] .int [0x37]).result = .ok (.int 7) := by
      have hseven : Reads [] .int (.int 7) (.int 7) := (reads_plain rfl).mpr rfl
      rw [readAnswer_data data (by decide), hjson]
      show (decode [] .int (.int 7)).result.mapError AnswerFault.decode = _
      rw [show (decode [] .int (.int 7)).result = _ from hseven]
      rfl
    exact (hbody rfl o rfl).eq_success hread
  · rw [hsuits o rfl]
    decide

end History

end ApiSmith

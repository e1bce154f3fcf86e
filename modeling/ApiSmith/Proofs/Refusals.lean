import ApiSmith.Proofs.Runs

/-!
# Refused authorizations

An answer that refuses authorization is told to the observers in the middle of the last step of its
task. The task did not end yet at that moment, so an observer that aborts every request aborts this
one too, and its caller is told of a failure although the answer was a refusal
(`posts_refusal_once`). Nothing else that observers do reaches the task: they may fail, subscribe,
take subscriptions back and post again.

An answer to an address without a scheme breaks the task before anyone looks at its status, so it is
neither told nor posted.
-/

namespace ApiSmith.History

open Notices

variable {depth : Nat}

/-- What the caller of a refused request is told: that it is not authorized, unless an observer asked
for an abort in one of the calls or the caller went away before it was told. -/
def refusedEnding (r : Request) (calls : List (Call Signal)) (abandoned : Bool) : Ending :=
  if Session.aborts (callDeeds unauthorizedNotice calls) then
    .outcome (.failure (.aborted r.method r.path))
  else if abandoned then .cancelled
  else .outcome (.unauthorized unauthorizedStatus)

theorem told_refusedEnding (r : Request) (calls : List (Call Signal)) (abandoned : Bool) :
    Session.told r (Session.aborts (callDeeds unauthorizedNotice calls))
      (if abandoned then .cancelled
        else if Session.aborts (callDeeds unauthorizedNotice calls) then .cancelled
        else .outcome (.unauthorized unauthorizedStatus)) = refusedEnding r calls abandoned := by
  unfold refusedEnding
  cases Session.aborts (callDeeds unauthorizedNotice calls) <;> cases abandoned <;> rfl

/-- The last step of a task with a refusal posts once, and the task ends unauthorized unless an
observer asked for an abort. -/
theorem stands_of_refusal (depth : Nat) {h : History} (hs : h.session.Sound) {id : Nat} {r : Request}
    {d : Dispatch} (ht : h.session.tasks[id]? = some ⟨r, .waiting d, false⟩)
    (untold : h.isTold id = false) {a : Reply} (href : a.refuses d = true) :
    ∃ calls,
      calls.map Call.observer = h.session.center.registry.observers unauthorizedNotice ∧
      (h.step depth (.receive id a)).session.journal.events =
        h.session.journal.events ++
          [.posted unauthorizedNotice (.int unauthorizedStatus) calls] ∧
      (h.step depth (.receive id a)).Stands id r
        (if Session.aborts (callDeeds unauthorizedNotice calls) then .cancelled
          else .outcome (.unauthorized unauthorizedStatus))
        (Session.aborts (callDeeds unauthorizedNotice calls)) := by
  obtain ⟨s, same, hevents, hcenter, heq⟩ := Session.reply_of_refuses depth h.session r d href
  have hss := same.advances.sound hs
  have hts : s.tasks[id]? = some ⟨r, .waiting d, false⟩ := by rw [same.tasks, ht]
  obtain ⟨calls, hobs, hev, htask, hab⟩ :=
    hss.post_of_open hts rfl depth unauthorizedNotice (.int unauthorizedStatus)
  have hnot := hss.not_mem_aborted hts rfl rfl
  have hstep : (h.step depth (.receive id a)).session =
      (s.post depth unauthorizedNotice (.int unauthorizedStatus)).modifyTask id
        (·.finish (.outcome (.unauthorized unauthorizedStatus))) := by
    simp only [step, Session.receive, ht, Bool.false_eq_true, if_false, heq]
  refine ⟨calls, by rw [hobs, hcenter], by rw [hstep, ← hevents, ← hev]; rfl, ?_, ?_, untold⟩
  · rw [hstep, Session.getElem?_modifyTask, if_pos rfl, htask]
    simp [Task.finish]
  · rw [hstep, Bool.eq_iff_iff]
    rw [List.contains_iff_mem]
    exact hab.trans (or_iff_right hnot)

/-- Take any run in which the task of a request waits for its answer and nothing asked to cancel it,
the reply that it gets then, and any moves after that.

* If the reply is not a refusal that can be looked at, the moves of the task post nothing.
* If it is one, they post exactly one notice, to the observers that are subscribed at that moment;
  and the caller, whenever it is told, is told that it is not authorized, unless an observer asked
  to abort every request in one of the calls, or the caller went away before.
* An answer to an address without a scheme is never looked at. -/
theorem posts_refusal_once (zone : Time.Zone) (config : ClientConfig) (types : TypeTable)
    (center : Center Signal)
    (before : List Move) {id : Nat} {r : Request} {d : Dispatch}
    (ht : ((begin zone config types center).run depth before).session.tasks[id]? =
      some ⟨r, .waiting d, false⟩) (a : Reply) (after : List Move) :
    let asked := (begin zone config types center).run depth before
    let events := (begin zone config types center).eventsOf depth id (before ++ .receive id a :: after)
    let last := (asked.step depth (.receive id a)).run depth after
    let abandoned := after.any (·.abandons id)
    (a.refuses d = false → events = []) ∧
    (a.refuses d = true → ∃ calls,
      calls.map Call.observer = asked.session.center.registry.observers unauthorizedNotice ∧
      events = [.posted unauthorizedNotice (.int unauthorizedStatus) calls] ∧
      (after.all (!·.tells id) = true →
        (last.step depth (.resolve id)).told =
          last.told ++ [(some id, refusedEnding r calls abandoned)])) ∧
    (d.url.scheme = [] → ∀ answer, a = .response answer → after.all (!·.tells id) = true →
      (last.step depth (.resolve id)).told =
        last.told ++ [(some id, if abandoned then .cancelled else .breakdown .noScheme)]) := by
  intro asked events last abandoned
  have hs : asked.session.Sound := sound_run zone config types center before
  have hopen : asked.session.hasEnded id = false := Session.hasEnded_of_task ht
  have untold : asked.isTold id = false := untold_of_open zone config types center before hopen
  have hended : (asked.step depth (.receive id a)).session.hasEnded id = true :=
    Session.hasEnded_receive depth ht a
  have hevents : events = (asked.step depth (.receive id a)).session.journal.events.drop
      asked.session.journal.events.length := by
    simp only [events, eventsOf_append, eventsOf, eventsOf_of_open hopen, Move.task?, if_true,
      List.nil_append]
    rw [eventsOf_of_ended hended, List.append_nil]
  refine ⟨fun href => ?_, fun href => ?_, ?_⟩
  · rcases asked.events_step depth (m := .receive id a) rfl with
      heq | ⟨a', r', d', hm, ht', href'⟩
    · rw [hevents, heq, List.drop_length]
    · obtain ⟨-, rfl⟩ := Move.receive.inj hm
      rw [ht, Option.some.injEq, Task.mk.injEq, Phase.waiting.injEq] at ht'
      rw [← ht'.2.1, href] at href'
      cases href'
  · obtain ⟨calls, hobs, hev, hstands⟩ := stands_of_refusal depth hs ht untold href
    refine ⟨calls, hobs, by rw [hevents, hev, List.drop_left], fun tells => ?_⟩
    rw [(hstands.run tells).told, told_refusedEnding]
  · rintro hd answer rfl tells
    have htold : Session.told r false (if abandoned then .cancelled else .breakdown .noScheme) =
        if abandoned then .cancelled else .breakdown .noScheme := by
      cases abandoned <;> rfl
    rw [((stands_of_noScheme hs ht untold hd answer).run tells).told, htold]

/-! ## An observer that aborts -/

def userRequest : Request := ⟨"user/get", "GET", .null, .int, none⟩

def userDispatch : Dispatch :=
  ⟨"GET", ⟨"https".toList, [], "bank.test".toList, none, "/api/user/get".toList, none, none⟩,
    "Bearer ", "clientgen/0.1.0", none⟩

/-- An observer subscribes that aborts every request when it is told, and a request is handed to the
transport. -/
def signOutMoves : List Move :=
  [.act (.subscribe ⟨unauthorizedNotice, "sign out"⟩ "sign out" [.signal .abortAll] false),
    .request userRequest, .launch 0]

def signOutHistory : History :=
  (begin .utc { baseUrl := "https://bank.test" } [] .empty).run 0 signOutMoves

theorem tasks_signOutHistory :
    signOutHistory.session.tasks[0]? = some ⟨userRequest, .waiting userDispatch, false⟩ := by
  let s := ((begin .utc { baseUrl := "https://bank.test" } [] .empty).run 0
    (signOutMoves.take 1)).session
  exact Session.launch_request (s := s) rfl rfl rfl (by decide +kernel)

/-- The request is refused while the observer listens, and its caller is told of a failure. -/
theorem posts_refusal_once_to_aborter :
    ((signOutHistory.step 0 (.receive 0 (.response ⟨401, []⟩))).step 0 (.resolve 0)).told =
      [(some 0, .outcome (.failure (.aborted "GET" "user/get")))] := by
  obtain ⟨-, hrefused, -⟩ := posts_refusal_once .utc { baseUrl := "https://bank.test" } [] .empty
    signOutMoves tasks_signOutHistory (.response ⟨401, []⟩) []
  obtain ⟨calls, -, hev, htold⟩ := hrefused (by decide)
  have habort : Session.aborts (eventDeeds ((begin .utc { baseUrl := "https://bank.test" } []
      .empty).eventsOf 0 0 (signOutMoves ++ [.receive 0 (.response ⟨401, []⟩)]))) = true := by
    decide +kernel
  rw [hev] at habort
  simp only [eventDeeds, Event.deeds, List.append_nil] at habort
  refine (htold rfl).trans ?_
  rw [refusedEnding, if_pos habort]
  rfl

end ApiSmith.History

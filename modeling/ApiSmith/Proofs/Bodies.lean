import ApiSmith.Proofs.Endings
import ApiSmith.Proofs.Inhabitants
import ApiSmith.Proofs.JsonData

/-!
# Bodies of answers

Every body of octets has a value of the expected type, or one of the faults that a failure can tell:
it is empty, it is no quoted text, or it is no JSON data of the type (`body_answers`). There is no
third way. A text and raw octets are not data, so they are looked at on their own; for all other
types the body is read as JSON first, and what is read is JSON data.

So whatever the server answers, the session has an outcome for the caller, and a value in it is one
of the expected type. The caller is told of it exactly if the address of the request has a scheme: an
answer to an address without one breaks the request down (`answers_tell_outcomes`).
-/

namespace ApiSmith

open Notices

/-- The faults that a body can have as a type. -/
inductive AnswerFault.IsOf (t : DataType) (body : List UInt8) : AnswerFault → Prop where
  | empty (empty : body = []) : IsOf t body .empty
  | notUtf8 (text : t = .text) : IsOf t body .notUtf8
  | notQuoted (text : t = .text) (start : String) : IsOf t body (.notQuoted start)
  | notJson (data : t ≠ .text ∧ t ≠ .bytes) : IsOf t body .notJson
  | mismatch (data : t ≠ .text ∧ t ≠ .bytes) (m : Mismatch) : IsOf t body (.decode (.mismatch m))

variable {table : TypeTable}

theorem textBody_answers (body : List UInt8) :
    (∃ s, textBody body = .ok (.text s)) ∨
      textBody body = .error .notUtf8 ∨ ∃ start, textBody body = .error (.notQuoted start) := by
  unfold textBody unquoted
  split
  · split
    · exact .inl ⟨_, rfl⟩
    · exact .inr (.inr ⟨_, rfl⟩)
  · exact .inr (.inl rfl)

theorem readAnswer_data {t : DataType} (data : t ≠ .text ∧ t ≠ .bytes) {body : List UInt8}
    (hbody : body ≠ []) :
    (readAnswer table t body).result =
      (jsonBody body).bind fun d => (decode table t d).result.mapError .decode := by
  have hempty : body.isEmpty = false := by simpa using hbody
  rw [readAnswer, hempty, if_neg Bool.false_ne_true, Logged.result_bind, Logged.result_ofExcept]
  · exact data.2
  · exact data.1

/-- A body has a value of the type, or a fault that it can have as the type. -/
theorem body_answers (htable : table.IsGenerated) (fitting : table.HasFittingFallbacks)
    {t : DataType} (ht : t.Generated table) (body : List UInt8) :
    (∃ v, (readAnswer table t body).result = .ok v ∧ Inhabits table t v) ∨
      ∃ f, (readAnswer table t body).result = .error f ∧ f.IsOf t body := by
  by_cases hbody : body = []
  · subst hbody
    exact .inr ⟨.empty, rfl, .empty rfl⟩
  have hempty : body.isEmpty = false := by simpa using hbody
  by_cases htext : t = .text
  · subst htext
    have hread : (readAnswer table .text body).result = textBody body := by
      rw [readAnswer, hempty]
      rfl
    rw [hread]
    rcases textBody_answers body with ⟨s, hs⟩ | hutf | ⟨start, hstart⟩
    · exact .inl ⟨_, hs, .text s⟩
    · exact .inr ⟨_, hutf, .notUtf8 rfl⟩
    · exact .inr ⟨_, hstart, .notQuoted rfl start⟩
  by_cases hbytes : t = .bytes
  · subst hbytes
    refine .inl ⟨.bytes body, ?_, .bytes body⟩
    rw [readAnswer, hempty]
    rfl
  rw [readAnswer_data ⟨htext, hbytes⟩ hbody]
  cases hjson : jsonBody body with
  | error f =>
    obtain rfl := error_of_jsonBody hjson
    exact .inr ⟨.notJson, rfl, .notJson ⟨htext, hbytes⟩⟩
  | ok d =>
    have json := isJson_of_jsonBody hjson
    show (∃ v, (decode table t d).result.mapError AnswerFault.decode = .ok v ∧ _) ∨
      ∃ f, (decode table t d).result.mapError AnswerFault.decode = .error f ∧ _
    cases hread : (decode table t d).result with
    | ok v => exact .inl ⟨v, rfl, inhabits_of_reads htable fitting json ht hread⟩
    | error f =>
      obtain ⟨m, rfl⟩ := isTame_decode htable d ht f hread
      exact .inr ⟨_, rfl, .mismatch ⟨htext, hbytes⟩ m⟩

/-! ## Outcomes -/

/-- The value of an outcome, if it has one, is of a type. -/
def Outcome.IsOf (table : TypeTable) (t : DataType) (o : Outcome) : Prop :=
  ∀ v, o = .success v → Inhabits table t v

theorem isOf_bodyOutcome (htable : table.IsGenerated) (fitting : table.HasFittingFallbacks)
    {t : DataType} (ht : t.Generated table) {body : List UInt8} {o : Outcome}
    (h : (bodyOutcome table t body).result = .ok o) : o.IsOf table t := by
  rintro v rfl
  rcases body_answers htable fitting ht body with ⟨w, hw, inhabits⟩ | ⟨f, hf, fault⟩
  · simp only [bodyOutcome, hw] at h
    cases h
    exact inhabits
  · cases fault <;> simp only [bodyOutcome, hf] at h <;> cases h

theorem Response.isOf_outcome (htable : table.IsGenerated) (fitting : table.HasFittingFallbacks)
    {t : DataType} (ht : t.Generated table) {answer : Response} {o : Outcome}
    (h : (answer.outcome table t).result = .ok o) : o.IsOf table t := by
  unfold Response.outcome at h
  split at h
  · cases h
    exact nofun
  · split at h
    · cases h
      exact nofun
    · exact isOf_bodyOutcome htable fitting ht h

theorem Session.conclude_answers (htable : table.IsGenerated)
    (fitting : table.HasFittingFallbacks) {t : DataType} (ht : t.Generated table) (depth : Nat)
    {s : Session} (hs : s.types = table) {r : Request} (hr : r.type = t) (answer : Response) :
    ∃ o, (s.conclude depth r answer).2 = .outcome o ∧ o.IsOf table t := by
  subst hs hr
  obtain ⟨o, ho⟩ := answer.exists_outcome htable ht
  refine ⟨o, ?_, Response.isOf_outcome htable fitting ht ho⟩
  simp only [Session.conclude, ho]
  split <;> rfl

namespace History

/-- The last step of a task with an answer leaves an outcome for its caller: the one of the answer,
or that of an abort by an observer who was told of it. -/
theorem stands_of_answer (depth : Nat) (htable : table.IsGenerated) (fitting : table.HasFittingFallbacks)
    {h : History} (hs : h.session.Sound) (htypes : h.session.types = table) {id : Nat}
    {r : Request} {d : Dispatch} (ht : r.type.Generated table)
    (htask : h.session.tasks[id]? = some ⟨r, .waiting d, false⟩) (untold : h.isTold id = false)
    (hd : d.url.scheme ≠ []) (answer : Response) :
    ∃ e aborted o, (h.step depth (.receive id (.response answer))).Stands id r e aborted ∧
      Session.told r aborted e = .outcome o ∧ o.IsOf table r.type := by
  have stands : (h.step depth (.receive id (.response answer))).Stands id r _ _ :=
    stands_of_reply hs htask untold (.response answer)
  cases haborts : h.aborts depth (.receive id (.response answer)) with
  | true =>
    rw [haborts, if_pos rfl] at stands
    exact ⟨_, true, .failure (.aborted r.method r.path), stands, rfl, nofun⟩
  | false =>
    obtain ⟨o, ho⟩ := answer.exists_outcome htable ht
    have hending : Reply.ending h.session.types r d (.response answer) = .outcome o := by
      simp only [Reply.ending, htypes, List.isEmpty_iff, hd, if_false, ho]
    rw [haborts, if_neg Bool.false_ne_true, hending] at stands
    exact ⟨_, false, o, stands, rfl, Response.isOf_outcome htable fitting ht ho⟩

/-- Take a table in which every fallback of a field has the field's type, and a type that generated
code names.

* A body of octets has a value of the type, or one of the faults that it can have as the type.
* An answer to a request with the type that is looked at leads to an outcome, and a value in it is
  one of the type.
* Take any run in which the task of such a request waits and nothing asked to cancel it. If it gets an
  answer, and its caller does not go away after that, then its caller is told an outcome when it is
  told, if the address has a scheme. If it has none, the request breaks down. -/
theorem answers_tell_outcomes (table : TypeTable) (htable : table.IsGenerated)
    (fitting : table.HasFittingFallbacks) {t : DataType} (ht : t.Generated table) :
    (∀ body, (∃ v, (readAnswer table t body).result = .ok v ∧ Inhabits table t v) ∨
      ∃ f, (readAnswer table t body).result = .error f ∧ f.IsOf t body) ∧
    (∀ depth (s : Session) (r : Request) answer, s.types = table → r.type = t →
      ∃ o, (s.conclude depth r answer).2 = .outcome o ∧ o.IsOf table t) ∧
    ∀ zone config center depth before id (r : Request) (d : Dispatch),
      let asked := (begin zone config table center).run depth before
      asked.session.tasks[id]? = some ⟨r, .waiting d, false⟩ → r.type = t →
        ∀ answer after, after.all (!·.tells id) = true → after.any (·.abandons id) = false →
          let last := (asked.step depth (.receive id (.response answer))).run depth after
          ∃ e, (last.step depth (.resolve id)).told = last.told ++ [(some id, e)] ∧
            if d.url.scheme = [] then e = .breakdown .noScheme
            else ∃ o, e = .outcome o ∧ o.IsOf table t := by
  refine ⟨fun body => body_answers htable fitting ht body,
    fun depth s r answer hs hr => s.conclude_answers htable fitting ht depth hs hr answer, ?_⟩
  intro zone config center depth before id r d asked htask hr answer after tells stays last
  subst hr
  have hs : asked.session.Sound := sound_run zone config table center before
  have htypes : asked.session.types = table := types_run depth (begin zone config table center) before
  have untold : asked.isTold id = false :=
    untold_of_open zone config table center before (Session.hasEnded_of_task htask)
  have later {e : Ending} {aborted : Bool}
      (stands : (asked.step depth (.receive id (.response answer))).Stands id r e aborted) :
      (last.step depth (.resolve id)).told =
        last.told ++ [(some id, Session.told r aborted e)] := by
    have hlast : last.Stands id r (if after.any (·.abandons id) then .cancelled else e) aborted :=
      stands.run tells
    rw [stays, if_neg Bool.false_ne_true] at hlast
    exact hlast.told
  by_cases hd : d.url.scheme = []
  · exact ⟨_, later (stands_of_noScheme hs htask untold hd answer), by rw [if_pos hd]; rfl⟩
  · obtain ⟨e, aborted, o, stands, htold, ho⟩ :=
      stands_of_answer depth htable fitting hs htypes ht htask untold hd answer
    exact ⟨_, later stands, by rw [if_neg hd]; exact ⟨o, htold, ho⟩⟩

/-! ## The answer with an account -/

def accountRequest : Request := ⟨"account", "GET", .null, .named "Account", none⟩

def accountDispatch : Dispatch :=
  ⟨"GET", ⟨"https".toList, [], "bank.test".toList, none, "/api/account".toList, none, none⟩,
    "Bearer ", "clientgen/0.1.0", none⟩

/-- The octets of an object with the number 5 under the key of the balance. -/
def accountBody : List UInt8 := [0x7b, 0x22, 0x62, 0x22, 0x3a, 0x35, 0x7d]

theorem read_accountBody :
    (readAnswer accountTable (.named "Account") accountBody).result =
      .ok (.model "Account" [("balance", "b", .decimal (.finite false 5 0)), ("opened", "o", .null),
        ("parent", "p", .null)]) := by
  have hjson : jsonBody accountBody = .ok (.map [(.text "b", .int 5)]) := rfl
  have hread : Reads accountTable (.named "Account") (.map [(.text "b", .int 5)])
      (.model "Account" [("balance", "b", .decimal (.finite false 5 0)), ("opened", "o", .null),
        ("parent", "p", .null)]) :=
    reads_account rfl (reads_decimal.mpr ⟨['5'], _, rfl, rfl, rfl⟩)
  have data : DataType.named "Account" ≠ .text ∧ DataType.named "Account" ≠ .bytes :=
    ⟨nofun, nofun⟩
  rw [readAnswer_data data (by decide), hjson]
  show (decode _ _ _).result.mapError AnswerFault.decode = _
  rw [show (decode _ _ _).result = _ from hread]
  rfl

def accountHistory (baseUrl : String) : History :=
  (begin .utc { baseUrl := baseUrl } accountTable .empty).run 0 [.request accountRequest, .launch 0]

theorem tasks_accountHistory :
    (accountHistory "https://bank.test").session.tasks[0]? =
      some ⟨accountRequest, .waiting accountDispatch, false⟩ :=
  Session.launch_request (s := .begin .utc { baseUrl := "https://bank.test" } accountTable .empty)
    rfl rfl rfl (by decide +kernel)

theorem tasks_accountHistory_homeless :
    (accountHistory "").session.tasks[0]? = some ⟨accountRequest, .waiting { accountDispatch with
      url := ⟨[], [], [], none, "/api/account".toList, none, none⟩ }, false⟩ :=
  Session.launch_request (s := .begin .utc { baseUrl := "" } accountTable .empty)
    rfl rfl rfl (by decide +kernel)

/-- The body of the account has a value of its type, and its caller is told of an outcome. Without
an address of the server, the request with the same answer breaks down. -/
theorem answers_tell_outcomes_of_account :
    (∃ v, (readAnswer accountTable (.named "Account") accountBody).result = .ok v ∧
      Inhabits accountTable (.named "Account") v) ∧
    (∃ o, (((accountHistory "https://bank.test").step 0
        (.receive 0 (.response ⟨200, accountBody⟩))).step 0 (.resolve 0)).told =
          [(some 0, .outcome o)] ∧ o.IsOf accountTable (.named "Account")) ∧
    (((accountHistory "").step 0 (.receive 0 (.response ⟨200, accountBody⟩))).step 0
      (.resolve 0)).told = [(some 0, .breakdown .noScheme)] := by
  obtain ⟨hbody, -, htold⟩ := answers_tell_outcomes accountTable isGenerated_accountTable
    fitting_accountTable (t := .named "Account") (.named rfl)
  refine ⟨?_, ?_, ?_⟩
  · rcases hbody accountBody with hvalue | ⟨f, hf, -⟩
    · exact hvalue
    · rw [read_accountBody] at hf
      cases hf
  · obtain ⟨e, he, ho⟩ := htold .utc { baseUrl := "https://bank.test" } .empty 0
      [.request accountRequest, .launch 0] 0 accountRequest accountDispatch tasks_accountHistory rfl
      ⟨200, accountBody⟩ [] rfl rfl
    rw [if_neg (by decide)] at ho
    obtain ⟨o, rfl, ho⟩ := ho
    exact ⟨o, he, ho⟩
  · obtain ⟨e, he, hbroken⟩ := htold .utc { baseUrl := "" } .empty 0
      [.request accountRequest, .launch 0] 0 accountRequest _ tasks_accountHistory_homeless rfl
      ⟨200, accountBody⟩ [] rfl rfl
    rw [if_pos rfl] at hbroken
    rwa [hbroken] at he

end History

end ApiSmith

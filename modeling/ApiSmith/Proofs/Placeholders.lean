import Mathlib.Data.Bool.AllAny
import Mathlib.Data.List.Nodup
import ApiSmith.Proofs.Captures
import ApiSmith.Proofs.Cutting
import ApiSmith.Text.FormattedQuoted

/-!
# Placeholders of paths

A placeholder names one path parameter, by the whole name or by its last part. No two parameters can
be meant: those that a placeholder names have one last part, hence one argument name, and arguments
have distinct names (`filter_answers_cases`). So the table in which the argument is looked up has
one entry that matters, whichever entry comes last. The URL is read as a literal with fields, part
by part, and each field is evaluated to the argument of its own parameter (`placeholders_evaluate`).
-/

namespace ApiSmith

open Text Naming
open Text.FormattedQuoted (opening closing)

namespace PathPart

def fill (f : String → List Char) : PathPart → List Char
  | .plain c => [c]
  | .placeholder name => f (String.ofList name)

def filled (f : String → List Char) (path : List Char) : List Char := (parts path).flatMap (fill f)

def field (name : String) : List Char := (placeholder name.toList).text

theorem mem_placeholders {path : List Char} {x : String} :
    x ∈ placeholders path ↔ placeholder x.toList ∈ parts path := by
  rw [placeholders, List.mem_filterMap]
  constructor
  · rintro ⟨part, hpart, hx⟩
    cases part with
    | plain c => cases hx
    | placeholder name =>
      cases hx
      rwa [String.toList_ofList]
  · exact fun h => ⟨_, h, by simp⟩

def plainChars (path : List Char) : List Char :=
  (parts path).filterMap fun
    | .plain c => some c
    | .placeholder _ => none

theorem mem_plainChars {path : List Char} {c : Char} :
    c ∈ plainChars path ↔ plain c ∈ parts path := by
  rw [plainChars, List.mem_filterMap]
  constructor
  · rintro ⟨part, hpart, hc⟩
    cases part with
    | plain d =>
      cases hc
      exact hpart
    | placeholder name => cases hc
  · exact fun h => ⟨_, h, rfl⟩

theorem mem_of_plain_mem_parts {path : List Char} {c : Char} (h : plain c ∈ parts path) :
    c ∈ path := by
  rw [← text_parts path]
  exact List.mem_flatMap.mpr ⟨_, h, List.mem_singleton_self c⟩

end PathPart

open PathPart

/-! ## The parameter of a placeholder -/

/-- Whether a parameter is a path parameter that a placeholder names. -/
def Parameter.answers (x : String) (q : Parameter) : Bool :=
  decide (q.placement = .path) && (q.name == x || q.key == x)

section

variable {params : List Parameter} {q : Parameter} {x : String}

theorem afterLast_afterLast (c : Char) (cs : List Char) :
    afterLast c (afterLast c cs) = afterLast c cs := by
  have hout : c ∉ afterLast c cs := by
    unfold afterLast
    cases h : afterLast? c cs with
    | none => exact afterLast?_eq_none.mp h
    | some tail => exact (afterLast?_eq_some.mp h).2
  conv_lhs => rw [afterLast, afterLast?_eq_none.mpr hout]
  rfl

theorem Parameter.AreNamed.key_of_answers (h : AreNamed params) (hq : q ∈ params)
    (hx : q.answers x = true) : q.key = String.ofList (afterLast '.' x.toList) := by
  simp only [answers, Bool.and_eq_true, Bool.or_eq_true, beq_iff_eq] at hx
  have hkey := h.keys q hq
  rcases hx.2 with rfl | rfl
  · exact hkey
  · rw [hkey, String.toList_ofList, afterLast_afterLast]

theorem Parameter.AreNamed.identifier (h : AreNamed params) (hq : q ∈ params) :
    q.identifier = .text (nameOf reservedArguments q.key) :=
  h.arguments.names (q.key, q.identifier) (List.mem_map.mpr ⟨q, hq, rfl⟩)

theorem Parameter.AreNamed.distinct (h : AreNamed params) : (params.map (·.identifier)).Nodup := by
  have hdistinct := h.arguments.distinct
  rwa [keyedArguments, List.map_map] at hdistinct

/-- A placeholder names at most one parameter. -/
theorem filter_answers_cases (h : Parameter.AreNamed params) (x : String) :
    params.filter (·.answers x) = [] ∨ ∃ q, params.filter (·.answers x) = [q] := by
  have hdistinct : ((params.filter (·.answers x)).map (·.identifier)).Nodup :=
    h.distinct.sublist (List.filter_sublist.map _)
  have hsame : ∀ q ∈ params.filter (·.answers x), q.identifier =
      .text (nameOf Parameter.reservedArguments (String.ofList (afterLast '.' x.toList))) := by
    intro q hq
    obtain ⟨hmem, hx⟩ := List.mem_filter.mp hq
    rw [h.identifier hmem, h.key_of_answers hmem hx]
  match hfilter : params.filter (·.answers x) with
  | [] => exact .inl hfilter
  | [q] => exact .inr ⟨q, hfilter⟩
  | q :: r :: rest =>
    rw [hfilter] at hdistinct hsame
    have heq : q.identifier = r.identifier := by
      rw [hsame q List.mem_cons_self, hsame r (List.mem_cons_of_mem _ List.mem_cons_self)]
    rw [List.map_cons, List.map_cons, heq] at hdistinct
    exact absurd List.mem_cons_self (List.nodup_cons.mp hdistinct).1

/-- The argument for a placeholder after one parameter more. -/
def argumentStep (x : String) (found : Option Value) (q : Parameter) : Option Value :=
  if q.placement ≠ .path then found
  else if q.name = x then some q.identifier
  else if q.key = x then found.or (some q.identifier)
  else found

theorem argumentStep_of_not (hx : q.answers x = false) (found : Option Value) :
    argumentStep x found q = found := by
  by_cases hpath : q.placement = .path
  · obtain ⟨hname, hkey⟩ : q.name ≠ x ∧ q.key ≠ x := by
      simpa [Parameter.answers, hpath] using hx
    rw [argumentStep, if_neg (not_not.mpr hpath), if_neg hname, if_neg hkey]
  · rw [argumentStep, if_pos hpath]

theorem argumentStep_none (hx : q.answers x = true) :
    argumentStep x none q = some q.identifier := by
  simp only [Parameter.answers, Bool.and_eq_true, decide_eq_true_eq, Bool.or_eq_true,
    beq_iff_eq] at hx
  obtain ⟨hpath, hname⟩ := hx
  rw [argumentStep, if_neg (not_not.mpr hpath)]
  split
  · rfl
  · next hne => rw [if_pos (hname.resolve_left hne), Option.none_or]

theorem foldl_argumentStep_of_not (h : params.filter (·.answers x) = []) (found : Option Value) :
    params.foldl (argumentStep x) found = found := by
  induction params generalizing found with
  | nil => rfl
  | cons q rest ih =>
    have hall := List.filter_eq_nil_iff.mp h
    have hq : q.answers x = false := Bool.eq_false_iff.mpr (hall q List.mem_cons_self)
    rw [List.foldl_cons, argumentStep_of_not hq]
    exact ih (List.filter_eq_nil_iff.mpr fun r hr => hall r (List.mem_cons_of_mem _ hr)) found

theorem argumentFor_of_none (h : params.filter (·.answers x) = []) : argumentFor x params = none :=
  foldl_argumentStep_of_not h none

theorem argumentFor_of_one (h : params.filter (·.answers x) = [q]) :
    argumentFor x params = some q.identifier := by
  show params.foldl (argumentStep x) none = some q.identifier
  induction params with
  | nil => cases h
  | cons r rest ih =>
    rw [List.foldl_cons]
    cases hr : r.answers x with
    | false =>
      rw [List.filter_cons_of_neg (by simp [hr])] at h
      rw [argumentStep_of_not hr]
      exact ih h
    | true =>
      rw [List.filter_cons_of_pos hr] at h
      obtain ⟨rfl, hrest⟩ := List.cons.inj h
      rw [argumentStep_none hr]
      exact foldl_argumentStep_of_not hrest _

end

/-! ## The URL -/

section

variable {params : List Parameter} (location : String) {own : String → Parameter}
  {parts : List PathPart}

/-- The URL has the argument of its own parameter in place of each placeholder. -/
theorem result_urlText (h : Parameter.AreNamed params)
    (named : ∀ n, placeholder n ∈ parts →
      params.filter (·.answers (String.ofList n)) = [own (String.ofList n)]) :
    (urlText params location parts).result =
      .ok (parts.flatMap (fill fun x => field (own x).identifier.display)) := by
  induction parts with
  | nil => rfl
  | cons part rest ih =>
    have hrest := ih fun n hn => named n (List.mem_cons_of_mem _ hn)
    cases part with
    | plain c =>
      rw [urlText, Logged.result_bind_of_ok hrest]
      rfl
    | placeholder n =>
      have hone := named n List.mem_cons_self
      have hmem : own (String.ofList n) ∈ params :=
        List.mem_of_mem_filter (by rw [hone]; exact List.mem_cons_self)
      simp only [urlText, argumentFor_of_one hone, h.identifier hmem, Value.text?,
        Compile.shaped_some, pure_bind, Logged.result_bind_of_ok hrest, List.flatMap_cons, fill,
        Value.display_text]
      rfl

theorem urlText_defect (h : Parameter.AreNamed params) {n : List Char}
    (hn : placeholder n ∈ parts) (none : params.filter (·.answers (String.ofList n)) = []) :
    ∃ x, (urlText params location parts).result =
      .error (.defect ⟨.unmatchedPlaceholder x, location⟩) := by
  induction parts with
  | nil => cases hn
  | cons part rest ih =>
    rcases List.mem_cons.mp hn with rfl | hn
    · simp only [urlText, argumentFor_of_none none]
      exact ⟨_, rfl⟩
    · obtain ⟨x, hx⟩ := ih hn
      cases part with
      | plain c => exact ⟨x, by rw [urlText, Logged.result_bind_of_error hx]⟩
      | placeholder m =>
        rcases filter_answers_cases h (String.ofList m) with hnone | ⟨q, hone⟩
        · simp only [urlText, argumentFor_of_none hnone]
          exact ⟨_, rfl⟩
        · have hmem : q ∈ params := List.mem_of_mem_filter (by rw [hone]; exact List.mem_cons_self)
          refine ⟨x, ?_⟩
          simp only [urlText, argumentFor_of_one hone, h.identifier hmem, Value.text?,
            Compile.shaped_some, pure_bind]
          exact Logged.result_bind_of_error hx

end

/-! ## Operations -/

/-- The parameters of an operation compile: what comes before them does, its response for one. -/
structure Operation.CompilesParameters (p : Profile) (shared operation : Value)
    (path method : String) (params : List Parameter) : Prop where
  run : ∃ root schema part entries,
    Operation.pathRoot? p = some root ∧
    Response.schema? operation = some schema ∧ schema.isNull = false ∧
    (∃ response, (wireType p schema ⟨.text (Naming.methodName root (lowerString method) path),
      .text "response", place (.text path) (lowerString method) ++ ".responses.200"⟩).result =
        .ok response) ∧
    operation.part? "parameters" = some part ∧ part.elementsOrNone? = some entries ∧
    (Parameter.compileAll p shared (Naming.methodName root (lowerString method) path)
      (place (.text path) (lowerString method)) [] entries).result = .ok params

section

variable {p : Profile} {shared operation path : Value} {method : String} {op : Operation}

theorem comment_ne_defect (p : Profile) (text : Value) (d : Defect) :
    (Model.comment p text).result ≠ .error (.defect d) := by
  unfold Model.comment
  split <;> nofun

theorem Operation.url_of_compile
    (h : (Operation.compile p shared path method operation).result = .ok op) :
    path = .text op.path ∧
      CompilesParameters p shared operation op.path method op.parameters ∧
      (ApiSmith.urlText op.parameters (place path (lowerString method))
        (parts op.path.toList)).result = .ok op.urlTemplate.toList := by
  have hsteps := steps_of_compile h
  obtain ⟨root, hroot, hname, -⟩ := hsteps.named
  obtain ⟨schema, hschema, hnull, hresponse⟩ := hsteps.response
  obtain ⟨part, entries, hpart, hentries, hparams⟩ := hsteps.parameters
  have hurl := hsteps.url
  have htemplate := hsteps.template
  subst htemplate
  rw [hname, hsteps.verb] at hresponse hparams
  rw [hsteps.verb] at hurl
  exact ⟨rfl, ⟨⟨root, schema, part, entries, hroot, hschema, hnull, ⟨op.response, hresponse⟩, hpart,
    hentries, hparams⟩⟩, hurl⟩

theorem Operation.CompilesParameters.defect_iff {path : String} {params : List Parameter}
    (h : CompilesParameters p shared operation path method params) :
    (∃ d, (Operation.compile p shared (.text path) method operation).result =
        .error (.defect d)) ↔
      ∃ d, (ApiSmith.urlText params (place (.text path) (lowerString method))
        (parts path.toList)).result = .error (.defect d) := by
  obtain ⟨root, schema, part, entries, hroot, hschema, hnull, ⟨response, hresponse⟩, hpart,
    hentries, hparams⟩ := h.run
  unfold Operation.compile
  simp only [Value.text?, hroot, hschema, hpart, hentries, Compile.shaped_some, pure_bind, hnull,
    Bool.false_eq_true, if_false]
  rw [Logged.result_bind_of_ok hresponse, Logged.result_bind_of_ok hparams]
  cases hurl : (ApiSmith.urlText params (place (.text path) (lowerString method))
      (parts path.toList)).result with
  | error e =>
    rw [Logged.result_bind_of_error hurl]
    exact exists_congr fun d => by simp
  | ok url =>
    rw [Logged.result_bind_of_ok hurl]
    refine iff_of_false ?_ (by simp)
    rintro ⟨d, hd⟩
    cases hsummary : operation.part? "summary" with
    | none =>
      rw [hsummary] at hd
      cases hd
    | some text =>
      rw [hsummary, Compile.shaped_some, pure_bind] at hd
      cases hcomment : (Model.comment p text).result with
      | error e =>
        rw [Logged.result_bind_of_error hcomment] at hd
        exact comment_ne_defect p text d (hcomment.trans (by simpa using hd))
      | ok summary =>
        rw [Logged.result_bind_of_ok hcomment] at hd
        cases hd

theorem Operation.CompilesParameters.areNamed (preset : p ∈ Profile.presets) {path : String}
    {params : List Parameter} (h : CompilesParameters p shared operation path method params) :
    Parameter.AreNamed params := by
  obtain ⟨root, schema, part, entries, -, -, -, -, -, -, hparams⟩ := h.run
  exact Parameter.areNamed_of_compileAll preset ⟨List.forall_mem_nil _, areNames_nil⟩ hparams

end

/-! ## Evaluating the URL -/

/-- The texts that the names of arguments are bound to, given one for each parameter. -/
def boundTo (params : List Parameter) (args : Parameter → String) (name : String) :
    Option String :=
  (params.find? fun q => q.identifier.isText name).map args

section

variable {params : List Parameter} {q : Parameter} {args : Parameter → String}

theorem boundTo_identifier (h : Parameter.AreNamed params) (hq : q ∈ params) {name : String}
    (hname : q.identifier = .text name) : boundTo params args name = some (args q) := by
  have hself : q.identifier.isText name = true := by rw [hname, Value.isText_iff]
  cases hfind : params.find? fun q => q.identifier.isText name with
  | none => exact absurd hself (List.find?_eq_none.mp hfind q hq)
  | some r =>
    have hfound := List.find?_some hfind
    have hr : r.identifier = .text name := Value.isText_iff.mp hfound
    have heq : r = q := List.inj_on_of_nodup_map h.distinct (List.mem_of_find?_eq_some hfind) hq
      (hr.trans hname.symm)
    rw [boundTo, hfind, heq]
    rfl

theorem isReserved_nameOf (key : String) :
    isReserved (nameOf Parameter.reservedArguments key) = false := by
  have hguarded : ∀ name ∈ guardedNames Parameter.reservedArguments,
      isReserved (guarded name) = false := by
    decide +kernel
  unfold nameOf
  split
  · next hguard => exact hguarded _ hguard
  · next hguard =>
    rw [Bool.eq_false_iff]
    exact fun hreserved => hguard (List.mem_append_left _ (List.contains_iff_mem.mp hreserved))

end

section

variable {bound : String → Option String} {ident value : String → String}

theorem inside_filled {parts : List PathPart}
    (plains : ∀ c, plain c ∈ parts → PlainQuoted.isPlain c = true ∧ c ≠ opening ∧ c ≠ closing)
    (fields : ∀ n, placeholder n ∈ parts →
      FormattedQuoted.isArgument (ident (String.ofList n)) = true ∧
        bound (ident (String.ofList n)) = some (value (String.ofList n)))
    (rest : List Char) :
    FormattedQuoted.inside bound .text
        (parts.flatMap (fill fun x => field (ident x)) ++ '"' :: rest) =
      some ((parts.flatMap (fill fun x => (value x).toList)).map Char.toNat, rest) := by
  induction parts with
  | nil => rfl
  | cons part more ih =>
    have hmore := ih (fun c hc => plains c (List.mem_cons_of_mem _ hc))
      fun n hn => fields n (List.mem_cons_of_mem _ hn)
    rw [List.flatMap_cons, List.flatMap_cons, List.append_assoc]
    cases part with
    | plain c =>
      obtain ⟨hplain, hopening, hclosing⟩ := plains c List.mem_cons_self
      rw [fill, fill, List.singleton_append, FormattedQuoted.inside_plain hplain hopening hclosing,
        hmore]
      rfl
    | placeholder n =>
      obtain ⟨hargument, hbound⟩ := fields n List.mem_cons_self
      have hfield : ∀ cs, field (ident (String.ofList n)) ++ cs =
          opening :: ((ident (String.ofList n)).toList ++ closing :: cs) := by
        simp [field, text]
      rw [fill, fill, hfield]
      refine (FormattedQuoted.inside_field hargument hbound _).trans ?_
      rw [hmore, List.map_append]
      rfl

theorem head?_filled {parts : List PathPart} (h : ∀ c, plain c ∈ parts → c ≠ '"') :
    (parts.flatMap (fill fun x => field (ident x))).head? ≠ some '"' := by
  cases parts with
  | nil => nofun
  | cons part rest =>
    cases part with
    | plain c => exact fun hc => h c List.mem_cons_self (Option.some.inj hc)
    | placeholder n => exact fun hc => absurd (Option.some.inj hc) (by decide)

theorem filled_eq_self {path : List Char} (h : placeholders path = []) (f : String → List Char) :
    filled f path = path := by
  conv_rhs => rw [← text_parts path]
  refine List.flatMap_congr fun part hpart => ?_
  cases part with
  | plain c => rfl
  | placeholder n =>
    have hmem : String.ofList n ∈ placeholders path :=
      mem_placeholders.mpr (by rwa [String.toList_ofList])
    rw [h] at hmem
    cases hmem

end

/-! ## Operations whose URL can be quoted -/

/-- Between its placeholders, the path of an operation can stand in a literal: it has no other
braces, no quote, no backslash and no line break. The names of its arguments are identifiers in
ASCII. -/
structure Operation.IsQuotable (op : Operation) : Prop where
  braces : ∀ c ∈ plainChars op.path.toList, c ≠ opening ∧ c ≠ closing
  characters : ∀ c ∈ op.path.toList, c ≠ '"' ∧ c ≠ '\\' ∧ c ≠ '\n' ∧ c ≠ '\r'
  arguments : ∀ q ∈ op.parametersIn .path, ∃ name, q.identifier = .text name ∧
    isIdentifier name.toList = true ∧ IsAscii name.toList

/-- What the expression for the URL of an operation comes to, given a text for each argument. -/
def Operation.evaluateUrl? (named : List Char → Option Char) (op : Operation)
    (args : Parameter → String) : Option (List Nat) :=
  FormattedQuoted.evaluate? named (boundTo op.parameters args) op.urlText.toList

section

variable {op : Operation} {own : String → Parameter}
  (hown : ∀ x ∈ placeholders op.path.toList, op.parameters.filter (·.answers x) = [own x])

include hown

theorem mem_of_own {x : String} (hx : x ∈ placeholders op.path.toList) :
    own x ∈ op.parametersIn .path := by
  have hmem : own x ∈ op.parameters.filter (·.answers x) := by
    rw [hown x hx]
    exact List.mem_cons_self
  obtain ⟨hparam, hanswers⟩ := List.mem_filter.mp hmem
  exact List.mem_filter.mpr ⟨hparam, (Bool.and_eq_true_iff.mp hanswers).1⟩

theorem own_argument (args : Parameter → String) (h : Parameter.AreNamed op.parameters)
    (quotable : op.IsQuotable)
    (free : ∀ q ∈ op.parametersIn .path, q.identifier ≠ .text FormattedQuoted.constant)
    {x : String} (hx : x ∈ placeholders op.path.toList) :
    FormattedQuoted.isArgument (own x).identifier.display = true ∧
      boundTo op.parameters args (own x).identifier.display = some (args (own x)) := by
  have hpath := mem_of_own hown hx
  have hmem : own x ∈ op.parameters := List.mem_of_mem_filter hpath
  obtain ⟨name, hname, hidentifier, hascii⟩ := quotable.arguments _ hpath
  have hreserved : isReserved name = false := by
    rw [Value.text.inj (hname.symm.trans (h.identifier hmem))]
    exact isReserved_nameOf _
  have hconstant : name ≠ FormattedQuoted.constant := fun heq => free _ hpath (heq ▸ hname)
  rw [hname, Value.display_text]
  refine ⟨?_, boundTo_identifier h hmem hname⟩
  have hall : name.toList.all (·.toNat < 128) = true :=
    List.all_eq_true.mpr fun c hc => decide_eq_true (hascii c hc)
  simp [FormattedQuoted.isArgument, hidentifier, hall, hreserved, hconstant]

theorem evaluateUrl?_eq (named : List Char → Option Char) (args : Parameter → String)
    (h : Parameter.AreNamed op.parameters) (quotable : op.IsQuotable)
    (nul : ∀ c ∈ op.path.toList, c.toNat ≠ 0)
    (free : ∀ q ∈ op.parametersIn .path, q.identifier ≠ .text FormattedQuoted.constant)
    (hurl : op.urlTemplate.toList =
      filled (fun x => field (own x).identifier.display) op.path.toList) :
    op.evaluateUrl? named args =
      some ((filled (fun x => (args (own x)).toList) op.path.toList).map Char.toNat) := by
  have hplain : ∀ c ∈ op.path.toList, PlainQuoted.isPlain c = true := by
    intro c hc
    obtain ⟨hquote, hslash, hfeed, hreturn⟩ := quotable.characters c hc
    exact PlainQuoted.isPlain_iff.mpr ⟨nul c hc, hreturn, hfeed, hquote, hslash⟩
  have hquote : ∀ c ∈ op.path.toList, c ≠ '"' := fun c hc => (quotable.characters c hc).1
  unfold Operation.evaluateUrl? Operation.urlText
  cases hpath : (op.parametersIn .path).isEmpty with
  | true =>
    -- Without a path parameter there is no placeholder, and the literal has no fields.
    have hnone : placeholders op.path.toList = [] := by
      refine List.eq_nil_iff_forall_not_mem.mpr fun x hx => ?_
      have hmem := mem_of_own hown hx
      rw [List.isEmpty_iff.mp hpath] at hmem
      cases hmem
    rw [filled_eq_self hnone] at hurl ⊢
    have htext : ("" ++ "\"" ++ op.urlTemplate ++ "\"").toList =
        '"' :: (op.path.toList ++ ['"']) := by
      simp [hurl]
    have hhead : op.path.toList.head? ≠ some '"' := fun hhead =>
      hquote _ (List.mem_of_mem_head? hhead) rfl
    rw [if_pos rfl, htext]
    exact FormattedQuoted.evaluate?_plain named hhead (PlainQuoted.inside_plains named hplain [])
  | false =>
    have htext : ("f" ++ "\"" ++ op.urlTemplate ++ "\"").toList =
        'f' :: '"' :: (filled (fun x => field (own x).identifier.display) op.path.toList ++
          ['"']) := by
      simp [hurl]
    rw [if_neg Bool.false_ne_true, htext]
    refine FormattedQuoted.evaluate?_formatted named
      (head?_filled fun c hc => hquote c (mem_of_plain_mem_parts hc)) ?_
    have hparts : ∀ c, plain c ∈ parts op.path.toList →
        PlainQuoted.isPlain c = true ∧ c ≠ FormattedQuoted.opening ∧
          c ≠ FormattedQuoted.closing := fun c hc =>
      ⟨hplain c (mem_of_plain_mem_parts hc), quotable.braces c (mem_plainChars.mpr hc)⟩
    refine inside_filled hparts (fun n hn => ?_) []
    have hx : String.ofList n ∈ placeholders op.path.toList :=
      mem_placeholders.mpr (by rwa [String.toList_ofList])
    exact own_argument hown args h quotable free hx

end

/-! ## Placeholders of operations -/

instance : Nonempty Parameter := ⟨⟨"", .null, "", .query, .primitive .int, none, [], ""⟩⟩

theorem exists_unmatched_iff {params : List Parameter} (h : Parameter.AreNamed params)
    (location : String) (path : List Char) :
    (∃ d, (urlText params location (parts path)).result = .error (.defect d)) ↔
      ∃ x ∈ placeholders path, ∀ q ∈ params, q.answers x = false := by
  have hnone : ∀ x, (∀ q ∈ params, q.answers x = false) ↔ params.filter (·.answers x) = [] := by
    intro x
    simp [List.filter_eq_nil_iff]
  simp only [hnone]
  constructor
  · rintro ⟨d, hd⟩
    by_contra! hall
    have hone : ∀ x ∈ placeholders path, ∃ q, params.filter (·.answers x) = [q] := fun x hx =>
      (filter_answers_cases h x).resolve_left (hall x hx)
    choose! own hown using hone
    have hurl := result_urlText location h fun n hn =>
      hown (String.ofList n) (mem_placeholders.mpr (by rwa [String.toList_ofList]))
    rw [hurl] at hd
    cases hd
  · rintro ⟨x, hx, hfilter⟩
    have hdefect := urlText_defect location h (mem_placeholders.mp hx)
      (by rwa [String.ofList_toList])
    obtain ⟨y, hy⟩ := hdefect
    exact ⟨_, hy⟩

/-- Once its parameters compile, an operation has a defect exactly if a placeholder names none of
them. In an operation that compiles each placeholder names one path parameter, and the URL is the
path with the argument of that parameter in place of it. If the path can be quoted, holds no NUL,
and no argument has the name of the constant, the expression for the URL comes to the path with the
text that is given for that argument. -/
theorem placeholders_evaluate {p : Profile} (preset : p ∈ Profile.presets)
    (shared operation : Value) (method : String) :
    (∀ {path : String} {params : List Parameter},
      Operation.CompilesParameters p shared operation path method params →
      ((∃ d, (Operation.compile p shared (.text path) method operation).result =
          .error (.defect d)) ↔
        ∃ x ∈ placeholders path.toList, ∀ q ∈ params, q.answers x = false)) ∧
    ∀ {path : Value} {op : Operation},
      (Operation.compile p shared path method operation).result = .ok op →
      path = .text op.path ∧ ∃ own : String → Parameter,
        (∀ x ∈ placeholders op.path.toList, op.parameters.filter (·.answers x) = [own x]) ∧
        op.urlTemplate.toList =
          filled (fun x => field (own x).identifier.display) op.path.toList ∧
        (op.IsQuotable → (∀ c ∈ op.path.toList, c.toNat ≠ 0) →
          (∀ q ∈ op.parametersIn .path, q.identifier ≠ .text FormattedQuoted.constant) →
          ∀ named args, op.evaluateUrl? named args =
            some ((filled (fun x => (args (own x)).toList) op.path.toList).map Char.toNat)) := by
  constructor
  · intro path params h
    rw [h.defect_iff, exists_unmatched_iff (h.areNamed preset)]
  · intro path op h
    obtain ⟨hpath, hparams, hurl⟩ := Operation.url_of_compile h
    have hnamed := hparams.areNamed preset
    have hone : ∀ x ∈ placeholders op.path.toList,
        ∃ q, op.parameters.filter (·.answers x) = [q] := by
      refine fun x hx => (filter_answers_cases hnamed x).resolve_left fun hnone => ?_
      obtain ⟨y, hy⟩ := urlText_defect (Operation.place path (lowerString method)) hnamed
        (mem_placeholders.mp hx) (by rwa [String.ofList_toList])
      rw [hy] at hurl
      cases hurl
    choose! own hown using hone
    have htemplate := result_urlText (Operation.place path (lowerString method)) hnamed
      fun n hn => hown (String.ofList n) (mem_placeholders.mpr (by rwa [String.toList_ofList]))
    have hfilled := Except.ok.inj (hurl.symm.trans htemplate)
    exact ⟨hpath, own, hown, hfilled, fun quotable nul free named args =>
      evaluateUrl?_eq hown named args hnamed quotable nul free hfilled⟩

theorem Operation.exists_argument {op : Operation} {names : List String}
    (arguments : (op.parametersIn .path).map (·.identifier.text?) = names.map some) {q : Parameter}
    (hq : q ∈ op.parametersIn .path) : ∃ name ∈ names, q.identifier = .text name := by
  have hmem : q.identifier.text? ∈ names.map some := by
    rw [← arguments]
    exact List.mem_map_of_mem hq
  obtain ⟨name, hname, htext⟩ := List.mem_map.mp hmem
  exact ⟨name, hname, Value.text?_eq_some.mp htext.symm⟩

theorem Operation.isQuotable_of_arguments {op : Operation} {path : String} {names : List String}
    (path_eq : op.path = path)
    (arguments : (op.parametersIn .path).map (·.identifier.text?) = names.map some)
    (braces : ∀ c ∈ plainChars path.toList, c ≠ opening ∧ c ≠ closing)
    (characters : ∀ c ∈ path.toList, c ≠ '"' ∧ c ≠ '\\' ∧ c ≠ '\n' ∧ c ≠ '\r')
    (identifiers : ∀ name ∈ names, isIdentifier name.toList = true ∧ IsAscii name.toList) :
    op.IsQuotable := by
  subst path_eq
  refine ⟨braces, characters, fun q hq => ?_⟩
  obtain ⟨name, hname, hidentifier⟩ := exists_argument arguments hq
  exact ⟨name, hidentifier, identifiers name hname⟩

theorem Operation.exists_quotable {run : Compile Operation} {path url : String}
    {names : List String}
    (made : (run.result.toOption.map fun op =>
        (op.path, op.urlText, (op.parametersIn .path).map (·.identifier.text?))) =
      some (path, url, names.map some))
    (braces : ∀ c ∈ plainChars path.toList, c ≠ opening ∧ c ≠ closing)
    (characters : ∀ c ∈ path.toList, c ≠ '"' ∧ c ≠ '\\' ∧ c ≠ '\n' ∧ c ≠ '\r')
    (identifiers : ∀ name ∈ names, isIdentifier name.toList = true ∧ IsAscii name.toList) :
    ∃ op, run.result = .ok op ∧ op.IsQuotable ∧ op.urlText = url := by
  obtain ⟨op, hop, hfacts⟩ := Option.map_eq_some_iff.mp made
  simp only [Prod.mk.injEq] at hfacts
  obtain ⟨hpath, hurl, harguments⟩ := hfacts
  have hquotable := isQuotable_of_arguments hpath harguments braces characters identifiers
  exact ⟨op, toOption_eq_some.mp hop, hquotable, hurl⟩

/-- An operation with path parameters of the names, whose response is an integer. -/
def withPathParameters (names : List String) : Value :=
  .map [
    (.text "parameters", .list (names.map fun name => .map [
      (.text "name", .text name), (.text "in", .text "path"), (.text "type", .text "string")])),
    (.text "responses", .map [(.text "200", .map [(.text "schema",
      .map [(.text "type", .text "integer")])])])]

/-- A path whose placeholders name one parameter by its whole name and another by its last part. -/
def ownerPath : String := "/card/\x7bowner.id\x7d/\x7bmonth\x7d"

/-- Without parameters, the operation of the path has a defect. -/
theorem placeholders_evaluate_for_owner :
    (∃ d, (Operation.compile .common .null (.text ownerPath) "get"
      (withPathParameters [])).result = .error (.defect d)) ∧
    ∃ op, (Operation.compile .common .null (.text ownerPath) "get"
        (withPathParameters ["owner.id", "period.month"])).result = .ok op ∧
      op.urlTemplate = "/card/\x7bid\x7d/\x7bmonth\x7d" ∧
      ∀ named, op.evaluateUrl? named (·.name) =
        some ("/card/owner.id/period.month".toList.map Char.toNat) := by
  have preset : Profile.common ∈ Profile.presets := List.mem_cons_self
  have hplaceholders : placeholders ownerPath.toList = ["owner.id", "month"] := by decide
  constructor
  · have hcompiles : Operation.CompilesParameters .common .null (withPathParameters []) ownerPath
        "get" [] := by
      refine ⟨⟨_, _, _, _, rfl, rfl, rfl, ⟨.primitive .int, toOption_eq_some.mp ?_⟩, rfl, rfl,
        rfl⟩⟩
      decide +kernel
    have hdefect := (placeholders_evaluate preset .null (withPathParameters []) "get").1 hcompiles
    exact hdefect.mpr ⟨"month", by simp [hplaceholders], List.forall_mem_nil _⟩
  · have hmade : ((Operation.compile .common .null (.text ownerPath) "get"
        (withPathParameters ["owner.id", "period.month"])).result.toOption.map fun op =>
          ((op.path, op.urlTemplate), (op.parametersIn .path).map (·.identifier.text?),
            (op.parameters.filter (·.answers "owner.id")).map (·.name),
            (op.parameters.filter (·.answers "month")).map (·.name))) =
        some ((ownerPath, "/card/\x7bid\x7d/\x7bmonth\x7d"), ["id", "month"].map some,
          ["owner.id"], ["period.month"]) := by
      decide +kernel
    obtain ⟨op, hop, hfacts⟩ := Option.map_eq_some_iff.mp hmade
    rw [toOption_eq_some] at hop
    simp only [Prod.mk.injEq] at hfacts
    obtain ⟨⟨hpath, htemplate⟩, harguments, hid, hmonth⟩ := hfacts
    obtain ⟨-, own, hown, -, heval⟩ := (placeholders_evaluate preset .null
      (withPathParameters ["owner.id", "period.month"]) "get").2 hop
    have hquotable : op.IsQuotable :=
      Operation.isQuotable_of_arguments hpath harguments (List.all_iff_forall_prop.mp (by decide))
        (List.all_iff_forall_prop.mp (by decide)) (by decide)
    have hfree : ∀ q ∈ op.parametersIn .path, q.identifier ≠ .text FormattedQuoted.constant := by
      intro q hq hconstant
      obtain ⟨name, hname, hidentifier⟩ := Operation.exists_argument harguments hq
      cases hidentifier.symm.trans hconstant
      exact absurd hname (by decide)
    have hnul : ∀ c ∈ op.path.toList, c.toNat ≠ 0 := by
      rw [hpath]
      exact List.all_iff_forall_prop.mp (by decide)
    refine ⟨op, hop, htemplate, fun named => ?_⟩
    rw [heval hquotable hnul hfree named]
    rw [hpath, hplaceholders] at hown
    rw [hown "owner.id" (by decide)] at hid
    rw [hown "month" (by decide)] at hmonth
    have hparts : parts ownerPath.toList = "/card/".toList.map plain ++
        [placeholder "owner.id".toList, plain '/', placeholder "month".toList] := by
      decide
    obtain ⟨hid, -⟩ := List.cons.inj hid
    obtain ⟨hmonth, -⟩ := List.cons.inj hmonth
    rw [hpath, filled, hparts]
    simp [fill, hid, hmonth]

/-- With a NUL in its path the expression for the URL is no literal, and with an argument that has
the name of the constant it comes to the same whatever is given for the argument. -/
theorem evaluated_urls_of_nul_and_constant :
    (∃ op, (Operation.compile .common .null (.text "/user/a\x00b") "get"
        (withPathParameters [])).result = .ok op ∧
      op.IsQuotable ∧ ∀ named args, op.evaluateUrl? named args = none) ∧
    ∃ op, (Operation.compile .common .null (.text "/user/\x7b__debug__\x7d") "get"
        (withPathParameters ["__debug__"])).result = .ok op ∧
      op.IsQuotable ∧ ∀ named args,
        op.evaluateUrl? named args = some ("/user/True".toList.map Char.toNat) := by
  have hnul : ((Operation.compile .common .null (.text "/user/a\x00b") "get"
      (withPathParameters [])).result.toOption.map fun op =>
        (op.path, op.urlText, (op.parametersIn .path).map (·.identifier.text?))) =
      some ("/user/a\x00b", "\"/user/a\x00b\"", ([] : List String).map some) := by
    decide +kernel
  have hconstant : ((Operation.compile .common .null (.text "/user/\x7b__debug__\x7d") "get"
      (withPathParameters ["__debug__"])).result.toOption.map fun op =>
        (op.path, op.urlText, (op.parametersIn .path).map (·.identifier.text?))) =
      some ("/user/\x7b__debug__\x7d", "f\"/user/\x7b__debug__\x7d\"",
        ["__debug__"].map some) := by
    decide +kernel
  constructor
  · obtain ⟨op, hop, hquotable, hurl⟩ := Operation.exists_quotable hnul
      (List.all_iff_forall_prop.mp (by decide)) (List.all_iff_forall_prop.mp (by decide))
      (by decide)
    refine ⟨op, hop, hquotable, fun named args => ?_⟩
    rw [Operation.evaluateUrl?, hurl]
    rfl
  · obtain ⟨op, hop, hquotable, hurl⟩ := Operation.exists_quotable hconstant
      (List.all_iff_forall_prop.mp (by decide)) (List.all_iff_forall_prop.mp (by decide))
      (by decide)
    refine ⟨op, hop, hquotable, fun named args => ?_⟩
    rw [Operation.evaluateUrl?, hurl]
    rfl

end ApiSmith

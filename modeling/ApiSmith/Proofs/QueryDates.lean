import ApiSmith.Payload.Encoding
import ApiSmith.Proofs.Bindings
import ApiSmith.Proofs.Sending

/-!
# Dates in queries

A method formats an argument for its query if the type of the parameter holds a date, at whatever
depth. What formats a date takes a moment or null, and raises on a list. Nothing needs the
formatting, since a query formats the moments in it by itself. `query_dates_iff` says on which
arguments a line raises, and that where none does the URL is that of the arguments as they are.

The two queries agree entry by entry (`SameInQuery`): what is formatted is null exactly if the
argument is, and it becomes the same text.
-/

namespace ApiSmith

open Time (Zone)

/-! ## Lines of a query -/

/-- What the line of a query puts into it for an argument. -/
def ParameterLine.value (line : ParameterLine) (zone : Zone) (v : Value) :
    Except FormatFault Value :=
  if line.isDate then formatDate zone v else .ok v

/-- What the lines of a query put into it for arguments, in order. -/
def formattedEntries (zone : Zone) :
    List ParameterLine → List Value → Except FormatFault (List (Value × Value))
  | line :: lines, v :: vs => do
    let x ← line.value zone v
    let more ← formattedEntries zone lines vs
    pure ((.text line.key, x) :: more)
  | _, _ => pure []

def plainEntries : List ParameterLine → List Value → List (Value × Value)
  | line :: lines, v :: vs => (.text line.key, v) :: plainEntries lines vs
  | _, _ => []

/-- The query that a method makes of its arguments. -/
def MethodPart.formattedQuery (m : MethodPart) (zone : Zone) (args : List Value) :
    Except FormatFault (List (Value × Value)) :=
  (formattedEntries zone m.query args).map (overlay [])

def MethodPart.plainQuery (m : MethodPart) (args : List Value) : List (Value × Value) :=
  overlay [] (plainEntries m.query args)

/-! ## Arguments -/

def PrimitiveKind.dataType : PrimitiveKind → DataType
  | .int => .int
  | .int64 => .int
  | .string => .text
  | .bool => .bool
  | .decimal => .decimal
  | .date => .moment
  | .binary => .bytes
  | .object => .object

def Descriptor.dataType? (p : Profile) : Descriptor → Option DataType
  | .primitive kind => some kind.dataType
  | .reference name => (p.modelClass? (.text name)).map .named
  | .enum spec => (p.enumClass? spec).map .named
  | .array d => (d.dataType? p).map .list

/-- The values that a parameter may be given: those of its type, and null. -/
def Parameter.Accepts (p : Profile) (table : TypeTable) (q : Parameter) (v : Value) : Prop :=
  v = .null ∨ ∃ t, q.type.dataType? p = some t ∧ Inhabits table t v

/-- The line of a parameter raises on a value: on a list of dates, and on a date without a text. -/
def Parameter.RaisesOn (zone : Zone) (q : Parameter) (v : Value) : Prop :=
  q.type.uses .date = true ∧ v ≠ .null ∧ (0 < q.type.depth ∨ ∃ m, v = .moment m ∧ m.IsUnsent zone)

variable {zone : Zone}

theorem Descriptor.cases_of_uses_date {d : Descriptor} (h : d.uses .date = true) :
    d = .primitive .date ∨ ∃ e, d = .array e := by
  cases d with
  | primitive k =>
    rw [Descriptor.uses, List.contains_iff_mem, Descriptor.kinds, List.mem_singleton] at h
    exact .inl (congrArg _ h.symm)
  | array e => exact .inr ⟨e, rfl⟩
  | reference _ => cases h
  | enum _ => cases h

section

variable {p : Profile} {table : TypeTable} {q : Parameter} {v : Value}

theorem Parameter.Accepts.cases_of_date (h : q.Accepts p table v)
    (date : q.type.uses .date = true) :
    v = .null ∨ (q.type.depth = 0 ∧ ∃ m, v = .moment m) ∨
      0 < q.type.depth ∧ ∃ items, v = .list items := by
  rcases h with rfl | ⟨t, ht, hv⟩
  · exact .inl rfl
  · rcases Descriptor.cases_of_uses_date date with htype | ⟨e, htype⟩
    · rw [htype] at ht
      cases ht
      cases hv with
      | moment m => exact .inr (.inl ⟨by rw [htype]; rfl, m, rfl⟩)
    · rw [htype] at ht
      obtain ⟨item, -, rfl⟩ := Option.map_eq_some_iff.mp ht
      cases hv with
      | list parts => exact .inr (.inr ⟨by rw [htype]; exact Nat.succ_pos _, _, rfl⟩)

/-- The line of a parameter raises on the values that it says. -/
theorem ParameterLine.raises_iff {line : ParameterLine} (hline : line.isDate = q.type.uses .date)
    (h : q.Accepts p table v) : (∃ f, line.value zone v = .error f) ↔ q.RaisesOn zone v := by
  unfold ParameterLine.value Parameter.RaisesOn
  rw [hline]
  by_cases hdate : q.type.uses .date = true
  · rw [if_pos hdate]
    rcases h.cases_of_date hdate with rfl | ⟨hdepth, m, rfl⟩ | ⟨hdepth, items, rfl⟩
    · exact iff_of_false nofun fun h => h.2.1 rfl
    · rw [formatDate, hdepth]
      rcases encodeMoment_cases zone m with ⟨hunsent, hm⟩ | ⟨hsent, s, hm⟩
      · rw [hm]
        exact iff_of_true ⟨_, rfl⟩ ⟨hdate, nofun, .inr ⟨m, rfl, hunsent⟩⟩
      · rw [hm]
        refine iff_of_false nofun ?_
        rintro ⟨-, -, hzero | ⟨_, ⟨⟩, hunsent⟩⟩
        · exact Nat.lt_irrefl 0 hzero
        · exact hsent hunsent
    · exact iff_of_true ⟨_, rfl⟩ ⟨hdate, nofun, .inl hdepth⟩
  · rw [if_neg hdate]
    exact iff_of_false nofun fun h => hdate h.1

end

/-! ## Values in a query -/

theorem exists_queryValues {vs : List Value} (h : ∀ v ∈ vs, ∃ x, queryValue zone v = .ok x) :
    ∃ xs, queryValues zone vs = .ok xs := by
  induction vs with
  | nil => exact ⟨[], rfl⟩
  | cons v rest ih =>
    obtain ⟨hv, hrest⟩ := List.forall_mem_cons.mp h
    obtain ⟨x, hx⟩ := hv
    obtain ⟨more, hmore⟩ := ih hrest
    exact ⟨x :: more, bind_eq_ok.mpr ⟨x, hx, bind_eq_ok.mpr ⟨more, hmore, rfl⟩⟩⟩

theorem exists_queryValue {p : Profile} {table : TypeTable} {d : Descriptor} {t : DataType}
    (ht : d.dataType? p = some t) {v : Value} (h : Inhabits table t v)
    (sent : d.uses .date = true → ∀ m, (Value.moment m).StandsIn v → ¬ m.IsUnsent zone) :
    ∃ x, queryValue zone v = .ok x := by
  induction d generalizing t v with
  | primitive k =>
    cases ht
    cases k <;> cases h <;> try exact ⟨_, rfl⟩
    next m =>
      rcases encodeMoment_cases zone m with ⟨hunsent, -⟩ | ⟨-, s, hm⟩
      · exact absurd hunsent (sent rfl m .here)
      · exact ⟨.text s, hm⟩
  | reference name =>
    obtain ⟨c, -, rfl⟩ := Option.map_eq_some_iff.mp ht
    cases h <;> exact ⟨_, rfl⟩
  | enum spec =>
    obtain ⟨c, -, rfl⟩ := Option.map_eq_some_iff.mp ht
    cases h <;> exact ⟨_, rfl⟩
  | array d ih =>
    obtain ⟨item, hitem, rfl⟩ := Option.map_eq_some_iff.mp ht
    cases h with
    | @list _ items parts =>
      obtain ⟨xs, hxs⟩ := exists_queryValues fun w hw =>
        ih hitem (parts w hw) fun hdate m inside => sent hdate m (.element hw inside)
      refine ⟨.list xs, ?_⟩
      rw [queryValue, hxs]
      rfl

/-! ## Queries entry by entry -/

/-- Two values that give a query the same text. -/
structure SameInQuery (zone : Zone) (v w : Value) : Prop where
  null : v.isNull = w.isNull
  value : queryValue zone v = queryValue zone w

theorem ParameterLine.sameInQuery {line : ParameterLine} {v x : Value}
    (h : line.value zone v = .ok x) : SameInQuery zone x v := by
  unfold ParameterLine.value at h
  split at h
  · unfold formatDate at h
    split at h
    · cases h
      exact ⟨rfl, rfl⟩
    · next m =>
      rcases encodeMoment_cases zone m with ⟨-, hm⟩ | ⟨-, s, hm⟩
      · rw [hm] at h
        cases h
      · rw [hm] at h
        cases h
        refine ⟨rfl, ?_⟩
        rw [queryValue, queryValue, hm]
        all_goals nofun
    · cases h
  · cases h
    exact ⟨rfl, rfl⟩

theorem queryEntries_congr {es es' : List (Value × Value)}
    (h : List.Forall₂ (SameKey (SameInQuery zone)) es es') :
    queryEntries zone es = queryEntries zone es' := by
  induction h with
  | nil => rfl
  | @cons e e' _ _ he _ ih =>
    obtain ⟨k, v⟩ := e
    obtain ⟨k', v'⟩ := e'
    obtain rfl : k = k' := he.key
    rw [queryEntries, queryEntries, ih, he.value.null, he.value.value]

theorem withQuery_congr {es es' : List (Value × Value)}
    (h : List.Forall₂ (SameKey (SameInQuery zone)) es es') (url : String) :
    withQuery zone url es = withQuery zone url es' := by
  unfold withQuery queryPairs
  rw [queryEntries_congr h]

theorem exists_queryEntries {es : List (Value × Value)}
    (h : ∀ e ∈ es, e.2 ≠ .null → ∃ x, queryValue zone e.2 = .ok x) :
    ∃ entries, queryEntries zone es = .ok entries := by
  induction es with
  | nil => exact ⟨[], rfl⟩
  | cons e rest ih =>
    obtain ⟨k, v⟩ := e
    obtain ⟨hv, hrest⟩ := List.forall_mem_cons.mp h
    obtain ⟨more, hmore⟩ := ih hrest
    rw [queryEntries]
    split
    · exact ⟨more, hmore⟩
    · next hnull =>
      obtain ⟨x, hx⟩ := hv fun hv => hnull (by rw [show v = .null from hv]; rfl)
      exact ⟨_, bind_eq_ok.mpr ⟨x, hx, bind_eq_ok.mpr ⟨more, hmore, rfl⟩⟩⟩

theorem exists_withQuery {es : List (Value × Value)}
    (h : ∀ e ∈ es, e.2 ≠ .null → ∃ x, queryValue zone e.2 = .ok x) (url : String) :
    ∃ u, withQuery zone url es = .ok u := by
  obtain ⟨entries, hentries⟩ := exists_queryEntries h
  unfold withQuery queryPairs
  rw [hentries]
  simp only [pure, Except.pure, bind, Except.bind]
  split <;> exact ⟨_, rfl⟩

/-! ## Queries of arguments -/

def Parameter.HasDateTexts (zone : Zone) (q : Parameter) (v : Value) : Prop :=
  q.type.uses .date = true → ∀ m, (Value.moment m).StandsIn v → ¬ m.IsUnsent zone

/-- A line of the page for a parameter. -/
structure Parameter.HasLine (q : Parameter) (line : ParameterLine) : Prop where
  key : line.key = q.key
  isDate : line.isDate = q.type.uses .date

theorem sameInQuery_formattedEntries {lines : List ParameterLine} {vs : List Value}
    {es : List (Value × Value)} (h : formattedEntries zone lines vs = .ok es) :
    List.Forall₂ (SameKey (SameInQuery zone)) es (plainEntries lines vs) := by
  induction lines generalizing vs es with
  | nil =>
    cases h
    exact .nil
  | cons line lines ih =>
    cases vs with
    | nil =>
      cases h
      exact .nil
    | cons v vs =>
      obtain ⟨x, hx, h⟩ := bind_eq_ok.mp h
      obtain ⟨more, hmore, h⟩ := bind_eq_ok.mp h
      cases h
      exact .cons ⟨rfl, ParameterLine.sameInQuery hx⟩ (ih hmore)

theorem mem_plainEntries {lines : List ParameterLine} {vs : List Value} {e : Value × Value}
    (h : e ∈ plainEntries lines vs) : (∃ key, e.1 = .text key) ∧ e.2 ∈ vs := by
  induction lines generalizing vs with
  | nil => cases h
  | cons line lines ih =>
    cases vs with
    | nil => cases h
    | cons v vs =>
      rcases List.mem_cons.mp h with rfl | h
      · exact ⟨⟨_, rfl⟩, List.mem_cons_self⟩
      · exact (ih h).imp_right (List.mem_cons_of_mem _)

section

variable {p : Profile} {table : TypeTable} {params : List Parameter} {lines : List ParameterLine}
  {args : List Value}

/-- The lines of parameters raise exactly if one of them does. -/
theorem exists_formattedEntries_iff (hlines : List.Forall₂ Parameter.HasLine params lines)
    (typed : List.Forall₂ (Parameter.Accepts p table) params args) :
    (∃ es, formattedEntries zone lines args = .ok es) ↔
      List.Forall₂ (fun q v => ¬ q.RaisesOn zone v) params args := by
  induction hlines generalizing args with
  | nil =>
    cases typed
    exact iff_of_true ⟨[], rfl⟩ .nil
  | @cons q line _ lines hline _ ih =>
    cases typed with
    | @cons _ v _ vs hv hrest =>
      have hfirst : (∃ x, line.value zone v = .ok x) ↔ ¬ q.RaisesOn zone v := by
        rw [← ParameterLine.raises_iff hline.isDate hv]
        cases line.value zone v <;> simp
      rw [List.forall₂_cons, ← hfirst, ← ih hrest]
      constructor
      · rintro ⟨es, h⟩
        obtain ⟨x, hx, h⟩ := bind_eq_ok.mp h
        obtain ⟨more, hmore, -⟩ := bind_eq_ok.mp h
        exact ⟨⟨x, hx⟩, more, hmore⟩
      · rintro ⟨⟨x, hx⟩, more, hmore⟩
        exact ⟨_, bind_eq_ok.mpr ⟨x, hx, bind_eq_ok.mpr ⟨more, hmore, rfl⟩⟩⟩

theorem exists_withQuery_plain (typed : List.Forall₂ (Parameter.Accepts p table) params args)
    (sent : List.Forall₂ (Parameter.HasDateTexts zone) params args) (url : String) :
    ∃ u, withQuery zone url (overlay [] (plainEntries lines args)) = .ok u := by
  have hargs : ∀ v ∈ args, v ≠ .null → ∃ x, queryValue zone v = .ok x := by
    induction typed with
    | nil => exact List.forall_mem_nil _
    | cons hv _ ih =>
      cases sent with
      | cons hsent hrest =>
        refine List.forall_mem_cons.mpr ⟨fun hne => ?_, ih hrest⟩
        obtain ⟨t, ht, hinhabits⟩ := hv.resolve_left hne
        exact exists_queryValue ht hinhabits hsent
  refine exists_withQuery (fun e he => ?_) url
  have htexts : HasTextKeys (plainEntries lines args) := fun e he => (mem_plainEntries he).1
  exact hargs _ (mem_plainEntries ((overlay_nil_distinct htexts).2 e he)).2

theorem Parameter.Accepts.hasDateTexts {q : Parameter} {v : Value} (h : q.Accepts p table v)
    (quiet : ¬ q.RaisesOn zone v) : q.HasDateTexts zone v := by
  intro hdate m inside hunsent
  rcases h.cases_of_date hdate with rfl | ⟨-, m', rfl⟩ | ⟨hdepth, items, rfl⟩
  · cases inside
  · cases inside
    exact quiet ⟨hdate, nofun, .inr ⟨m, rfl, hunsent⟩⟩
  · exact quiet ⟨hdate, nofun, .inl hdepth⟩

theorem hasDateTexts_of_quiet (typed : List.Forall₂ (Parameter.Accepts p table) params args)
    (quiet : List.Forall₂ (fun q v => ¬ Parameter.RaisesOn zone q v) params args) :
    List.Forall₂ (Parameter.HasDateTexts zone) params args := by
  induction typed with
  | nil => exact .nil
  | cons hv _ ih =>
    cases quiet with
    | cons hfirst hrest => exact .cons (hv.hasDateTexts hfirst) (ih hrest)

theorem MethodPart.Prints.hasLines {op : Operation} {m : MethodPart}
    (h : MethodPart.Prints p op m) :
    List.Forall₂ Parameter.HasLine (op.parametersIn .query) m.query := by
  have hrow := mapM_eq_some_iff.mp h.params
  unfold Operation.parametersIn MethodPart.query
  generalize op.parameters = params at hrow
  generalize m.params = lines at hrow
  induction hrow with
  | nil => exact .nil
  | @cons q line _ _ hline _ ih =>
    obtain ⟨-, hplacement, hdate⟩ := ParameterLine.type_of? hline
    have hkey : line.key = q.key := by
      simp only [ParameterLine.of?, Option.pure_def, Option.bind_eq_bind, Option.bind_eq_some_iff,
        Option.some.injEq] at hline
      obtain ⟨_, -, _, -, rfl⟩ := hline
      rfl
    by_cases hquery : q.placement = .query
    · rw [List.filter_cons_of_pos (by simpa using hquery),
        List.filter_cons_of_pos (by simpa [hplacement] using hquery)]
      exact .cons ⟨hkey, hdate⟩ ih
    · rw [List.filter_cons_of_neg (by simpa using hquery),
        List.filter_cons_of_neg (by simpa [hplacement] using hquery)]
      exact ih

end

/-- The query of any method. A line formats its argument exactly if the type holds a date, and
raises on a list of dates and on a date without a text. The arguments are made into a query exactly
if no line raises on its own, and then the URL is that of the arguments as they are. These have a
URL whenever the dates among them have texts, in lists or not. -/
theorem query_dates_iff (zone : Zone) {p : Profile} {op : Operation} {part : MethodPart}
    (h : MethodPart.of? p op = some part) (table : TypeTable) :
    List.Forall₂ (fun q line => q.HasLine line ∧ ∀ v, q.Accepts p table v →
      ((∃ f, line.value zone v = .error f) ↔ q.RaisesOn zone v)) (op.parametersIn .query) part.query ∧
    ∀ args, List.Forall₂ (Parameter.Accepts p table) (op.parametersIn .query) args →
      ((∃ es, part.formattedQuery zone args = .ok es) ↔
        List.Forall₂ (fun q v => ¬ q.RaisesOn zone v) (op.parametersIn .query) args) ∧
      (∀ es, part.formattedQuery zone args = .ok es → ∀ url,
        ∃ u, withQuery zone url es = .ok u ∧ withQuery zone url (part.plainQuery args) = .ok u) ∧
      (List.Forall₂ (Parameter.HasDateTexts zone) (op.parametersIn .query) args → ∀ url,
        ∃ u, withQuery zone url (part.plainQuery args) = .ok u) := by
  have hlines := (MethodPart.prints_of? h).hasLines
  refine ⟨hlines.imp fun q line hline =>
    ⟨hline, fun v hv => ParameterLine.raises_iff hline.isDate hv⟩, fun args typed => ?_⟩
  have hformatted : (∃ es, part.formattedQuery zone args = .ok es) ↔
      List.Forall₂ (fun q v => ¬ q.RaisesOn zone v) (op.parametersIn .query) args := by
    rw [← exists_formattedEntries_iff hlines typed]
    unfold MethodPart.formattedQuery
    cases formattedEntries zone part.query args <;> simp [Except.map]
  refine ⟨hformatted, fun es hes url => ?_, fun sent url => exists_withQuery_plain typed sent url⟩
  have hsent := hasDateTexts_of_quiet typed (hformatted.mp ⟨es, hes⟩)
  obtain ⟨u, hu⟩ : ∃ u, withQuery zone url (part.plainQuery args) = .ok u :=
    exists_withQuery_plain typed hsent url
  obtain ⟨entries, hentries, rfl⟩ := map_eq_ok.mp hes
  have hsame := forall₂_overlay .nil (sameInQuery_formattedEntries hentries)
  exact ⟨u, (withQuery_congr hsame url).trans hu, hu⟩

def findingDays : Value :=
  .map [
    (.text "parameters", .list [.map [
      (.text "name", .text "days"), (.text "in", .text "query"), (.text "type", .text "array"),
      (.text "items", .map [
        (.text "type", .text "string"), (.text "format", .text "date-time")])]]),
    (.text "responses", .map [(.text "200", .map [(.text "schema",
      .map [(.text "type", .text "integer")])])])]

def firstOfMarch : Time.Moment := ⟨2024, 3, 1, 0, 0, 0, 0, some 0, by decide⟩

/-- A list of days raises; as it is it would go into the query. -/
theorem query_dates_iff_of_days :
    ∃ op, (Operation.compile .common .null (.text "/card/find") "get" findingDays).result = .ok op ∧
      ∃ part, MethodPart.of? .common op = some part ∧
        (¬ ∃ es, part.formattedQuery .utc [.list [.moment firstOfMarch]] = .ok es) ∧
        withQuery .utc "/card/find" (part.plainQuery [.list [.moment firstOfMarch]]) =
          .ok "/card/find?days=2024-03-01T00%3A00%3A00Z" := by
  have hmade : (Operation.compile .common .null (.text "/card/find") "get"
      findingDays).result.toOption.bind (fun op => (MethodPart.of? .common op).map fun part =>
        ((op.parametersIn .query).map (·.type),
          (withQuery .utc "/card/find" (part.plainQuery [.list [.moment firstOfMarch]])).toOption)) =
        some ([.array (.primitive .date)], some "/card/find?days=2024-03-01T00%3A00%3A00Z") := by
    decide +kernel
  obtain ⟨op, hop, hmade⟩ := Option.bind_eq_some_iff.mp hmade
  rw [toOption_eq_some] at hop
  obtain ⟨part, hpart, hmade⟩ := Option.map_eq_some_iff.mp hmade
  obtain ⟨htypes, hurl⟩ := by simpa only [Prod.mk.injEq] using hmade
  obtain ⟨q, hq, htype⟩ := List.map_eq_singleton_iff.mp htypes
  obtain ⟨-, hquery⟩ := query_dates_iff .utc hpart []
  have days : Inhabits [] (.list .moment) (.list [.moment firstOfMarch]) :=
    .list (List.forall_mem_singleton.mpr (.moment _))
  have typed : List.Forall₂ (Parameter.Accepts .common []) (op.parametersIn .query)
      [.list [.moment firstOfMarch]] := by
    rw [hq]
    exact .cons (.inr ⟨.list .moment, by rw [htype]; rfl, days⟩) .nil
  refine ⟨op, hop, part, hpart, fun hes => ?_, toOption_eq_some.mp hurl⟩
  have hquiet := (hquery _ typed).1.mp hes
  rw [hq, List.forall₂_cons] at hquiet
  refine hquiet.1 ⟨?_, nofun, .inl ?_⟩ <;> rw [htype]
  · rfl
  · exact Nat.succ_pos _

end ApiSmith

import ApiSmith.Proofs.ListTypes

/-!
# Builds that return

A document whose parts have their kinds is built exactly if no list of types is looked up in it, so
it is built where every schema has one type at most (`build_returns_iff`).

A build can stop at three places. An artifact can stop it that is compiled: operations are treated
here as definitions were before, by their responses and parameters (`Operation.hasFate_compile_iff`).
The pages of models and of groups cannot: names are texts, and the allowed values of a parameter that
compiled have literals (`Parameter.IsPrintable`). What remains is put together without a fault
(`exists_build`).
-/

namespace ApiSmith

open Package (HasFate)
open Value

variable {p : Profile}

/-! ## Responses -/

namespace Response

variable {types : Value → Prop}

theorem exists_schemaOfTypes {content : List (Value × Value)}
    (h : ∀ type v, lookupText type content = some v →
      IsMapOf (fun media => OrNull (IsSchema types) (valueAt media "schema")) v)
    (contentTypes : List String) :
    ∃ schema, schemaOfTypes? content contentTypes = some schema ∧
      OrNull (IsSchema types) schema := by
  induction contentTypes with
  | nil => exact ⟨.null, rfl, .inl rfl⟩
  | cons type rest ih =>
    obtain ⟨schema, hschema, hkind⟩ : ∃ schema, schemaOfType? content type = some schema ∧
        OrNull (IsSchema types) schema := by
      unfold schemaOfType?
      cases hlookup : lookupText type content with
      | none => exact ⟨.null, rfl, .inl rfl⟩
      | some v =>
        obtain ⟨media, rfl, hmedia⟩ := h type v hlookup
        exact ⟨_, rfl, hmedia⟩
    simp only [schemaOfTypes?, hschema, Option.bind_eq_bind, Option.bind_some]
    split
    · exact ⟨schema, rfl, hkind⟩
    · exact ih

theorem exists_schema {es : List (Value × Value)} (h : IsOperation types es) :
    ∃ schema, schema? (.map es) = some schema ∧ OrNull (IsSchema types) schema := by
  obtain ⟨responses, hresponses, hsuccess⟩ := exists_entries h.responses (.inl rfl)
  obtain ⟨answer, hanswer, hkind⟩ := exists_entries hsuccess ⟨.inl rfl, .inl rfl⟩
  obtain ⟨content, hcontent, hmedia⟩ := exists_entries hkind.content nofun
  unfold schema?
  simp only [part?_map, hresponses, hanswer, Option.bind_eq_bind, Option.bind_some,
    ← valueAt.eq_def, hcontent]
  split
  · exact ⟨_, rfl, hkind.schema⟩
  · exact exists_schemaOfTypes hmedia contentTypes

end Response

/-! ## Parameters -/

namespace Parameter

/-- A parameter that can be written on a page. -/
structure IsPrintable (q : Parameter) : Prop where
  identifier : q.identifier.IsText
  allowed : ∀ v ∈ q.allowed, v.hasLiteral = true

variable {methodName location : String} {earlier : List Parameter} {types : Value → Prop}

theorem isPrintable_of_compileNode (hp : p.HasTexts) {es : List (Value × Value)}
    (hes : IsParameter types es) {found : Option Parameter}
    (h : (compileNode p methodName location earlier es).result = .ok found) :
    ∀ q ∈ found, IsPrintable q := by
  obtain ⟨allowed, hallowed, literals⟩ := exists_allowed hes
  unfold compileNode at h
  obtain ⟨nameValue, -, h⟩ := Logged.result_bind_eq_ok.mp h
  simp only [hallowed, Compile.shaped_some, pure_bind] at h
  split at h
  · obtain ⟨_, -, h⟩ := Logged.result_bind_eq_ok.mp h
    cases h
    simp
  · obtain ⟨name, -, h⟩ := Logged.result_bind_eq_ok.mp h
    obtain ⟨type, -, h⟩ := Logged.result_bind_eq_ok.mp h
    split at h
    · cases h
    · obtain ⟨description, -, h⟩ := Logged.result_bind_eq_ok.mp h
      cases h
      rintro q ⟨⟩
      refine ⟨isText_safeName hp _ _, fun v hv => ?_⟩
      cases allowed with
      | none => cases hv
      | some e => exact literals e rfl v hv

theorem isPrintable_of_compile (hp : p.HasTexts) {shared es : List (Value × Value)}
    (hshared : ∀ e ∈ shared, OrNull (IsMapOf (IsParameter types)) e.2)
    (hes : IsParameterEntry types es) {found : Option Parameter}
    (h : (compile p (.map shared) methodName location earlier (.map es)).result = .ok found) :
    ∀ q ∈ found, IsPrintable q := by
  rcases compile_cases p methodName location hshared hes earlier with
    ⟨target, -, hkind, heq⟩ | ⟨-, cause, heq⟩
  · rw [heq] at h
    exact isPrintable_of_compileNode hp hkind h
  · rw [heq] at h
    cases h

theorem isPrintable_of_compileAll (hp : p.HasTexts) {shared : List (Value × Value)}
    (hshared : ∀ e ∈ shared, OrNull (IsMapOf (IsParameter types)) e.2) {entries : List Value}
    (hentries : ∀ entry ∈ entries, IsMapOf (IsParameterEntry types) entry)
    (hearlier : ∀ q ∈ earlier, IsPrintable q) {params : List Parameter}
    (h : (compileAll p (.map shared) methodName location earlier entries).result = .ok params) :
    ∀ q ∈ params, IsPrintable q := by
  induction entries generalizing earlier with
  | nil =>
    cases h
    exact hearlier
  | cons entry rest ih =>
    obtain ⟨es, rfl, hes⟩ := hentries entry List.mem_cons_self
    obtain ⟨found, hfound, h⟩ := Logged.result_bind_eq_ok.mp h
    refine ih (fun e he => hentries e (List.mem_cons_of_mem _ he))
      (List.forall_mem_append.mpr ⟨hearlier, fun q hq => ?_⟩) h
    exact isPrintable_of_compile hp hshared hes hfound q (Option.mem_toList.mp hq)

end Parameter

/-! ## Operations -/

namespace Operation

def methodOf (p : Profile) (path verb : String) : String :=
  Naming.methodName ((pathRoot? p).getD []) verb path

def responseNaming (p : Profile) (path verb : String) : NamingContext :=
  ⟨.text (methodOf p path verb), .text "response", place (.text path) verb ++ ".responses.200"⟩

def entriesOf (es : List (Value × Value)) : List Value :=
  ((valueAt es "parameters").elementsOrNone?).getD []

/-- A list of types is looked up in an operation: in its response, or in an entry of its parameter
list that is reached. -/
inductive LooksUpList (p : Profile) (shared : List (Value × Value)) (path verb : String)
    (es : List (Value × Value)) : Prop
  | response {schema : Value} (declared : Response.schema? (.map es) = some schema)
    (list : schema.LooksUpList)
  | parameter {schema : Value} (declared : Response.schema? (.map es) = some schema) {d : Descriptor}
    (response : (wireType p schema (responseNaming p path verb)).result = .ok d) {entry : Value}
    (reached : Reaches
      (Parameter.addEntry p (.map shared) (methodOf p path verb) (place (.text path) verb)) []
      (entriesOf es) entry)
    (list : Parameter.EntryLooksUpList p shared (methodOf p path verb) (place (.text path) verb)
      entry)

theorem exists_pathRoot (hp : p.HasTexts) : ∃ root, pathRoot? p = some root := by
  obtain ⟨s, hs⟩ := hp.pathRoot
  rw [pathRoot?, hs]
  exact ⟨_, rfl⟩

theorem isText_argumentFor {params : List Parameter} (h : ∀ q ∈ params, q.identifier.IsText)
    {name : String} : ∀ v ∈ argumentFor name params, v.IsText := by
  unfold argumentFor
  suffices ∀ found : Option Value, (∀ v ∈ found, v.IsText) → ∀ v ∈ params.foldl (fun found q =>
      if q.placement ≠ .path then found
      else if q.name = name then some q.identifier
      else if q.key = name then found.or (some q.identifier)
      else found) found, v.IsText from this none nofun
  induction params with
  | nil => exact fun found hfound => hfound
  | cons q rest ih =>
    intro found hfound
    have hq := h q List.mem_cons_self
    refine ih (fun r hr => h r (List.mem_cons_of_mem _ hr)) _ fun v hv => ?_
    beta_reduce at hv
    split at hv
    · exact hfound v hv
    · split at hv
      · cases hv
        exact hq
      · split at hv
        · cases found with
          | some w => exact hfound v hv
          | none =>
            cases hv
            exact hq
        · exact hfound v hv

theorem hasFate_urlText {params : List Parameter} (h : ∀ q ∈ params, q.identifier.IsText)
    (location : String) (parts : List PathPart) :
    HasFate (ApiSmith.urlText params location parts) := by
  induction parts with
  | nil => exact hasFate_pure _
  | cons part rest ih =>
    cases part with
    | plain c => exact hasFate_bind_iff.mpr ⟨ih, fun _ _ => hasFate_pure _⟩
    | placeholder name =>
      unfold ApiSmith.urlText
      split
      · exact hasFate_defect _ _
      · next argument hargument =>
        obtain ⟨s, rfl⟩ := isText_argumentFor h _ hargument
        simp only [text?, Compile.shaped_some, pure_bind]
        exact hasFate_bind_iff.mpr ⟨ih, fun _ _ => hasFate_pure _⟩

theorem looksUpList_iff {shared es : List (Value × Value)} {path verb : String} {schema : Value}
    (declared : Response.schema? (.map es) = some schema) :
    LooksUpList p shared path verb es ↔
      schema.LooksUpList ∨ ∃ d, (wireType p schema (responseNaming p path verb)).result = .ok d ∧
        ∃ entry, Reaches
            (Parameter.addEntry p (.map shared) (methodOf p path verb) (place (.text path) verb)) []
            (entriesOf es) entry ∧
          Parameter.EntryLooksUpList p shared (methodOf p path verb) (place (.text path) verb)
            entry := by
  constructor
  · intro h
    cases h with
    | response other list =>
      cases declared.symm.trans other
      exact .inl list
    | parameter other response reached list =>
      cases declared.symm.trans other
      exact .inr ⟨_, response, _, reached, list⟩
  · rintro (list | ⟨d, response, entry, reached, list⟩)
    · exact .response declared list
    · exact .parameter declared response reached list

theorem not_looksUpList {shared es : List (Value × Value)} {path verb : String}
    (hshared : ∀ e ∈ shared, OrNull (IsMapOf (IsParameter (OrNull IsText))) e.2)
    (h : IsOperation (OrNull IsText) es) : ¬ LooksUpList p shared path verb es := by
  obtain ⟨schema, hschema, hkind⟩ := Response.exists_schema h
  obtain ⟨entries, hentries, hparams⟩ := elementsOrNone?_of_list h.parameters
  rw [looksUpList_iff hschema, entriesOf, hentries]
  rintro (list | ⟨d, -, entry, reached, list⟩)
  · rcases hkind with rfl | hkind
    · cases list
    · exact hkind.not_looksUpList list
  · exact Parameter.not_entryLooksUpList hshared (hparams entry reached.mem) list

/-- An operation is compiled, or has a defect, unless a list of types is looked up in it. -/
theorem hasFate_compile_iff (hp : p.HasTexts) {shared : List (Value × Value)}
    (hshared : ∀ e ∈ shared, OrNull (IsMapOf (IsParameter IsOneOrSeveral)) e.2)
    (path method : String) {es : List (Value × Value)} (h : IsOperation IsOneOrSeveral es) :
    HasFate (compile p (.map shared) (.text path) method (.map es)) ↔
      ¬ LooksUpList p shared path (Text.lowerString method) es := by
  obtain ⟨root, hroot⟩ := exists_pathRoot hp
  obtain ⟨schema, hschema, hkind⟩ := Response.exists_schema h
  obtain ⟨entries, hentries, hparams⟩ := elementsOrNone?_of_list h.parameters
  obtain ⟨summary, hsummary⟩ := exists_comment hp h.summary
  have hmethod : Naming.methodName root (Text.lowerString method) path =
      methodOf p path (Text.lowerString method) := by
    rw [methodOf, hroot]
    rfl
  have hof : entriesOf es = entries := by
    rw [entriesOf, hentries]
    rfl
  unfold compile
  simp only [text?, hroot, hschema, hentries, part?_map, Compile.shaped_some, pure_bind, hmethod,
    ← responseNaming.eq_def]
  rw [looksUpList_iff hschema, hof]
  by_cases hnull : schema = .null
  · subst hnull
    refine iff_of_true (hasFate_defect _ _) ?_
    rintro (list | ⟨d, response, -⟩)
    · cases list
    · cases response
  rw [if_neg (mt isNull_iff.mp hnull), hasFate_bind_iff,
    hasFate_wireType_iff hp (hkind.resolve_left hnull) ⟨⟨_, rfl⟩, ⟨_, rfl⟩⟩, not_or, not_exists]
  refine and_congr_right fun _ => forall_congr' fun d => ?_
  rw [not_and, ← Parameter.hasFate_compileAll_iff hp hshared hparams, hasFate_bind_iff]
  -- what comes after the parameters does not stop the run
  refine imp_congr_right fun _ => and_iff_left fun params compiled => ?_
  have hprintable :=
    Parameter.isPrintable_of_compileAll hp hshared hparams (List.forall_mem_nil _) compiled
  refine hasFate_bind_iff.mpr
    ⟨hasFate_urlText (fun q hq => (hprintable q hq).identifier) _ _, fun url _ => ?_⟩
  exact (hasFate_bind_of_ok hsummary).mpr (hasFate_pure _)

theorem isPrintable_of_compile (hp : p.HasTexts) {types : Value → Prop}
    {shared : List (Value × Value)}
    (hshared : ∀ e ∈ shared, OrNull (IsMapOf (IsParameter types)) e.2) {path : Value}
    {method : String} {es : List (Value × Value)} (hes : IsOperation types es) {op : Operation}
    (h : (compile p (.map shared) path method (.map es)).result = .ok op) :
    ∀ q ∈ op.parameters, q.IsPrintable := by
  obtain ⟨entries, hentries, hparams⟩ := elementsOrNone?_of_list hes.parameters
  obtain ⟨part, own, hpart, hown, compiled⟩ := (steps_of_compile h).parameters
  cases hpart
  cases hentries.symm.trans hown
  exact Parameter.isPrintable_of_compileAll hp hshared hparams (List.forall_mem_nil _) compiled

end Operation

/-! ## Pages -/

theorem exists_typeText (hp : p.HasTexts) (d : Descriptor) : ∃ t, d.typeText? p = some t := by
  obtain ⟨start, hstart⟩ := hp.modelStart
  obtain ⟨ending, hending⟩ := hp.enumEnd
  induction d with
  | primitive kind => exact ⟨_, rfl⟩
  | reference name => exact ⟨_, by rw [Descriptor.typeText?, Profile.modelClass?, hstart, concat?]⟩
  | enum spec =>
    refine ⟨start ++ spec.name ++ ending, ?_⟩
    rw [Descriptor.typeText?, Profile.enumClass?, hstart, hending]
    rfl
  | array d ih =>
    obtain ⟨t, ht⟩ := ih
    exact ⟨_, by rw [Descriptor.typeText?, ht, Option.map_some]⟩

theorem exists_modelClass (hp : p.HasTexts) (name : String) :
    ∃ c, p.modelClass? (.text name) = some c :=
  exists_typeText hp (.reference name)

theorem exists_places (hp : p.HasTexts) (names : List String) : ∃ ps, p.places? names = some ps :=
  exists_mapM_eq_some fun name _ => by
    obtain ⟨c, hc⟩ := exists_modelClass hp name
    exact ⟨_, by rw [hc, Option.map_some]⟩

theorem ModelPage.exists_of? (hp : p.HasTexts) {m : Model} (hm : m.name.IsText) :
    ∃ page, ModelPage.of? p m = some page := by
  obtain ⟨name, hname⟩ := hm
  obtain ⟨fields, hfields⟩ : ∃ fields, m.fields.mapM (FieldLine.of? p) = some fields :=
    exists_mapM_eq_some fun f _ => by
      obtain ⟨t, ht⟩ := exists_typeText hp f.type
      exact ⟨_, by rw [FieldLine.of?, ht]; rfl⟩
  obtain ⟨enums, henums⟩ : ∃ enums, m.enums.mapM (EnumClass.of? p) = some enums :=
    exists_mapM_eq_some fun spec _ => by
      obtain ⟨c, hc⟩ := exists_typeText hp (.enum spec)
      rw [Descriptor.typeText?] at hc
      exact ⟨_, by rw [EnumClass.of?, hc, Option.map_some]⟩
  obtain ⟨className, hclass⟩ := exists_modelClass hp name
  obtain ⟨references, hreferences⟩ := exists_places hp m.references
  unfold ModelPage.of?
  simp only [hfields, hname, text?, hclass, henums, hreferences, Option.bind_eq_bind,
    Option.bind_some]
  exact ⟨_, rfl⟩

theorem MethodPart.exists_of? (hp : p.HasTexts) {op : Operation}
    (h : ∀ q ∈ op.parameters, q.IsPrintable) : ∃ part, MethodPart.of? p op = some part := by
  obtain ⟨params, hparams⟩ : ∃ params, op.parameters.mapM (ParameterLine.of? p) = some params :=
    exists_mapM_eq_some fun q hq => by
      obtain ⟨t, ht⟩ := exists_typeText hp q.type
      obtain ⟨description, hdescription⟩ :
          ∃ d, ParameterLine.describe? q.description q.allowed = some d := by
        have hall : (!q.allowed.all hasLiteral) = false := by simpa using (h q hq).allowed
        unfold ParameterLine.describe?
        rw [hall]
        split <;> exact ⟨_, rfl⟩
      exact ⟨_, by rw [ParameterLine.of?, ht, hdescription]; rfl⟩
  obtain ⟨result, hresult⟩ := exists_typeText hp op.response
  unfold MethodPart.of?
  simp only [hparams, hresult]
  exact ⟨_, rfl⟩

theorem GroupPage.exists_of? (hp : p.HasTexts) {g : Group}
    (h : ∀ op ∈ g.operations, ∀ q ∈ op.parameters, q.IsPrintable) :
    ∃ page, GroupPage.of? p g = some page := by
  obtain ⟨ending, hending⟩ := hp.groupEnd
  obtain ⟨methods, hmethods⟩ : ∃ methods, g.operations.mapM (MethodPart.of? p) = some methods :=
    exists_mapM_eq_some fun op hop => MethodPart.exists_of? hp (h op hop)
  obtain ⟨references, hreferences⟩ := exists_places hp g.references
  unfold GroupPage.of?
  simp only [Group.className?, hending, text?, hmethods, hreferences]
  exact ⟨_, rfl⟩

theorem Group.exists_of_mem {ops : List Operation} {g : Group} (hg : g ∈ Group.ofOperations ops)
    {op : Operation} (hop : op ∈ g.operations) :
    ∃ other ∈ ops, other.parameters = op.parameters := by
  obtain ⟨key, -, rfl⟩ := List.mem_map.mp hg
  obtain ⟨other, hother, name, rfl⟩ :=
    exists_of_mem_forall₂ (Group.distinguish_renames _ _ _) hop
  exact ⟨other, List.mem_of_mem_filter hother, rfl⟩

/-! ## Builds -/

namespace Package

theorem exists_ok_bind {α β : Type} {x : Compile α} {f : α → Compile β} {a : α}
    (h : x.result = .ok a) (hf : ∃ b, (f a).result = .ok b) : ∃ b, (x >>= f).result = .ok b := by
  obtain ⟨b, hb⟩ := hf
  exact ⟨b, Logged.result_bind_eq_ok.mpr ⟨a, h, hb⟩⟩

theorem exists_attempts {α β : Type} (kind : ArtifactKind) (name : β → Value) {x : β → Compile α}
    {es : List β} (fates : ∀ e ∈ es, HasFate (x e)) :
    ∃ rs, (es.mapM fun e => attempt kind (name e) (x e)).result = .ok rs := by
  induction es with
  | nil => exact ⟨[], rfl⟩
  | cons e rest ih =>
    obtain ⟨rs, hrs⟩ := ih fun e he => fates e (List.mem_cons_of_mem _ he)
    obtain ⟨r, hr⟩ : ∃ r, (attempt kind (name e) (x e)).result = .ok r := by
      rw [result_attempt]
      rcases (fates e List.mem_cons_self).cases kind (name e) with ⟨a, ha, -⟩ | ⟨d, hd, -⟩
      · exact ⟨_, by rw [ha]⟩
      · exact ⟨_, by rw [hd]⟩
    rw [Logged.result_mapM_eq_ok] at hrs
    exact ⟨r :: rs, Logged.result_mapM_eq_ok.mpr (.cons hr hrs)⟩

theorem exists_build {doc : Document}
    (definitions : ∀ d ∈ doc.definitions, HasFate (Model.compile p d.1 (orEmpty d.2)))
    (entries : ∀ names, ∀ e ∈ pathEntries doc.paths,
      HasFate (compileOperation p (.map doc.parameters) names e.1 e.2))
    (models : ∀ m ∈ compiledModels p doc, ∃ page, ModelPage.of? p m = some page)
    (groups : ∀ left, ∀ g ∈ Group.ofOperations
      ((pathEntries doc.paths).filterMap (operationAmong? p doc left)),
        ∃ page, GroupPage.of? p g = some page) :
    ∃ pkg, (build p doc).result = .ok pkg := by
  obtain ⟨compiled, hcompiled⟩ := exists_attempts .definition (·.1) definitions
  have hleft : ∀ m ∈ (Model.settle (compiledModels p doc)).1,
      ∃ page, ModelPage.of? p m = some page :=
    fun m hm => models m ((Model.settle_sublist _).subset hm)
  obtain ⟨modelPages, hmodels⟩ := exists_mapM_eq_some hleft
  obtain ⟨attempted, hattempted⟩ := exists_attempts .operation
    (fun e : Value × String × Value => operationLabel e.1 e.2.1)
    (entries (Model.names (Model.settle (compiledModels p doc)).1))
  obtain ⟨groupPages, hgroups⟩ :=
    exists_mapM_eq_some (groups (Model.settle (compiledModels p doc)).1)
  unfold build
  -- the attempts give just the models and the operations whose pages were found above
  refine exists_ok_bind hcompiled ?_
  simp only [separate_of_attempts hcompiled]
  refine exists_ok_bind (Logged.result_mapM_of_ok (g := unresolvedOmission) (fun _ => rfl) _) ?_
  refine exists_ok_bind (Compile.result_shaped_eq_ok.mpr hmodels) ?_
  refine exists_ok_bind hattempted ?_
  simp only [separate_of_attempts hattempted, result_compileOperation]
  refine exists_ok_bind (Compile.result_shaped_eq_ok.mpr hgroups) ?_
  exact exists_ok_bind rfl ⟨_, rfl⟩

theorem hasFate_compileOperation_iff {shared : Value} {names : List Value} {path : Value}
    {entry : String × Value} :
    HasFate (compileOperation p shared names path entry) ↔
      HasFate (Operation.compile p shared path entry.1 (orEmpty entry.2)) := by
  unfold compileOperation
  rw [hasFate_bind_iff]
  refine and_iff_left fun op _ => ?_
  split
  · exact hasFate_pure _
  · exact hasFate_defect _ _

end Package

open Package (orEmpty pathEntries)

theorem exists_orEmpty {of : List (Value × Value) → Prop} {v : Value} (h : OrNull (IsMapOf of) v)
    (empty : of []) : ∃ es, orEmpty v = .map es ∧ of es := by
  obtain ⟨es, hes, rfl | ⟨-, hkind⟩⟩ := orElse_of_map h
  · exact ⟨[], hes, empty⟩
  · exact ⟨es, hes, hkind⟩

theorem isDefinition_nil (types : Value → Prop) : IsDefinition types [] :=
  ⟨.inl rfl, .inl rfl, .inl rfl⟩

theorem isOperation_nil (types : Value → Prop) : IsOperation types [] :=
  ⟨.inl rfl, .inl rfl, .inl rfl⟩

namespace Document

/-- A list of types is looked up in a definition or an operation of a document. -/
def LooksUpList (p : Profile) (doc : Document) : Prop :=
  (∃ d ∈ doc.definitions, ∃ es, orEmpty d.2 = .map es ∧ Model.LooksUpList p d.1 es) ∨
    ∃ e ∈ pathEntries doc.paths, ∃ path es, e.1 = .text path ∧ orEmpty e.2.2 = .map es ∧
      Operation.LooksUpList p doc.parameters path (Text.lowerString e.2.1) es

variable {doc : Document}

/-- The artifacts of a document have fates unless a list of types is looked up in one. -/
theorem fates_iff (hp : p.HasTexts) (kinds : doc.HasKinds IsOneOrSeveral) :
    ((∀ d ∈ doc.definitions, HasFate (Model.compile p d.1 (orEmpty d.2))) ∧
      ∀ e ∈ pathEntries doc.paths,
        HasFate (Operation.compile p (.map doc.parameters) e.1 e.2.1 (orEmpty e.2.2))) ↔
      ¬ doc.LooksUpList p := by
  simp only [LooksUpList, not_or, not_exists, not_and]
  refine and_congr (forall₂_congr fun d hd => ?_) (forall₂_congr fun e he => ?_)
  · obtain ⟨hname, hdefinition⟩ := kinds.definitions d hd
    obtain ⟨es, hes, hkind⟩ := exists_orEmpty hdefinition (isDefinition_nil _)
    rw [hes, Model.hasFate_compile_iff hp hname hkind]
    simp only [Value.map.injEq, forall_eq']
  · obtain ⟨⟨path, hpath⟩, hoperation⟩ := kinds.operations e he
    obtain ⟨es, hes, hkind⟩ := exists_orEmpty hoperation (isOperation_nil _)
    rw [hes, hpath, Operation.hasFate_compile_iff hp kinds.parameters path e.2.1 hkind]
    simp only [Value.map.injEq, Value.text.injEq]
    constructor
    · rintro h _ _ rfl rfl
      exact h
    · exact fun h => h _ _ rfl rfl

theorem HasKinds.not_looksUpList (kinds : doc.HasKinds (OrNull IsText)) : ¬ doc.LooksUpList p := by
  rintro (⟨d, hd, es, hes, list⟩ | ⟨e, he, path, es, -, hes, list⟩)
  · obtain ⟨_, heq, hkind⟩ := exists_orEmpty (kinds.definitions d hd).2 (isDefinition_nil _)
    cases hes.symm.trans heq
    exact Model.not_looksUpList hkind list
  · obtain ⟨_, heq, hkind⟩ := exists_orEmpty (kinds.operations e he).2 (isOperation_nil _)
    cases hes.symm.trans heq
    exact Operation.not_looksUpList kinds.parameters hkind list

end Document

namespace Package

variable {doc : Document} {pkg : Package}

theorem build_of_fates (hp : p.HasTexts) {types : Value → Prop} (kinds : doc.HasKinds types)
    (definitions : ∀ d ∈ doc.definitions, HasFate (Model.compile p d.1 (orEmpty d.2)))
    (operations : ∀ e ∈ pathEntries doc.paths,
      HasFate (Operation.compile p (.map doc.parameters) e.1 e.2.1 (orEmpty e.2.2))) :
    ∃ pkg, (build p doc).result = .ok pkg := by
  refine exists_build definitions (fun _ e he => hasFate_compileOperation_iff.mpr (operations e he))
    (fun m hm => ?_) fun left g hg => ?_
  · obtain ⟨d, hd, compiled⟩ := List.mem_filterMap.mp hm
    rw [toOption_eq_some] at compiled
    exact ModelPage.exists_of? hp (Model.name_of_compile compiled ▸ (kinds.definitions d hd).1)
  · refine GroupPage.exists_of? hp fun op hop => ?_
    obtain ⟨other, hother, heq⟩ := Group.exists_of_mem hg hop
    obtain ⟨e, he, compiled⟩ := List.mem_filterMap.mp hother
    have hcompiled := toOption_eq_some.mp (Option.eq_some_of_filter_eq_some compiled)
    obtain ⟨es, hes, hkind⟩ := exists_orEmpty (kinds.operations e he).2 (isOperation_nil _)
    rw [hes] at hcompiled
    rw [← heq]
    exact Operation.isPrintable_of_compile hp kinds.parameters hkind hcompiled

theorem defects_omitted (h : (build p doc).result = .ok pkg) :
    (∀ d ∈ doc.definitions, ∀ f, (Model.compile p d.1 (orEmpty d.2)).result = .error (.defect f) →
      ⟨.definition, d.1, f⟩ ∈ pkg.omissions) ∧
    ∀ e ∈ pathEntries doc.paths, ∀ f,
      (Operation.compile p (.map doc.parameters) e.1 e.2.1 (orEmpty e.2.2)).result =
        .error (.defect f) → ⟨.operation, operationLabel e.1 e.2.1, f⟩ ∈ pkg.omissions := by
  rw [(build_assembled h).omissions]
  refine ⟨fun d hd f hf => ?_, fun e he f hf => ?_⟩
  · refine List.mem_append_left _ (List.mem_append_left _ (List.mem_filterMap.mpr ⟨d, hd, ?_⟩))
    rw [omission?, hf]
  · refine List.mem_append_right _ (List.mem_filterMap.mpr ⟨e, he, ?_⟩)
    have hdefect : (compileOperation p (.map doc.parameters)
        (Model.names (Model.settle (compiledModels p doc)).1) e.1 e.2).result =
          .error (.defect f) := by
      rw [compileOperation, Logged.result_bind, hf]
      rfl
    rw [omission?, hdefect]

/-- A document whose parts have their kinds is built unless a list of types is looked up in it, and
so it is built if each type is one. Every definition and operation with a defect is then among the
omissions. -/
theorem build_returns_iff (preset : p ∈ Profile.presets) (kinds : doc.HasKinds IsOneOrSeveral) :
    ((∃ pkg, (build p doc).result = .ok pkg) ↔ ¬ doc.LooksUpList p) ∧
    (doc.HasKinds (OrNull IsText) → ∃ pkg, (build p doc).result = .ok pkg) ∧
    ∀ pkg, (build p doc).result = .ok pkg →
      (∀ d ∈ doc.definitions, ∀ f, (Model.compile p d.1 (orEmpty d.2)).result = .error (.defect f) →
        ⟨.definition, d.1, f⟩ ∈ pkg.omissions) ∧
      ∀ e ∈ pathEntries doc.paths, ∀ f,
        (Operation.compile p (.map doc.parameters) e.1 e.2.1 (orEmpty e.2.2)).result =
          .error (.defect f) → ⟨.operation, operationLabel e.1 e.2.1, f⟩ ∈ pkg.omissions := by
  have hp := Profile.hasTexts_of_preset preset
  have returns (hlist : ¬ doc.LooksUpList p) : ∃ pkg, (build p doc).result = .ok pkg := by
    obtain ⟨definitions, operations⟩ := (Document.fates_iff hp kinds).mpr hlist
    exact build_of_fates hp kinds definitions operations
  refine ⟨⟨?_, returns⟩, fun one => returns one.not_looksUpList, fun pkg h => defects_omitted h⟩
  rintro ⟨pkg, h⟩
  obtain ⟨definitions, operations⟩ := hasFate_of_build h
  exact (Document.fates_iff hp kinds).mp
    ⟨definitions, fun e he => hasFate_compileOperation_iff.mp (operations e he)⟩

def fieldSchema (key : String) (type : Value) : Value :=
  .map [(.text "properties", .map [(.text key, .map [(.text "type", type)])])]

/-- Users with a name of some type, and cards that can be got. -/
def userDocument (type : Value) : Document where
  definitions := [(.text "User", fieldSchema "name" type),
    (.text "Card", fieldSchema "id" (.text "integer"))]
  distinct := List.pairwise_pair.mpr
    (show (Value.text "User").same (.text "Card") = false by decide +kernel)
  paths := [(.text "/card", [("get", answering "Card")])]
  parameters := []
  title := .text "Cards"
  version := "1"

theorem isSchema_of_type {types : Value → Prop} {type : Value} (h : types type) :
    (Value.map [(.text "type", type)]).IsSchema types :=
  .map h (.inl rfl) (.inl rfl) nofun (.inl rfl) (.inl rfl) nofun (.inl rfl) nofun

theorem isSchema_referenceTo {types : Value → Prop} (null : types .null) (name : String) :
    (referenceTo name).IsSchema types := by
  refine .map null (.inl rfl) (.inl rfl) ?_ (.inl rfl) (.inl rfl) nofun (.inl rfl) nofun
  rintro v ⟨⟩
  exact ⟨_, rfl⟩

theorem hasKinds_userDocument (types : Value → Prop) {type : Value} (h : types type)
    (null : types .null) (integer : types (.text "integer")) : (userDocument type).HasKinds types := by
  have hdefinition {key : String} {type : Value} (h : types type) :
      OrNull (IsMapOf (IsDefinition types)) (fieldSchema key type) := by
    refine .inr ⟨_, rfl, .inl rfl, .inl rfl, .inr ⟨_, rfl, ?_⟩⟩
    simp only [List.mem_singleton, forall_eq]
    exact ⟨⟨_, rfl⟩, isSchema_of_type h⟩
  refine ⟨?_, ?_, List.forall_mem_nil _⟩
  · simp only [userDocument, List.forall_mem_cons]
    exact ⟨⟨⟨_, rfl⟩, hdefinition h⟩, ⟨⟨_, rfl⟩, hdefinition integer⟩, List.forall_mem_nil _⟩
  · simp only [userDocument, pathEntries, List.flatMap_cons, List.flatMap_nil, List.map_cons,
      List.map_nil, List.append_nil, List.mem_singleton, forall_eq]
    have hanswer : IsAnswer types [(.text "schema", referenceTo "Card")] :=
      ⟨.inr (isSchema_referenceTo null "Card"), .inl rfl⟩
    exact ⟨⟨_, rfl⟩, .inr ⟨_, rfl, .inr ⟨_, rfl, .inr ⟨_, rfl, hanswer⟩⟩, .inl rfl, .inl rfl⟩⟩

/-- The types of a text that may be null, as one list. -/
def severalTypes : Value := .list (["string", "null"].map .text)

/-- With a list of types nothing is built; with an unknown type the users are left out. -/
theorem build_returns_iff_of_users :
    ((userDocument severalTypes).HasKinds IsOneOrSeveral ∧
      ¬ ∃ pkg, (build .common (userDocument severalTypes)).result = .ok pkg) ∧
    (userDocument (.text "nullable")).HasKinds (OrNull IsText) ∧
    ∃ pkg, (build .common (userDocument (.text "nullable"))).result = .ok pkg ∧
      pkg.models.map (·.name) = ["Card"] ∧ ∃ f, ⟨.definition, .text "User", f⟩ ∈ pkg.omissions := by
  have preset : Profile.common ∈ Profile.presets := List.mem_cons_self
  have kinds {type : Value} (h : IsOneOrSeveral type) :
      (userDocument type).HasKinds IsOneOrSeveral :=
    hasKinds_userDocument _ h (.inl (.inl rfl)) (.inl (.inr ⟨_, rfl⟩))
  have several : IsOneOrSeveral severalTypes := .inr ⟨_, rfl⟩
  have single : OrNull IsText (.text "nullable") := .inr ⟨_, rfl⟩
  have list : (userDocument severalTypes).LooksUpList .common := by
    refine .inl ⟨_, List.mem_cons_self, _, rfl, _, ⟨[], [], rfl, _, rfl⟩, ?_⟩
    exact .own rfl rfl nofun rfl
  have one : (userDocument (.text "nullable")).HasKinds (OrNull IsText) :=
    hasKinds_userDocument _ single (.inl rfl) (.inr ⟨_, rfl⟩)
  have hlist := (build_returns_iff preset (kinds several)).1
  obtain ⟨-, hone, homissions⟩ := build_returns_iff preset (kinds (.inl single))
  obtain ⟨pkg, hpkg⟩ := hone one
  have hnames : (build .common (userDocument (.text "nullable"))).result.toOption.map
      (fun pkg => pkg.models.map (·.name)) = some ["Card"] := by decide +kernel
  rw [hpkg] at hnames
  refine ⟨⟨kinds several, fun returns => hlist.mp returns list⟩, one, pkg, hpkg,
    Option.some.inj hnames, ?_⟩
  have hfault : (Model.compile .common (.text "User")
      (orEmpty (fieldSchema "name" (.text "nullable")))).result.isOk = false := by decide +kernel
  rcases ((hasFate_of_build hpkg).1 _ List.mem_cons_self).cases .definition (.text "User") with
    ⟨m, hm, -⟩ | ⟨f, hf, -⟩
  · rw [show (Model.compile .common (.text "User")
      (orEmpty (fieldSchema "name" (.text "nullable")))).result = .ok m from hm] at hfault
    cases hfault
  · exact ⟨f, (homissions pkg hpkg).1 _ List.mem_cons_self f hf⟩

end Package

end ApiSmith

import ApiSmith.Proofs.Assembly
import ApiSmith.Proofs.Operations

/-!
# What becomes of artifacts

A package that was built says of every definition and of every entry of a path what became of it: it
has a page or a method, or it is among the omissions. An artifact can be left out at three places,
where it is compiled, where the table of models is settled and where the references of an operation
are looked up, but at each of these its fate is a result or a defect (`hasFate_of_build`). So nothing
is lost and nothing is counted twice (`perm_definitions`, `omitted_operations`).
-/

namespace ApiSmith

/-! ## Pages of models -/

/-- What a page takes from a model. -/
structure ModelPage.Prints (p : Profile) (m : Model) (page : ModelPage) : Prop where
  name : m.name = .text page.name
  module : page.place.module = Naming.moduleName page.name
  className : p.modelClass? (.text page.name) = some page.place.className
  fields : m.fields.mapM (FieldLine.of? p) = some page.fields
  enums : m.enums.mapM (EnumClass.of? p) = some page.enums
  references : p.places? m.references = some page.references
  needs : page.needs = .of (m.fields.map (·.type))

theorem ModelPage.prints_of? {p : Profile} {m : Model} {page : ModelPage}
    (h : ModelPage.of? p m = some page) : ModelPage.Prints p m page := by
  simp only [ModelPage.of?, Option.pure_def, Option.bind_eq_bind, Option.bind_eq_some_iff,
    Option.some.injEq] at h
  obtain ⟨fields, hfields, name, hname, className, hclass, enums, henums, references,
    hreferences, rfl⟩ := h
  exact ⟨Value.text?_eq_some.mp hname, rfl, hclass, hfields, henums, hreferences, rfl⟩

namespace Package

variable {α β : Type}

theorem forall₂_through {γ : Type} {R : α → β → Prop} {S : β → γ → Prop} {T : α → γ → Prop}
    {as : List α} {bs : List β} {cs : List γ} (hr : List.Forall₂ R as bs)
    (hs : List.Forall₂ S bs cs) (through : ∀ a b c, R a b → S b c → T a c) :
    List.Forall₂ T as cs := by
  induction hr generalizing cs with
  | nil =>
    cases hs
    exact .nil
  | cons h _ ih =>
    cases hs with
    | cons hs hrest => exact .cons (through _ _ _ h hs) (ih hrest)

/-! ## Fates -/

/-- Whether compiling comes to a result or to a defect, and does not stop the run. -/
def HasFate (x : Compile α) : Prop := ∀ h, x.result = .error h → ∃ d, h = .defect d

theorem hasFate_of_attempt {kind : ArtifactKind} {name : Value} {x : Compile α} {r : Omission ⊕ α}
    (h : (attempt kind name x).result = .ok r) : HasFate x := by
  intro e he
  rw [result_attempt, he] at h
  cases e with
  | defect d => exact ⟨d, rfl⟩
  | shape => cases h
  | template => cases h

theorem hasFate_of_attempts {kind : ArtifactKind} {name : β → Value} {x : β → Compile α}
    {es : List β} {rs : List (Omission ⊕ α)}
    (h : (es.mapM fun e => attempt kind (name e) (x e)).result = .ok rs) :
    ∀ e ∈ es, HasFate (x e) := by
  rw [Logged.result_mapM_eq_ok] at h
  induction h with
  | nil => simp
  | cons hr _ ih => exact List.forall_mem_cons.mpr ⟨hasFate_of_attempt hr, ih⟩

theorem HasFate.cases {x : Compile α} (h : HasFate x) (kind : ArtifactKind) (name : Value) :
    (∃ a, x.result = .ok a ∧ omission? kind name x = none) ∨
      ∃ d, x.result = .error (.defect d) ∧ omission? kind name x = some ⟨kind, name, d⟩ := by
  cases hx : x.result with
  | ok a => exact .inl ⟨a, rfl, by rw [omission?, hx]⟩
  | error e =>
    obtain ⟨d, rfl⟩ := h e hx
    exact .inr ⟨d, rfl, by rw [omission?, hx]⟩

/-- Results and omissions together have the names of all artifacts, each once. -/
theorem perm_of_fates {kind : ArtifactKind} {name : β → Value} {x : β → Compile α} {es : List β}
    (fates : ∀ e ∈ es, HasFate (x e)) {nameOf : α → Value}
    (named : ∀ e a, (x e).result = .ok a → nameOf a = name e) :
    ((es.filterMap fun e => (x e).result.toOption).map nameOf ++
      (es.filterMap fun e => omission? kind (name e) (x e)).map (·.name)).Perm (es.map name) := by
  induction es with
  | nil => exact .refl _
  | cons e rest ih =>
    have hrest := ih fun e' he' => fates e' (List.mem_cons_of_mem _ he')
    rcases (fates e List.mem_cons_self).cases kind (name e) with ⟨a, ha, ho⟩ | ⟨d, hd, ho⟩
    · simp only [List.filterMap_cons, ha, ho, Except.toOption, List.map_cons, named e a ha,
        List.cons_append]
      exact hrest.cons _
    · simp only [List.filterMap_cons, hd, ho, Except.toOption, List.map_cons]
      exact List.perm_middle.trans (hrest.cons _)

theorem sublist_of_results {name : β → Value} {x : β → Compile α} {nameOf : α → Value}
    (named : ∀ e a, (x e).result = .ok a → nameOf a = name e) (es : List β) :
    ((es.filterMap fun e => (x e).result.toOption).map nameOf).Sublist (es.map name) := by
  induction es with
  | nil => exact .refl _
  | cons e rest ih =>
    cases hx : (x e).result with
    | ok a =>
      simp only [List.filterMap_cons, hx, Except.toOption, List.map_cons, named e a hx]
      exact ih.cons_cons _
    | error h =>
      simp only [List.filterMap_cons, hx, Except.toOption, List.map_cons]
      exact ih.cons _

theorem names_of_omissions {kind : ArtifactKind} {name : β → Value} {x : β → Compile α}
    {es : List β} (fates : ∀ e ∈ es, HasFate (x e)) :
    (es.filterMap fun e => omission? kind (name e) (x e)).map (·.name) =
      (es.filter fun e => !(x e).result.isOk).map name := by
  induction es with
  | nil => rfl
  | cons e rest ih =>
    have hrest := ih fun e' he' => fates e' (List.mem_cons_of_mem _ he')
    rcases (fates e List.mem_cons_self).cases kind (name e) with ⟨a, ha, ho⟩ | ⟨d, hd, ho⟩
    · simp only [List.filterMap_cons, ho, hrest]
      rw [List.filter_cons_of_neg (by rw [ha]; simp [Except.isOk, Except.toBool])]
    · simp only [List.filterMap_cons, ho, List.map_cons, hrest]
      rw [List.filter_cons_of_pos (by rw [hd]; rfl), List.map_cons]

theorem forall₂_results (x : β → Compile α) (es : List β) :
    List.Forall₂ (fun e a => (x e).result = .ok a) (es.filter fun e => (x e).result.isOk)
      (es.filterMap fun e => (x e).result.toOption) := by
  induction es with
  | nil => exact .nil
  | cons e rest ih =>
    cases hx : (x e).result with
    | ok a =>
      rw [List.filter_cons_of_pos (by rw [hx]; rfl),
        List.filterMap_cons_some (b := a) (by rw [hx]; rfl)]
      exact .cons hx ih
    | error h =>
      rw [List.filter_cons_of_neg (by simp [hx, Except.isOk, Except.toBool]),
        List.filterMap_cons_none (by rw [hx]; rfl)]
      exact ih

theorem kind_of_omission {kind : ArtifactKind} {name : Value} {x : Compile α} {o : Omission}
    (h : omission? kind name x = some o) : o.kind = kind := by
  unfold omission? at h
  split at h
  · cases h
    rfl
  · cases h

theorem filter_omissions (kind : ArtifactKind) (name : β → Value) (x : β → Compile α)
    (es : List β) :
    (es.filterMap fun e => omission? kind (name e) (x e)).filter (fun o => o.kind = kind) =
      es.filterMap fun e => omission? kind (name e) (x e) := by
  refine List.filter_eq_self.mpr fun o ho => ?_
  obtain ⟨e, -, ho⟩ := List.mem_filterMap.mp ho
  exact decide_eq_true (kind_of_omission ho)

theorem filter_omissions_of_ne {kind other : ArtifactKind} (hne : kind ≠ other)
    (name : β → Value) (x : β → Compile α) (es : List β) :
    (es.filterMap fun e => omission? kind (name e) (x e)).filter (fun o => o.kind = other) =
      [] := by
  refine List.filter_eq_nil_iff.mpr fun o ho => ?_
  obtain ⟨e, -, ho⟩ := List.mem_filterMap.mp ho
  simp [kind_of_omission ho, hne]

/-! ## What a package says -/

def modelNames (pkg : Package) : List Value := pkg.models.map fun m => .text m.name

def omitted (pkg : Package) (kind : ArtifactKind) : List Value :=
  (pkg.omissions.filter fun o => o.kind = kind).map (·.name)

def emitsModel (pkg : Package) (name : Value) : Bool := pkg.models.any fun m => name.isText m.name

/-- Whether an entry has a method: its operation compiles, and every definition that it refers to
has a page. -/
def emitsOperation (p : Profile) (doc : Document) (pkg : Package) (e : Value × String × Value) :
    Bool :=
  (compileOperation p (.map doc.parameters) pkg.modelNames e.1 e.2).result.isOk

theorem emitsModel_iff {pkg : Package} {name : Value} :
    pkg.emitsModel name = true ↔ name ∈ pkg.modelNames := by
  simp only [emitsModel, modelNames, List.any_eq_true, Value.isText_iff, List.mem_map]
  exact exists_congr fun m => and_congr_right fun _ => eq_comm

theorem compiled_of_compileOperation {p : Profile} {shared : Value} {names : List Value}
    {path : Value} {entry : String × Value} {op : Operation}
    (h : (compileOperation p shared names path entry).result = .ok op) :
    Operation.Compiled p path entry.1 op ∧
      ∀ ref ∈ op.references, Model.isNamedIn names ref = true := by
  obtain ⟨other, hother, h⟩ := Logged.result_bind_eq_ok.mp h
  cases hm : Model.missingIn names other.references with
  | none =>
    simp only [hm] at h
    cases h
    exact ⟨Operation.compiled_of_compile hother, Model.missingIn_eq_none.mp hm⟩
  | some ref =>
    simp only [hm] at h
    cases h

section

variable {p : Profile} {doc : Document} {pkg : Package}

theorem modelNames_of_left {left : List Model} (h : left.mapM (ModelPage.of? p) = some pkg.models) :
    pkg.modelNames = Model.names left :=
  map_eq_of_mapM h fun _ _ hm => (ModelPage.prints_of? hm).name.symm

theorem operations_of_left {left : List Model} (h : left.mapM (ModelPage.of? p) = some pkg.models) :
    (pathEntries doc.paths).filterMap (operationAmong? p doc left) =
      (pathEntries doc.paths).filterMap fun e =>
        (compileOperation p (.map doc.parameters) pkg.modelNames e.1 e.2).result.toOption :=
  List.filterMap_congr fun e _ => by
    rw [modelNames_of_left h, result_compileOperation, operationAmong?]

/-- In a package that was built, every artifact has a fate. -/
theorem hasFate_of_build (h : (build p doc).result = .ok pkg) :
    (∀ d ∈ doc.definitions, HasFate (Model.compile p d.1 (orEmpty d.2))) ∧
      ∀ e ∈ pathEntries doc.paths,
        HasFate (compileOperation p (.map doc.parameters) pkg.modelNames e.1 e.2) := by
  have hmodels := modelNames_of_left (build_assembled h).models
  unfold build at h
  obtain ⟨definitions, hdefinitions, h⟩ := Logged.result_bind_eq_ok.mp h
  rw [compileDefinitions] at hdefinitions
  simp only [separate_of_attempts hdefinitions] at h
  obtain ⟨_, -, h⟩ := Logged.result_bind_eq_ok.mp h
  obtain ⟨_, -, h⟩ := Logged.result_bind_eq_ok.mp h
  obtain ⟨operations, hoperations, -⟩ := Logged.result_bind_eq_ok.mp h
  rw [compileOperations] at hoperations
  refine ⟨hasFate_of_attempts hdefinitions, ?_⟩
  rw [hmodels]
  exact hasFate_of_attempts hoperations

theorem omitted_definition_eq {left : List Model} {out : List (Model × String)}
    (h : Assembled p doc left out pkg) :
    pkg.omitted .definition =
      (faultyDefinitions p doc).map (·.name) ++ out.map (·.1.name) := by
  have hout : (out.map unresolvedOmission).filter (fun o => o.kind = .definition) =
      out.map unresolvedOmission :=
    List.filter_eq_self.mpr fun o ho => by
      obtain ⟨d, -, rfl⟩ := List.mem_map.mp ho
      rfl
  rw [omitted, h.omissions, List.filter_append, List.filter_append, hout, faultyDefinitions,
    filter_omissions, skippedOperations, filter_omissions_of_ne (by decide), List.append_nil,
    List.map_append, List.map_map]
  rfl

/-- Every definition has a page or is among the omissions, and not both. -/
theorem perm_definitions (h : (build p doc).result = .ok pkg) :
    (pkg.modelNames ++ pkg.omitted .definition).Perm (doc.definitions.map (·.1)) := by
  have hall := build_assembled h
  have hsettled := (Model.settle_perm (compiledModels p doc)).map (·.name)
  rw [List.map_append, List.map_map] at hsettled
  rw [modelNames_of_left hall.models, omitted_definition_eq hall]
  -- the unresolved ones go back to those that are left, which makes the table of models
  refine (List.perm_append_comm.append_left _).trans ?_
  rw [← List.append_assoc]
  refine (hsettled.append_right _).trans ?_
  exact perm_of_fates (hasFate_of_build h).1 fun _ _ => Model.name_of_compile

theorem omitted_operations (h : (build p doc).result = .ok pkg) :
    pkg.omitted .operation =
      ((pathEntries doc.paths).filter fun e => !emitsOperation p doc pkg e).map
        fun e => operationLabel e.1 e.2.1 := by
  have hall := build_assembled h
  have hout : (out : List (Model × String)) → (out.map unresolvedOmission).filter
      (fun o => o.kind = .operation) = [] := fun out =>
    List.filter_eq_nil_iff.mpr fun o ho => by
      obtain ⟨d, -, rfl⟩ := List.mem_map.mp ho
      simp [unresolvedOmission]
  rw [omitted, hall.omissions, List.filter_append, List.filter_append, hout, faultyDefinitions,
    filter_omissions_of_ne (by decide), skippedOperations, filter_omissions, List.nil_append,
    List.nil_append, ← modelNames_of_left hall.models]
  exact names_of_omissions (hasFate_of_build h).2

end

end Package

end ApiSmith

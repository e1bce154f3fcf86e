import ApiSmith.Package
import ApiSmith.Proofs.Compiling
import ApiSmith.Proofs.Dependencies
import ApiSmith.Proofs.Grouping

/-!
# What a package is made of

`build_assembled` says what every successful build put together, without the order of its steps: the
models that compile and are left when the table is settled, the operations that compile and find
their definitions among these, and an omission for everything else. From it follows the main result,
`build_emits_what_resolves`: what is generated is the greatest part of the document whose references
stay in it.
-/

namespace ApiSmith

/-! ## Single artifacts -/

theorem Model.name_of_compile {p : Profile} {name schema : Value} {m : Model}
    (h : (Model.compile p name schema).result = .ok m) : m.name = name := by
  obtain ⟨required, properties, hsteps⟩ := Model.steps_of_compile h
  exact hsteps.name

namespace Package

variable {α β : Type}

def omission? (kind : ArtifactKind) (name : Value) (x : Compile α) : Option Omission :=
  match x.result with
  | .error (.defect d) => some ⟨kind, name, d⟩
  | _ => none

theorem result_attempt (kind : ArtifactKind) (name : Value) (x : Compile α) :
    (attempt kind name x).result =
      match x.result with
      | .ok a => .ok (.inr a)
      | .error (.defect d) => .ok (.inl ⟨kind, name, d⟩)
      | .error h => .error h := by
  unfold attempt
  cases x.result with
  | ok a => rfl
  | error h => cases h <;> rfl

theorem attempt_eq_ok {kind : ArtifactKind} {name : Value} {x : Compile α} {r : Omission ⊕ α}
    (h : (attempt kind name x).result = .ok r) :
    r.getLeft? = omission? kind name x ∧ r.getRight? = x.result.toOption := by
  rw [result_attempt] at h
  unfold omission?
  split at h <;> rename_i hx
  · cases h
    rw [hx]
    exact ⟨rfl, rfl⟩
  · cases h
    rw [hx]
    exact ⟨rfl, rfl⟩
  · cases h

theorem separate_of_attempts {kind : ArtifactKind} {name : β → Value} {x : β → Compile α}
    {es : List β} {rs : List (Omission ⊕ α)}
    (h : (es.mapM fun e => attempt kind (name e) (x e)).result = .ok rs) :
    separate rs = (es.filterMap fun e => omission? kind (name e) (x e),
      es.filterMap fun e => (x e).result.toOption) := by
  rw [Logged.result_mapM_eq_ok] at h
  unfold separate
  induction h with
  | nil => rfl
  | cons hr _ ih =>
    obtain ⟨hl, hr⟩ := attempt_eq_ok hr
    simp only [Prod.mk.injEq] at ih ⊢
    simp only [List.filterMap_cons, hl, hr, ih.1, ih.2, and_self]

theorem result_compileOperation {p : Profile} {shared : Value} {names : List Value} {path : Value}
    {entry : String × Value} :
    (compileOperation p shared names path entry).result.toOption =
      (Operation.compile p shared path entry.1 (orEmpty entry.2)).result.toOption.filter
        fun op => op.references.all (Model.isNamedIn names) := by
  unfold compileOperation
  rw [Logged.result_bind]
  cases (Operation.compile p shared path entry.1 (orEmpty entry.2)).result with
  | error h => rfl
  | ok op =>
    simp only [Except.bind, Except.toOption, Option.filter]
    cases hm : Model.missingIn names op.references with
    | none =>
      have : op.references.all (Model.isNamedIn names) = true :=
        List.all_eq_true.mpr (Model.missingIn_eq_none.mp hm)
      rw [if_pos this]
      rfl
    | some ref =>
      obtain ⟨href, hmissing⟩ := Model.missingIn_eq_some hm
      have : ¬ op.references.all (Model.isNamedIn names) = true := by
        intro hall
        rw [List.all_eq_true.mp hall ref href] at hmissing
        cases hmissing
      rw [if_neg this]
      rfl

/-! ## Whole documents -/

section

variable (p : Profile) (doc : Document)

def compiledModels : List Model :=
  doc.definitions.filterMap fun d => (Model.compile p d.1 (orEmpty d.2)).result.toOption

def faultyDefinitions : List Omission :=
  doc.definitions.filterMap fun d =>
    omission? .definition d.1 (Model.compile p d.1 (orEmpty d.2))

def unresolvedOmission (dropped : Model × String) : Omission :=
  ⟨.definition, dropped.1.name,
    ⟨.missingDefinition dropped.2, "definitions." ++ dropped.1.name.display⟩⟩

/-- The operation of an entry, if it compiles and all definitions that its types refer to are among
the models. -/
def operationAmong? (left : List Model) (e : Value × String × Value) : Option Operation :=
  (Operation.compile p (.map doc.parameters) e.1 e.2.1 (orEmpty e.2.2)).result.toOption.filter
    fun op => op.references.all (Model.isNamedIn (Model.names left))

/-- The omissions of the entries that have no such operation. -/
def skippedOperations (left : List Model) : List Omission :=
  (pathEntries doc.paths).filterMap fun e =>
    omission? .operation (operationLabel e.1 e.2.1)
      (compileOperation p (.map doc.parameters) (Model.names left) e.1 e.2)

/-- What a package has for a document when some models are left and others are out. -/
structure Assembled (left : List Model) (out : List (Model × String)) (pkg : Package) : Prop where
  heading : pkg.title = doc.title ∧ pkg.version = doc.version ∧ pkg.profileName = p.name
  models : left.mapM (ModelPage.of? p) = some pkg.models
  groups : (Group.ofOperations ((pathEntries doc.paths).filterMap (operationAmong? p doc left))).mapM
    (GroupPage.of? p) = some pkg.groups
  omissions : pkg.omissions =
    faultyDefinitions p doc ++ out.map unresolvedOmission ++ skippedOperations p doc left

end

/-- Every package is put together from a settled table. -/
theorem build_assembled {p : Profile} {doc : Document} {pkg : Package}
    (h : (build p doc).result = .ok pkg) :
    Assembled p doc (Model.settle (compiledModels p doc)).1
      (Model.settle (compiledModels p doc)).2 pkg := by
  unfold build at h
  obtain ⟨definitions, hdefinitions, h⟩ := Logged.result_bind_eq_ok.mp h
  rw [compileDefinitions] at hdefinitions
  simp only [separate_of_attempts hdefinitions] at h
  obtain ⟨unresolved, hunresolved, h⟩ := Logged.result_bind_eq_ok.mp h
  rw [Logged.result_mapM_of_ok (g := unresolvedOmission) (fun _ => rfl)] at hunresolved
  cases hunresolved
  obtain ⟨modelPages, hmodels, h⟩ := Logged.result_bind_eq_ok.mp h
  obtain ⟨operations, hoperations, h⟩ := Logged.result_bind_eq_ok.mp h
  rw [compileOperations] at hoperations
  simp only [separate_of_attempts hoperations, result_compileOperation] at h
  obtain ⟨groupPages, hgroups, h⟩ := Logged.result_bind_eq_ok.mp h
  obtain ⟨_, -, h⟩ := Logged.result_bind_eq_ok.mp h
  cases h
  exact ⟨⟨rfl, rfl, rfl⟩, Compile.result_shaped_eq_ok.mp hmodels,
    Compile.result_shaped_eq_ok.mp hgroups, rfl⟩

/-! ## What is generated -/

theorem isTable_compiledModels (p : Profile) (doc : Document) :
    Model.IsTable (compiledModels p doc) := by
  refine List.Pairwise.filterMap _ (fun d e hde m hm n hn => ?_) doc.distinct
  have hname : ∀ (d : Value × Value) (m : Model),
      (Model.compile p d.1 (orEmpty d.2)).result.toOption = some m → m.name = d.1 := by
    intro d m hm
    cases hr : (Model.compile p d.1 (orEmpty d.2)).result with
    | error e =>
      rw [hr] at hm
      cases hm
    | ok k =>
      rw [hr] at hm
      cases hm
      exact Model.name_of_compile hr
  rw [hname d m hm, hname e n hn]
  exact hde

/-- A table of models is cut down to its greatest part with closed references, and a package has the
pages of this part and of the operations that compile and refer to nothing else. Every model that is
cut off is omitted once, for a reference of its own that is not in the part. -/
theorem build_emits_what_resolves :
    (∀ table, Model.IsTable table →
      Model.Settled table (Model.settle table).1 (Model.settle table).2) ∧
    ∀ (p : Profile) (doc : Document) (pkg : Package), (build p doc).result = .ok pkg →
      ∃ left out, Model.Settled (compiledModels p doc) left out ∧
        left.mapM (ModelPage.of? p) = some pkg.models ∧
        GroupPage.Show p pkg.groups
          ((pathEntries doc.paths).filterMap (operationAmong? p doc left)) ∧
        pkg.omissions = faultyDefinitions p doc ++ out.map unresolvedOmission ++
          skippedOperations p doc left := by
  refine ⟨fun table htable => Model.settle_settled htable, fun p doc pkg h => ?_⟩
  have hall := build_assembled h
  exact ⟨_, _, Model.settle_settled (isTable_compiledModels p doc), hall.models,
    shows_of_pages hall.groups, hall.omissions⟩

def referenceTo (name : String) : Value :=
  .map [(.text "$ref", .text ("#/definitions/" ++ name))]

def holding (name : String) : Value :=
  .map [(.text "properties", .map [(.text "held", referenceTo name)])]

def answering (name : String) : Value :=
  .map [(.text "responses", .map [(.text "200", .map [(.text "schema", referenceTo name)])])]

/-- Two definitions that hold each other, and one that holds a third, undeclared one. -/
def circleDocument : Document where
  definitions := [(.text "Egg", holding "Hen"), (.text "Hen", holding "Egg"),
    (.text "Nest", holding "Tree")]
  distinct := by decide +kernel
  paths := [(.text "/egg", [("get", answering "Egg")]), (.text "/nest", [("get", answering "Nest")])]
  parameters := []
  title := .text "Farm"
  version := "1"

/-- The circle is left; what leads out of the document goes. -/
theorem build_emits_what_resolves_in_circle :
    (Model.settle (compiledModels .common circleDocument)).1.map (·.name.display) =
      ["Egg", "Hen"] ∧
    Model.Settled (compiledModels .common circleDocument)
      (Model.settle (compiledModels .common circleDocument)).1
      (Model.settle (compiledModels .common circleDocument)).2 ∧
    ∃ pkg, (build .common circleDocument).result = .ok pkg ∧
      ∃ left out, Model.Settled (compiledModels .common circleDocument) left out ∧
        left.mapM (ModelPage.of? .common) = some pkg.models ∧
        GroupPage.Show .common pkg.groups
          ((pathEntries circleDocument.paths).filterMap
            (operationAmong? .common circleDocument left)) ∧
        pkg.omissions = faultyDefinitions .common circleDocument ++ out.map unresolvedOmission ++
          skippedOperations .common circleDocument left := by
  obtain ⟨pkg, hpkg⟩ := exists_of_isOk
    (show (build .common circleDocument).result.isOk = true by decide +kernel)
  exact ⟨by decide +kernel, build_emits_what_resolves.1 _ (isTable_compiledModels _ _),
    pkg, hpkg, build_emits_what_resolves.2 _ _ pkg hpkg⟩

end Package

end ApiSmith

import ApiSmith.CommandLine.Run
import ApiSmith.Proofs.Fates

/-!
# Every artifact is accounted for

A package accounts for a document (`Package.Accounts`): each definition is the name of one page or of
one omission, each entry of a path is a method on the page of its group or an omission, and what is
emitted keeps the order of the document. The command reports an omission by its status, so it ends
with status zero exactly if the whole document was generated.
-/

namespace ApiSmith

/-! ## Entries and their methods -/

theorem MethodPart.origin_of_isOf {p : Profile} {op : Operation} {m : MethodPart}
    (h : MethodPart.IsOf p op m) :
    m.path = op.path ∧ m.httpMethod = Text.upperString op.verb := by
  obtain ⟨name, h⟩ := h
  simp only [MethodPart.of?, Option.pure_def, Option.bind_eq_bind, Option.bind_eq_some_iff,
    Option.some.injEq] at h
  obtain ⟨_, -, _, -, rfl⟩ := h
  exact ⟨rfl, rfl⟩

namespace Package

/-- A method shows the operation that an entry of a path compiles to. -/
structure Shows (p : Profile) (doc : Document) (pkg : Package) (e : Value × String × Value)
    (m : MethodPart) : Prop where
  /-- The path and the verb are those of the entry. -/
  origin : e.1 = .text m.path ∧ m.httpMethod = Text.upperString (Text.lowerString e.2.1)
  /-- The rest is that of the operation, but for a number in the name of the method. -/
  operation : ∃ op,
    (compileOperation p (.map doc.parameters) pkg.modelNames e.1 e.2).result = .ok op ∧
      MethodPart.IsOf p op m

/-- A package says what became of each artifact of a document. -/
structure Accounts (p : Profile) (doc : Document) (pkg : Package) : Prop where
  /-- The names of pages and omissions are those of the definitions, each as often. -/
  definitions : (pkg.modelNames ++ pkg.omitted .definition).Perm (doc.definitions.map (·.1))
  /-- Pages keep the order of the definitions. -/
  order : pkg.modelNames.Sublist (doc.definitions.map (·.1))
  /-- No two groups have one key. -/
  distinct : (pkg.groups.map (·.key)).Nodup
  /-- An entry that is emitted has a group, that of its path. -/
  covered : ∀ e ∈ pathEntries doc.paths, emitsOperation p doc pkg e = true →
    ∃ g ∈ pkg.groups, g.key = p.groupOf e.1
  /-- A group has one method for each of its entries, in their order, and no others. -/
  methods : ∀ g ∈ pkg.groups, List.Forall₂ (Shows p doc pkg)
    (((pathEntries doc.paths).filter (emitsOperation p doc pkg)).filter
      fun e => p.groupOf e.1 = g.key) g.methods
  /-- The entries that are not emitted are the omissions, in their order. -/
  omissions : pkg.omitted .operation =
    ((pathEntries doc.paths).filter fun e => !emitsOperation p doc pkg e).map
      fun e => operationLabel e.1 e.2.1

section

variable {p : Profile} {doc : Document} {pkg : Package}

theorem forall₂_operations (p : Profile) (doc : Document) (pkg : Package) (key : String) :
    List.Forall₂
      (fun e op => (compileOperation p (.map doc.parameters) pkg.modelNames e.1 e.2).result = .ok op)
      (((pathEntries doc.paths).filter (emitsOperation p doc pkg)).filter
        fun e => p.groupOf e.1 = key)
      (((pathEntries doc.paths).filterMap fun e =>
        (compileOperation p (.map doc.parameters) pkg.modelNames e.1 e.2).result.toOption).filter
        fun op => op.groupKey = key) := by
  refine List.rel_filter (fun e op hop => ?_) (forall₂_results _ _)
  simp only [decide_eq_true_eq, (compiled_of_compileOperation hop).1.groupKey]

theorem shows_of_isOf {e : Value × String × Value} {op : Operation} {m : MethodPart}
    (hop : (compileOperation p (.map doc.parameters) pkg.modelNames e.1 e.2).result = .ok op)
    (hm : MethodPart.IsOf p op m) : Shows p doc pkg e m := by
  have hcompiled := (compiled_of_compileOperation hop).1
  obtain ⟨hpath, hverb⟩ := MethodPart.origin_of_isOf hm
  exact ⟨⟨by rw [hcompiled.template, hpath], by rw [hverb, hcompiled.verb]⟩, op, hop, hm⟩

theorem accounts_of_build (h : (build p doc).result = .ok pkg) : Accounts p doc pkg := by
  have hall := build_assembled h
  have hnames := modelNames_of_left hall.models
  have hshow := shows_of_pages (operations_of_left hall.models ▸ hall.groups)
  refine ⟨perm_definitions h, ?_, hshow.distinct, ?_, ?_, omitted_operations h⟩
  · rw [hnames]
    refine ((Model.settle_sublist _).map _).trans ?_
    exact sublist_of_results (fun _ _ => Model.name_of_compile) doc.definitions
  · intro e he hemits
    obtain ⟨op, hop⟩ := exists_of_isOk hemits
    obtain ⟨g, hg, hkey⟩ := hshow.covered op (List.mem_filterMap.mpr ⟨e, he, by rw [hop]; rfl⟩)
    exact ⟨g, hg, hkey.trans (compiled_of_compileOperation hop).1.groupKey⟩
  · intro g hg
    exact forall₂_through (forall₂_operations p doc pkg g.key) (hshow.methods g hg)
      fun _ _ _ hop hm => shows_of_isOf hop hm

/-! ## Whole documents -/

/-- Every definition and every entry of the document is emitted. -/
def IsWhole (p : Profile) (doc : Document) (pkg : Package) : Prop :=
  pkg.modelNames = doc.definitions.map (·.1) ∧
    ∀ e ∈ pathEntries doc.paths, emitsOperation p doc pkg e = true

theorem omissions_eq_nil_iff {pkg : Package} :
    pkg.omissions = [] ↔ pkg.omitted .definition = [] ∧ pkg.omitted .operation = [] := by
  simp only [omitted, List.map_eq_nil_iff, List.filter_eq_nil_iff, decide_eq_true_eq]
  constructor
  · intro h
    simp [h]
  · rintro ⟨hdefinition, hoperation⟩
    refine List.eq_nil_iff_forall_not_mem.mpr fun o ho => ?_
    cases hkind : o.kind with
    | definition => exact hdefinition o ho hkind
    | operation => exact hoperation o ho hkind

theorem Accounts.omissions_eq_nil_iff_isWhole (h : Accounts p doc pkg) :
    pkg.omissions = [] ↔ IsWhole p doc pkg := by
  have hlength := h.definitions.length_eq
  rw [List.length_append] at hlength
  have hdefinitions : pkg.omitted .definition = [] ↔
      pkg.modelNames = doc.definitions.map (·.1) := by
    constructor
    · intro hnil
      rw [hnil, List.length_nil, Nat.add_zero] at hlength
      exact h.order.eq_of_length hlength
    · intro heq
      rw [heq] at hlength
      exact List.length_eq_zero_iff.mp (by omega)
  rw [omissions_eq_nil_iff, hdefinitions, h.omissions, List.map_eq_nil_iff, List.filter_eq_nil_iff]
  simp only [Bool.not_eq_true', Bool.not_eq_false, IsWhole]

end

end Package

/-! ## The command -/

namespace CommandLine

/-- The profile that the arguments choose and the description that they name. -/
def Reads (words : List String) (look : String → Entry) (p : Profile) (doc : Document) : Prop :=
  ∃ a, readArguments words = .ok a ∧
    profileOf ((a.value? .profile).getD "common") (fileText? a look .config) = .ok p ∧
    documentOf ((a.value? .spec).getD "") ((fileText? a look .spec).getD "") = .ok doc

theorem built_of_generate {a : Arguments} {look : String → Entry} {ending : Ending}
    (h : generate a look = .ok ending) :
    ∃ p doc pkg,
      profileOf ((a.value? .profile).getD "common") (fileText? a look .config) = .ok p ∧
      documentOf ((a.value? .spec).getD "") ((fileText? a look .spec).getD "") = .ok doc ∧
      (Package.build p doc).result = .ok pkg ∧ (ending.status = 0 ↔ pkg.omissions = []) := by
  unfold generate at h
  obtain ⟨p, hp, h⟩ := bind_eq_ok.mp h
  obtain ⟨doc, hdoc, h⟩ := bind_eq_ok.mp h
  cases hpkg : (Package.build p doc).result with
  | error e =>
    simp only [hpkg] at h
    cases h
  | ok pkg =>
    simp only [hpkg] at h
    cases h
    exact ⟨p, doc, pkg, hp, hdoc, hpkg, by simp [Ending.ofPackage]⟩

theorem generate_of_runOn {a : Arguments} {look : String → Entry} {ending : Ending}
    (h : runOn a look = .ok ending) (writes : ending.files ≠ []) :
    generate a look = .ok ending := by
  unfold runOn at h
  split at h
  · cases h
    exact absurd rfl writes
  · split at h
    · cases h
    · exact h

/-- A run that writes files builds a package, and its status says whether something was left out. -/
theorem built_of_run {words : List String} {look : String → Entry} {ending : Ending}
    (h : run words look = .ok ending) (writes : ending.files ≠ []) :
    ∃ p doc pkg, Reads words look p doc ∧ (Package.build p doc).result = .ok pkg ∧
      (ending.status = 0 ↔ pkg.omissions = []) := by
  unfold run at h
  split at h
  · cases h
    exact absurd rfl writes
  · obtain ⟨a, ha, h⟩ := bind_eq_ok.mp h
    obtain ⟨p, doc, pkg, hp, hdoc, hpkg, hstatus⟩ := built_of_generate (generate_of_runOn h writes)
    refine ⟨p, doc, pkg, ⟨a, ?_, hp, hdoc⟩, hpkg, hstatus⟩
    cases hwords : readArguments words with
    | error f =>
      rw [hwords] at ha
      cases ha
    | ok b =>
      rw [hwords] at ha
      cases ha
      rfl

end CommandLine

/-- A built package accounts for its document: every definition and every entry is emitted once or
omitted once, in order. So a run of the command that writes its files ends with status zero exactly
if everything in the description was emitted. -/
theorem build_accounts_for_everything :
    (∀ (p : Profile) (doc : Document) (pkg : Package),
      (Package.build p doc).result = .ok pkg → Package.Accounts p doc pkg) ∧
    ∀ (words : List String) (look : String → CommandLine.Entry) (ending : CommandLine.Ending),
      CommandLine.run words look = .ok ending → ending.files ≠ [] →
      ∃ p doc pkg, CommandLine.Reads words look p doc ∧
        (Package.build p doc).result = .ok pkg ∧
        (ending.status = 0 ↔ Package.IsWhole p doc pkg) := by
  refine ⟨fun p doc pkg => Package.accounts_of_build, fun words look ending h writes => ?_⟩
  obtain ⟨p, doc, pkg, hreads, hpkg, hstatus⟩ := CommandLine.built_of_run h writes
  exact ⟨p, doc, pkg, hreads, hpkg,
    hstatus.trans (Package.accounts_of_build hpkg).omissions_eq_nil_iff_isWhole⟩

/-- A description with an operation, and with a definition that refers to an undeclared one. -/
def nestText : String :=
  "\x7b\"definitions\": \x7b\"Nest\": \x7b\"properties\": \x7b\"held\": " ++
    "\x7b\"$ref\": \"Tree\"\x7d\x7d\x7d\x7d, \"paths\": \x7b\"/egg\": \x7b\"get\": " ++
    "\x7b\"responses\": \x7b\"200\": \x7b\"schema\": \x7b\"type\": \"string\"" ++
    "\x7d\x7d\x7d\x7d\x7d\x7d\x7d"

def nestWords : List String := ["nest.json", "-o", "nest"]

def nestFolder (path : String) : CommandLine.Entry :=
  if path = "nest.json" then .file nestText else .missing

/-- The nest is not emitted, and the command says so by its status. -/
theorem build_accounts_for_nest :
    (∃ pkg, (Package.build .common Package.circleDocument).result = .ok pkg ∧
      Package.Accounts .common Package.circleDocument pkg) ∧
    ∃ ending, CommandLine.run nestWords nestFolder = .ok ending ∧ ending.files ≠ [] ∧
      ending.status = 1 ∧
      ∃ p doc pkg, CommandLine.Reads nestWords nestFolder p doc ∧
        (Package.build p doc).result = .ok pkg ∧
        (ending.status = 0 ↔ Package.IsWhole p doc pkg) := by
  refine ⟨?_, ?_⟩
  · obtain ⟨pkg, hpkg⟩ := exists_of_isOk
      (show (Package.build .common Package.circleDocument).result.isOk = true by decide +kernel)
    exact ⟨pkg, hpkg, build_accounts_for_everything.1 _ _ _ hpkg⟩
  · have hrun : (CommandLine.run nestWords nestFolder).toOption.map
        (fun ending => (ending.files.isEmpty, ending.status)) = some (false, 1) := by
      decide +kernel
    obtain ⟨ending, hending, hread⟩ := Option.map_eq_some_iff.mp hrun
    rw [toOption_eq_some] at hending
    obtain ⟨hfiles, hstatus⟩ := Prod.mk.inj hread
    have writes : ending.files ≠ [] := by simpa using hfiles
    exact ⟨ending, hending, writes, hstatus, build_accounts_for_everything.2 _ _ _ hending writes⟩

end ApiSmith

import Mathlib.Data.List.Pairwise
import ApiSmith.Proofs.Fates

/-!
# Left out without a trace

An artifact with a defect changes nothing for the others. Take away from a document what was left
out of its package, and the rest builds the same package, with nothing left out
(`build_emittedPart`).

The two builds are not compared step by step. What is built of a document is determined by the
models that are left and the operations that find their definitions among these (`build_whole`), and
the part that was emitted compiles to just these models and operations: its models are left whole,
since their references are closed, and each operation sees the names that it saw before.
-/

namespace ApiSmith.Package

/-! ## Documents without defects -/

theorem attempts_of_ok {α β : Type} {kind : ArtifactKind} {name : β → Value} {x : β → Compile α}
    {es : List β} {as : List α} (h : List.Forall₂ (fun e a => (x e).result = .ok a) es as) :
    (es.mapM fun e => attempt kind (name e) (x e)).result = .ok (as.map .inr) := by
  rw [Logged.result_mapM_eq_ok, List.forall₂_map_right_iff]
  refine h.imp fun e a ha => ?_
  rw [result_attempt, ha]

theorem separate_inr {α : Type} (as : List α) :
    separate (as.map (Sum.inr (α := Omission))) = ([], as) := by
  simp [separate, List.filterMap_map, Function.comp_def]

/-- A document whose artifacts all compile to models with closed references and to operations on
these is built whole. -/
theorem build_whole {p : Profile} {doc : Document} {models : List Model}
    {operations : List Operation} {modelPages : List ModelPage} {groupPages : List GroupPage}
    (definitions : List.Forall₂ (fun d m => (Model.compile p d.1 (orEmpty d.2)).result = .ok m)
      doc.definitions models)
    (closed : Model.IsClosed models)
    (entries : List.Forall₂ (fun e op =>
      (compileOperation p (.map doc.parameters) (Model.names models) e.1 e.2).result = .ok op)
      (pathEntries doc.paths) operations)
    (hmodels : models.mapM (ModelPage.of? p) = some modelPages)
    (hgroups : (Group.ofOperations operations).mapM (GroupPage.of? p) = some groupPages) :
    (build p doc).result =
      .ok ⟨doc.title, doc.version, p.name, modelPages, groupPages, []⟩ := by
  unfold build
  refine Logged.result_bind_eq_ok.mpr ⟨_, attempts_of_ok definitions, ?_⟩
  simp only [separate_inr, Model.settle_of_closed closed]
  refine Logged.result_bind_eq_ok.mpr ⟨[], rfl, ?_⟩
  refine Logged.result_bind_eq_ok.mpr ⟨_, Compile.result_shaped_eq_ok.mpr hmodels, ?_⟩
  refine Logged.result_bind_eq_ok.mpr ⟨_, attempts_of_ok entries, ?_⟩
  simp only [separate_inr]
  refine Logged.result_bind_eq_ok.mpr ⟨_, Compile.result_shaped_eq_ok.mpr hgroups, ?_⟩
  exact Logged.result_bind_eq_ok.mpr ⟨(), rfl, rfl⟩

/-! ## The part that is emitted -/

/-- A document without the definitions and the entries that are not in its package. -/
def emittedPart (p : Profile) (doc : Document) (pkg : Package) : Document :=
  { doc with
    definitions := doc.definitions.filter fun d => pkg.emitsModel d.1
    distinct := doc.distinct.filter _
    paths := doc.paths.map fun e =>
      (e.1, e.2.filter fun op => emitsOperation p doc pkg (e.1, op)) }

theorem pathEntries_filter (keep : Value × String × Value → Bool)
    (paths : List (Value × List (String × Value))) :
    pathEntries (paths.map fun e => (e.1, e.2.filter fun op => keep (e.1, op))) =
      (pathEntries paths).filter keep := by
  induction paths with
  | nil => rfl
  | cons e rest ih =>
    simp only [pathEntries, List.map_cons, List.flatMap_cons, List.filter_append] at ih ⊢
    rw [ih, List.filter_map]
    rfl

theorem eq_of_name (doc : Document) {d e : Value × Value} (hd : d ∈ doc.definitions)
    (he : e ∈ doc.definitions) {s : String} (hds : d.1 = .text s) (hes : e.1 = .text s) : d = e := by
  have hpair : doc.definitions.Pairwise fun d e => ¬(d.1 = .text s ∧ e.1 = .text s) := by
    refine doc.distinct.imp fun hsame hboth => ?_
    rw [hboth.1, hboth.2] at hsame
    simp [Value.isText] at hsame
  have : Std.Symm fun d e : Value × Value => ¬(d.1 = .text s ∧ e.1 = .text s) :=
    ⟨fun _ _ h hboth => h hboth.symm⟩
  by_contra hne
  exact hpair.forall hd he hne ⟨hds, hes⟩

section

variable {p : Profile} {doc : Document} {pkg : Package}

theorem forall₂_emitted {left : List Model} (sub : left.Sublist (compiledModels p doc)) (hleft : pkg.modelNames = Model.names left) :
    List.Forall₂ (fun d m => (Model.compile p d.1 (orEmpty d.2)).result = .ok m)
      (doc.definitions.filter fun d => pkg.emitsModel d.1) left := by
  have texts : ∀ m ∈ left, ∃ s, m.name = .text s := by
    intro m hm
    have hname : m.name ∈ pkg.modelNames := hleft ▸ List.mem_map_of_mem hm
    obtain ⟨page, -, hpage⟩ := List.mem_map.mp hname
    exact ⟨page.name, hpage.symm⟩
  have hfilter : (compiledModels p doc).filter (fun m => pkg.emitsModel m.name) = left :=
    (isTable_compiledModels p doc).filter_of_sublist sub texts fun m _ => by
      rw [emitsModel_iff, hleft]
  -- a definition with a page has the name of a model, and is the one that this model was made of
  have hcompiles : ∀ d ∈ doc.definitions, pkg.emitsModel d.1 = true →
      (Model.compile p d.1 (orEmpty d.2)).result.isOk = true := by
    intro d hd hemits
    rw [emitsModel_iff, hleft] at hemits
    obtain ⟨m, hm, hname⟩ := List.mem_map.mp hemits
    obtain ⟨e, he, hem⟩ := List.mem_filterMap.mp (sub.subset hm)
    obtain ⟨s, hs⟩ := texts m hm
    rw [toOption_eq_some] at hem
    have hde : d = e :=
      eq_of_name doc hd he (hname.symm.trans hs) ((Model.name_of_compile hem).symm.trans hs)
    rw [hde, hem]
    rfl
  have hboth : (doc.definitions.filter fun d =>
      (Model.compile p d.1 (orEmpty d.2)).result.isOk).filter (fun d => pkg.emitsModel d.1) =
        doc.definitions.filter fun d => pkg.emitsModel d.1 := by
    rw [List.filter_filter]
    refine List.filter_congr fun d hd => ?_
    cases hemits : pkg.emitsModel d.1 with
    | true => rw [hcompiles d hd hemits, Bool.and_true]
    | false => rfl
  rw [← hboth, ← hfilter]
  refine List.rel_filter (fun d m hm => ?_) (forall₂_results _ _)
  simp only [Model.name_of_compile hm]

theorem perm_omitted (h : (build p doc).result = .ok pkg) :
    ((doc.definitions.filter fun d => !pkg.emitsModel d.1).map (·.1)).Perm
      (pkg.omitted .definition) := by
  have hleft := modelNames_of_left (build_assembled h).models
  have hemitted : (doc.definitions.filter fun d => pkg.emitsModel d.1).map (·.1) =
      pkg.modelNames := by
    rw [hleft, Model.names, ← List.forall₂_eq_eq_eq, List.forall₂_map_left_iff,
      List.forall₂_map_right_iff]
    exact (forall₂_emitted (Model.settle_sublist _) hleft).imp
      fun _ _ hm => (Model.name_of_compile hm).symm
  have hsplit := (List.filter_append_perm (fun d => pkg.emitsModel d.1) doc.definitions).map (·.1)
  rw [List.map_append, hemitted] at hsplit
  exact (List.perm_append_left_iff _).mp (hsplit.trans (perm_definitions h).symm)

/-- Without the definitions and operations that were left out, a document builds the same package,
and nothing is left out. What is taken away from the document is what the package reports. -/
theorem build_emittedPart (h : (build p doc).result = .ok pkg) :
    ((doc.definitions.filter fun d => !pkg.emitsModel d.1).map (·.1)).Perm
      (pkg.omitted .definition) ∧
    (((pathEntries doc.paths).filter fun e => !emitsOperation p doc pkg e).map
      fun e => operationLabel e.1 e.2.1) = pkg.omitted .operation ∧
    (build p (emittedPart p doc pkg)).result = .ok { pkg with omissions := [] } := by
  refine ⟨perm_omitted h, (omitted_operations h).symm, ?_⟩
  have hall := build_assembled h
  have hleft := modelNames_of_left hall.models
  obtain ⟨htitle, hversion, hprofile⟩ := hall.heading
  rw [build_whole
    (forall₂_emitted (Model.settle_sublist _) hleft) (Model.settle_closed _) ?_ hall.models
    (operations_of_left hall.models ▸ hall.groups), htitle, hversion, hprofile]
  · rfl
  · rw [← hleft]
    show List.Forall₂ _ (pathEntries (doc.paths.map _)) _
    rw [pathEntries_filter]
    exact forall₂_results _ _

end

/-- The nest and its operation are left out; the circle alone builds the rest. -/
theorem build_emittedPart_of_circle :
    ∃ pkg, (build .common circleDocument).result = .ok pkg ∧ pkg.omissions.length = 2 ∧
      ((circleDocument.definitions.filter fun d => !pkg.emitsModel d.1).map (·.1)).Perm
        (pkg.omitted .definition) ∧
      (((pathEntries circleDocument.paths).filter fun e =>
        !emitsOperation .common circleDocument pkg e).map
          fun e => operationLabel e.1 e.2.1) = pkg.omitted .operation ∧
      (build .common (emittedPart .common circleDocument pkg)).result =
        .ok { pkg with omissions := [] } := by
  have hcount : (build .common circleDocument).result.toOption.map (·.omissions.length) =
      some 2 := by decide +kernel
  obtain ⟨pkg, hbuild, homissions⟩ := Option.map_eq_some_iff.mp hcount
  rw [toOption_eq_some] at hbuild
  exact ⟨pkg, hbuild, homissions, build_emittedPart hbuild⟩

end ApiSmith.Package

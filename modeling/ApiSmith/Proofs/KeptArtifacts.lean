import ApiSmith.Proofs.Accounting
import ApiSmith.Proofs.AddedTypes

/-!
# Nothing is lost by more primitive types

A document that is built under two profiles, the second with more primitive types than the first,
keeps every page and every method (`added_types_lose_nothing`). Each model of the first table is in
the second with the same references, so what is left of the first table is there as a part whose
references are closed, and such a part stays (`Model.names_settle_subset`). Operations then find the
definitions that they found before.
-/

namespace ApiSmith

/-! ## Tables of models -/

namespace Model

/-- If all models of a table are also in another one, with the same references, then what is left
of the first is left of the second. -/
theorem names_settle_subset {ms ms' : List Model} (table : IsTable ms')
    (texts : ∀ m ∈ (settle ms).1, ∃ s, m.name = .text s)
    (counterpart : ∀ m ∈ ms, ∃ m' ∈ ms', m'.name = m.name ∧ m'.references = m.references) :
    names (settle ms).1 ⊆ names (settle ms').1 := by
  -- the models of the second table with a name that is left of the first
  let part := ms'.filter fun m' => m'.name.text?.any (isNamedIn (names (settle ms).1))
  have hpart : ∀ m ∈ (settle ms).1,
      ∃ m' ∈ part, m'.name = m.name ∧ m'.references = m.references := by
    intro m hm
    obtain ⟨m', hm', hname, hrefs⟩ := counterpart m ((settle_sublist ms).subset hm)
    obtain ⟨s, hs⟩ := texts m hm
    refine ⟨m', List.mem_filter.mpr ⟨hm', ?_⟩, hname, hrefs⟩
    rw [hname, hs]
    exact isNamedIn_names.mpr ⟨m, hm, hs⟩
  have hclosed : IsClosed part := by
    intro m' hm' ref href
    obtain ⟨hmem, hnamed⟩ := List.mem_filter.mp hm'
    cases htext : m'.name.text? with
    | none =>
      rw [htext] at hnamed
      cases hnamed
    | some s =>
      rw [htext] at hnamed
      obtain ⟨m, hm, hms⟩ := isNamedIn_names.mp hnamed
      -- a table has one model of a name, so this one is the counterpart
      obtain ⟨n', hn', hname, hrefs⟩ := hpart m hm
      obtain rfl : m' = n' := table.eq_of_name hmem (List.mem_filter.mp hn').1
        (Value.text?_eq_some.mp htext) (hname.trans hms)
      obtain ⟨k, hk, hks⟩ := isNamedIn_names.mp (settle_closed ms m hm ref (hrefs ▸ href))
      obtain ⟨k', hk', hkname, -⟩ := hpart k hk
      exact isNamedIn_names.mpr ⟨k', hk', hkname.trans hks⟩
  intro v hv
  obtain ⟨m, hm, rfl⟩ := List.mem_map.mp hv
  obtain ⟨m', hm', hname, -⟩ := hpart m hm
  have hstays := mem_settle_of_closed table (List.filter_subset_self _) hclosed
  exact List.mem_map.mpr ⟨m', hstays hm', hname⟩

end Model

/-! ## Packages -/

namespace Package

/-- What has a page or a method in the first package has one in the second. -/
structure Keeps (pkg pkg' : Package) : Prop where
  models : pkg.modelNames ⊆ pkg'.modelNames
  methods : ∀ g ∈ pkg.groups, ∀ m ∈ g.methods, ∃ g' ∈ pkg'.groups, g'.key = g.key ∧
    ∃ m' ∈ g'.methods, m'.path = m.path ∧ m'.httpMethod = m.httpMethod

section

variable {p q : Profile} (h : p.Widens q) {doc : Document}
include h

theorem exists_compiledModel {m : Model} (hm : m ∈ compiledModels p doc) :
    ∃ m' ∈ compiledModels q doc, m'.name = m.name ∧ m'.references = m.references := by
  obtain ⟨d, hd, hresult⟩ := List.mem_filterMap.mp hm
  have hcompile := toOption_eq_some.mp hresult
  obtain ⟨m', hcompile', hrefs⟩ := Model.exists_compile h hcompile
  refine ⟨m', List.mem_filterMap.mpr ⟨d, hd, toOption_eq_some.mpr hcompile'⟩, ?_, hrefs⟩
  rw [Model.name_of_compile hcompile', Model.name_of_compile hcompile]

theorem exists_compileOperation {shared : Value} {names names' : List Value}
    (sub : names ⊆ names') {path : Value} {entry : String × Value} {op : Operation}
    (hop : (compileOperation p shared names path entry).result = .ok op) :
    ∃ op', (compileOperation q shared names' path entry).result = .ok op' := by
  obtain ⟨own, hown, hop⟩ := Logged.result_bind_eq_ok.mp hop
  obtain ⟨op', hop', hrefs⟩ := Operation.exists_compile h hown
  have hfound : Model.missingIn names own.references = none := by
    cases hmissing : Model.missingIn names own.references with
    | none => rfl
    | some ref =>
      rw [hmissing] at hop
      cases hop
  have hfound' : Model.missingIn names' op'.references = none := by
    rw [Model.missingIn_eq_none] at hfound ⊢
    intro ref href
    exact Model.isNamedIn_iff.mpr (sub (Model.isNamedIn_iff.mp (hfound ref (hrefs href))))
  refine ⟨op', Logged.result_bind_eq_ok.mpr ⟨op', hop', ?_⟩⟩
  rw [hfound']
  rfl

variable {pkg pkg' : Package} (hpkg : (build p doc).result = .ok pkg)
  (hpkg' : (build q doc).result = .ok pkg')
include hpkg hpkg'

theorem modelNames_subset : pkg.modelNames ⊆ pkg'.modelNames := by
  have hall := build_assembled hpkg
  rw [modelNames_of_left hall.models, modelNames_of_left (build_assembled hpkg').models]
  refine Model.names_settle_subset (isTable_compiledModels q doc) ?_
    fun m => exists_compiledModel h
  intro m hm
  obtain ⟨page, -, hpage⟩ := exists_of_mapM_of_mem hall.models hm
  exact ⟨page.name, (ModelPage.prints_of? hpage).name⟩

theorem emitsOperation_of_widens {e : Value × String × Value}
    (he : emitsOperation p doc pkg e = true) : emitsOperation q doc pkg' e = true := by
  obtain ⟨op, hop⟩ := exists_of_isOk he
  obtain ⟨op', hop'⟩ := exists_compileOperation h (modelNames_subset h hpkg hpkg') hop
  rw [emitsOperation, hop']
  rfl

theorem keeps_of_widens : Keeps pkg pkg' := by
  refine ⟨modelNames_subset h hpkg hpkg', fun g hg m hm => ?_⟩
  have hall := accounts_of_build hpkg
  have hall' := accounts_of_build hpkg'
  obtain ⟨e, he, hshows⟩ := exists_of_mem_forall₂ (hall.methods g hg) hm
  obtain ⟨he, hkey⟩ := List.mem_filter.mp he
  obtain ⟨he, hemits⟩ := List.mem_filter.mp he
  have hemits' := emitsOperation_of_widens h hpkg hpkg' hemits
  obtain ⟨g', hg', hkey'⟩ := hall'.covered e he hemits'
  have hgroup : q.groupOf e.1 = p.groupOf e.1 := by
    rw [Profile.groupOf, Profile.groupOf, Operation.pathRoot?, Operation.pathRoot?, h.rest]
  have hentry : e ∈ ((pathEntries doc.paths).filter (emitsOperation q doc pkg')).filter
      fun e => q.groupOf e.1 = g'.key :=
    List.mem_filter.mpr ⟨List.mem_filter.mpr ⟨he, hemits'⟩, decide_eq_true hkey'.symm⟩
  obtain ⟨m', hm', hshows'⟩ := exists_of_mem_forall₂ (hall'.methods g' hg').flip hentry
  refine ⟨g', hg', by rw [hkey', hgroup]; exact of_decide_eq_true hkey, m', hm', ?_, ?_⟩
  · exact Value.text.inj (hshows'.origin.1.symm.trans hshows.origin.1)
  · exact hshows'.origin.2.trans hshows.origin.2.symm

end

/-- If two profiles differ in their primitive types only, and the second one has all types of the
first, of whatever kinds, then what the first one makes of a document is kept by the second: the
pages of definitions, the methods, and each entry of a path that has one. Profiles stand to each
other in this way if one is configured with primitive types added to the settings of the other. -/
theorem added_types_lose_nothing :
    (∀ (p q : Profile) (doc : Document) (pkg pkg' : Package), p.Widens q →
      (build p doc).result = .ok pkg → (build q doc).result = .ok pkg' →
      Keeps pkg pkg' ∧
        ∀ e, emitsOperation p doc pkg e = true → emitsOperation q doc pkg' e = true) ∧
    ∀ (name : Value) (es es' : List (Value × Value)) (p q : Profile), Profile.AddsTypes es es' →
      Profile.load name (some (.map es)) = .ok p → Profile.load name (some (.map es')) = .ok q →
      p.Widens q := by
  constructor
  · intro p q doc pkg pkg' h hpkg hpkg'
    exact ⟨keeps_of_widens h hpkg hpkg',
      fun e => emitsOperation_of_widens h hpkg hpkg'⟩
  · intro name es es' p q h hp hq
    obtain ⟨preset, hpreset, hp⟩ := bind_eq_ok.mp hp
    obtain ⟨preset', hpreset', hq⟩ := bind_eq_ok.mp hq
    cases hpreset.symm.trans hpreset'
    exact h.widens (Profile.isConfigured_of_configure hp) (Profile.isConfigured_of_configure hq)

def colourSettings : List (Value × Value) :=
  [(.text "primitive_types", .map [(.text "colour", .text "String")])]

def colourProfile : Profile :=
  { Profile.common with
    primitiveTypes := Profile.standardTypes ++ [(("colour", none), .string)] }

def colouredDefinition : Value :=
  .map [(.text "properties", .map [(.text "shell", .map [(.text "type", .text "colour")])])]

/-- An operation with a parameter that is a colour, or else, by its schema, a definition. -/
def paintOperation : Value :=
  .map [(.text "responses", .map [(.text "200", .map [(.text "schema", referenceTo "Nest")])]),
    (.text "parameters", .list [.map [(.text "name", .text "with"), (.text "type", .text "colour"),
      (.text "schema", referenceTo "Nest")]])]

def paintDocument : Document where
  definitions := [(.text "Egg", colouredDefinition), (.text "Nest", holding "Nest")]
  distinct := by decide +kernel
  paths := [(.text "/paint", [("post", paintOperation)])]
  parameters := []
  title := .text "Farm"
  version := "1"

/-- Where colours are known the parameter has another type and a definition more has a page. -/
theorem added_types_lose_nothing_of_paint :
    Profile.AddsTypes [] colourSettings ∧
    Profile.load (.text "common") (some (.map [])) = .ok .common ∧
    Profile.load (.text "common") (some (.map colourSettings)) = .ok colourProfile ∧
    Profile.common.Widens colourProfile ∧
    ∃ pkg pkg', (build .common paintDocument).result = .ok pkg ∧
      (build colourProfile paintDocument).result = .ok pkg' ∧
      pkg.models.length = 1 ∧ pkg'.models.length = 2 ∧
      (emitsOperation .common paintDocument pkg (.text "/paint", "post", paintOperation)) = true ∧
      Keeps pkg pkg' ∧ ∀ e, emitsOperation .common paintDocument pkg e = true →
        emitsOperation colourProfile paintDocument pkg' e = true := by
  have adds : Profile.AddsTypes [] colourSettings := by
    refine ⟨fun key hkey => ?_, List.nil_subset _⟩
    simp [lookupText, colourSettings, Value.isText, hkey.symm]
  have hcommon : Profile.load (.text "common") (some (.map [])) = .ok .common := rfl
  have hcolour : Profile.load (.text "common") (some (.map colourSettings)) =
      .ok colourProfile := by
    with_unfolding_all rfl
  have widens := added_types_lose_nothing.2 _ _ _ _ _ adds hcommon hcolour
  have hfirst : (build .common paintDocument).result.toOption.map (fun pkg => (pkg.models.length,
      emitsOperation .common paintDocument pkg (.text "/paint", "post", paintOperation))) =
        some (1, true) := by
    decide +kernel
  have hsecond : (build colourProfile paintDocument).result.toOption.map (·.models.length) =
      some 2 := by
    decide +kernel
  obtain ⟨pkg, hpkg, hread⟩ := Option.map_eq_some_iff.mp hfirst
  obtain ⟨pkg', hpkg', hread'⟩ := Option.map_eq_some_iff.mp hsecond
  rw [toOption_eq_some] at hpkg hpkg'
  obtain ⟨hmodels, hemits⟩ := Prod.mk.inj hread
  obtain ⟨keeps, emits⟩ := added_types_lose_nothing.1 _ _ _ _ _ widens hpkg hpkg'
  exact ⟨adds, hcommon, hcolour, widens, pkg, pkg', hpkg, hpkg', hmodels, hread', hemits,
    keeps, emits⟩

end Package

end ApiSmith

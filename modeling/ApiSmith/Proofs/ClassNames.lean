import ApiSmith.Proofs.Bindings
import ApiSmith.Proofs.FieldNames
import ApiSmith.Proofs.MemberNames
import ApiSmith.Proofs.SnakeCase

/-!
# Names of classes and modules

A definition gives its page a module, a class and a class for each enum of its properties. The module
is an identifier that is made of the name (`isBindable_moduleName_iff`). The classes are the names
themselves, with texts of the profile around them, so every character of the names must be one of
words (`isBindable_classStart_iff`). `build_names_bindable_iff` says so for the pages of a package and
what they import from each other.
-/

namespace ApiSmith

open Text Naming

/-! ## Names of enums -/

/-- The enums of a field are named by the definition and the property. -/
def Field.NamesEnums (owner : String) (f : Field) : Prop :=
  ∀ spec ∈ f.type.enums, spec.name = owner ++ String.ofList (capitalized f.key.toList)

theorem Field.Steps.namesEnums {p : Profile} {owner : String} {required : List Value}
    {earlier : List Field} {property schema : Value} {f : Field}
    (h : f.Steps p (.text owner) required earlier property schema) : f.NamesEnums owner := by
  intro spec hspec
  obtain ⟨es, location, hmade⟩ := exists_ofSchema_of_resolve h.type hspec
  have hname := (EnumSpec.parts_of_ofSchema hmade).1
  rw [h.key, EnumSpec.nameIn?, Option.some.injEq] at hname
  exact hname.symm

theorem Model.namesEnums_of_compile {p : Profile} {owner : String} {schema : Value} {m : Model}
    (h : (compile p (.text owner) schema).result = .ok m) : ∀ f ∈ m.fields, f.NamesEnums owner := by
  obtain ⟨required, properties, hsteps⟩ := steps_of_compile h
  intro f hf
  obtain ⟨property, -, earlier, hfield⟩ := exists_of_mem_forall₂ hsteps.rows hf
  exact hfield.namesEnums

/-! ## Classes -/

def IsWordy (name : String) : Prop := ∀ c ∈ name.toList, isWord c = true

instance (name : String) : Decidable (IsWordy name) := List.decidableBAll _ name.toList

theorem isWordy_append {a b : String} : IsWordy (a ++ b) ↔ IsWordy a ∧ IsWordy b := by
  rw [IsWordy, String.toList_append, List.forall_mem_append]
  rfl

theorem isAscii_append {a b : String} :
    IsAscii (a ++ b).toList ↔ IsAscii a.toList ∧ IsAscii b.toList := by
  rw [IsAscii, String.toList_append, List.forall_mem_append]
  rfl

theorem isWordy_capitalized {name : String} (ascii : IsAscii name.toList) :
    (IsWordy (String.ofList (capitalized name.toList)) ↔ IsWordy name) ∧
      IsAscii (String.ofList (capitalized name.toList)).toList := by
  unfold IsWordy
  rw [String.toList_ofList]
  exact ⟨words_capitalized_iff ascii, isAscii_capitalized ascii⟩

section

variable {p : Profile} (preset : p ∈ Profile.presets)
include preset

theorem exists_classStart : ∃ start ∈ ["CA", "PSB"],
    p.modelStart = .text start ∧ p.enumEnd = .text "Enum" := by
  simp only [Profile.presets, List.mem_cons, List.not_mem_nil, or_false] at preset
  rcases preset with rfl | rfl
  · exact ⟨"CA", by decide, rfl, rfl⟩
  · exact ⟨"PSB", by decide, rfl, rfl⟩

end

/-- A class can be declared exactly if its name is made of characters of words: no reserved word
starts like the classes of the presets. -/
theorem isBindable_classStart_iff {start : String} (hstart : start ∈ ["CA", "PSB"]) {name : String}
    (ascii : IsAscii name.toList) : IsBindable (start ++ name) ↔ IsWordy name := by
  have hstarts : ∀ start ∈ ["CA", "PSB"], IsAscii start.toList ∧ IsWordy start ∧
      start.toList.head?.any (fun a => !isDigit a) = true ∧
      ∀ w ∈ reservedWords, w.toList.head? ≠ start.toList.head? := by
    decide
  obtain ⟨hstartAscii, hwordy, hfirst, hother⟩ := hstarts start hstart
  obtain ⟨a, hhead, hdigit⟩ := (Option.any_eq_true _ _).mp hfirst
  rw [hhead] at hother
  rw [Bool.not_eq_true'] at hdigit
  have hascii : IsAscii (start ++ name).toList := isAscii_append.mpr ⟨hstartAscii, ascii⟩
  have hfull : (start ++ name).toList.head? = some a := head_append name hhead
  constructor
  · intro h
    have hall : IsWordy (start ++ name) := ((isIdentifier_iff hascii).mp h.identifier).2
    exact (isWordy_append.mp hall).2
  · intro hname
    have hall : IsWordy (start ++ name) := isWordy_append.mpr ⟨hwordy, hname⟩
    refine ⟨(isIdentifier_iff hascii).mpr ⟨⟨a, hfull, hdigit⟩, hall⟩, ?_⟩
    rw [Bool.eq_false_iff]
    intro hreserved
    exact hother _ (List.contains_iff_mem.mp hreserved) hfull

section

variable {p : Profile} (preset : p ∈ Profile.presets)
include preset

theorem isBindable_modelClass_iff {name c : String} (h : p.modelClass? (.text name) = some c)
    (ascii : IsAscii name.toList) : IsBindable c ↔ IsWordy name := by
  obtain ⟨start, hstart, hmodel, -⟩ := exists_classStart preset
  rw [Profile.modelClass?, hmodel, Value.concat?, Option.some.injEq] at h
  rw [← h]
  exact isBindable_classStart_iff hstart ascii

theorem isBindable_enumClass_iff {spec : EnumSpec} {c : String} (h : p.enumClass? spec = some c)
    (ascii : IsAscii spec.name.toList) : IsBindable c ↔ IsWordy spec.name := by
  obtain ⟨start, hstart, hmodel, hending⟩ := exists_classStart preset
  have hc : start ++ (spec.name ++ "Enum") = c := by
    rw [Profile.enumClass?, hmodel, hending] at h
    rw [← String.append_assoc]
    exact Option.some.inj h
  have hascii : IsAscii (spec.name ++ "Enum").toList := isAscii_append.mpr ⟨ascii, by decide⟩
  rw [← hc, isBindable_classStart_iff hstart hascii, isWordy_append]
  exact and_iff_left (by decide)

end

/-! ## Pages -/

/-- A document whose definitions and properties have ASCII names. -/
structure Document.HasAsciiNames (doc : Document) : Prop where
  definitions : ∀ d ∈ doc.definitions, ∀ s, d.1 = .text s → IsAscii s.toList
  properties : ∀ d ∈ doc.definitions, ∀ properties,
    Model.properties? (Package.orEmpty d.2) = some properties →
      ∀ e ∈ properties, ∀ s, e.1 = .text s → IsAscii s.toList

namespace ModelPage

/-- The modules and classes that code names for a page: its own, those of its enums and those that
it imports. -/
def codeNames (page : ModelPage) : List String :=
  page.place.module :: page.place.className :: page.enums.map (·.className) ++
    page.references.flatMap fun r => [r.module, r.className]

/-- A page is that of a model, which a definition of the document is compiled to. -/
structure IsOf (p : Profile) (doc : Document) (m : Model) (page : ModelPage) : Prop where
  definition : ∃ schema, (Value.text page.name, schema) ∈ doc.definitions ∧
    (Model.compile p (.text page.name) (Package.orEmpty schema)).result = .ok m
  page : ModelPage.of? p m = some page

/-- When code can name the class and the module of a page and the enums on it. -/
structure Names (m : Model) (page : ModelPage) : Prop where
  className : IsBindable page.place.className ↔ IsWordy page.name
  module : IsBindable page.place.module ↔ bare page.name.toList ∉ reservedSpellings
  enums : (∀ e ∈ page.enums, IsBindable e.className) ↔
    ∀ f ∈ m.fields, f.type.enums ≠ [] → IsWordy page.name ∧ IsWordy f.key

/-- A definition that code can name: its name is made of characters of words and does not spell a
reserved word, and the properties with enums have names of such characters too. -/
structure IsNamable (m : Model) (page : ModelPage) : Prop where
  words : IsWordy page.name
  free : bare page.name.toList ∉ reservedSpellings
  keys : ∀ f ∈ m.fields, f.type.enums ≠ [] → IsWordy f.key

variable {p : Profile} {doc : Document} {m : Model} {page : ModelPage}

theorem isBindable_enum_iff (preset : p ∈ Profile.presets) {owner : String}
    (owned : IsAscii owner.toList) {f : Field} (ascii : IsAscii f.key.toList)
    (named : f.NamesEnums owner) {spec : EnumSpec} (hspec : spec ∈ f.type.enums) {e : EnumClass}
    (he : EnumClass.of? p spec = some e) :
    IsBindable e.className ↔ IsWordy owner ∧ IsWordy f.key := by
  obtain ⟨c, hc, rfl⟩ := Option.map_eq_some_iff.mp he
  obtain ⟨hwords, hcapitalized⟩ := isWordy_capitalized ascii
  have hname := named spec hspec
  have hascii : IsAscii spec.name.toList := by
    rw [hname]
    exact isAscii_append.mpr ⟨owned, hcapitalized⟩
  rw [isBindable_enumClass_iff preset hc hascii, hname, isWordy_append, hwords]

theorem IsOf.names (preset : p ∈ Profile.presets) (ascii : doc.HasAsciiNames)
    (h : page.IsOf p doc m) : page.Names m := by
  obtain ⟨schema, hschema, hcompile⟩ := h.definition
  have hprints := ModelPage.prints_of? h.page
  have hname : IsAscii page.name.toList := ascii.definitions _ hschema page.name rfl
  have hkeys : ∀ f ∈ m.fields, IsAscii f.key.toList := by
    obtain ⟨⟨properties, hproperties, hkeyed⟩, -⟩ := Model.areNames_of_compile preset hcompile
    intro f hf
    have hmem : Value.text f.key ∈ properties.map (·.1) := by
      rw [← hkeyed]
      exact List.mem_map.mpr ⟨f, hf, rfl⟩
    obtain ⟨e, he, hkey⟩ := List.mem_map.mp hmem
    exact ascii.properties _ hschema properties hproperties e he f.key hkey
  have hnamed := Model.namesEnums_of_compile hcompile
  refine ⟨isBindable_modelClass_iff preset hprints.className hname, ?_, ?_⟩
  · rw [hprints.module]
    exact isBindable_moduleName_iff hname
  · constructor
    · intro hall f hf hne
      obtain ⟨spec, hspec⟩ := List.exists_mem_of_ne_nil _ hne
      have hmem : spec ∈ m.enums := List.mem_flatMap.mpr ⟨f, hf, hspec⟩
      obtain ⟨e, he, hof⟩ := exists_of_mapM_of_mem hprints.enums hmem
      exact (isBindable_enum_iff preset hname (hkeys f hf) (hnamed f hf) hspec hof).mp (hall e he)
    · intro hall e he
      obtain ⟨spec, hmem, hof⟩ := exists_of_mem_mapM hprints.enums he
      obtain ⟨f, hf, hspec⟩ := List.mem_flatMap.mp hmem
      have hwords := hall f hf (List.ne_nil_of_mem hspec)
      exact (isBindable_enum_iff preset hname (hkeys f hf) (hnamed f hf) hspec hof).mpr hwords

theorem IsOf.isNamable_iff (preset : p ∈ Profile.presets) (ascii : doc.HasAsciiNames)
    (h : page.IsOf p doc m) :
    (IsBindable page.place.module ∧ IsBindable page.place.className ∧
      ∀ e ∈ page.enums, IsBindable e.className) ↔ page.IsNamable m := by
  have hnames := h.names preset ascii
  rw [hnames.module, hnames.className, hnames.enums]
  constructor
  · rintro ⟨hfree, hwords, henums⟩
    exact ⟨hwords, hfree, fun f hf hne => (henums f hf hne).2⟩
  · intro hnamable
    exact ⟨hnamable.free, hnamable.words, fun f hf hne => ⟨hnamable.words, hnamable.keys f hf hne⟩⟩

end ModelPage

/-! ## Packages -/

namespace Package

variable {p : Profile} {doc : Document} {pkg : Package}

theorem exists_isOf (h : (build p doc).result = .ok pkg) {page : ModelPage}
    (hpage : page ∈ pkg.models) : ∃ m, page.IsOf p doc m := by
  obtain ⟨m, hm, hof⟩ := exists_of_mem_mapM (build_assembled h).models hpage
  obtain ⟨d, hd, hcompiled⟩ := List.mem_filterMap.mp ((Model.settle_sublist _).subset hm)
  rw [toOption_eq_some] at hcompiled
  have hname : d.1 = .text page.name :=
    (Model.name_of_compile hcompiled).symm.trans (ModelPage.prints_of? hof).name
  obtain ⟨name, schema⟩ := d
  subst hname
  exact ⟨m, ⟨schema, hd, hcompiled⟩, hof⟩

theorem references_in_package (h : (build p doc).result = .ok pkg) {page : ModelPage}
    (hpage : page ∈ pkg.models) : ∀ r ∈ page.references, r ∈ pkg.models.map (·.place) := by
  have hall := build_assembled h
  obtain ⟨m, hm, hof⟩ := exists_of_mem_mapM hall.models hpage
  refine places_in_package hall.models (ModelPage.prints_of? hof).references fun ref href => ?_
  rw [modelNames_of_left hall.models]
  exact Model.settle_closed _ m hm ref href

/-- When code can name what the pages of models declare and import. A class needs a name of
characters of words, an enum needs this of its property too, and a module is always an identifier,
which is reserved only if the bare part of the name spells a reserved word. All names can be used
exactly if all definitions with a page are namable. -/
theorem build_names_bindable_iff (preset : p ∈ Profile.presets) (ascii : doc.HasAsciiNames)
    (h : (build p doc).result = .ok pkg) :
    (∀ page ∈ pkg.models, ∃ m, page.IsOf p doc m ∧ page.Names m) ∧
      ((∀ page ∈ pkg.models, ∀ n ∈ page.codeNames, IsBindable n) ↔
        ∀ page ∈ pkg.models, ∃ m, page.IsOf p doc m ∧ page.IsNamable m) := by
  refine ⟨fun page hpage => ?_, fun hall page hpage => ?_, fun hall page hpage n hn => ?_⟩
  · obtain ⟨m, hof⟩ := exists_isOf h hpage
    exact ⟨m, hof, hof.names preset ascii⟩
  · obtain ⟨m, hof⟩ := exists_isOf h hpage
    have hown := hall page hpage
    have henums : ∀ e ∈ page.enums, IsBindable e.className := by
      intro e he
      apply hown
      refine List.mem_append_left _ (List.mem_cons_of_mem _ (List.mem_cons_of_mem _ ?_))
      exact List.mem_map_of_mem he
    refine ⟨m, hof, (hof.isNamable_iff preset ascii).mp ⟨?_, ?_, henums⟩⟩
    · exact hown _ List.mem_cons_self
    · exact hown _ (List.mem_cons_of_mem _ List.mem_cons_self)
  · have hdeclared : ∀ page ∈ pkg.models, IsBindable page.place.module ∧
        IsBindable page.place.className ∧ ∀ e ∈ page.enums, IsBindable e.className := by
      intro page hpage
      obtain ⟨m, hof, hnamable⟩ := hall page hpage
      exact (hof.isNamable_iff preset ascii).mpr hnamable
    obtain ⟨hmodule, hclass, henums⟩ := hdeclared page hpage
    simp only [ModelPage.codeNames, List.cons_append, List.mem_cons, List.mem_append,
      List.mem_map, List.mem_flatMap] at hn
    rcases hn with rfl | rfl | ⟨e, he, rfl⟩ | ⟨r, hr, hn⟩
    · exact hmodule
    · exact hclass
    · exact henums e he
    · -- a reference is the place of another page of the package
      obtain ⟨other, hother, rfl⟩ := List.mem_map.mp (references_in_package h hpage r hr)
      obtain ⟨hmodule, hclass, -⟩ := hdeclared other hother
      rcases hn with rfl | rfl | hn
      · exact hmodule
      · exact hclass
      · cases hn

/-- Definitions with a dot, with the spelling of a reserved word, and with a dash in the name of a
property with an enum. -/
def unnamableDocument : Document where
  definitions := [(.text "Foo.Bar", .map []), (.text "Class", .map []),
    (.text "User", .map [(.text "properties", .map [(.text "kind-of", oneOrTwo)])])]
  distinct := by decide +kernel
  paths := []
  parameters := []
  title := .null
  version := ""

/-- Each of the three pages has a name that code cannot use. -/
theorem build_names_bindable_iff_of_unnamable :
    Profile.common ∈ Profile.presets ∧ unnamableDocument.HasAsciiNames ∧
    ∃ pkg, (build .common unnamableDocument).result = .ok pkg ∧
      pkg.models.map ModelPage.codeNames = [["foo_bar", "CAFoo.Bar"], ["class", "CAClass"],
        ["user", "CAUser", "CAUserKind-ofEnum"]] ∧
      (∀ page ∈ pkg.models, ¬ ∀ n ∈ page.codeNames, IsBindable n) ∧
      ¬ ∀ page ∈ pkg.models, ∃ m, page.IsOf .common unnamableDocument m ∧ page.IsNamable m := by
  have preset : Profile.common ∈ Profile.presets := List.mem_cons_self
  have ascii : unnamableDocument.HasAsciiNames := by
    constructor
    · intro d hd s hs
      simp only [unnamableDocument, List.mem_cons, List.not_mem_nil, or_false] at hd
      rcases hd with rfl | rfl | rfl <;> cases hs <;> decide
    · intro d hd properties hproperties e he s hs
      simp only [unnamableDocument, List.mem_cons, List.not_mem_nil, or_false] at hd
      rcases hd with rfl | rfl | rfl
      · cases hproperties
        cases he
      · cases hproperties
        cases he
      · cases hproperties
        rw [List.mem_singleton.mp he] at hs
        cases hs
        decide
  have hnames : (build .common unnamableDocument).result.toOption.map
      (fun pkg => pkg.models.map ModelPage.codeNames) =
        some [["foo_bar", "CAFoo.Bar"], ["class", "CAClass"],
          ["user", "CAUser", "CAUserKind-ofEnum"]] := by
    decide +kernel
  obtain ⟨pkg, hpkg, hpages⟩ := Option.map_eq_some_iff.mp hnames
  rw [toOption_eq_some] at hpkg
  have hnone : ∀ page ∈ pkg.models, ¬ ∀ n ∈ page.codeNames, IsBindable n := by
    have hall : ∀ names ∈ pkg.models.map ModelPage.codeNames, ¬ ∀ n ∈ names, IsBindable n := by
      rw [hpages]
      decide
    exact fun page hpage => hall _ (List.mem_map_of_mem hpage)
  have hne : pkg.models ≠ [] := by
    intro hnil
    rw [hnil] at hpages
    cases hpages
  obtain ⟨page, hpage⟩ := List.exists_mem_of_ne_nil _ hne
  have hiff := (build_names_bindable_iff preset ascii hpkg).2
  exact ⟨preset, ascii, pkg, hpkg, hpages, hnone, fun hall =>
    hnone page hpage (hiff.mpr hall page hpage)⟩

end Package

end ApiSmith

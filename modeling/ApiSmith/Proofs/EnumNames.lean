import Mathlib.Data.List.Nodup
import ApiSmith.Proofs.Bindings
import ApiSmith.Proofs.FieldNames
import ApiSmith.Proofs.MemberNames
import ApiSmith.Proofs.Returning

/-!
# Enums under one name

An enum is named by its definition and its property, the property with a capital at its start. Two
properties that differ in this capital alone have different fields, so the definition compiles, but
their enums have one name, and the module of the model declares two classes of it. Code that names
the class gets the later one. `enum_names_distinct_iff` says when this happens, and for each
property whether the class that its accessor or its list annotation names is the enum of the
property.

Behind the enums the module declares the class of the model and imports the models that it refers
to. These replace an enum of their name too, so they are part of the condition.
-/

namespace ApiSmith

open Naming Annotation

/-! ## Fields and their properties -/

def Model.namingOf (owner property : Value) : NamingContext :=
  ⟨owner, property, "definitions." ++ owner.display ++ ".properties." ++ property.display⟩

/-- A field that is made from a property: it has its key, and the type of its schema. -/
structure Field.IsOf (p : Profile) (owner : Value) (property : Value × Value) (f : Field) :
    Prop where
  key : property.1 = .text f.key
  type : (resolve p property.2 (Model.namingOf owner property.1)).result = .ok f.type

def Field.enumKey (f : Field) : String := String.ofList (capitalized f.key.toList)

/-- Two fields whose enums, if both have one, have different names. -/
def Field.KeepsApart (f g : Field) : Prop :=
  f.type.enums ≠ [] → g.type.enums ≠ [] → f.enumKey ≠ g.enumKey

theorem Field.Steps.isOf {p : Profile} {owner : Value} {required : List Value}
    {earlier : List Field} {property schema : Value} {f : Field}
    (h : f.Steps p owner required earlier property schema) : f.IsOf p owner (property, schema) :=
  ⟨h.key, h.type⟩

theorem Model.forall₂_of_compile {p : Profile} {name schema : Value} {m : Model}
    (h : (compile p name schema).result = .ok m) :
    m.name = name ∧ ∃ properties, properties? schema = some properties ∧
      List.Forall₂ (Field.IsOf p name) properties m.fields := by
  obtain ⟨required, properties, hsteps⟩ := steps_of_compile h
  refine ⟨hsteps.name, properties, hsteps.properties?_eq, ?_⟩
  exact hsteps.rows.imp fun _ _ ⟨_, hf⟩ => hf.isOf

/-! ## Names of enums -/

theorem Descriptor.enums_cases (d : Descriptor) : d.enums = [] ∨ ∃ spec, d.enums = [spec] := by
  induction d with
  | array d ih => exact ih
  | enum spec => exact .inr ⟨spec, rfl⟩
  | primitive _ => exact .inl rfl
  | reference _ => exact .inl rfl

section

variable {p : Profile} {owner : Value}

theorem Field.IsOf.enumName {property : Value × Value} {f : Field} (h : f.IsOf p owner property)
    {spec : EnumSpec} (hspec : spec ∈ f.type.enums) :
    ∃ o, owner = .text o ∧ spec.name = o ++ f.enumKey := by
  obtain ⟨es, location, hmade⟩ := exists_ofSchema_of_resolve h.type hspec
  have hname := (EnumSpec.parts_of_ofSchema hmade).1
  rw [Model.namingOf, h.key] at hname
  cases owner with
  | text o => exact ⟨o, rfl, (Option.some.inj hname).symm⟩
  | _ => cases hname

theorem Field.IsOf.enumName_inj {property other : Value × Value} {f g : Field}
    (hf : f.IsOf p owner property) (hg : g.IsOf p owner other) {spec spec' : EnumSpec}
    (hspec : spec ∈ f.type.enums) (hspec' : spec' ∈ g.type.enums) :
    spec.name = spec'.name ↔ f.enumKey = g.enumKey := by
  obtain ⟨o, rfl, hname⟩ := hf.enumName hspec
  obtain ⟨_, ⟨⟩, hname'⟩ := hg.enumName hspec'
  rw [hname, hname', String.append_right_inj]

theorem Profile.enumClass?_inj {spec spec' : EnumSpec} {c c' : String}
    (h : p.enumClass? spec = some c) (h' : p.enumClass? spec' = some c') :
    c = c' ↔ spec.name = spec'.name := by
  obtain ⟨start, ending, hstart, hending⟩ :
      ∃ start ending, p.modelStart = .text start ∧ p.enumEnd = .text ending := by
    unfold Profile.enumClass? Value.concat? at h
    cases hstart : p.modelStart <;> cases hending : p.enumEnd <;> simp_all
  simp only [Profile.enumClass?, hstart, hending, Value.concat?, Option.bind_eq_bind,
    Option.bind_some, Option.some.injEq] at h h'
  rw [← h, ← h', String.append_left_inj, String.append_right_inj]

end

/-! ## Rows of fields -/

section

variable {p : Profile} {owner : Value} {properties : List (Value × Value)} {fields : List Field}

theorem Field.exists_isOf (h : List.Forall₂ (Field.IsOf p owner) properties fields) {f : Field}
    (hf : f ∈ fields) : ∃ property, f.IsOf p owner property := by
  obtain ⟨property, -, hof⟩ := exists_of_mem_forall₂ h hf
  exact ⟨property, hof⟩

/-- The enums of fields have distinct names exactly if the fields keep apart. -/
theorem nodup_enumNames_iff (h : List.Forall₂ (Field.IsOf p owner) properties fields) :
    ((fields.flatMap fun f => f.type.enums).map (·.name)).Nodup ↔
      fields.Pairwise Field.KeepsApart := by
  have halone (f : Field) : (f.type.enums.map (·.name)).Nodup := by
    rcases f.type.enums_cases with hnone | ⟨spec, hone⟩
    · rw [hnone]
      exact List.nodup_nil
    · rw [hone]
      exact List.pairwise_singleton _ _
  rw [List.map_flatMap, List.Nodup, List.pairwise_flatMap]
  refine (and_iff_right fun f _ => halone f).trans (List.Pairwise.iff_of_mem fun {f g} hf hg => ?_)
  obtain ⟨_, hf⟩ := Field.exists_isOf h hf
  obtain ⟨_, hg⟩ := Field.exists_isOf h hg
  constructor
  · intro hne hfenums hgenums
    obtain ⟨spec, hspec⟩ := List.exists_mem_of_ne_nil _ hfenums
    obtain ⟨spec', hspec'⟩ := List.exists_mem_of_ne_nil _ hgenums
    rw [Ne, ← hf.enumName_inj hg hspec hspec']
    exact hne _ (List.mem_map_of_mem hspec) _ (List.mem_map_of_mem hspec')
  · intro hne a ha b hb
    obtain ⟨spec, hspec, rfl⟩ := List.mem_map.mp ha
    obtain ⟨spec', hspec', rfl⟩ := List.mem_map.mp hb
    rw [Ne, hf.enumName_inj hg hspec hspec']
    exact hne (List.ne_nil_of_mem hspec) (List.ne_nil_of_mem hspec')

end

/-! ## Classes of a module -/

/-- Where a class comes from that a name in the module of a model stands for. -/
inductive ClassOrigin where
  /-- It is the enum of the property at this place of the definition. -/
  | property (place : Nat)
  /-- It is the model. -/
  | model
  /-- It is imported from this module. -/
  | module (name : String)
  deriving DecidableEq, Repr

def Field.classes (p : Profile) (place : Nat) (f : Field) : List (String × ClassOrigin) :=
  f.type.enums.filterMap fun spec => (p.enumClass? spec).map fun c => (c, .property place)

/-- The classes that the enums of properties get, in order; the first property is at a place. -/
def Field.classesFrom (p : Profile) : Nat → List Field → List (String × ClassOrigin)
  | _, [] => []
  | place, f :: rest => f.classes p place ++ classesFrom p (place + 1) rest

/-- The class names that the module of a model binds, in order: enums, the model, and imports. -/
def ModelPage.bindings (p : Profile) (m : Model) (page : ModelPage) : List (String × ClassOrigin) :=
  Field.classesFrom p 0 m.fields ++
    (page.place.className, .model) :: page.references.map fun r => (r.className, .module r.module)

/-- What a class name stands for in a module: what it is bound to last. -/
def ModelPage.origin? (p : Profile) (m : Model) (page : ModelPage) (name : String) :
    Option ClassOrigin :=
  (page.bindings p m).reverse.lookup name

theorem lookup_reverse_eq_iff {α : Type} {front back : List (String × α)} {name : String} {x : α}
    (new : ∀ e ∈ back, e.2 ≠ x) :
    (front ++ (name, x) :: back).reverse.lookup name = some x ↔ ∀ e ∈ back, e.1 ≠ name := by
  rw [List.reverse_append, List.reverse_cons, List.append_assoc, List.lookup_append]
  cases hlast : back.reverse.lookup name with
  | none =>
    rw [List.lookup_eq_none_iff] at hlast
    refine iff_of_true (by simp) fun e he heq => ?_
    have hne := hlast e (List.mem_reverse.mpr he)
    rw [heq] at hne
    simp at hne
  | some y =>
    obtain ⟨_, _, hsplit, -⟩ := List.lookup_eq_some_iff.mp hlast
    have hmem : (name, y) ∈ back := by
      rw [← List.mem_reverse, hsplit]
      exact List.mem_append_right _ List.mem_cons_self
    refine iff_of_false (fun h => new _ hmem ?_) fun h => h _ hmem rfl
    exact Option.some.inj h

section

variable {p : Profile} {m : Model} {page : ModelPage}

theorem Field.names_classesFrom (place : Nat) (fields : List Field) :
    (classesFrom p place fields).map (·.1) =
      (fields.flatMap fun f => f.type.enums).filterMap p.enumClass? := by
  induction fields generalizing place with
  | nil => rfl
  | cons f rest ih =>
    have hf : (f.classes p place).map (·.1) = f.type.enums.filterMap p.enumClass? := by
      rw [classes, List.map_filterMap]
      refine List.filterMap_congr fun spec _ => ?_
      cases p.enumClass? spec <;> rfl
    rw [classesFrom, List.map_append, ih, hf, List.flatMap_cons, List.filterMap_append]

theorem Field.classesFrom_append (place : Nat) (front back : List Field) :
    classesFrom p place (front ++ back) =
      classesFrom p place front ++ classesFrom p (place + front.length) back := by
  induction front generalizing place with
  | nil => rfl
  | cons f rest ih =>
    rw [List.cons_append, classesFrom, classesFrom, ih, List.append_assoc, List.length_cons,
      Nat.add_assoc, Nat.add_comm 1]

theorem Field.place_of_mem_classesFrom {place : Nat} {fields : List Field}
    {e : String × ClassOrigin} (h : e ∈ classesFrom p place fields) :
    ∃ n, place ≤ n ∧ e.2 = .property n := by
  induction fields generalizing place with
  | nil => cases h
  | cons f rest ih =>
    rcases List.mem_append.mp h with h | h
    · obtain ⟨spec, -, hclass⟩ := List.mem_filterMap.mp h
      obtain ⟨c, -, rfl⟩ := Option.map_eq_some_iff.mp hclass
      exact ⟨place, le_rfl, rfl⟩
    · obtain ⟨n, hn, horigin⟩ := ih h
      exact ⟨n, by omega, horigin⟩

theorem ModelPage.classNames_eq (h : m.enums.mapM (EnumClass.of? p) = some page.enums) :
    page.enums.map (fun e => some e.className) = m.enums.map p.enumClass? := by
  refine map_eq_of_mapM h fun spec e he => ?_
  obtain ⟨c, hc, rfl⟩ := Option.map_eq_some_iff.mp he
  exact hc.symm

theorem ModelPage.names_classesFrom (h : m.enums.mapM (EnumClass.of? p) = some page.enums) :
    (Field.classesFrom p 0 m.fields).map (·.1) = page.enums.map (·.className) := by
  rw [Field.names_classesFrom, ← Model.enums.eq_def, ← Function.id_comp p.enumClass?,
    ← List.filterMap_map, ← ModelPage.classNames_eq h, List.filterMap_map, Function.id_comp]
  exact congrFun List.filterMap_eq_map' _

theorem ModelPage.exists_enumClass (h : m.enums.mapM (EnumClass.of? p) = some page.enums)
    {spec : EnumSpec} (hspec : spec ∈ m.enums) : ∃ c, p.enumClass? spec = some c := by
  have hmem : p.enumClass? spec ∈ page.enums.map fun e => some e.className := by
    rw [ModelPage.classNames_eq h]
    exact List.mem_map_of_mem hspec
  obtain ⟨e, -, he⟩ := List.mem_map.mp hmem
  exact ⟨_, he.symm⟩

theorem ModelPage.nodup_classNames_iff (h : m.enums.mapM (EnumClass.of? p) = some page.enums) :
    (page.enums.map (·.className)).Nodup ↔ (m.enums.map (·.name)).Nodup := by
  have hclasses : (page.enums.map (·.className)).Nodup ↔ (m.enums.map p.enumClass?).Nodup := by
    rw [← ModelPage.classNames_eq h, ← List.nodup_map_iff (fun _ _ => Option.some.inj),
      List.map_map]
    rfl
  rw [hclasses, List.Nodup, List.Nodup, List.pairwise_map, List.pairwise_map]
  refine List.Pairwise.iff_of_mem fun {spec spec'} hspec hspec' => not_congr ?_
  obtain ⟨c, hc⟩ := ModelPage.exists_enumClass h hspec
  obtain ⟨c', hc'⟩ := ModelPage.exists_enumClass h hspec'
  rw [hc, hc', Option.some.injEq]
  exact Profile.enumClass?_inj hc hc'

end

/-! ## What a line names -/

def Annotation.listed : Nat → String → String
  | 0, t => t
  | depth + 1, t => "list[" ++ listed depth t ++ "]"

/-- A field names a class: its accessor gives members of it, or its annotation lists them. -/
def FieldLine.NamesEnum (line : FieldLine) (depth : Nat) (c : String) : Prop :=
  if depth = 0 then line.enumClass = some c
  else line.annotation =
    if line.required then listed depth c
    else "Optional[" ++ listed depth c ++ "]"

section

variable {p : Profile}

theorem Descriptor.typeText?_of_enum {d : Descriptor} {spec : EnumSpec} (h : spec ∈ d.enums) :
    d.typeText? p = (p.enumClass? spec).map (listed d.depth) := by
  induction d with
  | array d ih =>
    rw [Descriptor.typeText?, ih h, Option.map_map]
    rfl
  | enum own =>
    cases List.mem_singleton.mp h
    exact Option.map_id'.symm
  | primitive _ => cases h
  | reference _ => cases h

theorem FieldLine.namesEnum_of? {f : Field} {line : FieldLine} (h : FieldLine.of? p f = some line)
    {spec : EnumSpec} (hspec : spec ∈ f.type.enums) :
    ∃ c, p.enumClass? spec = some c ∧ line.NamesEnum f.type.depth c := by
  simp only [FieldLine.of?, Option.pure_def, Option.bind_eq_bind, Option.bind_eq_some_iff,
    Option.some.injEq] at h
  obtain ⟨t, ht, rfl⟩ := h
  rw [Descriptor.typeText?_of_enum hspec] at ht
  obtain ⟨c, hc, rfl⟩ := Option.map_eq_some_iff.mp ht
  refine ⟨c, hc, ?_⟩
  cases htype : f.type with
  | enum own => rfl
  | array d => rfl
  | primitive _ =>
    rw [htype] at hspec
    cases hspec
  | reference _ =>
    rw [htype] at hspec
    cases hspec

end

/-! ## What a class stands for -/

/-- The class of a field's enum is replaced by nothing that its module binds behind it. -/
structure ModelPage.KeepsEnum (page : ModelPage) (f : Field) (after : List Field) (c : String) :
    Prop where
  fields : ∀ g ∈ after, g.type.enums ≠ [] → g.enumKey ≠ f.enumKey
  model : page.place.className ≠ c
  references : ∀ r ∈ page.references, r.className ≠ c

section

variable {p : Profile} {owner : Value} {properties : List (Value × Value)}

theorem Field.classes_eq {f : Field} {spec : EnumSpec} (hspec : spec ∈ f.type.enums) {c : String}
    (hc : p.enumClass? spec = some c) (place : Nat) :
    f.classes p place = [(c, .property place)] := by
  obtain ⟨own, hown⟩ := f.type.enums_cases.resolve_left (List.ne_nil_of_mem hspec)
  rw [hown, List.mem_singleton] at hspec
  subst hspec
  rw [Field.classes, hown, List.filterMap_cons, hc]
  rfl

variable {m : Model} {page : ModelPage}
  (hfields : List.Forall₂ (Field.IsOf p owner) properties m.fields) {before after : List Field}
  {f : Field} (hm : m.fields = before ++ f :: after) {spec : EnumSpec}
  (hspec : spec ∈ f.type.enums) {c : String} (hc : p.enumClass? spec = some c)
include hfields hm hspec hc

theorem Field.not_mem_classesFrom_iff (henums : m.enums.mapM (EnumClass.of? p) = some page.enums)
    (place : Nat) :
    c ∉ (Field.classesFrom p place after).map (·.1) ↔
      ∀ g ∈ after, g.type.enums ≠ [] → g.enumKey ≠ f.enumKey := by
  obtain ⟨_, hf⟩ := Field.exists_isOf hfields (f := f) (by simp [hm])
  have hkey {g : Field} (hg : g ∈ after) {spec' : EnumSpec} (hspec' : spec' ∈ g.type.enums)
      {c' : String} (hc' : p.enumClass? spec' = some c') : c' = c ↔ g.enumKey = f.enumKey := by
    obtain ⟨_, hg⟩ := Field.exists_isOf hfields (f := g) (by simp [hm, hg])
    exact (Profile.enumClass?_inj hc' hc).trans (hg.enumName_inj hf hspec' hspec)
  rw [Field.names_classesFrom, List.mem_filterMap]
  constructor
  · intro hnone g hg hne heq
    obtain ⟨spec', hspec'⟩ := List.exists_mem_of_ne_nil _ hne
    have hmem : spec' ∈ m.enums := List.mem_flatMap.mpr ⟨g, by simp [hm, hg], hspec'⟩
    obtain ⟨c', hc'⟩ := ModelPage.exists_enumClass henums hmem
    refine hnone ⟨spec', List.mem_flatMap.mpr ⟨g, hg, hspec'⟩, ?_⟩
    rw [hc', (hkey hg hspec' hc').mpr heq]
  · rintro hapart ⟨spec', hmem, hc'⟩
    obtain ⟨g, hg, hspec'⟩ := List.mem_flatMap.mp hmem
    exact hapart g hg (List.ne_nil_of_mem hspec') ((hkey hg hspec' hc').mp rfl)

/-- The class of a field's enum stands for it exactly if nothing behind it replaces it. -/
theorem ModelPage.origin?_eq_iff (henums : m.enums.mapM (EnumClass.of? p) = some page.enums) :
    page.origin? p m c = some (.property before.length) ↔ page.KeepsEnum f after c := by
  have hbindings : page.bindings p m =
      Field.classesFrom p 0 before ++ (c, .property before.length) ::
        (Field.classesFrom p (before.length + 1) after ++ (page.place.className, .model) ::
          page.references.map fun r => (r.className, .module r.module)) := by
    rw [ModelPage.bindings, hm, Field.classesFrom_append, Nat.zero_add, Field.classesFrom,
      Field.classes_eq hspec hc]
    simp only [List.append_assoc, List.cons_append, List.nil_append]
  rw [ModelPage.origin?, hbindings, lookup_reverse_eq_iff]
  · have hafter : (∀ e ∈ Field.classesFrom p (before.length + 1) after, e.1 ≠ c) ↔
        ∀ g ∈ after, g.type.enums ≠ [] → g.enumKey ≠ f.enumKey := by
      rw [← Field.not_mem_classesFrom_iff hfields hm hspec hc henums (before.length + 1)]
      simp only [List.mem_map, not_exists, not_and, ne_eq]
    rw [List.forall_mem_append, List.forall_mem_cons, List.forall_mem_map, hafter]
    exact ⟨fun ⟨hfields, hmodel, hreferences⟩ => ⟨hfields, hmodel, hreferences⟩,
      fun ⟨hfields, hmodel, hreferences⟩ => ⟨hfields, hmodel, hreferences⟩⟩
  · -- what is bound behind the class comes from other places
    intro e he heq
    rcases List.mem_append.mp he with he | he
    · obtain ⟨n, hn, horigin⟩ := Field.place_of_mem_classesFrom he
      rw [heq] at horigin
      cases horigin
      omega
    · rcases List.mem_cons.mp he with rfl | he
      · cases heq
      · obtain ⟨r, -, rfl⟩ := List.mem_map.mp he
        cases heq

end

/-- The enums of a definition. Their names and their classes are distinct exactly if no two
properties with an enum are one but for the capital at their start. The line of a property with an
enum names the class of this enum, and the class stands for it exactly if nothing behind it has the
name: no later property, not the model and no model that is imported. -/
theorem enum_names_distinct_iff {p : Profile} {name schema : Value} {m : Model}
    (h : (Model.compile p name schema).result = .ok m) :
    (∃ properties, Model.properties? schema = some properties ∧
      List.Forall₂ (Field.IsOf p name) properties m.fields) ∧
    ((m.enums.map (·.name)).Nodup ↔ m.fields.Pairwise Field.KeepsApart) ∧
    (p.HasTexts → name.IsText → ∃ page, ModelPage.of? p m = some page) ∧
    ∀ page, ModelPage.of? p m = some page →
      ((page.enums.map (·.className)).Nodup ↔ m.fields.Pairwise Field.KeepsApart) ∧
      ∀ before f after, m.fields = before ++ f :: after → ∀ spec ∈ f.type.enums,
        ∃ line c, page.fields[before.length]? = some line ∧ p.enumClass? spec = some c ∧
          line.NamesEnum f.type.depth c ∧
          (page.origin? p m c = some (.property before.length) ↔ page.KeepsEnum f after c) := by
  obtain ⟨hname, properties, hproperties, hfields⟩ := Model.forall₂_of_compile h
  have hnames := nodup_enumNames_iff hfields
  refine ⟨⟨properties, hproperties, hfields⟩, hnames, fun hp htext => ?_, fun page hpage => ?_⟩
  · exact ModelPage.exists_of? hp (hname ▸ htext)
  · obtain ⟨-, -, -, hlines, henums, -, -⟩ := ModelPage.prints_of? hpage
    refine ⟨(ModelPage.nodup_classNames_iff henums).trans hnames, ?_⟩
    intro before f after hm spec hspec
    obtain ⟨line, hline, hof⟩ :=
      getElem?_of_forall₂ (mapM_eq_some_iff.mp hlines) (i := before.length) (a := f)
        (by simp [hm])
    obtain ⟨c, hc, hwritten⟩ := FieldLine.namesEnum_of? hof hspec
    exact ⟨line, c, hline, hc, hwritten, ModelPage.origin?_eq_iff hfields hm hspec hc henums⟩

/-- A definition with two properties that differ in the capital at their start. -/
def statusTwiceSchema : Value :=
  .map [(.text "properties", .map [
    (.text "status", .map [(.text "enum", .list [.int 1])]),
    (.text "Status", .map [(.text "enum", .list [.int 2])])])]

/-- The accessor of `status` gives members of the enum of `Status`. -/
theorem enum_names_distinct_iff_of_status :
    ∃ m, (Model.compile .common (.text "User") statusTwiceSchema).result = .ok m ∧
      m.fields.map (·.name.display) = ["status", "Status"] ∧
      m.enums.map (·.name) = ["UserStatus", "UserStatus"] ∧
      ¬ m.fields.Pairwise Field.KeepsApart ∧
      ∃ page, ModelPage.of? .common m = some page ∧
        page.fields.map (·.enumClass) = [some "CAUserStatusEnum", some "CAUserStatusEnum"] ∧
        page.origin? .common m "CAUserStatusEnum" = some (.property 1) := by
  have hmade : (Model.compile .common (.text "User") statusTwiceSchema).result.toOption.bind
      (fun m => (ModelPage.of? .common m).map fun page =>
        (m.fields.map (·.name.display), m.enums.map (·.name), page.fields.map (·.enumClass),
          page.origin? .common m "CAUserStatusEnum")) =
        some (["status", "Status"], ["UserStatus", "UserStatus"],
          [some "CAUserStatusEnum", some "CAUserStatusEnum"], some (.property 1)) := by
    decide +kernel
  obtain ⟨m, hm, hparts⟩ := Option.bind_eq_some_iff.mp hmade
  rw [toOption_eq_some] at hm
  obtain ⟨page, hpage, hparts⟩ := Option.map_eq_some_iff.mp hparts
  obtain ⟨hfields, henums, hclasses, horigin⟩ := by simpa only [Prod.mk.injEq] using hparts
  obtain ⟨-, hdistinct, -, -⟩ := enum_names_distinct_iff hm
  have hapart : ¬ m.fields.Pairwise Field.KeepsApart := by
    rw [← hdistinct, henums]
    decide
  exact ⟨m, hm, hfields, henums, hapart, page, hpage, hclasses, horigin⟩

end ApiSmith

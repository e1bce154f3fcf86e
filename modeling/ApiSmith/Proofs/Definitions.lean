import ApiSmith.Proofs.Annotations
import ApiSmith.Proofs.ArrayLevels
import ApiSmith.Proofs.EnumNames
import ApiSmith.Proofs.Grouping
import ApiSmith.Proofs.MethodNames
import ApiSmith.Proofs.SchemaSteps

/-!
# What a definition compiles to

A definition compiles exactly if each of its properties has a type and no two of them come to one
field name. Otherwise the first property at fault decides: one whose type is not resolved, with the
place of the schema inside it that fails, or one whose field name is taken by an earlier property.
`definition_compiles_iff` says this, and what the model holds: a field for each property, the enums
at the leaves of its types, and each definition that it refers to, once and in the order of use.

One invariant carries the loop over the properties: the fields so far are those of the properties so
far (`Field.IsMadeOf`), and these are sound (`IsSound`), which is to say that they resolve and that
their field names are distinct.
-/

namespace ApiSmith

open Value

theorem Value.isAmong_text_iff {s : String} {vs : List Value} :
    (Value.text s).isAmong vs = true ↔ .text s ∈ vs := by
  simp [Value.isAmong]

namespace Model

def fieldName (property : Value × Value) : String := nameOf reservedFields property.1.display

def Resolves (p : Profile) (owner : Value) (property : Value × Value) : Prop :=
  ∃ type, (resolve p property.2 (namingOf owner property.1)).result = .ok type

/-- Properties that resolve, and no two of one field name. -/
structure IsSound (p : Profile) (owner : Value) (properties : List (Value × Value)) : Prop where
  resolve : ∀ e ∈ properties, Resolves p owner e
  distinct : (properties.map fieldName).Nodup

/-- What is at fault in a property that comes after others: a schema inside it that its type depends
on, or its field name, which one of the others has. -/
inductive FaultAt (p : Profile) (owner : Value) (before : List (Value × Value))
    (property : Value × Value) (d : Defect) : Prop
  | type {steps : List SchemaStep} {leaf : Value} (leads : property.2.LeadsTo steps leaf)
    (fails : leaf.Fails p ((namingOf owner property.1).along steps) d.cause)
    (place : d.location = (namingOf owner property.1).location ++ SchemaStep.text steps)
  | name (resolves : Resolves p owner property) (taken : fieldName property ∈ before.map fieldName)
    (cause : d.cause = .collidingField property.1.display (.text (fieldName property)))
    (place : d.location = (namingOf owner property.1).location)

end Model

/-- A field that is made from a property of a definition with required names. -/
structure Field.IsMadeOf (p : Profile) (owner : Value) (required : List Value)
    (property : Value × Value) (f : Field) : Prop where
  key : property.1 = .text f.key
  name : f.name = .text (Model.fieldName property)
  type : (resolve p property.2 (Model.namingOf owner property.1)).result = .ok f.type
  required : f.required = true ↔ .text f.key ∈ required

namespace Model

variable {p : Profile} {owner : Value} {required : List Value} {types : Value → Prop}

/-! ## Soundness -/

theorem isSound_nil : IsSound p owner [] := ⟨nofun, List.nodup_nil⟩

theorem isSound_concat_iff {properties : List (Value × Value)} {e : Value × Value} :
    IsSound p owner (properties ++ [e]) ↔
      IsSound p owner properties ∧ Resolves p owner e ∧ fieldName e ∉ properties.map fieldName := by
  have hdistinct : ((properties ++ [e]).map fieldName).Nodup ↔
      fieldName e ∉ properties.map fieldName ∧ (properties.map fieldName).Nodup := by
    rw [List.map_append, List.map_singleton, ← List.concat_eq_append, List.nodup_concat]
  constructor
  · rintro ⟨hresolve, hnames⟩
    obtain ⟨hbefore, he⟩ := List.forall_mem_append.mp hresolve
    obtain ⟨hnew, hnames⟩ := hdistinct.mp hnames
    exact ⟨⟨hbefore, hnames⟩, he e (List.mem_singleton_self e), hnew⟩
  · rintro ⟨⟨hbefore, hnames⟩, he, hnew⟩
    exact ⟨List.forall_mem_append.mpr ⟨hbefore, List.forall_mem_singleton.mpr he⟩,
      hdistinct.mpr ⟨hnew, hnames⟩⟩

theorem IsSound.of_append {properties more : List (Value × Value)}
    (h : IsSound p owner (properties ++ more)) : IsSound p owner properties where
  resolve e he := h.resolve e (List.mem_append_left _ he)
  distinct := by
    have hdistinct := h.distinct
    rw [List.map_append] at hdistinct
    exact (List.nodup_append.mp hdistinct).1

/-! ## One property -/

section

variable (preset : p ∈ Profile.presets) {earlier : List Field} {before : List (Value × Value)}
  {e : Value × Value}

theorem any_same_iff (hearlier : List.Forall₂ (Field.IsMadeOf p owner required) before earlier)
    {name : String} :
    (earlier.any fun f => f.name.same (.text name)) = true ↔ name ∈ before.map fieldName := by
  induction hearlier with
  | nil => simp
  | cons hf _ ih =>
    rw [List.any_cons, Bool.or_eq_true, ih, hf.name, same_text, isText_iff, text.injEq,
      List.map_cons, List.mem_cons, eq_comm]

variable (hkey : e.1.IsText) (hschema : e.2.IsSchema types)
  (hearlier : List.Forall₂ (Field.IsMadeOf p owner required) before earlier)
include preset hkey hschema hearlier

theorem result_compileField : ∃ description key, e.1 = .text key ∧
    (compileField p owner required earlier e.1 e.2).result =
      (resolve p e.2 (namingOf owner e.1)).result.bind fun type =>
        if fieldName e ∈ before.map fieldName then
          .error (.defect
            ⟨.collidingField key (.text (fieldName e)), (namingOf owner e.1).location⟩)
        else .ok ⟨.text (fieldName e), key, type, e.1.isAmong required, description⟩ := by
  obtain ⟨key, hkey⟩ := hkey
  obtain ⟨property, schema⟩ := e
  obtain rfl : property = .text key := hkey
  obtain ⟨es, rfl, hes⟩ := hschema.isMap
  have hp := Profile.hasTexts_of_preset preset
  obtain ⟨description, hdescription⟩ := exists_comment hp hschema.description
  refine ⟨description, key, rfl, ?_⟩
  unfold compileField
  rw [Logged.result_bind]
  congr 1
  funext type
  have hname : nameOf reservedFields key = fieldName (.text key, .map es) := rfl
  simp only [text?, Compile.shaped_some, pure_bind, part?_map, safeName_eq_nameOf preset,
    any_same_iff hearlier, hname]
  by_cases htaken : fieldName (.text key, .map es) ∈ before.map fieldName
  · rw [if_pos htaken, if_pos htaken]
    rfl
  · rw [if_neg htaken, if_neg htaken, Logged.result_bind_of_ok hdescription]
    rfl

theorem exists_compileField_iff :
    (∃ f, (compileField p owner required earlier e.1 e.2).result = .ok f) ↔
      Resolves p owner e ∧ fieldName e ∉ before.map fieldName := by
  obtain ⟨description, key, -, hresult⟩ := result_compileField preset hkey hschema hearlier
  rw [hresult, Resolves]
  cases (resolve p e.2 (namingOf owner e.1)).result with
  | error e => simp [Except.bind]
  | ok type => by_cases htaken : fieldName e ∈ before.map fieldName <;> simp [Except.bind, htaken]

theorem isMadeOf_of_compileField {f : Field}
    (h : (compileField p owner required earlier e.1 e.2).result = .ok f) :
    f.IsMadeOf p owner required e := by
  obtain ⟨description, key, hkey, hresult⟩ := result_compileField preset hkey hschema hearlier
  rw [hresult] at h
  obtain ⟨type, htype, h⟩ := bind_eq_ok.mp h
  split at h
  · cases h
  · cases h
    exact ⟨hkey, rfl, htype, by rw [hkey]; exact isAmong_text_iff⟩

theorem compileField_eq_defect_iff {d : Defect} :
    (compileField p owner required earlier e.1 e.2).result = .error (.defect d) ↔
      FaultAt p owner before e d := by
  obtain ⟨description, key, hkey, hresult⟩ := result_compileField preset hkey hschema hearlier
  rw [hresult]
  constructor
  · intro h
    rcases bind_eq_error.mp h with htype | ⟨type, htype, h⟩
    · obtain ⟨steps, leaf, hleads⟩ := e.2.exists_leadsTo
      obtain ⟨hplace, hfails⟩ := (resolve_eq_defect_iff hleads).mp htype
      exact .type hleads hfails hplace
    · split at h
      · next htaken =>
        cases h
        exact .name ⟨type, htype⟩ htaken (by rw [hkey, display_text]) rfl
      · cases h
  · rintro (⟨hleads, hfails, hplace⟩ | ⟨⟨type, htype⟩, htaken, hcause, hplace⟩)
    · rw [(resolve_eq_defect_iff hleads).mpr ⟨hplace, hfails⟩]
      rfl
    · obtain ⟨cause, location⟩ := d
      obtain rfl : cause = _ := hcause
      obtain rfl : location = _ := hplace
      rw [htype, hkey, display_text]
      simp only [Except.bind, htaken, if_true]

end

/-! ## The row of properties -/

section

variable (preset : p ∈ Profile.presets) {earlier : List Field} {before rest : List (Value × Value)}
  (hrest : ∀ e ∈ rest, e.1.IsText ∧ e.2.IsSchema types)
  (hearlier : List.Forall₂ (Field.IsMadeOf p owner required) before earlier)
include preset hrest hearlier

theorem isMadeOf_of_compileFields {fields : List Field}
    (h : (compileFields p owner required earlier rest).result = .ok fields) :
    List.Forall₂ (Field.IsMadeOf p owner required) (before ++ rest) fields := by
  induction rest generalizing before earlier with
  | nil =>
    cases h
    rwa [List.append_nil]
  | cons e rest ih =>
    obtain ⟨hkey, hschema⟩ := hrest e List.mem_cons_self
    obtain ⟨f, hf, h⟩ := Logged.result_bind_eq_ok.mp h
    have hmade := isMadeOf_of_compileField preset hkey hschema hearlier hf
    have hall := ih (fun e he => hrest e (List.mem_cons_of_mem _ he))
      (List.rel_append hearlier (.cons hmade .nil)) h
    rwa [List.append_assoc] at hall

/-- After sound properties the row becomes fields exactly if all properties are sound together. -/
theorem exists_compileFields_iff (sound : IsSound p owner before) :
    (∃ fields, (compileFields p owner required earlier rest).result = .ok fields) ↔
      IsSound p owner (before ++ rest) := by
  induction rest generalizing before earlier with
  | nil =>
    rw [List.append_nil]
    exact iff_of_true ⟨earlier, rfl⟩ sound
  | cons e rest ih =>
    obtain ⟨hkey, hschema⟩ := hrest e List.mem_cons_self
    have hstep := exists_compileField_iff preset hkey hschema hearlier
    rw [compileFields, List.append_cons]
    cases hf : (compileField p owner required earlier e.1 e.2).result with
    | error halt =>
      rw [hf] at hstep
      refine iff_of_false ?_ fun hall => ?_
      · rintro ⟨fields, hfields⟩
        rw [Logged.result_bind_of_error hf] at hfields
        cases hfields
      · obtain ⟨-, hnew⟩ := isSound_concat_iff.mp hall.of_append
        obtain ⟨f, hf⟩ := hstep.mpr hnew
        cases hf
    | ok f =>
      have hmade := isMadeOf_of_compileField preset hkey hschema hearlier hf
      rw [Logged.result_bind_of_ok hf]
      exact ih (fun e he => hrest e (List.mem_cons_of_mem _ he))
        (List.rel_append hearlier (.cons hmade .nil))
        (isSound_concat_iff.mpr ⟨sound, hstep.mp ⟨f, hf⟩⟩)

/-- After sound properties the row has a defect exactly if something is at fault in a property up to
which all are sound. -/
theorem compileFields_eq_defect_iff (sound : IsSound p owner before) {d : Defect} :
    (compileFields p owner required earlier rest).result = .error (.defect d) ↔
      ∃ between e after, rest = between ++ e :: after ∧ IsSound p owner (before ++ between) ∧
        FaultAt p owner (before ++ between) e d := by
  induction rest generalizing before earlier with
  | nil =>
    refine iff_of_false nofun ?_
    rintro ⟨between, e, after, heq, -⟩
    exact absurd heq (by simp)
  | cons e rest ih =>
    obtain ⟨hkey, hschema⟩ := hrest e List.mem_cons_self
    have hstep := exists_compileField_iff preset hkey hschema hearlier
    have hdefect := compileField_eq_defect_iff preset hkey hschema hearlier (d := d)
    rw [compileFields]
    -- the first property decides unless it becomes a field, and then the row goes on behind it
    cases hf : (compileField p owner required earlier e.1 e.2).result with
    | error halt =>
      rw [hf, Except.error.injEq] at hdefect
      rw [Logged.result_bind_of_error hf, Except.error.injEq, hdefect]
      constructor
      · intro hfault
        exact ⟨[], e, rest, rfl, by rwa [List.append_nil], by rwa [List.append_nil]⟩
      · rintro ⟨between, e', after, heq, hsound, hfault⟩
        cases between with
        | nil =>
          obtain ⟨rfl, -⟩ := List.cons.inj heq
          rwa [List.append_nil] at hfault
        | cons b between =>
          obtain ⟨rfl, -⟩ := List.cons.inj heq
          -- a fault further back leaves the first property sound, which then becomes a field
          rw [List.append_cons] at hsound
          obtain ⟨-, hnew⟩ := isSound_concat_iff.mp hsound.of_append
          obtain ⟨f, hf'⟩ := hstep.mpr hnew
          cases hf.symm.trans hf'
    | ok f =>
      have hmade := isMadeOf_of_compileField preset hkey hschema hearlier hf
      have hnext := isSound_concat_iff.mpr ⟨sound, hstep.mp ⟨f, hf⟩⟩
      rw [Logged.result_bind_of_ok hf, ih (fun e he => hrest e (List.mem_cons_of_mem _ he))
        (List.rel_append hearlier (.cons hmade .nil)) hnext]
      constructor
      · rintro ⟨between, e', after, rfl, hsound, hfault⟩
        rw [List.append_assoc] at hsound hfault
        exact ⟨e :: between, e', after, rfl, hsound, hfault⟩
      · rintro ⟨between, e', after, heq, hsound, hfault⟩
        cases between with
        | nil =>
          obtain ⟨rfl, -⟩ := List.cons.inj heq
          rw [List.append_nil] at hfault
          cases hf.symm.trans (hdefect.mpr hfault)
        | cons b between =>
          obtain ⟨rfl, rfl⟩ := List.cons.inj heq
          rw [List.append_cons] at hsound hfault
          exact ⟨between, e', after, rfl, hsound, hfault⟩

end

end Model

/-! ## Leaves -/

namespace Descriptor

def enum? : Descriptor → Option EnumSpec
  | .enum spec => some spec
  | _ => none

def reference? : Descriptor → Option String
  | .reference name => some name
  | _ => none

theorem enums_eq_leaf (d : Descriptor) : d.enums = d.leaf.enum?.toList := by
  rw [← enums_leaf]
  cases h : d.leaf with
  | array e => exact absurd h (leaf_ne_array d e)
  | _ => rfl

theorem references_eq_leaf (d : Descriptor) : d.references = d.leaf.reference?.toList := by
  rw [← references_leaf]
  cases h : d.leaf with
  | array e => exact absurd h (leaf_ne_array d e)
  | _ => rfl

theorem reference?_eq_some {d : Descriptor} {r : String} :
    d.reference? = some r ↔ d = .reference r := by
  cases d <;> simp [reference?]

end Descriptor

/-- A definition is used by a field before another one is used. -/
def UsedBefore (fields : List Field) (a b : String) : Prop :=
  ∃ before f after, fields = before ++ f :: after ∧ f.type.leaf = .reference a ∧
    ∀ g ∈ before, g.type.leaf ≠ .reference b

theorem exists_before_of_idxOf_lt {xs : List String} {a b : String} (h : xs.idxOf a < xs.idxOf b) :
    ∃ pre post, xs = pre ++ a :: post ∧ b ∉ pre := by
  induction xs with
  | nil => simp at h
  | cons x xs ih =>
    by_cases ha : x = a
    · exact ⟨[], xs, by rw [ha]; rfl, List.not_mem_nil⟩
    · by_cases hb : x = b
      · rw [hb, List.idxOf_cons_self] at h
        exact absurd h (Nat.not_lt_zero _)
      · rw [List.idxOf_cons_ne _ ha, List.idxOf_cons_ne _ hb] at h
        obtain ⟨pre, post, rfl, hpre⟩ := ih (Nat.lt_of_succ_lt_succ h)
        refine ⟨x :: pre, post, rfl, fun hmem => ?_⟩
        rcases List.mem_cons.mp hmem with rfl | hmem
        · exact hb rfl
        · exact hpre hmem

namespace Model

variable {m : Model}

theorem enums_eq_leaves : m.enums = m.fields.filterMap fun f => f.type.leaf.enum? := by
  rw [List.filterMap_eq_flatMap_toList]
  simp only [enums, Descriptor.enums_eq_leaf]

/-- The definitions that fields use, those of the model's own name left out. -/
def usedBy (name : String) (fields : List Field) : List String :=
  fields.filterMap fun f => f.type.leaf.reference?.filter (· != name)

variable {name : String} (hname : m.name = .text name)
include hname

theorem references_eq : m.references = firstOccurrences [] (usedBy name m.fields) := by
  have hother (r : String) : (!m.name.isText r) = (r != name) := by
    rw [hname, isText, bne, Bool.beq_comm]
  rw [references, usedBy]
  congr 1
  simp only [hother, Descriptor.references_eq_leaf, List.filter_flatMap,
    List.filterMap_eq_flatMap_toList]
  congr 1
  funext f
  cases f.type.leaf.reference? with
  | none => rfl
  | some r => by_cases h : r = name <;> simp [h, Option.filter]

omit hname in
theorem mem_usedBy {fields : List Field} {r : String} :
    r ∈ usedBy name fields ↔ r ≠ name ∧ ∃ f ∈ fields, f.type.leaf = .reference r := by
  simp only [usedBy, List.mem_filterMap, Option.filter_eq_some_iff, Descriptor.reference?_eq_some,
    bne_iff_ne]
  constructor
  · rintro ⟨f, hf, hleaf, hne⟩
    exact ⟨hne, f, hf, hleaf⟩
  · rintro ⟨hne, f, hf, hleaf⟩
    exact ⟨f, hf, hleaf, hne⟩

theorem mem_references_iff {r : String} :
    r ∈ m.references ↔ r ≠ name ∧ ∃ f ∈ m.fields, f.type.leaf = .reference r := by
  rw [references_eq hname, mem_firstOccurrences, mem_usedBy]
  exact and_iff_left List.not_mem_nil

theorem pairwise_references : m.references.Pairwise (UsedBefore m.fields) := by
  rw [references_eq hname]
  refine (Group.pairwise_firstOccurrences [] _).imp_of_mem fun {a b} _ hb hlt => ?_
  obtain ⟨hne, -⟩ := mem_usedBy.mp (mem_firstOccurrences.mp hb).1
  obtain ⟨pre, post, heq, hpre⟩ := exists_before_of_idxOf_lt hlt
  obtain ⟨before, later, hfields, rfl, hlater⟩ := List.filterMap_eq_append_iff.mp heq
  obtain ⟨skipped, f, after, rfl, hskipped, hf, -⟩ := List.filterMap_eq_cons_iff.mp hlater
  rw [Option.filter_eq_some_iff, Descriptor.reference?_eq_some] at hf
  refine ⟨before ++ skipped, f, after, by rw [hfields, List.append_assoc], hf.1, ?_⟩
  intro g hg hleaf
  have hnamed : (g.type.leaf.reference?.filter (· != name)) = some b := by
    simp [hleaf, Descriptor.reference?, Option.filter, hne]
  rcases List.mem_append.mp hg with hg | hg
  · exact hpre (List.mem_filterMap.mpr ⟨g, hg, hnamed⟩)
  · rw [hskipped g hg] at hnamed
    cases hnamed

end Model

/-! ## Definitions -/

/-- What a model holds that is made from a definition: a field for each property, the enums at the
leaves of the types, and the definitions that are used, in the order of their first use. -/
structure Model.IsMadeOf (p : Profile) (name : String) (es : List (Value × Value)) (m : Model) :
    Prop where
  named : m.name = .text name
  fields : List.Forall₂ (Field.IsMadeOf p (.text name) (requiredOf es)) (propertiesOf es) m.fields
  enums : m.enums = m.fields.filterMap fun f => f.type.leaf.enum?
  references : ∀ r, r ∈ m.references ↔ r ≠ name ∧ ∃ f ∈ m.fields, f.type.leaf = .reference r
  once : m.references.Nodup
  order : m.references.Pairwise (UsedBefore m.fields)

namespace Model

variable {p : Profile} {types : Value → Prop} {es : List (Value × Value)}

theorem propertiesOf_kinds (h : IsDefinition types es) :
    ∀ e ∈ propertiesOf es, e.1.IsText ∧ e.2.IsSchema types := by
  obtain ⟨properties, hproperties, hkinds⟩ := exists_entries h.properties nofun
  rw [propertiesOf, hproperties]
  exact hkinds

theorem result_compile (hp : p.HasTexts) (h : IsDefinition types es) (name : Value) :
    ∃ description, (compile p name (.map es)).result =
      (compileFields p name (requiredOf es) [] (propertiesOf es)).result.map
        fun fields => ⟨name, fields, description⟩ := by
  obtain ⟨required, hrequired, htexts⟩ :=
    elementsOrNone?_of_list (h.required.imp_right isListOf_texts)
  obtain ⟨properties, hproperties, -⟩ := exists_entries h.properties nofun
  obtain ⟨description, hdescription⟩ := exists_comment hp h.description
  have hhashable : required.all Value.isHashable = true := by
    rw [List.all_eq_true]
    intro v hv
    obtain ⟨t, rfl⟩ := htexts v hv
    rfl
  refine ⟨description, ?_⟩
  unfold compile requiredOf propertiesOf
  simp only [part?_map, hrequired, hproperties, hhashable, Compile.shaped_some, pure_bind,
    Bool.not_true, Bool.false_eq_true, if_false, Option.getD_some]
  rw [Logged.result_bind]
  cases (compileFields p name required [] properties).result with
  | error e => rfl
  | ok fields => exact Logged.result_bind_of_ok hdescription

/-- A definition compiles exactly if its properties are sound. A defect is that of the first property
at fault. Where each type is one text, a list of them or none, there is nothing but models and
defects exactly if no list of types is looked up. A model has a field for each property, the enums
of their types and the definitions that they use. -/
theorem definition_compiles_iff (preset : p ∈ Profile.presets) (name : String)
    (h : IsDefinition (fun _ => True) es) :
    ((∃ m, (compile p (.text name) (.map es)).result = .ok m) ↔
      IsSound p (.text name) (propertiesOf es)) ∧
    (∀ d, (compile p (.text name) (.map es)).result = .error (.defect d) ↔
      ∃ before e after, propertiesOf es = before ++ e :: after ∧ IsSound p (.text name) before ∧
        FaultAt p (.text name) before e d) ∧
    (IsDefinition IsOneOrSeveral es →
      ((∀ e, (compile p (.text name) (.map es)).result = .error e → ∃ d, e = .defect d) ↔
        ¬ LooksUpList p (.text name) es)) ∧
    ∀ m, (compile p (.text name) (.map es)).result = .ok m → m.IsMadeOf p name es := by
  have hp := Profile.hasTexts_of_preset preset
  have hkinds := propertiesOf_kinds h
  obtain ⟨description, hresult⟩ := result_compile hp h (.text name)
  refine ⟨?_, fun d => ?_, hasFate_compile_iff hp ⟨name, rfl⟩, fun m hm => ?_⟩
  · have hrow : (∃ fields, (compileFields p (.text name) (requiredOf es) []
        (propertiesOf es)).result = .ok fields) ↔ IsSound p (.text name) (propertiesOf es) :=
      exists_compileFields_iff preset hkinds .nil isSound_nil
    rw [hresult, ← hrow]
    cases (compileFields p (.text name) (requiredOf es) [] (propertiesOf es)).result <;>
      simp [Except.map]
  · rw [hresult]
    have hrow : (compileFields p (.text name) (requiredOf es) []
        (propertiesOf es)).result = .error (.defect d) ↔
          ∃ before e after, propertiesOf es = before ++ e :: after ∧
            IsSound p (.text name) before ∧ FaultAt p (.text name) before e d :=
      compileFields_eq_defect_iff preset hkinds .nil isSound_nil
    rw [← hrow]
    cases (compileFields p (.text name) (requiredOf es) [] (propertiesOf es)).result <;>
      simp [Except.map]
  · rw [hresult] at hm
    cases hfields : (compileFields p (.text name) (requiredOf es) [] (propertiesOf es)).result with
    | error e =>
      rw [hfields] at hm
      cases hm
    | ok fields =>
      rw [hfields] at hm
      cases hm
      exact ⟨rfl, isMadeOf_of_compileFields preset hkinds .nil hfields, enums_eq_leaves,
        fun r => mem_references_iff rfl,
        by rw [references_eq rfl]; exact nodup_firstOccurrences _ _, pairwise_references rfl⟩

end Model

/-! ## Examples -/

open Package (referenceTo isSchema_of_type isSchema_referenceTo)

theorem isSchema_arrayOf {types : Value → Prop} {items : Value} (array : types (.text "array"))
    (h : items.IsSchema types) : (arrayOf items).IsSchema types := by
  obtain ⟨es, hmap, -⟩ := h.isMap
  refine .map array (.inl rfl) (.inl rfl) nofun (.inl rfl) (.inr ⟨es, hmap, trivial⟩) ?_ (.inl rfl)
    nofun
  rintro v ⟨⟩ -
  exact h

def homeEntries : List (Value × Value) :=
  [(.text "required", .list [.text "home"]), (.text "properties", .map [
    (.text "home", referenceTo "Address"), (.text "boss", referenceTo "User"),
    (.text "work", arrayOf (referenceTo "Office")), (.text "holiday", referenceTo "Address")])]

def clashEntries : List (Value × Value) :=
  [(.text "properties", .map [(.text "first-name", .map [(.text "type", .text "string")]),
    (.text "first_name", .map [(.text "type", .text "string")])])]

def tagsEntries : List (Value × Value) :=
  [(.text "properties", .map [(.text "tags", arrayOf (.map [(.text "type", .text "file")]))])]

theorem isDefinition_homeEntries : IsDefinition (fun _ => True) homeEntries := by
  refine ⟨.inr ⟨["home"], rfl⟩, .inl rfl, .inr ⟨_, rfl, ?_⟩⟩
  simp only [List.forall_mem_cons]
  exact ⟨⟨⟨_, rfl⟩, isSchema_referenceTo trivial _⟩, ⟨⟨_, rfl⟩, isSchema_referenceTo trivial _⟩,
    ⟨⟨_, rfl⟩, isSchema_arrayOf trivial (isSchema_referenceTo trivial _)⟩,
    ⟨⟨_, rfl⟩, isSchema_referenceTo trivial _⟩, nofun⟩

theorem isDefinition_clashEntries : IsDefinition (fun _ => True) clashEntries := by
  refine ⟨.inl rfl, .inl rfl, .inr ⟨_, rfl, ?_⟩⟩
  simp only [List.forall_mem_cons]
  exact ⟨⟨⟨_, rfl⟩, isSchema_of_type trivial⟩, ⟨⟨_, rfl⟩, isSchema_of_type trivial⟩, nofun⟩

theorem isDefinition_tagsEntries : IsDefinition (fun _ => True) tagsEntries := by
  refine ⟨.inl rfl, .inl rfl, .inr ⟨_, rfl, ?_⟩⟩
  simp only [List.forall_mem_cons]
  exact ⟨⟨⟨_, rfl⟩, isSchema_arrayOf trivial (isSchema_of_type trivial)⟩, nofun⟩

def Compile.place? {α : Type} (x : Compile α) : Option String :=
  match x.result with
  | .error (.defect d) => some d.location
  | _ => none

theorem exists_defect_of_place {α : Type} {x : Compile α} {place : String}
    (h : x.place? = some place) : ∃ d, x.result = .error (.defect d) ∧ d.location = place := by
  unfold Compile.place? at h
  split at h
  · next d hd => exact ⟨d, hd, Option.some.inj h⟩
  · cases h

/-- Homes come to four fields and two references; of the two names that clash the second is at
fault. -/
theorem definition_compiles_iff_of_homes :
    Profile.common ∈ Profile.presets ∧ IsDefinition (fun _ => True) homeEntries ∧
    IsDefinition (fun _ => True) clashEntries ∧
    (∃ m, (Model.compile .common (.text "User") (.map homeEntries)).result = .ok m ∧
      Model.IsMadeOf .common "User" homeEntries m ∧ m.references = ["Address", "Office"] ∧
      Model.IsSound .common (.text "User") (Model.propertiesOf homeEntries)) ∧
    ∃ d, (Model.compile .common (.text "User") (.map clashEntries)).result = .error (.defect d) ∧
      d.location = "definitions.User.properties.first_name" ∧
      ∃ before e after, Model.propertiesOf clashEntries = before ++ e :: after ∧
        Model.IsSound .common (.text "User") before ∧
        Model.FaultAt .common (.text "User") before e d := by
  have preset : Profile.common ∈ Profile.presets := List.mem_cons_self
  refine ⟨preset, isDefinition_homeEntries, isDefinition_clashEntries, ?_, ?_⟩
  · have hmade : (Model.compile .common (.text "User") (.map homeEntries)).result.toOption.map
        Model.references = some ["Address", "Office"] := by
      decide +kernel
    obtain ⟨m, hm, hreferences⟩ := Option.map_eq_some_iff.mp hmade
    rw [toOption_eq_some] at hm
    obtain ⟨hsound, -, -, hmodel⟩ :=
      Model.definition_compiles_iff preset "User" isDefinition_homeEntries
    exact ⟨m, hm, hmodel m hm, hreferences, hsound.mp ⟨m, hm⟩⟩
  · have hclash : (Model.compile .common (.text "User") (.map clashEntries)).place? =
        some "definitions.User.properties.first_name" := by
      decide +kernel
    obtain ⟨d, hd, hplace⟩ := exists_defect_of_place hclash
    obtain ⟨-, hfault, -, -⟩ :=
      Model.definition_compiles_iff preset "User" isDefinition_clashEntries
    exact ⟨d, hd, hplace, (hfault d).mp hd⟩

/-- A defect need not be placed at the first property that is at fault: it can be inside of it. -/
theorem defects_not_at_properties : ¬ ∀ p ∈ Profile.presets, ∀ (name : String)
    (es : List (Value × Value)), IsDefinition (fun _ => True) es → ∀ d,
      (Model.compile p (.text name) (.map es)).result = .error (.defect d) →
      ∃ before e after, Model.propertiesOf es = before ++ e :: after ∧
        Model.IsSound p (.text name) before ∧ ¬ Model.IsSound p (.text name) (before ++ [e]) ∧
        d.location = (Model.namingOf (.text name) e.1).location := by
  intro hall
  have htags : (Model.compile .common (.text "User") (.map tagsEntries)).place? =
      some "definitions.User.properties.tags.items" := by
    decide +kernel
  obtain ⟨d, hd, hplace⟩ := exists_defect_of_place htags
  obtain ⟨before, e, after, hsplit, -, -, hlocation⟩ :=
    hall .common List.mem_cons_self "User" tagsEntries isDefinition_tagsEntries d hd
  have hmem : e ∈ Model.propertiesOf tagsEntries := by
    rw [hsplit]
    exact List.mem_append_right _ List.mem_cons_self
  have hkey : e.1 = .text "tags" := by
    rw [List.mem_singleton.mp hmem]
  rw [hplace, hkey] at hlocation
  exact absurd hlocation (by decide)

end ApiSmith

import ApiSmith.Proofs.Annotations
import ApiSmith.Proofs.FieldNames
import ApiSmith.Proofs.Returning

/-!
# Names in the bodies of classes

The class of a model binds the names of its fields and behind them the names of the accessors for
the enums of fields. A name that is bound twice stands for what is bound last, so an accessor can
take a field its value. Field names are kept apart when a definition is compiled; the accessors come
later, when the page is made, and are compared with nothing. `class_body_distinct_iff` says which
fields lose their value: those with the name of an enum's field and `Value` behind it.

The accessors among themselves are distinct because the fields are, and nothing stands behind them,
so they are never lost.
-/

namespace ApiSmith

open Text Naming

/-! ## Bindings in a row -/

/-- What a name in the body of a class stands for. -/
inductive Bound where
  /-- The value of the field of this name. -/
  | value (field : String)
  /-- The accessor for the enum of the field of this name. -/
  | accessor (field : String)
  deriving DecidableEq, Repr

/-- What a name stands for after bindings one after the other. -/
def lastBound? (body : List (String × Bound)) (name : String) : Option Bound :=
  (body.reverse.find? fun e => e.1 == name).map (·.2)

theorem lastBound?_append (front back : List (String × Bound)) (name : String) :
    lastBound? (front ++ back) name = (lastBound? back name).or (lastBound? front name) := by
  unfold lastBound?
  rw [List.reverse_append, List.find?_append]
  cases back.reverse.find? fun e => e.1 == name <;> rfl

theorem lastBound?_eq_none {body : List (String × Bound)} {name : String} :
    lastBound? body name = none ↔ ∀ e ∈ body, e.1 ≠ name := by
  simp [lastBound?]

theorem lastBound?_of_nodup {body : List (String × Bound)} (distinct : (body.map (·.1)).Nodup)
    {name : String} {b : Bound} (h : (name, b) ∈ body) : lastBound? body name = some b := by
  induction body with
  | nil => cases h
  | cons e rest ih =>
    obtain ⟨hnew, hrest⟩ := List.nodup_cons.mp distinct
    rw [← List.singleton_append, lastBound?_append]
    rcases List.mem_cons.mp h with rfl | h
    · have hnone : lastBound? rest name = none := by
        rw [lastBound?_eq_none]
        intro other hother heq
        apply hnew
        show name ∈ rest.map (·.1)
        rw [← heq]
        exact List.mem_map_of_mem hother
      rw [hnone, lastBound?, List.reverse_singleton, List.find?_singleton]
      simp
    · rw [ih hrest h]
      rfl

/-! ## Bodies of pages -/

def FieldLine.binding (f : FieldLine) : String × Bound := (f.name.display, .value f.name.display)

def FieldLine.accessorBinding? (f : FieldLine) : Option (String × Bound) :=
  match f.enumClass with
  | none => none
  | some c => if c.isEmpty then none else some (f.accessor, .accessor f.name.display)

/-- What the body of the class of a model binds, in order. -/
def ModelPage.body (page : ModelPage) : List (String × Bound) :=
  page.fields.map FieldLine.binding ++ page.fields.filterMap FieldLine.accessorBinding?

/-! ## Bodies of models -/

def Field.fieldName (f : Field) : String := nameOf Model.reservedFields f.key

def Field.accessorName (f : Field) : String := f.fieldName ++ "Value"

def Field.IsEnum (f : Field) : Prop := ∃ spec, f.type = .enum spec

def Field.accessorBinding? (f : Field) : Option (String × Bound) :=
  match f.type with
  | .enum _ => some (f.accessorName, .accessor f.fieldName)
  | _ => none

theorem Field.accessorBinding?_eq_some {f : Field} {e : String × Bound} :
    f.accessorBinding? = some e ↔ f.IsEnum ∧ e = (f.accessorName, .accessor f.fieldName) := by
  unfold Field.accessorBinding? Field.IsEnum
  cases f.type <;> simp [eq_comm]

def Model.valuePart (m : Model) : List (String × Bound) :=
  m.fields.map fun f => (f.fieldName, .value f.fieldName)

def Model.accessorPart (m : Model) : List (String × Bound) :=
  m.fields.filterMap Field.accessorBinding?

section

variable {p : Profile} (preset : p ∈ Profile.presets)
include preset

theorem FieldLine.bindings_of? {f : Field} (hname : f.name = .text f.fieldName) {line : FieldLine}
    (h : FieldLine.of? p f = some line) :
    line.binding = (f.fieldName, .value f.fieldName) ∧
      line.accessorBinding? = f.accessorBinding? := by
  simp only [FieldLine.of?, Option.pure_def, Option.bind_eq_bind, Option.bind_eq_some_iff,
    Option.some.injEq] at h
  obtain ⟨t, ht, rfl⟩ := h
  unfold FieldLine.binding FieldLine.accessorBinding? Field.accessorBinding?
  rw [hname]
  refine ⟨rfl, ?_⟩
  cases htype : f.type with
  | enum spec =>
    -- the name of an enum's class starts with a letter
    have hne : t.isEmpty = false := by
      rw [htype] at ht
      obtain ⟨a, -, hhead⟩ := head_of_enumClass preset ht
      rw [Bool.eq_false_iff]
      intro hempty
      rw [String.isEmpty_iff.mp hempty] at hhead
      cases hhead
    simp [hne, Field.accessorName]
  | _ => rfl

variable {name schema : Value} {m : Model} (h : (Model.compile p name schema).result = .ok m)
include h

theorem Model.name_eq_of_compile {f : Field} (hf : f ∈ m.fields) : f.name = .text f.fieldName :=
  (Model.areNames_of_compile preset h).2.names _ (List.mem_map.mpr ⟨f, hf, rfl⟩)

/-- The body on the page of a model is that of its fields. -/
theorem ModelPage.body_eq {page : ModelPage} (hpage : ModelPage.of? p m = some page) :
    page.body = m.valuePart ++ m.accessorPart := by
  have hrow := mapM_eq_some_iff.mp (ModelPage.prints_of? hpage).fields
  have hnames : ∀ f ∈ m.fields, f.name = .text f.fieldName :=
    fun f hf => Model.name_eq_of_compile preset h hf
  have hparts : page.fields.map FieldLine.binding = m.valuePart ∧
      page.fields.filterMap FieldLine.accessorBinding? = m.accessorPart := by
    clear hpage h
    unfold Model.valuePart Model.accessorPart
    generalize m.fields = fields at hrow hnames
    generalize page.fields = lines at hrow
    induction hrow with
    | nil => exact ⟨rfl, rfl⟩
    | cons hline _ ih =>
      obtain ⟨hfirst, hrest⟩ := List.forall_mem_cons.mp hnames
      obtain ⟨hbinding, haccessor⟩ := FieldLine.bindings_of? preset hfirst hline
      obtain ⟨hvalues, haccessors⟩ := ih hrest
      rw [List.map_cons, List.map_cons, List.filterMap_cons, List.filterMap_cons, hbinding,
        haccessor, hvalues, haccessors]
      exact ⟨rfl, rfl⟩
  rw [ModelPage.body, hparts.1, hparts.2]

theorem Model.nodup_fieldNames : (m.fields.map Field.fieldName).Nodup := by
  have hdistinct := (Model.areNames_of_compile preset h).2.distinct
  have hnames : (Model.keyedNames m.fields).map (·.2) =
      (m.fields.map Field.fieldName).map Value.text := by
    rw [Model.keyedNames, List.map_map, List.map_map]
    exact List.map_congr_left fun f hf => Model.name_eq_of_compile preset h hf
  rw [hnames] at hdistinct
  exact List.Pairwise.of_map Value.text (fun _ _ hne heq => hne (congrArg _ heq)) hdistinct

end

section

variable {m : Model}

theorem Model.names_valuePart : m.valuePart.map (·.1) = m.fields.map Field.fieldName := by
  rw [Model.valuePart, List.map_map]
  rfl

theorem Model.mem_accessorPart {e : String × Bound} :
    e ∈ m.accessorPart ↔
      ∃ f ∈ m.fields, f.IsEnum ∧ e = (f.accessorName, .accessor f.fieldName) := by
  simp only [Model.accessorPart, List.mem_filterMap, Field.accessorBinding?_eq_some]

theorem Model.nodup_accessorPart (distinct : (m.fields.map Field.fieldName).Nodup) :
    (m.accessorPart.map (·.1)).Nodup := by
  unfold Model.accessorPart
  generalize m.fields = fields at distinct
  induction fields with
  | nil => exact List.nodup_nil
  | cons f rest ih =>
    obtain ⟨hnew, hrest⟩ := List.nodup_cons.mp distinct
    rw [List.filterMap_cons]
    cases hf : f.accessorBinding? with
    | none => exact ih hrest
    | some e =>
      obtain ⟨-, rfl⟩ := Field.accessorBinding?_eq_some.mp hf
      refine List.nodup_cons.mpr ⟨fun hmem => hnew ?_, ih hrest⟩
      obtain ⟨other, hother, hname⟩ := List.mem_map.mp hmem
      obtain ⟨g, hg, hbinding⟩ := List.mem_filterMap.mp hother
      obtain ⟨-, rfl⟩ := Field.accessorBinding?_eq_some.mp hbinding
      have hsame : g.fieldName = f.fieldName := (String.append_left_inj _).mp hname
      rw [← hsame]
      exact List.mem_map_of_mem hg

end

/-- The body of the class of a definition. The names in it are distinct exactly if no field has the
name of the accessor of another one. Every accessor can be reached under its name, and a field can
exactly if no accessor has its name. -/
theorem class_body_distinct_iff {p : Profile} (preset : p ∈ Profile.presets) {name : String}
    {schema : Value} {m : Model} (h : (Model.compile p (.text name) schema).result = .ok m) :
    ∃ page, ModelPage.of? p m = some page ∧ (∀ f ∈ m.fields, f.name = .text f.fieldName) ∧
      ((page.body.map (·.1)).Nodup ↔
        ∀ f ∈ m.fields, f.IsEnum → ∀ g ∈ m.fields, g.fieldName ≠ f.accessorName) ∧
      (∀ f ∈ m.fields, f.IsEnum →
        lastBound? page.body f.accessorName = some (.accessor f.fieldName)) ∧
      ∀ g ∈ m.fields, lastBound? page.body g.fieldName = some (.value g.fieldName) ↔
        ∀ f ∈ m.fields, f.IsEnum → g.fieldName ≠ f.accessorName := by
  obtain ⟨page, hpage⟩ : ∃ page, ModelPage.of? p m = some page :=
    ModelPage.exists_of? (Profile.hasTexts_of_preset preset) ⟨name, Model.name_of_compile h⟩
  have hbody := ModelPage.body_eq preset h hpage
  have hfields := Model.nodup_fieldNames preset h
  have haccessors := Model.nodup_accessorPart hfields
  refine ⟨page, hpage, fun f hf => Model.name_eq_of_compile preset h hf, ?_, ?_, ?_⟩
  · rw [hbody, List.map_append, List.nodup_append, Model.names_valuePart]
    constructor
    · rintro ⟨-, -, hapart⟩ f hf henum g hg heq
      have hmem : f.accessorName ∈ m.accessorPart.map (·.1) :=
        List.mem_map.mpr ⟨_, Model.mem_accessorPart.mpr ⟨f, hf, henum, rfl⟩, rfl⟩
      exact hapart _ (List.mem_map_of_mem hg) _ hmem heq
    · intro hapart
      refine ⟨hfields, haccessors, fun a ha b hb heq => ?_⟩
      obtain ⟨g, hg, rfl⟩ := List.mem_map.mp ha
      obtain ⟨e, he, rfl⟩ := List.mem_map.mp hb
      obtain ⟨f, hf, henum, rfl⟩ := Model.mem_accessorPart.mp he
      exact hapart f hf henum g hg heq
  · intro f hf henum
    have hmem := Model.mem_accessorPart.mpr ⟨f, hf, henum, rfl⟩
    rw [hbody, lastBound?_append, lastBound?_of_nodup haccessors hmem]
    rfl
  · -- the accessors stand behind the fields, so a field is kept unless one of them has its name
    intro g hg
    have hvalues : (m.valuePart.map (·.1)).Nodup := by
      rw [Model.names_valuePart]
      exact hfields
    have hmem : (g.fieldName, Bound.value g.fieldName) ∈ m.valuePart :=
      List.mem_map.mpr ⟨g, hg, rfl⟩
    rw [hbody, lastBound?_append, lastBound?_of_nodup hvalues hmem]
    constructor
    · intro hvalue f hf henum heq
      have hlost := Model.mem_accessorPart.mpr ⟨f, hf, henum, rfl⟩
      rw [heq, lastBound?_of_nodup haccessors hlost] at hvalue
      cases hvalue
    · intro hkept
      have hnone : lastBound? m.accessorPart g.fieldName = none := by
        rw [lastBound?_eq_none]
        intro e he heq
        obtain ⟨f, hf, henum, rfl⟩ := Model.mem_accessorPart.mp he
        exact hkept f hf henum heq.symm
      rw [hnone]
      rfl

/-- A definition with a status and with a property named like the accessor of it. -/
def statusSchema : Value :=
  .map [(.text "properties", .map [
    (.text "status", .map [(.text "enum", .list [.int 1])]),
    (.text "statusValue", textSchema)])]

/-- The property `statusValue` has lost its value to the accessor. -/
theorem class_body_distinct_iff_of_status :
    Profile.common ∈ Profile.presets ∧
    ∃ m, (Model.compile .common (.text "User") statusSchema).result = .ok m ∧
    ∃ page, ModelPage.of? .common m = some page ∧
      page.body = [("status", .value "status"), ("statusValue", .value "statusValue"),
        ("statusValue", .accessor "status")] ∧
      ¬ (page.body.map (·.1)).Nodup ∧
      lastBound? page.body "statusValue" = some (.accessor "status") ∧
      ¬ ∀ f ∈ m.fields, f.IsEnum → ∀ g ∈ m.fields, g.fieldName ≠ f.accessorName := by
  have preset : Profile.common ∈ Profile.presets := List.mem_cons_self
  have hbody : (Model.compile .common (.text "User") statusSchema).result.toOption.bind
      (fun m => (ModelPage.of? .common m).map ModelPage.body) =
        some [("status", .value "status"), ("statusValue", .value "statusValue"),
          ("statusValue", .accessor "status")] := by
    decide +kernel
  obtain ⟨m, hm, hpage⟩ := Option.bind_eq_some_iff.mp hbody
  rw [toOption_eq_some] at hm
  obtain ⟨page, hpage, hown⟩ := Option.map_eq_some_iff.mp hpage
  have htwice : ¬ (page.body.map (·.1)).Nodup := by
    rw [hown]
    decide
  have hlast : lastBound? page.body "statusValue" = some (.accessor "status") := by
    rw [hown]
    decide
  obtain ⟨other, hother, -, hdistinct, -, -⟩ := class_body_distinct_iff preset hm
  rw [hpage, Option.some.injEq] at hother
  subst hother
  exact ⟨preset, m, hm, page, hpage, hown, htwice, hlast,
    fun hapart => htwice (hdistinct.mpr hapart)⟩

end ApiSmith

import ApiSmith.Proofs.Annotations
import ApiSmith.Proofs.Fates

/-!
# Names on pages

Every name in the text of an annotation is bound on its page: it is built in, imported with the
support, declared on the page or imported from the page of a model, and that page is in the package
(`build_binds_names`). The text of annotations, the marks of what is imported and the rows of
references are made from the same types by different functions. `IsNameOf` says which names a row of
types comes to, the texts on the page of a group come to these names (`GroupPage.Prints.mem_names_iff`),
and so does everything that is imported.
-/

namespace ApiSmith

open Annotation

variable {p : Profile}

/-! ## Names of types -/

def IsNameOf (p : Profile) (types : List Descriptor) (name : String) : Prop :=
  ∃ d ∈ types, ∃ t, d.typeText? p = some t ∧ name = named t

def importedKinds : List PrimitiveKind := [.date, .decimal, .object]

theorem eq_of_imported {k : PrimitiveKind} (hk : k ∈ importedKinds) (j : PrimitiveKind)
    (h : j.typeText = k.typeText) : j = k := by
  simp only [importedKinds, List.mem_cons, List.not_mem_nil, or_false] at hk
  rcases hk with rfl | rfl | rfl <;> cases j <;> revert h <;> decide

/-- What is imported is what is named. -/
structure Needs.Serve (n : Needs) (names : List String) : Prop where
  dates : n.dates = true ↔ "datetime.datetime" ∈ names
  decimals : n.decimals = true ↔ "Decimal" ∈ names
  objects : n.objects = true ↔ "ApiObject" ∈ names

theorem Needs.serve_of {types : List Descriptor} {names : List String}
    (h : ∀ k ∈ importedKinds, (types.any fun d => d.uses k) = true ↔ k.typeText ∈ names) :
    (Needs.of types).Serve names :=
  ⟨h .date (by decide), h .decimal (by decide), h .object (by decide)⟩

def builtinNames : List String := ["int", "str", "bool", "bytes"]

def supportNames : List String := ["datetime.datetime", "Decimal", "ApiObject"]

theorem kind_bound (k : PrimitiveKind) :
    k.typeText ∈ builtinNames ∨ k.typeText ∈ supportNames := by
  cases k <;> decide

/-! ## References -/

theorem Profile.exists_place {names : List String} {places : List ClassPlace}
    (h : p.places? names = some places) {ref : String} (href : ref ∈ names) {c : String}
    (hc : p.modelClass? (.text ref) = some c) : ⟨Naming.moduleName ref, c⟩ ∈ places := by
  obtain ⟨place, hplace, heq⟩ := exists_of_mapM_of_mem h href
  rw [hc, Option.map_some, Option.some.injEq] at heq
  exact heq ▸ hplace

theorem Profile.exists_of_mem_places {names : List String} {places : List ClassPlace}
    (h : p.places? names = some places) {place : ClassPlace} (hplace : place ∈ places) :
    ∃ ref ∈ names, ∃ c, p.modelClass? (.text ref) = some c ∧
      place = ⟨Naming.moduleName ref, c⟩ := by
  obtain ⟨ref, href, heq⟩ := exists_of_mem_mapM h hplace
  obtain ⟨c, hc, rfl⟩ := Option.map_eq_some_iff.mp heq
  exact ⟨ref, href, c, hc, rfl⟩

/-! ## Pages of models -/

def FieldLine.names (f : FieldLine) : List String := named f.annotation :: f.enumClass.toList

def ModelPage.names (m : ModelPage) : List String := m.fields.flatMap FieldLine.names

def ModelPage.classNames (m : ModelPage) : List String :=
  m.place.className :: m.enums.map (·.className) ++ m.references.map (·.className)

theorem named_of_required (required : Bool) (t : String) :
    named (if required then t else "Optional[" ++ t ++ "]") = named t := by
  cases required
  · exact named_optional t
  · rfl

theorem FieldLine.names_of? {f : Field} {line : FieldLine} (h : FieldLine.of? p f = some line) :
    ∃ t, f.type.typeText? p = some t ∧
      ((∃ spec, f.type = .enum spec) ∧ line.names = ["int", t] ∧ line.enumClass = some t ∨
        (∀ spec, f.type ≠ .enum spec) ∧ line.names = [named t] ∧ line.enumClass = none) := by
  simp only [FieldLine.of?, Option.pure_def, Option.bind_eq_bind, Option.bind_eq_some_iff,
    Option.some.injEq] at h
  obtain ⟨t, ht, rfl⟩ := h
  refine ⟨t, ht, ?_⟩
  cases f.type with
  | enum spec =>
    exact .inl ⟨⟨spec, rfl⟩,
      congrArg (· :: [t]) ((named_of_required f.required "int").trans (named_kind .int)), rfl⟩
  | _ => exact .inr ⟨nofun, congrArg (· :: []) (named_of_required f.required t), rfl⟩

theorem FieldLine.mem_names_iff (hp : p ∈ Profile.presets) {f : Field} {line : FieldLine}
    (h : FieldLine.of? p f = some line) {k : PrimitiveKind} (hk : k ∈ importedKinds) :
    f.type.uses k = true ↔ k.typeText ∈ line.names := by
  obtain ⟨t, ht, ⟨⟨spec, hspec⟩, hnames, -⟩ | ⟨-, hnames, -⟩⟩ := FieldLine.names_of? h
  · rw [hspec] at ht ⊢
    rw [hnames, List.mem_cons, List.mem_singleton]
    refine iff_of_false (by simp [Descriptor.uses, Descriptor.kinds]) ?_
    rintro (hint | hclass)
    · have hint := eq_of_imported hk .int hint.symm
      rw [← hint] at hk
      revert hk
      decide
    · exact class_ne_kind (head_of_enumClass hp ht) k hclass.symm
  · rw [hnames, List.mem_singleton, uses_iff_named hp ht (eq_of_imported hk)]
    exact eq_comm

section

variable {m : Model} {page : ModelPage}

theorem ModelPage.Prints.reference_bound (h : ModelPage.Prints p m page) {f : Field}
    (hf : f ∈ m.fields) {ref : String} (href : ref ∈ f.type.references) {c : String}
    (hc : p.modelClass? (.text ref) = some c) : c ∈ page.classNames := by
  cases hown : m.name.isText ref with
  | true =>
    have hname : page.name = ref := by
      simpa [h.name, Value.isText] using hown
    have hclass := h.className
    rw [hname, hc] at hclass
    rw [Option.some.inj hclass]
    exact List.mem_append_left _ List.mem_cons_self
  | false =>
    have hmem : ref ∈ m.references := by
      rw [Model.references, mem_firstOccurrences, List.mem_filter]
      exact ⟨⟨List.mem_flatMap.mpr ⟨f, hf, href⟩, by simp [hown]⟩, List.not_mem_nil⟩
    exact List.mem_append_right _
      (List.mem_map.mpr ⟨_, Profile.exists_place h.references hmem hc, rfl⟩)

theorem ModelPage.Prints.enum_bound (h : ModelPage.Prints p m page) {f : Field}
    (hf : f ∈ m.fields) {spec : EnumSpec} (hspec : spec ∈ f.type.enums) {c : String}
    (hc : p.enumClass? spec = some c) : c ∈ page.enums.map (·.className) := by
  have hmem : spec ∈ m.enums := List.mem_flatMap.mpr ⟨f, hf, hspec⟩
  obtain ⟨e, he, heq⟩ := exists_of_mapM_of_mem h.enums hmem
  rw [EnumClass.of?, hc, Option.map_some, Option.some.injEq] at heq
  exact List.mem_map.mpr ⟨e, he, by rw [← heq]⟩

theorem ModelPage.Prints.accessor_bound (h : ModelPage.Prints p m page) {line : FieldLine}
    (hline : line ∈ page.fields) {c : String} (hc : line.enumClass = some c) :
    c ∈ page.enums.map (·.className) := by
  obtain ⟨f, hf, hof⟩ := exists_of_mem_mapM h.fields hline
  obtain ⟨t, ht, ⟨⟨spec, hspec⟩, -, hclass⟩ | ⟨-, -, hclass⟩⟩ := FieldLine.names_of? hof
  · rw [hclass] at hc
    cases hc
    rw [hspec] at ht
    have hmem : spec ∈ f.type.enums := by
      rw [hspec]
      exact List.mem_singleton_self _
    exact h.enum_bound hf hmem ht
  · rw [hclass] at hc
    cases hc

/-- A name on a page of a model is bound there. -/
theorem ModelPage.Prints.name_bound (hp : p ∈ Profile.presets) (h : ModelPage.Prints p m page)
    {name : String} (hname : name ∈ page.names) :
    name ∈ builtinNames ∨ name ∈ supportNames ∨ name ∈ page.classNames := by
  obtain ⟨line, hline, hname⟩ := List.mem_flatMap.mp hname
  obtain ⟨f, hf, hof⟩ := exists_of_mem_mapM h.fields hline
  obtain ⟨t, ht, ⟨-, hnames, hclass⟩ | ⟨hplain, hnames, -⟩⟩ := FieldLine.names_of? hof
  · rw [hnames, List.mem_cons, List.mem_singleton] at hname
    rcases hname with rfl | rfl
    · exact .inl (by simp [builtinNames])
    · refine .inr (.inr (List.mem_append_left _ (List.mem_cons_of_mem _ ?_)))
      exact h.accessor_bound hline hclass
  · rw [hnames, List.mem_singleton] at hname
    subst hname
    rcases named_cases hp ht with ⟨k, hk⟩ | ⟨ref, href, hc⟩ | ⟨spec, hspec, hc⟩
    · rw [hk]
      rcases kind_bound k with hk | hk
      · exact .inl hk
      · exact .inr (.inl hk)
    · exact .inr (.inr (h.reference_bound hf href hc))
    · refine .inr (.inr (List.mem_append_left _ (List.mem_cons_of_mem _ ?_)))
      exact h.enum_bound hf hspec hc

theorem ModelPage.Prints.needs_serve (hp : p ∈ Profile.presets) (h : ModelPage.Prints p m page) :
    page.needs.Serve page.names := by
  rw [h.needs]
  refine Needs.serve_of fun k hk => ?_
  rw [List.any_map, List.any_eq_true, ModelPage.names, List.mem_flatMap]
  constructor
  · rintro ⟨f, hf, huses⟩
    obtain ⟨line, hline, hof⟩ := exists_of_mapM_of_mem h.fields hf
    exact ⟨line, hline, (FieldLine.mem_names_iff hp hof hk).mp huses⟩
  · rintro ⟨line, hline, hname⟩
    obtain ⟨f, hf, hof⟩ := exists_of_mem_mapM h.fields hline
    exact ⟨f, hf, (FieldLine.mem_names_iff hp hof hk).mpr hname⟩

end

/-! ## Signatures -/

def assignment : List Char := [' ', '=', ' ']

/-- The annotation and the default of an argument, read from its signature behind the argument's
name and a colon. The default is what stands behind the last assignment. -/
def ParameterLine.parts? (q : ParameterLine) : Option (List Char × List Char) :=
  let text := q.signature.toList.drop (q.identifier.display.length + 2)
  (Text.cutAt assignment text.reverse).map fun r => (r.2.reverse, r.1.reverse)

def calledText (text : List Char) : List String :=
  match Text.cutAtChar '(' text with
  | (name, some _) => [String.ofList name]
  | (_, none) => []

/-- The names in a signature: that of the annotation and that of a call in the default. -/
def ParameterLine.names (q : ParameterLine) : List String :=
  match q.parts? with
  | some (type, zero) => named (String.ofList type) :: calledText zero
  | none => []

def defaultTexts : List String := "None" :: Profile.standardDefaults.map (·.2)

theorem cutAt_default {zero : String} (h : zero ∈ defaultTexts) (rest : List Char) :
    Text.cutAt assignment (zero.toList.reverse ++ (assignment ++ rest)) =
      some (zero.toList.reverse, rest) := by
  simp only [defaultTexts, Profile.standardDefaults, List.map_cons, List.map_nil, List.mem_cons,
    List.not_mem_nil, or_false] at h
  rcases h with rfl | rfl | rfl | rfl | rfl | rfl <;> rfl

theorem ParameterLine.parts_of_signature {q : ParameterLine} {type zero : String}
    (hzero : zero ∈ defaultTexts)
    (h : q.signature = q.identifier.display ++ ": " ++ type ++ " = " ++ zero) :
    q.parts? = some (type.toList, zero.toList) := by
  have htext : q.signature.toList.drop (q.identifier.display.length + 2) =
      type.toList ++ (assignment ++ zero.toList) := by
    rw [h]
    simp only [String.toList_append, List.append_assoc]
    rw [← String.length_toList, ← List.drop_drop, List.drop_left]
    rfl
  rw [ParameterLine.parts?, htext]
  simp only [List.reverse_append, List.append_assoc]
  rw [show assignment.reverse = assignment from rfl, cutAt_default hzero]
  simp

theorem zero_of_kind (hp : p ∈ Profile.presets) {k : PrimitiveKind} {zero : String}
    (h : p.zeroOf? k = some zero) :
    zero ∈ defaultTexts ∧ ∀ name ∈ calledText zero.toList, name = k.typeText := by
  have hdefaults : p.zeroOf? k = Profile.common.zeroOf? k := by
    simp only [Profile.presets, List.mem_cons, List.not_mem_nil, or_false] at hp
    rcases hp with rfl | rfl <;> rfl
  rw [hdefaults] at h
  cases k with
  | int | int64 | string | bool =>
    cases h
    exact ⟨by simp [defaultTexts, Profile.standardDefaults], by decide⟩
  | decimal =>
    cases h
    refine ⟨by simp [defaultTexts, Profile.standardDefaults], fun name hname => ?_⟩
    exact List.mem_singleton.mp hname
  | date | binary | object => cases h

theorem kind_of_zeroFor {placement : Placement} {d : Descriptor} {zero : String}
    (h : Parameter.zeroFor p placement d = some zero) :
    ∃ k, d = .primitive k ∧ p.zeroOf? k = some zero := by
  cases d with
  | primitive k =>
    simp only [Parameter.zeroFor] at h
    split at h
    · exact ⟨k, rfl, h⟩
    · cases h
  | reference _ => cases h
  | array _ => cases h
  | enum _ => cases h

theorem ParameterLine.names_of_signature {line : ParameterLine} {type zero : String}
    (hzero : zero ∈ defaultTexts)
    (h : line.signature = line.identifier.display ++ ": " ++ type ++ " = " ++ zero) :
    line.names = named type :: calledText zero.toList := by
  rw [ParameterLine.names, ParameterLine.parts_of_signature hzero h]
  simp only [String.ofList_toList]

theorem ParameterLine.mem_names_of? (hp : p ∈ Profile.presets) {q : Parameter}
    (wire : Parameter.OnWire p q) {line : ParameterLine} (h : ParameterLine.of? p q = some line) :
    ∃ t, q.type.typeText? p = some t ∧ ∀ name, name ∈ line.names ↔ name = named t := by
  simp only [ParameterLine.of?, Option.pure_def, Option.bind_eq_bind, Option.bind_eq_some_iff,
    Option.some.injEq] at h
  obtain ⟨t, ht, _, -, hline⟩ := h
  refine ⟨t, ht, fun name => ?_⟩
  cases hzero : q.zero with
  | none =>
    have hsignature : line.signature =
        line.identifier.display ++ ": " ++ ("Optional[" ++ t ++ "]") ++ " = " ++ "None" := by
      rw [← hline, ← String.toList_inj]
      simp [hzero]
    rw [ParameterLine.names_of_signature (by simp [defaultTexts]) hsignature, named_optional]
    exact List.mem_singleton
  | some zero =>
    have hsignature : line.signature =
        line.identifier.display ++ ": " ++ t ++ " = " ++ zero := by
      rw [← hline]
      simp [hzero]
    obtain ⟨k, htype, hkind⟩ := kind_of_zeroFor (wire.zero.symm.trans hzero)
    obtain ⟨hdefault, hcalled⟩ := zero_of_kind hp hkind
    rw [htype] at ht
    cases ht
    rw [ParameterLine.names_of_signature hdefault hsignature, List.mem_cons, named_kind]
    exact or_iff_left_of_imp (hcalled name)

/-! ## Pages of groups -/

def MethodPart.names (m : MethodPart) : List String :=
  named m.result :: m.params.flatMap ParameterLine.names

def GroupPage.names (g : GroupPage) : List String := g.methods.flatMap MethodPart.names

section

variable {op : Operation} {m : MethodPart}

/-- What a method takes from an operation. -/
structure MethodPart.Prints (p : Profile) (op : Operation) (m : MethodPart) : Prop where
  result : op.response.typeText? p = some m.result
  params : op.parameters.mapM (ParameterLine.of? p) = some m.params

theorem MethodPart.prints_of? (h : MethodPart.of? p op = some m) : MethodPart.Prints p op m := by
  simp only [MethodPart.of?, Option.pure_def, Option.bind_eq_bind, Option.bind_eq_some_iff,
    Option.some.injEq] at h
  obtain ⟨params, hparams, result, hresult, rfl⟩ := h
  exact ⟨hresult, hparams⟩

theorem ParameterLine.type_of? {q : Parameter} {line : ParameterLine}
    (h : ParameterLine.of? p q = some line) :
    (∃ t, q.type.typeText? p = some t) ∧ line.placement = q.placement ∧
      line.isDate = q.type.uses .date := by
  simp only [ParameterLine.of?, Option.pure_def, Option.bind_eq_bind, Option.bind_eq_some_iff,
    Option.some.injEq] at h
  obtain ⟨t, ht, _, -, rfl⟩ := h
  exact ⟨⟨t, ht⟩, rfl, rfl⟩

theorem MethodPart.Prints.typed (h : MethodPart.Prints p op m) {d : Descriptor}
    (hd : d ∈ op.types) : ∃ t, d.typeText? p = some t := by
  rcases List.mem_cons.mp hd with rfl | hd
  · exact ⟨_, h.result⟩
  · obtain ⟨q, hq, rfl⟩ := List.mem_map.mp hd
    obtain ⟨line, -, hof⟩ := exists_of_mapM_of_mem h.params hq
    exact (ParameterLine.type_of? hof).1

theorem MethodPart.Prints.mem_names_iff (hp : p ∈ Profile.presets) (h : MethodPart.Prints p op m)
    (wire : ∀ q ∈ op.parameters, Parameter.OnWire p q) (name : String) :
    name ∈ m.names ↔ IsNameOf p op.types name := by
  rw [MethodPart.names, List.mem_cons, List.mem_flatMap, IsNameOf]
  simp only [Operation.types, List.mem_cons, exists_eq_or_imp, List.mem_map]
  refine or_congr ⟨?_, ?_⟩ ⟨?_, ?_⟩
  · rintro rfl
    exact ⟨m.result, h.result, rfl⟩
  · rintro ⟨t, ht, rfl⟩
    rw [h.result] at ht
    rw [Option.some.inj ht]
  · rintro ⟨line, hline, hname⟩
    obtain ⟨q, hq, hof⟩ := exists_of_mem_mapM h.params hline
    obtain ⟨t, ht, hnames⟩ := ParameterLine.mem_names_of? hp (wire q hq) hof
    exact ⟨q.type, ⟨q, hq, rfl⟩, t, ht, (hnames name).mp hname⟩
  · rintro ⟨_, ⟨q, hq, rfl⟩, t, ht, hname⟩
    obtain ⟨line, hline, hof⟩ := exists_of_mapM_of_mem h.params hq
    obtain ⟨t', ht', hnames⟩ := ParameterLine.mem_names_of? hp (wire q hq) hof
    rw [ht] at ht'
    cases ht'
    exact ⟨line, hline, (hnames name).mpr hname⟩

theorem MethodPart.Prints.query_iff (h : MethodPart.Prints p op m) :
    ((op.parametersIn .query).any fun q => q.type.uses .date) = true ↔
      ∃ line ∈ m.query, line.isDate = true := by
  simp only [Operation.parametersIn, List.any_eq_true, List.mem_filter, MethodPart.query,
    decide_eq_true_eq]
  constructor
  · rintro ⟨q, ⟨hq, hplace⟩, hdate⟩
    obtain ⟨line, hline, hof⟩ := exists_of_mapM_of_mem h.params hq
    obtain ⟨-, hplacement, hisDate⟩ := ParameterLine.type_of? hof
    exact ⟨line, ⟨hline, hplacement.trans hplace⟩, hisDate.trans hdate⟩
  · rintro ⟨line, ⟨hline, hplace⟩, hdate⟩
    obtain ⟨q, hq, hof⟩ := exists_of_mem_mapM h.params hline
    obtain ⟨-, hplacement, hisDate⟩ := ParameterLine.type_of? hof
    exact ⟨q, ⟨hq, hplacement.symm.trans hplace⟩, hisDate.symm.trans hdate⟩

end

/-- What a page takes from a group. -/
structure GroupPage.Prints (p : Profile) (g : Group) (page : GroupPage) : Prop where
  methods : g.operations.mapM (MethodPart.of? p) = some page.methods
  references : p.places? g.references = some page.references
  needs : page.needs = .of g.types
  formatsDates : page.formatsDates = g.operations.any fun op =>
    (op.parametersIn .query).any fun q => q.type.uses .date

theorem GroupPage.prints_of? {g : Group} {page : GroupPage} (h : GroupPage.of? p g = some page) :
    GroupPage.Prints p g page := by
  simp only [GroupPage.of?, Option.pure_def, Option.bind_eq_bind, Option.bind_eq_some_iff,
    Option.some.injEq] at h
  obtain ⟨_, -, _, -, methods, hmethods, references, hreferences, rfl⟩ := h
  exact ⟨hmethods, hreferences, rfl, rfl⟩

/-- A group whose operations are as they go over the wire. -/
structure Group.OnWire (p : Profile) (g : Group) : Prop where
  plain : ∀ d ∈ g.types, d.enums = []
  parameters : ∀ op ∈ g.operations, ∀ q ∈ op.parameters, Parameter.OnWire p q

section

variable {g : Group} {page : GroupPage}

theorem GroupPage.Prints.mem_names_iff (hp : p ∈ Profile.presets) (h : GroupPage.Prints p g page)
    (wire : Group.OnWire p g) (name : String) : name ∈ page.names ↔ IsNameOf p g.types name := by
  simp only [GroupPage.names, Group.types, IsNameOf, List.mem_flatMap]
  constructor
  · rintro ⟨m, hm, hname⟩
    obtain ⟨op, hop, hof⟩ := exists_of_mem_mapM h.methods hm
    obtain ⟨d, hd, ht⟩ :=
      ((MethodPart.prints_of? hof).mem_names_iff hp (wire.parameters op hop) name).mp hname
    exact ⟨d, ⟨op, hop, hd⟩, ht⟩
  · rintro ⟨d, ⟨op, hop, hd⟩, ht⟩
    obtain ⟨m, hm, hof⟩ := exists_of_mapM_of_mem h.methods hop
    exact ⟨m, hm,
      ((MethodPart.prints_of? hof).mem_names_iff hp (wire.parameters op hop) name).mpr ⟨d, hd, ht⟩⟩

/-- A name on a page of a group is bound there, and is not the class of an enum. -/
theorem GroupPage.Prints.name_bound (hp : p ∈ Profile.presets) (h : GroupPage.Prints p g page)
    (wire : Group.OnWire p g) {name : String} (hname : name ∈ page.names) :
    name ∈ builtinNames ∨ name ∈ supportNames ∨ name ∈ page.references.map (·.className) := by
  obtain ⟨d, hd, t, ht, rfl⟩ := (h.mem_names_iff hp wire name).mp hname
  rcases named_cases hp ht with ⟨k, hk⟩ | ⟨ref, href, hc⟩ | ⟨spec, hspec, -⟩
  · rw [hk]
    rcases kind_bound k with hk | hk
    · exact .inl hk
    · exact .inr (.inl hk)
  · have hmem : ref ∈ g.references :=
      mem_firstOccurrences.mpr ⟨List.mem_flatMap.mpr ⟨d, hd, href⟩, List.not_mem_nil⟩
    exact .inr (.inr (List.mem_map.mpr ⟨_, Profile.exists_place h.references hmem hc, rfl⟩))
  · rw [wire.plain d hd] at hspec
    cases hspec

theorem GroupPage.Prints.needs_serve (hp : p ∈ Profile.presets) (h : GroupPage.Prints p g page)
    (wire : Group.OnWire p g) : page.needs.Serve page.names := by
  rw [h.needs]
  refine Needs.serve_of fun k hk => ?_
  rw [List.any_eq_true, h.mem_names_iff hp wire]
  constructor
  · rintro ⟨d, hd, huses⟩
    obtain ⟨op, hop, hd'⟩ := List.mem_flatMap.mp hd
    obtain ⟨m, -, hof⟩ := exists_of_mapM_of_mem h.methods hop
    obtain ⟨t, ht⟩ := (MethodPart.prints_of? hof).typed hd'
    exact ⟨d, hd, t, ht, ((uses_iff_named hp ht (eq_of_imported hk)).mp huses).symm⟩
  · rintro ⟨d, hd, t, ht, hname⟩
    exact ⟨d, hd, (uses_iff_named hp ht (eq_of_imported hk)).mpr hname.symm⟩

theorem GroupPage.Prints.formats_iff (h : GroupPage.Prints p g page) :
    page.formatsDates = true ↔ ∃ m ∈ page.methods, ∃ line ∈ m.query, line.isDate = true := by
  rw [h.formatsDates, List.any_eq_true]
  constructor
  · rintro ⟨op, hop, hquery⟩
    obtain ⟨m, hm, hof⟩ := exists_of_mapM_of_mem h.methods hop
    exact ⟨m, hm, (MethodPart.prints_of? hof).query_iff.mp hquery⟩
  · rintro ⟨m, hm, hquery⟩
    obtain ⟨op, hop, hof⟩ := exists_of_mem_mapM h.methods hm
    exact ⟨op, hop, (MethodPart.prints_of? hof).query_iff.mpr hquery⟩

end

/-! ## Packages -/

/-- A page of a model binds what it names. -/
structure ModelPage.Binds (pkg : Package) (page : ModelPage) : Prop where
  /-- A name is built in, one of the support, the class of the page, the class of one of its enums,
  or the class of a reference. -/
  names : ∀ name ∈ page.names,
    name ∈ builtinNames ∨ name ∈ supportNames ∨ name ∈ page.classNames
  /-- Accessors are for enums of the page. -/
  accessors : ∀ line ∈ page.fields, ∀ c, line.enumClass = some c →
    c ∈ page.enums.map (·.className)
  /-- Exactly the names of the support that are written are imported. -/
  support : page.needs.Serve page.names
  /-- References are to classes of the package, at their places. -/
  references : ∀ r ∈ page.references, r ∈ pkg.models.map (·.place)

/-- A page of a group binds what it names. -/
structure GroupPage.Binds (p : Profile) (doc : Document) (pkg : Package) (page : GroupPage) :
    Prop where
  /-- A name is built in, one of the support, or the class of a reference. -/
  names : ∀ name ∈ page.names,
    name ∈ builtinNames ∨ name ∈ supportNames ∨ name ∈ page.references.map (·.className)
  /-- The page is made of types without enums. -/
  plain : ∃ g ∈ Group.ofOperations ((Package.pathEntries doc.paths).filterMap fun e =>
      (Package.compileOperation p (.map doc.parameters) pkg.modelNames e.1 e.2).result.toOption),
    GroupPage.of? p g = some page ∧ ∀ d ∈ g.types, d.enums = []
  /-- Exactly the names of the support that are written are imported. -/
  support : page.needs.Serve page.names
  /-- Dates are formatted if a query holds one. -/
  formats : page.formatsDates = true ↔
    ∃ m ∈ page.methods, ∃ line ∈ m.query, line.isDate = true
  /-- References are to classes of the package, at their places. -/
  references : ∀ r ∈ page.references, r ∈ pkg.models.map (·.place)

namespace Package

variable {doc : Document} {pkg : Package}

theorem place_of_named {left : List Model} (h : left.mapM (ModelPage.of? p) = some pkg.models)
    {ref : String} (href : Model.isNamedIn pkg.modelNames ref = true) {c : String}
    (hc : p.modelClass? (.text ref) = some c) :
    ⟨Naming.moduleName ref, c⟩ ∈ pkg.models.map (·.place) := by
  obtain ⟨page, hpage, hname⟩ := List.mem_map.mp (Model.isNamedIn_iff.mp href)
  cases hname
  obtain ⟨m, -, hof⟩ := exists_of_mem_mapM h hpage
  have hprints := ModelPage.prints_of? hof
  have hclass : page.place.className = c := Option.some.inj (hprints.className.symm.trans hc)
  refine List.mem_map.mpr ⟨page, hpage, ?_⟩
  rw [← hprints.module, ← hclass]

theorem places_in_package {left : List Model} (h : left.mapM (ModelPage.of? p) = some pkg.models)
    {refs : List String} {places : List ClassPlace} (hplaces : p.places? refs = some places)
    (hrefs : ∀ ref ∈ refs, Model.isNamedIn pkg.modelNames ref = true) :
    ∀ r ∈ places, r ∈ pkg.models.map (·.place) := by
  intro r hr
  obtain ⟨ref, href, c, hc, rfl⟩ := Profile.exists_of_mem_places hplaces hr
  exact place_of_named h (hrefs ref href) hc

theorem compiled_of_group {g : Group} {names : List Value}
    (hg : g ∈ Group.ofOperations ((pathEntries doc.paths).filterMap fun e =>
      (compileOperation p (.map doc.parameters) names e.1 e.2).result.toOption))
    {op : Operation} (hop : op ∈ g.operations) :
    op.response.enums = [] ∧ (∀ q ∈ op.parameters, Parameter.OnWire p q) ∧
      ∀ ref ∈ op.references, Model.isNamedIn names ref = true := by
  obtain ⟨key, -, rfl⟩ := List.mem_map.mp hg
  obtain ⟨own, hown, name, rfl⟩ :=
    exists_of_mem_forall₂ (Group.distinguish_renames _ _ _) hop
  obtain ⟨e, -, he⟩ := List.mem_filterMap.mp (List.mem_of_mem_filter hown)
  obtain ⟨hcompiled, hrefs⟩ := compiled_of_compileOperation (toOption_eq_some.mp he)
  exact ⟨hcompiled.response, hcompiled.parameters, hrefs⟩

theorem onWire_of_group {g : Group} {names : List Value}
    (hg : g ∈ Group.ofOperations ((pathEntries doc.paths).filterMap fun e =>
      (compileOperation p (.map doc.parameters) names e.1 e.2).result.toOption)) :
    Group.OnWire p g := by
  refine ⟨fun d hd => ?_, fun op hop => (compiled_of_group hg hop).2.1⟩
  obtain ⟨op, hop, hd⟩ := List.mem_flatMap.mp hd
  obtain ⟨hresponse, hparams, -⟩ := compiled_of_group hg hop
  rcases List.mem_cons.mp hd with rfl | hd
  · exact hresponse
  · obtain ⟨q, hq, rfl⟩ := List.mem_map.mp hd
    exact (hparams q hq).plain

/-- With the profile of a preset, no page of a package writes a name that it does not bind, and no
page imports from the support what it does not write. -/
theorem build_binds_names (hp : p ∈ Profile.presets) (h : (build p doc).result = .ok pkg) :
    (∀ page ∈ pkg.models, page.Binds pkg) ∧ ∀ page ∈ pkg.groups, page.Binds p doc pkg := by
  have hall := build_assembled h
  constructor
  · intro page hpage
    obtain ⟨m, hm, hof⟩ := exists_of_mem_mapM hall.models hpage
    have hprints := ModelPage.prints_of? hof
    refine ⟨fun _ => hprints.name_bound hp, fun _ hline _ => hprints.accessor_bound hline,
      hprints.needs_serve hp, places_in_package hall.models hprints.references fun ref href => ?_⟩
    rw [modelNames_of_left hall.models]
    exact Model.settle_closed _ m hm ref href
  · intro page hpage
    have hgroups := hall.groups
    rw [operations_of_left hall.models] at hgroups
    obtain ⟨g, hg, hof⟩ := exists_of_mem_mapM hgroups hpage
    have hprints := GroupPage.prints_of? hof
    have hwire := onWire_of_group hg
    refine ⟨fun _ => hprints.name_bound hp hwire, ⟨g, hg, hof, hwire.plain⟩,
      hprints.needs_serve hp hwire, hprints.formats_iff,
      places_in_package hall.models hprints.references fun ref href => ?_⟩
    obtain ⟨href, -⟩ := mem_firstOccurrences.mp href
    obtain ⟨d, hd, href⟩ := List.mem_flatMap.mp href
    obtain ⟨op, hop, hd⟩ := List.mem_flatMap.mp hd
    exact (compiled_of_group hg hop).2.2 ref (List.mem_flatMap.mpr ⟨d, hd, href⟩)

def formatted (type format : String) : Value :=
  .map [(.text "type", .text type), (.text "format", .text format)]

def arrayOf (items : Value) : Value := .map [(.text "type", .text "array"), (.text "items", items)]

def oneOrTwo : Value :=
  .map [(.text "type", .text "integer"), (.text "enum", .list [.int 1, .int 2])]

def argument (name place type format : String) : Value :=
  .map [(.text "name", .text name), (.text "in", .text place), (.text "type", .text type),
    (.text "format", .text format)]

/-- Entries with enums and with references to entries and places, found by a sum in the path and by
a date in the query. -/
def ledgerDocument : Document where
  definitions := [
    (.text "Entry", .map [(.text "properties", .map [
      (.text "kinds", arrayOf (arrayOf oneOrTwo)), (.text "state", oneOrTwo),
      (.text "day", formatted "string" "date-time"), (.text "next", referenceTo "Entry"),
      (.text "places", arrayOf (referenceTo "Place"))])]),
    (.text "Place", .map [(.text "properties", .map [
      (.text "notes", .map [(.text "type", .text "object")])])])]
  distinct := by decide +kernel
  paths := [(.text "/entry/\x7bsum\x7d/find", [("get", .map [
    (.text "parameters", .list [argument "sum" "path" "number" "double",
      argument "since" "query" "string" "date-time"]),
    (.text "responses", .map [(.text "200", .map [
      (.text "schema", arrayOf (referenceTo "Entry"))])])])])]
  parameters := []
  title := .text "Ledger"
  version := "1"

/-- The decimal of the group is in an annotation and in a default. -/
theorem build_binds_names_of_ledger : Profile.common ∈ Profile.presets ∧
    ∃ pkg, (build .common ledgerDocument).result = .ok pkg ∧
      pkg.models.map (·.names) =
        [["CAEntryKindsEnum", "int", "CAEntryStateEnum", "datetime.datetime", "CAEntry", "CAPlace"],
          ["ApiObject"]] ∧
      pkg.groups.map (·.names) = [["CAEntry", "Decimal", "Decimal", "datetime.datetime"]] ∧
      (∀ page ∈ pkg.models, page.Binds pkg) ∧
      ∀ page ∈ pkg.groups, page.Binds .common ledgerDocument pkg := by
  have hpreset : Profile.common ∈ Profile.presets := List.mem_cons_self
  have hnames : (build .common ledgerDocument).result.toOption.map
      (fun pkg => (pkg.models.map (·.names), pkg.groups.map (·.names))) =
        some ([["CAEntryKindsEnum", "int", "CAEntryStateEnum", "datetime.datetime", "CAEntry",
          "CAPlace"], ["ApiObject"]],
          [["CAEntry", "Decimal", "Decimal", "datetime.datetime"]]) := by
    decide +kernel
  obtain ⟨pkg, hpkg, hpages⟩ := Option.map_eq_some_iff.mp hnames
  rw [toOption_eq_some] at hpkg
  obtain ⟨hmodels, hgroups⟩ := Prod.mk.inj hpages
  exact ⟨hpreset, pkg, hpkg, hmodels, hgroups, build_binds_names hpreset hpkg⟩

end Package

end ApiSmith

import ApiSmith.Proofs.Compiling
import ApiSmith.Proofs.Identifiers

/-!
# Names of fields and arguments

A field is named by the key of its property and an argument by the last part of the name of its
parameter. Both are kept if they are identifiers, made into identifiers if not, and then put behind
an `a` if they are reserved or needed by the class or the method. A key that comes to a name in use
is refused, so names are distinct. Of a key that is `IsFormless`, like one of stars, nothing is
left, and nothing refuses the empty name: `fields_and_arguments_bindable_iff` says that these keys
are the only ones whose names cannot be bound.

`AreNames` is what both rows of names have. It holds of no names and is kept by one name more
(`AreNames.concat`), which is what compiling does.
-/

namespace ApiSmith

open Text Naming

/-! ## One name -/

/-- A key of which no identifier can be made: no letter and no digit is in it, and it is not made of
underscores alone. -/
def IsFormless (key : String) : Prop :=
  (∀ c ∈ key.toList, isFiller c = true) ∧ (key = "" ∨ ∃ c ∈ key.toList, c ≠ '_')

instance (key : String) : Decidable (IsFormless key) :=
  decidable_of_iff
    ((key.toList.all isFiller && (key == "" || key.toList.any (· != '_'))) = true)
    (by simp [IsFormless])

def nameOf (taken : List String) (key : String) : String :=
  if Model.identifierOf key ∈ guardedNames taken then guarded (Model.identifierOf key)
  else Model.identifierOf key

theorem safeName_eq_nameOf {p : Profile} (preset : p ∈ Profile.presets) (taken : List String)
    (key : String) :
    safeName p.nameAliases taken (Model.identifierOf key) = .text (nameOf taken key) :=
  safeName_of_preset preset taken _

def takenNames : List (List String) := [Model.reservedFields, Parameter.reservedArguments]

section

variable {key : String} (ascii : IsAscii key.toList)
include ascii

theorem isIdentifier_identifierOf (ne : Model.identifierOf key ≠ "") :
    isIdentifier (Model.identifierOf key).toList = true := by
  unfold Model.identifierOf at ne ⊢
  by_cases hkeep : isIdentifier key.toList = true
  · rw [if_pos hkeep]
    exact hkeep
  · rw [if_neg hkeep] at ne ⊢
    rw [String.toList_ofList]
    refine isIdentifier_identifierText ascii fun hnil => ne ?_
    rw [hnil]

theorem identifierOf_eq_empty_iff : Model.identifierOf key = "" ↔ IsFormless key := by
  unfold Model.identifierOf
  by_cases hkeep : isIdentifier key.toList = true
  · obtain ⟨⟨first, hfirst, -⟩, hword⟩ := (isIdentifier_iff ascii).mp hkeep
    have hne : key ≠ "" := by
      rintro rfl
      cases hfirst
    rw [if_pos hkeep]
    refine iff_of_false hne ?_
    rintro ⟨hfiller, hempty | ⟨c, hc, hother⟩⟩
    · exact hne hempty
    · have hc' := hfiller c hc
      rw [isFiller, hword c hc] at hc'
      exact hother (by simpa using hc')
  · rw [if_neg hkeep]
    have hempty : String.ofList (identifierText key.toList) = "" ↔
        identifierText key.toList = [] := by
      rw [← String.toList_inj, String.toList_ofList]
      rfl
    rw [hempty, identifierText_eq_nil_iff, IsFormless, iff_self_and]
    intro hfiller
    by_contra hunders
    obtain ⟨hne, hunder⟩ := not_or.mp hunders
    -- a row of underscores would have been kept
    apply hkeep
    rw [isIdentifier_iff ascii]
    have heq : ∀ c ∈ key.toList, c = '_' := by
      intro c hc
      by_contra hother
      exact hunder ⟨c, hc, hother⟩
    obtain ⟨first, rest, hcons⟩ := List.exists_cons_of_ne_nil
      fun hnil => hne (String.toList_inj.mp hnil)
    refine ⟨⟨first, by rw [hcons]; rfl, ?_⟩, fun c hc => ?_⟩
    · rw [heq first (by rw [hcons]; exact List.mem_cons_self)]
      decide
    · rw [heq c hc]
      decide

/-- The name for a key can be bound and is not taken, unless the key is formless. -/
theorem isBindable_nameOf_iff {taken : List String} (htaken : taken ∈ takenNames) :
    (IsBindable (nameOf taken key) ∧ nameOf taken key ∉ taken ↔ ¬ IsFormless key) ∧
      (nameOf taken key = "" ↔ IsFormless key) := by
  have hempty : ¬ IsBindable "" := fun h => absurd h.identifier (by decide)
  rw [← identifierOf_eq_empty_iff ascii, nameOf]
  by_cases hguard : Model.identifierOf key ∈ guardedNames taken
  · have hall : ∀ taken ∈ takenNames, ∀ name ∈ guardedNames taken,
        (IsBindable (guarded name) ∧ guarded name ∉ taken) ∧ guarded name ≠ "" ∧ name ≠ "" := by
      decide +kernel
    obtain ⟨hbind, hne, hname⟩ := hall taken htaken _ hguard
    rw [if_pos hguard]
    exact ⟨iff_of_true hbind hname, iff_of_false hne hname⟩
  · rw [if_neg hguard]
    refine ⟨⟨?_, fun hne => ⟨⟨isIdentifier_identifierOf ascii hne, ?_⟩, ?_⟩⟩, Iff.rfl⟩
    · rintro ⟨hbind, -⟩ hnone
      rw [hnone] at hbind
      exact hempty hbind
    · rw [Bool.eq_false_iff]
      intro hreserved
      exact hguard (List.mem_append_left _ (List.contains_iff_mem.mp hreserved))
    · intro hmem
      exact hguard (List.mem_append_right _ (List.mem_cons_of_mem _ hmem))

end

/-! ## Rows of names -/

/-- A row of keys and their names: the names are texts and distinct, and each is the one for its
key. -/
structure AreNames (taken : List String) (row : List (String × Value)) : Prop where
  names : ∀ e ∈ row, e.2 = .text (nameOf taken e.1)
  distinct : (row.map (·.2)).Nodup

section

variable {p : Profile} {taken : List String} {row : List (String × Value)}

theorem areNames_nil : AreNames taken [] := ⟨List.forall_mem_nil _, List.nodup_nil⟩

theorem AreNames.concat (h : AreNames taken row) {key : String}
    (new : ∀ e ∈ row, e.2.same (.text (nameOf taken key)) = false) :
    AreNames taken (row ++ [(key, .text (nameOf taken key))]) := by
  constructor
  · rw [List.forall_mem_append, List.forall_mem_singleton]
    exact ⟨h.names, rfl⟩
  · rw [List.map_append, List.nodup_append]
    refine ⟨h.distinct, List.pairwise_singleton _ _, ?_⟩
    intro name hname other hother heq
    obtain ⟨e, he, rfl⟩ := List.mem_map.mp hname
    rw [List.map_singleton, List.mem_singleton] at hother
    have hnew := new e he
    rw [Value.same_text, heq, hother] at hnew
    simp [Value.isText] at hnew

end

/-! ## Compiling -/

namespace Model

variable {p : Profile} (preset : p ∈ Profile.presets) {owner : Value} {required : List Value}
include preset

def keyedNames (fields : List Field) : List (String × Value) := fields.map fun f => (f.key, f.name)

theorem areNames_of_compileField {earlier : List Field} {property schema : Value} {f : Field}
    (hearlier : AreNames reservedFields (keyedNames earlier))
    (h : (compileField p owner required earlier property schema).result = .ok f) :
    property = .text f.key ∧ AreNames reservedFields (keyedNames (earlier ++ [f])) := by
  have hsteps := steps_of_compileField h
  have hname : f.name = .text (nameOf reservedFields f.key) :=
    hsteps.name.trans (safeName_eq_nameOf preset _ _)
  refine ⟨hsteps.key, ?_⟩
  rw [keyedNames, List.map_append, List.map_singleton, hname]
  refine hearlier.concat fun e he => ?_
  obtain ⟨g, hg, rfl⟩ := List.mem_map.mp he
  rw [← hname]
  exact hsteps.fresh g hg

theorem areNames_of_compileFields {properties : List (Value × Value)} {earlier fields : List Field}
    (hearlier : AreNames reservedFields (keyedNames earlier))
    (h : (compileFields p owner required earlier properties).result = .ok fields) :
    fields.map (fun f => Value.text f.key) =
      earlier.map (fun f => Value.text f.key) ++ properties.map (·.1) ∧
      AreNames reservedFields (keyedNames fields) := by
  induction properties generalizing earlier with
  | nil =>
    cases h
    exact ⟨by simp, hearlier⟩
  | cons e rest ih =>
    obtain ⟨f, hf, h⟩ := Logged.result_bind_eq_ok.mp h
    obtain ⟨hkey, hnames⟩ := areNames_of_compileField preset hearlier hf
    obtain ⟨hkeys, hall⟩ := ih hnames h
    refine ⟨?_, hall⟩
    rw [hkeys, List.map_append, List.append_assoc, List.map_cons, List.map_cons, hkey]
    rfl

def properties? (schema : Value) : Option (List (Value × Value)) :=
  (schema.part? "properties").bind Value.entriesOrNone?

omit preset in
theorem Steps.properties?_eq {schema : Value} {properties : List (Value × Value)} {m : Model}
    (h : m.Steps p owner schema required properties) : properties? schema = some properties := by
  obtain ⟨part, hpart, hproperties⟩ := h.properties
  rw [properties?, hpart]
  exact hproperties

theorem areNames_of_compile {name schema : Value} {m : Model}
    (h : (compile p name schema).result = .ok m) :
    (∃ properties, properties? schema = some properties ∧
      m.fields.map (fun f => Value.text f.key) = properties.map (·.1)) ∧
      AreNames reservedFields (keyedNames m.fields) := by
  obtain ⟨required, properties, hsteps⟩ := steps_of_compile h
  obtain ⟨hkeys, hnames⟩ := areNames_of_compileFields preset areNames_nil hsteps.fields
  exact ⟨⟨properties, hsteps.properties?_eq, hkeys⟩, hnames⟩

end Model

namespace Parameter

variable {p : Profile} (preset : p ∈ Profile.presets) {methodName location : String}
  {earlier : List Parameter}
include preset

def keyedArguments (params : List Parameter) : List (String × Value) :=
  params.map fun q => (q.key, q.identifier)

/-- Parameters whose arguments have names. -/
structure AreNamed (params : List Parameter) : Prop where
  keys : ∀ q ∈ params, q.key = String.ofList (afterLast '.' q.name.toList)
  arguments : AreNames reservedArguments (keyedArguments params)

theorem areNamed_of_compileNode {es : List (Value × Value)} {found : Option Parameter}
    (hearlier : AreNamed earlier)
    (h : (compileNode p methodName location earlier es).result = .ok found) :
    AreNamed (earlier ++ found.toList) := by
  unfold compileNode at h
  obtain ⟨nameValue, -, h⟩ := Logged.result_bind_eq_ok.mp h
  simp only at h
  split at h
  · obtain ⟨_, -, h⟩ := Logged.result_bind_eq_ok.mp h
    cases h
    rw [Option.toList_none, List.append_nil]
    exact hearlier
  · obtain ⟨name, -, h⟩ := Logged.result_bind_eq_ok.mp h
    obtain ⟨type, -, h⟩ := Logged.result_bind_eq_ok.mp h
    obtain ⟨inPlace, -, h⟩ := Logged.result_bind_eq_ok.mp h
    simp only [argument, safeName_eq_nameOf preset] at h
    split at h
    · cases h
    · next hnew =>
      obtain ⟨description, -, h⟩ := Logged.result_bind_eq_ok.mp h
      cases h
      constructor
      · rw [Option.toList_some, List.forall_mem_append, List.forall_mem_singleton]
        exact ⟨hearlier.keys, rfl⟩
      · rw [keyedArguments, List.map_append]
        refine hearlier.arguments.concat fun e he => ?_
        obtain ⟨q, hq, rfl⟩ := List.mem_map.mp he
        rw [Bool.eq_false_iff]
        intro hsame
        exact hnew (List.any_eq_true.mpr ⟨q, hq, hsame⟩)

theorem areNamed_of_compile {shared entry : Value} {found : Option Parameter}
    (hearlier : AreNamed earlier)
    (h : (compile p shared methodName location earlier entry).result = .ok found) :
    AreNamed (earlier ++ found.toList) := by
  unfold compile at h
  obtain ⟨es, -, h⟩ := Logged.result_bind_eq_ok.mp h
  split at h
  · exact areNamed_of_compileNode preset hearlier h
  · obtain ⟨shared, -, h⟩ := Logged.result_bind_eq_ok.mp h
    obtain ⟨target, -, h⟩ := Logged.result_bind_eq_ok.mp h
    obtain ⟨es, -, h⟩ := Logged.result_bind_eq_ok.mp h
    exact areNamed_of_compileNode preset hearlier h

theorem areNamed_of_compileAll {shared : Value} {entries : List Value} {params : List Parameter}
    (hearlier : AreNamed earlier)
    (h : (compileAll p shared methodName location earlier entries).result = .ok params) :
    AreNamed params := by
  induction entries generalizing earlier with
  | nil =>
    cases h
    exact hearlier
  | cons entry rest ih =>
    obtain ⟨found, hfound, h⟩ := Logged.result_bind_eq_ok.mp h
    exact ih (areNamed_of_compile preset hearlier hfound) h

end Parameter

theorem Operation.areNamed_of_compile {p : Profile} (preset : p ∈ Profile.presets)
    {shared path operation : Value} {method : String} {op : Operation}
    (h : (Operation.compile p shared path method operation).result = .ok op) :
    Parameter.AreNamed op.parameters := by
  obtain ⟨_, _, -, -, hparams⟩ := (steps_of_compile h).parameters
  have hnone : Parameter.AreNamed [] := ⟨List.forall_mem_nil _, areNames_nil⟩
  exact Parameter.areNamed_of_compileAll preset hnone hparams

/-! ## Which names can be bound -/

/-- A name for a key: one that can be bound and is not taken, or nothing if the key is formless. -/
def IsNameFor (taken : List String) (key : String) (name : Value) : Prop :=
  ∃ n, name = .text n ∧
    (IsAscii key.toList →
      (IsBindable n ∧ n ∉ taken ↔ ¬ IsFormless key) ∧ (n = "" ↔ IsFormless key))

theorem AreNames.isNameFor {taken : List String} (htaken : taken ∈ takenNames)
    {row : List (String × Value)} (h : AreNames taken row) {e : String × Value} (he : e ∈ row) :
    IsNameFor taken e.1 e.2 :=
  ⟨nameOf taken e.1, h.names e he, fun ascii => isBindable_nameOf_iff ascii htaken⟩

/-- The field names of a definition are distinct, and so are the argument names of an operation. A
declaration can bind each of them, and none is a name that the class or the method needs for itself,
unless the key is formless: then the name is empty. -/
theorem fields_and_arguments_bindable_iff {p : Profile} (preset : p ∈ Profile.presets) :
    (∀ {name schema : Value} {m : Model}, (Model.compile p name schema).result = .ok m →
      (∃ properties, Model.properties? schema = some properties ∧
        m.fields.map (fun f => Value.text f.key) = properties.map (·.1)) ∧
      (m.fields.map (·.name)).Nodup ∧
      ∀ f ∈ m.fields, IsNameFor Model.reservedFields f.key f.name) ∧
    ∀ {shared path operation : Value} {method : String} {op : Operation},
      (Operation.compile p shared path method operation).result = .ok op →
      (∀ q ∈ op.parameters, q.key = String.ofList (afterLast '.' q.name.toList)) ∧
      (op.parameters.map (·.identifier)).Nodup ∧
      ∀ q ∈ op.parameters, IsNameFor Parameter.reservedArguments q.key q.identifier := by
  constructor
  · intro name schema m h
    obtain ⟨hkeys, hnames⟩ := Model.areNames_of_compile preset h
    have hdistinct := hnames.distinct
    rw [Model.keyedNames, List.map_map] at hdistinct
    refine ⟨hkeys, hdistinct, fun f hf => ?_⟩
    have hmem : (f.key, f.name) ∈ Model.keyedNames m.fields := List.mem_map.mpr ⟨f, hf, rfl⟩
    exact hnames.isNameFor List.mem_cons_self hmem
  · intro shared path operation method op h
    obtain ⟨hkeys, hnames⟩ := Operation.areNamed_of_compile preset h
    have hdistinct := hnames.distinct
    rw [Parameter.keyedArguments, List.map_map] at hdistinct
    refine ⟨hkeys, hdistinct, fun q hq => ?_⟩
    have hmem : (q.key, q.identifier) ∈ Parameter.keyedArguments op.parameters :=
      List.mem_map.mpr ⟨q, hq, rfl⟩
    exact hnames.isNameFor (List.mem_cons_of_mem _ List.mem_cons_self) hmem

def textSchema : Value := .map [(.text "type", .text "string")]

def starred : Value :=
  .map [(.text "properties", .map [(.text "***", textSchema), (.text "from", textSchema)])]

/-- An operation with a parameter whose last part is empty. -/
def filtered : Value :=
  .map [
    (.text "parameters", .list [
      .map [(.text "name", .text "filter."), (.text "type", .text "string")]]),
    (.text "responses", .map [(.text "200", .map [(.text "schema", textSchema)])])]

/-- A field and an argument without a name, and a field that is kept from a reserved word. -/
theorem fields_and_arguments_bindable_iff_of_stars :
    Profile.common ∈ Profile.presets ∧
    (∃ m, (Model.compile .common (.text "User") starred).result = .ok m ∧
      m.fields.map (·.name.text?) = [some "", some "aFrom"] ∧
      (m.fields.map (·.name)).Nodup ∧
      ∀ f ∈ m.fields, IsNameFor Model.reservedFields f.key f.name) ∧
    ∃ op, (Operation.compile .common .null (.text "/user") "get" filtered).result = .ok op ∧
      op.parameters.map (·.identifier.text?) = [some ""] ∧
      (op.parameters.map (·.identifier)).Nodup ∧
      ∀ q ∈ op.parameters, IsNameFor Parameter.reservedArguments q.key q.identifier := by
  have preset : Profile.common ∈ Profile.presets := List.mem_cons_self
  have hfields : (Model.compile .common (.text "User") starred).result.toOption.map
      (fun m => m.fields.map (·.name.text?)) = some [some "", some "aFrom"] := by
    decide +kernel
  have harguments : (Operation.compile .common .null (.text "/user") "get"
      filtered).result.toOption.map (fun op => op.parameters.map (·.identifier.text?)) =
        some [some ""] := by
    decide +kernel
  obtain ⟨m, hm, hnames⟩ := Option.map_eq_some_iff.mp hfields
  obtain ⟨op, hop, hidentifiers⟩ := Option.map_eq_some_iff.mp harguments
  rw [toOption_eq_some] at hm hop
  obtain ⟨hmodel, hoperation⟩ := fields_and_arguments_bindable_iff preset
  exact ⟨preset, ⟨m, hm, hnames, (hmodel hm).2⟩, op, hop, hidentifiers, (hoperation hop).2⟩

example : IsFormless "***" ∧ ¬ IsFormless "___" ∧ ¬ IsFormless "user-id" := by decide

end ApiSmith

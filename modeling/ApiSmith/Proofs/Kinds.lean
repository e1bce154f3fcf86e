import ApiSmith.Proofs.Fates

/-!
# Kinds of descriptions

The parts of a description have kinds: names, references, formats and descriptions are texts,
schemas, parameters and operations are maps, and so on. `Document.HasKinds` says that all parts that
are looked at have theirs; what the type of a schema may be is left open. What is null counts as
absent.

With parts of their kinds, and with settings that are texts, reading names, enums and comments comes
to a result or to a defect, and does not stop the run (`HasFate`).
-/

namespace ApiSmith

open Package (HasFate)

namespace Value

def IsText (v : Value) : Prop := ∃ s, v = .text s

def IsTexts (v : Value) : Prop := ∃ ss : List String, v = .list (ss.map .text)

def OrNull (kind : Value → Prop) (v : Value) : Prop := v = .null ∨ kind v

def IsMapOf (kind : List (Value × Value) → Prop) (v : Value) : Prop := ∃ es, v = .map es ∧ kind es

def IsListOf (kind : Value → Prop) (v : Value) : Prop := ∃ vs, v = .list vs ∧ ∀ w ∈ vs, kind w

end Value

open Value

/-- The value under a key, null where the key is absent. -/
def valueAt (es : List (Value × Value)) (key : String) : Value := (lookupText key es).getD .null

/-- A schema whose types are of a kind, as far as its own type is looked for: under `items` and
`allOf`, but not under `properties`. -/
inductive Value.IsSchema (types : Value → Prop) : Value → Prop
  | map {es : List (Value × Value)} (type : types (valueAt es "type"))
    (format : OrNull IsText (valueAt es "format"))
    (description : OrNull IsText (valueAt es "description"))
    (ref : ∀ v, lookupText "$ref" es = some v → IsText v)
    (enum : OrNull (IsListOf fun v => v.hasLiteral = true) (valueAt es "enum"))
    (items : OrNull (IsMapOf fun _ => True) (valueAt es "items"))
    (item : ∀ v, lookupText "items" es = some v → v ≠ .null → IsSchema types v)
    (allOf : OrNull (IsListOf fun _ => True) (valueAt es "allOf"))
    (part : ∀ vs, lookupText "allOf" es = some (.list vs) → ∀ v ∈ vs, IsSchema types v) :
    IsSchema types (.map es)

/-- The entries of a definition. -/
structure IsDefinition (types : Value → Prop) (es : List (Value × Value)) : Prop where
  required : OrNull IsTexts (valueAt es "required")
  description : OrNull IsText (valueAt es "description")
  properties : OrNull (IsMapOf fun properties => ∀ e ∈ properties, e.1.IsText ∧ e.2.IsSchema types)
    (valueAt es "properties")

/-- The entries of a parameter. Its own type stands beside its name, or in its `schema`. -/
structure IsParameter (types : Value → Prop) (es : List (Value × Value)) : Prop where
  name : ∃ s, lookupText "name" es = some (.text s)
  own : IsSchema types (.map es)
  schema : OrNull (IsSchema types) (valueAt es "schema")

/-- The entries of an answer: its schema stands in it, or with a content type. -/
structure IsAnswer (types : Value → Prop) (es : List (Value × Value)) : Prop where
  schema : OrNull (IsSchema types) (valueAt es "schema")
  content : OrNull (IsMapOf fun content => ∀ type v, lookupText type content = some v →
    IsMapOf (fun media => OrNull (IsSchema types) (valueAt media "schema")) v) (valueAt es "content")

/-- A parameter as it stands in the list of an operation, or a reference to one. -/
def IsParameterEntry (types : Value → Prop) (es : List (Value × Value)) : Prop :=
  match lookupText "$ref" es with
  | some ref => ref.IsText
  | none => IsParameter types es

/-- The entries of an operation. -/
structure IsOperation (types : Value → Prop) (es : List (Value × Value)) : Prop where
  responses : OrNull (IsMapOf fun responses =>
    OrNull (IsMapOf (IsAnswer types)) (Response.success responses)) (valueAt es "responses")
  parameters : OrNull (IsListOf (IsMapOf (IsParameterEntry types))) (valueAt es "parameters")
  summary : OrNull IsText (valueAt es "summary")

/-- A document whose parts have their kinds. -/
structure Document.HasKinds (types : Value → Prop) (doc : Document) : Prop where
  definitions : ∀ d ∈ doc.definitions, d.1.IsText ∧ OrNull (IsMapOf (IsDefinition types)) d.2
  operations : ∀ e ∈ Package.pathEntries doc.paths,
    e.1.IsText ∧ OrNull (IsMapOf (IsOperation types)) e.2.2
  parameters : ∀ e ∈ doc.parameters, OrNull (IsMapOf (IsParameter types)) e.2

/-- A profile whose settings are texts and which replaces nothing in comments. -/
structure Profile.HasTexts (p : Profile) : Prop where
  modelStart : p.modelStart.IsText
  enumEnd : p.enumEnd.IsText
  groupEnd : p.groupEnd.IsText
  memberStart : p.memberStart.IsText
  pathRoot : p.pathRoot.IsText
  aliases : ∀ e ∈ p.nameAliases, e.2.IsText
  replacements : p.commentReplacements = []

theorem Profile.hasTexts_of_preset {p : Profile} (hp : p ∈ Profile.presets) : p.HasTexts := by
  simp only [Profile.presets, List.mem_cons, List.not_mem_nil, or_false] at hp
  have haliases : ∀ e ∈ Profile.standardAliases, e.2.IsText := by
    intro e he
    simp only [Profile.standardAliases, List.mem_cons, List.not_mem_nil, or_false] at he
    rcases he with rfl | rfl <;> exact ⟨_, rfl⟩
  rcases hp with rfl | rfl
  · exact ⟨⟨_, rfl⟩, ⟨_, rfl⟩, ⟨_, rfl⟩, ⟨_, rfl⟩, ⟨_, rfl⟩, haliases, rfl⟩
  · exact ⟨⟨_, rfl⟩, ⟨_, rfl⟩, ⟨_, rfl⟩, ⟨_, rfl⟩, ⟨_, rfl⟩, haliases, rfl⟩

/-! ## Parts -/

section

variable {es : List (Value × Value)} {kind : Value → Prop} {v : Value}

theorem part?_map (es : List (Value × Value)) (key : String) :
    (Value.map es).part? key = some (valueAt es key) := rfl

theorem lookup_of_valueAt {key : String} (h : valueAt es key = v) (hne : v ≠ .null) :
    lookupText key es = some v := by
  unfold valueAt at h
  cases hlookup : lookupText key es with
  | none =>
    rw [hlookup] at h
    exact absurd h.symm hne
  | some w =>
    rw [hlookup] at h
    exact congrArg some h

theorem entriesOrNone?_of_map {of : List (Value × Value) → Prop} (h : OrNull (IsMapOf of) v) :
    ∃ es, v.entriesOrNone? = some es ∧ (es = [] ∨ v = .map es ∧ of es) := by
  rcases h with rfl | ⟨es, rfl, hes⟩
  · exact ⟨[], rfl, .inl rfl⟩
  · refine ⟨es, ?_, .inr ⟨rfl, hes⟩⟩
    cases es <;> rfl

theorem exists_entries {of : List (Value × Value) → Prop} (h : OrNull (IsMapOf of) v)
    (empty : of []) : ∃ es, v.entriesOrNone? = some es ∧ of es := by
  obtain ⟨es, hes, rfl | ⟨-, hkind⟩⟩ := entriesOrNone?_of_map h
  · exact ⟨_, hes, empty⟩
  · exact ⟨es, hes, hkind⟩

theorem orElse_of_map {of : List (Value × Value) → Prop} (h : OrNull (IsMapOf of) v) :
    ∃ es, v.orElse (.map []) = .map es ∧ (es = [] ∨ v = .map es ∧ of es) := by
  rcases h with rfl | ⟨es, rfl, hes⟩
  · exact ⟨[], rfl, .inl rfl⟩
  · refine ⟨es, ?_, .inr ⟨rfl, hes⟩⟩
    cases es <;> rfl

theorem isListOf_texts (h : IsTexts v) : IsListOf IsText v := by
  obtain ⟨ss, rfl⟩ := h
  refine ⟨_, rfl, fun w hw => ?_⟩
  obtain ⟨s, -, rfl⟩ := List.mem_map.mp hw
  exact ⟨s, rfl⟩

theorem elementsOrNone?_of_list (h : OrNull (IsListOf kind) v) :
    ∃ vs, v.elementsOrNone? = some vs ∧ ∀ w ∈ vs, kind w := by
  rcases h with rfl | ⟨vs, rfl, hvs⟩
  · exact ⟨[], rfl, nofun⟩
  · refine ⟨vs, ?_, hvs⟩
    cases vs <;> rfl

end

theorem Value.IsSchema.isMap {types : Value → Prop} {v : Value} (h : v.IsSchema types) :
    IsMapOf (fun es => (Value.map es).IsSchema types) v := by
  cases h with
  | map type format description ref enum items item allOf part =>
    exact ⟨_, rfl, .map type format description ref enum items item allOf part⟩

theorem Value.isNull_iff {v : Value} : v.isNull = true ↔ v = .null := by
  cases v <;> simp [Value.isNull]

theorem Value.isNull_of_ne {v : Value} (h : v ≠ .null) : v.isNull = false :=
  Bool.eq_false_iff.mpr (mt isNull_iff.mp h)

theorem Value.isText_of_ne {v : Value} {s : String} (h : v ≠ .text s) : v.isText s = false :=
  Bool.eq_false_iff.mpr (mt isText_iff.mp h)

theorem Value.OrNull.exists_elements {kind : Value → Prop} {v : Value} (h : OrNull (IsListOf kind) v)
    (hne : v ≠ .null) : ∃ vs, v.elements? = some vs ∧ ∀ w ∈ vs, kind w := by
  obtain ⟨vs, rfl, hvs⟩ := h.resolve_left hne
  exact ⟨vs, rfl, hvs⟩

/-! ## Fates -/

section

variable {α β : Type}

theorem hasFate_of_ok {x : Compile α} {a : α} (h : x.result = .ok a) : HasFate x := by
  intro e he
  rw [h] at he
  cases he

theorem hasFate_pure (a : α) : HasFate (pure a : Compile α) := hasFate_of_ok rfl

theorem hasFate_defect (cause : Cause) (location : String) :
    HasFate (Compile.defect cause location : Compile α) := by
  intro e he
  cases he
  exact ⟨_, rfl⟩

theorem not_hasFate_shape : ¬ HasFate (Logged.fail Halt.shape : Compile α) := by
  intro h
  obtain ⟨d, hd⟩ := h .shape rfl
  cases hd

/-- A computation in steps has a fate if its first step has one, and the others have one if they are
reached. -/
theorem hasFate_bind_iff {x : Compile α} {f : α → Compile β} :
    HasFate (x >>= f) ↔ HasFate x ∧ ∀ a, x.result = .ok a → HasFate (f a) := by
  unfold HasFate
  rw [Logged.result_bind]
  cases hx : x.result with
  | error e => simp [Except.bind]
  | ok a => simp [Except.bind]

theorem hasFate_bind_of_ok {x : Compile α} {f : α → Compile β} {a : α} (h : x.result = .ok a) :
    HasFate (x >>= f) ↔ HasFate (f a) := by
  rw [hasFate_bind_iff]
  constructor
  · exact fun hboth => hboth.2 a h
  · intro hf
    refine ⟨hasFate_of_ok h, fun b hb => ?_⟩
    rw [h] at hb
    cases hb
    exact hf

end

/-- An element of a row that a step by step computation gets to. -/
def Reaches {σ β : Type} (f : σ → β → Compile σ) (s : σ) (es : List β) (e : β) : Prop :=
  ∃ before after, es = before ++ e :: after ∧ ∃ t, (before.foldlM f s).result = .ok t

theorem Reaches.mem {σ β : Type} {f : σ → β → Compile σ} {s : σ} {es : List β} {e : β}
    (h : Reaches f s es e) : e ∈ es := by
  obtain ⟨before, after, rfl, -⟩ := h
  simp

theorem reaches_cons_iff {σ β : Type} {f : σ → β → Compile σ} {s : σ} {d e : β} {es : List β} :
    Reaches f s (d :: es) e ↔ d = e ∨ ∃ t, (f s d).result = .ok t ∧ Reaches f t es e := by
  constructor
  · rintro ⟨before, after, heq, t, ht⟩
    cases before with
    | nil => exact .inl (List.cons.inj heq).1
    | cons b before =>
      obtain ⟨rfl, rfl⟩ := List.cons.inj heq
      rw [List.foldlM_cons, Logged.result_bind_eq_ok] at ht
      obtain ⟨s', hs', ht⟩ := ht
      exact .inr ⟨s', hs', before, after, rfl, t, ht⟩
  · rintro (rfl | ⟨s', hs', before, after, rfl, t, ht⟩)
    · exact ⟨[], es, rfl, s, rfl⟩
    · refine ⟨d :: before, after, rfl, t, ?_⟩
      rw [List.foldlM_cons]
      exact Logged.result_bind_eq_ok.mpr ⟨s', hs', ht⟩

/-- A row has a fate if every element has one that is reached. -/
theorem hasFate_foldlM_iff {σ β : Type} {f : σ → β → Compile σ} {bad : β → Prop} {es : List β}
    (h : ∀ e ∈ es, ∀ s, HasFate (f s e) ↔ ¬ bad e) (s : σ) :
    HasFate (es.foldlM f s) ↔ ¬ ∃ e, Reaches f s es e ∧ bad e := by
  induction es generalizing s with
  | nil =>
    refine iff_of_true (hasFate_pure _) ?_
    rintro ⟨e, ⟨before, after, heq, -⟩, -⟩
    exact absurd heq (by simp)
  | cons d rest ih =>
    have hrest := ih fun e he => h e (List.mem_cons_of_mem _ he)
    rw [List.foldlM_cons, hasFate_bind_iff, h d List.mem_cons_self s]
    simp only [hrest, reaches_cons_iff, not_exists, not_and]
    constructor
    · rintro ⟨hd, hlater⟩ e (rfl | ⟨t, ht, hreach⟩)
      · exact hd
      · exact hlater t ht e hreach
    · exact fun hall => ⟨hall d (.inl rfl), fun t ht e hreach => hall e (.inr ⟨t, ht, hreach⟩)⟩

/-! ## Names and comments -/

section

variable {p : Profile}

theorem isText_safeName (hp : p.HasTexts) (taken : List String) (name : String) :
    (Naming.safeName p.nameAliases taken name).IsText := by
  unfold Naming.safeName
  split
  · next other hother => exact hp.aliases _ (mem_of_lookupText hother)
  · split <;> exact ⟨_, rfl⟩

theorem exists_comment (hp : p.HasTexts) {text : Value} (h : OrNull IsText text) :
    ∃ s, (Model.comment p text).result = .ok s := by
  unfold Model.comment
  rw [hp.replacements]
  rcases h with rfl | ⟨s, rfl⟩ <;> exact ⟨_, rfl⟩

end

/-! ## Enums -/

namespace EnumSpec

variable {p : Profile} {location : String}

theorem hasFate_memberValue {v : Value} (h : v.hasLiteral = true) :
    HasFate (memberValue v location) := by
  unfold memberValue
  split
  · exact hasFate_defect _ _
  · rw [h]
    simp only [Bool.not_true, Bool.false_eq_true, if_false]
    split
    · exact hasFate_pure _
    · exact hasFate_defect _ _

theorem hasFate_memberName (hp : p.HasTexts) (text : List Char) :
    HasFate (memberName p text location) := by
  obtain ⟨start, hstart⟩ := hp.memberStart
  obtain ⟨mapped, hmapped⟩ :=
    isText_safeName hp [] (String.ofList (Naming.uncapitalized (Text.trim text)))
  unfold memberName
  simp only [hmapped, hstart, text?, concat?, Compile.shaped_some, pure_bind]
  split
  · exact hasFate_defect _ _
  · split <;> exact hasFate_pure _

theorem hasFate_membersOfValues {vs : List Value} (h : ∀ v ∈ vs, v.hasLiteral = true) :
    HasFate (membersOfValues p location vs) := by
  induction vs with
  | nil => exact hasFate_pure _
  | cons v rest ih =>
    unfold membersOfValues
    refine hasFate_bind_iff.mpr ⟨hasFate_memberValue (h v List.mem_cons_self), fun n _ => ?_⟩
    refine hasFate_bind_iff.mpr ⟨ih fun w hw => h w (List.mem_cons_of_mem _ hw), fun more _ => ?_⟩
    exact hasFate_pure _

theorem hasFate_memberOfSegment (hp : p.HasTexts) (segment : List Char) :
    HasFate (memberOfSegment p location segment) := by
  unfold memberOfSegment
  split
  · exact hasFate_defect _ _
  · split
    · exact hasFate_defect _ _
    · refine hasFate_bind_iff.mpr ⟨hasFate_memberName hp _, fun name _ => ?_⟩
      refine hasFate_bind_iff.mpr ⟨hasFate_memberValue rfl, fun n _ => ?_⟩
      exact hasFate_pure _

theorem hasFate_membersOfSegments (hp : p.HasTexts) (segments : List (List Char)) :
    HasFate (membersOfSegments p location segments) := by
  induction segments with
  | nil => exact hasFate_pure _
  | cons s rest ih =>
    unfold membersOfSegments
    refine hasFate_bind_iff.mpr ⟨hasFate_memberOfSegment hp s, fun m _ => ?_⟩
    exact hasFate_bind_iff.mpr ⟨ih, fun more _ => hasFate_pure _⟩

theorem hasFate_listText (description : List Char) : HasFate (listText description location) := by
  unfold listText
  split
  · exact hasFate_defect _ _
  · split
    · exact hasFate_pure _
    · exact hasFate_defect _ _

theorem hasFate_membersOfDescription (hp : p.HasTexts) (description : List Char) :
    HasFate (membersOfDescription p location description) :=
  hasFate_bind_iff.mpr
    ⟨hasFate_listText description, fun _ _ => hasFate_membersOfSegments hp _⟩

theorem hasFate_ofMembers (name : String) (members : List EnumMember) : HasFate (
    if members.isEmpty then .defect .noMembers location
    else match duplicate? [] (members.map (·.name)) with
      | some n => .defect (.duplicateMember n) location
      | none => pure ⟨name, members⟩ : Compile EnumSpec) := by
  split
  · exact hasFate_defect _ _
  · split
    · exact hasFate_defect _ _
    · exact hasFate_pure _

theorem hasFate_ofSchema (hp : p.HasTexts) {es : List (Value × Value)} {c : NamingContext}
    (owner : c.owner.IsText) (member : c.member.IsText)
    (description : OrNull IsText (valueAt es "description"))
    (enum : OrNull (IsListOf fun v => v.hasLiteral = true) (valueAt es "enum")) :
    HasFate (ofSchema p es c) := by
  obtain ⟨values, hvalues, literals⟩ := elementsOrNone?_of_list enum
  obtain ⟨text, htext⟩ : ∃ text, descriptionText? (valueAt es "description") = some text := by
    rcases description with h | ⟨s, h⟩ <;> rw [h] <;> exact ⟨_, rfl⟩
  obtain ⟨name, hname⟩ : ∃ name, nameIn? c = some name := by
    obtain ⟨o, ho⟩ := owner
    obtain ⟨m, hm⟩ := member
    simp only [nameIn?, ho, hm]
    exact ⟨_, rfl⟩
  rw [valueAt] at hvalues htext
  unfold ofSchema
  simp only [hvalues, htext, hname, Compile.shaped_some, pure_bind]
  split
  · refine hasFate_bind_iff.mpr ⟨hasFate_membersOfDescription hp text, fun members _ => ?_⟩
    split
    · exact hasFate_bind_iff.mpr ⟨hasFate_of_ok rfl, fun _ _ => hasFate_ofMembers name members⟩
    · exact hasFate_ofMembers name members
  · refine hasFate_bind_iff.mpr ⟨hasFate_membersOfValues literals, fun members _ => ?_⟩
    exact hasFate_ofMembers name members

end EnumSpec

end ApiSmith

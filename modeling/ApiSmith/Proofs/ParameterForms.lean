import ApiSmith.Proofs.Places
import ApiSmith.Proofs.Returning

/-!
# Two forms of parameters

The entries of a schema stand beside the name of a parameter, or they stand in its `schema`. The
first form is compiled at once. The second is compiled to no kind first, which sends the compiler to
the schema. `forms_agree_iff` says that the two agree whenever the first one comes to a parameter or
to a defect, and so that they agree on every schema of the right kinds in which no list of types is
looked up. A list stops both forms, and with them the run.

Only the description of a parameter tells the forms apart: the schema has one of its own, which is
not looked at.
-/

namespace ApiSmith

open Package (HasFate)
open Value Compile

/-! ## Comments -/

theorem replaceAllIn_cases (replacements : List (Value × Value)) (cs cs' : List Char) :
    (∃ r r', Naming.replaceAllIn replacements cs = .ok r ∧
        Naming.replaceAllIn replacements cs' = .ok r') ∨
      ∃ e, Naming.replaceAllIn replacements cs = .error e ∧
        Naming.replaceAllIn replacements cs' = .error e := by
  induction replacements generalizing cs cs' with
  | nil => exact .inl ⟨cs, cs', rfl, rfl⟩
  | cons replacement rest ih =>
    obtain ⟨old, new⟩ := replacement
    have hfirst : (∃ r r', Naming.replaceIn old new cs = .ok r ∧
        Naming.replaceIn old new cs' = .ok r') ∨
        ∃ e, Naming.replaceIn old new cs = .error e ∧ Naming.replaceIn old new cs' = .error e := by
      unfold Naming.replaceIn
      split
      · next new =>
        cases Text.template new.toList with
        | ok parts => exact .inl ⟨_, _, rfl, rfl⟩
        | error e => cases e <;> exact .inr ⟨_, rfl, rfl⟩
      · exact .inr ⟨_, rfl, rfl⟩
    rw [Naming.replaceAllIn, Naming.replaceAllIn]
    rcases hfirst with ⟨r, r', hr, hr'⟩ | ⟨e, he, he'⟩
    · rw [hr, hr']
      exact ih r r'
    · rw [he, he']
      exact .inr ⟨e, rfl, rfl⟩

theorem comment_cases (p : Profile) {v : Value} (h : v.isPresent = true → v.IsText) :
    (∃ s s', (Model.comment p v).result = .ok s ∧ (Model.comment p .null).result = .ok s') ∨
      ∃ e, (Model.comment p v).result = .error e ∧ (Model.comment p .null).result = .error e := by
  have hclean {v : Value} (h : v.isPresent = true → v.IsText) : ∃ cs,
      Naming.cleanComment v p.commentReplacements =
        Naming.replaceAllIn p.commentReplacements cs >>= fun r => pure (String.ofList r) := by
    rcases Classical.em v.IsText with ⟨s, rfl⟩ | hother
    · exact ⟨_, rfl⟩
    · have habsent : v.isPresent = false := Bool.eq_false_iff.mpr fun hv => hother (h hv)
      refine ⟨Text.trim (Naming.withoutBreaks []), ?_⟩
      unfold Naming.cleanComment
      cases v <;> first | exact absurd ⟨_, rfl⟩ hother | (simp only [habsent]; rfl)
  obtain ⟨cs, hcs⟩ := hclean h
  obtain ⟨cs', hcs'⟩ := hclean (v := .null) nofun
  unfold Model.comment
  rw [hcs, hcs']
  rcases replaceAllIn_cases p.commentReplacements cs cs' with ⟨r, r', hr, hr'⟩ | ⟨e, he, he'⟩
  · rw [hr, hr']
    exact .inl ⟨_, _, rfl, rfl⟩
  · rw [he, he']
    cases e <;> exact .inr ⟨_, rfl, rfl⟩

theorem comment_of_other (p : Profile) {v : Value} (present : v.isPresent = true)
    (other : ¬ v.IsText) : (Model.comment p v).result = .error .shape := by
  unfold Model.comment Naming.cleanComment
  cases v <;> first | exact absurd ⟨_, rfl⟩ other | (simp only [present]; rfl)

namespace Parameter

/-! ## Forms -/

def inlineForm (name : String) (placement : Placement) (schema : List (Value × Value)) :
    List (Value × Value) :=
  (.text "name", .text name) :: (.text "in", .text placement.name) :: schema

def nestedForm (name : String) (placement : Placement) (schema : List (Value × Value)) :
    List (Value × Value) :=
  [(.text "name", .text name), (.text "in", .text placement.name), (.text "schema", .map schema)]

/-- What the inline form comes to, after the parameters before it. -/
def compileInline (p : Profile) (shared : Value) (methodName location : String)
    (earlier : List Parameter) (name : String) (placement : Placement)
    (schema : List (Value × Value)) : Compile (Option Parameter) :=
  compile p shared methodName location earlier (.map (inlineForm name placement schema))

/-- What the nested form comes to, after the parameters before it. -/
def compileNested (p : Profile) (shared : Value) (methodName location : String)
    (earlier : List Parameter) (name : String) (placement : Placement)
    (schema : List (Value × Value)) : Compile (Option Parameter) :=
  compile p shared methodName location earlier (.map (nestedForm name placement schema))

def ownKeys : List String := ["$ref", "name", "in", "schema"]

/-- Two parameters that are the same but for their descriptions. -/
structure SameForm (q q' : Parameter) : Prop where
  name : q.name = q'.name
  identifier : q.identifier = q'.identifier
  key : q.key = q'.key
  placement : q.placement = q'.placement
  type : q.type = q'.type
  zero : q.zero = q'.zero
  allowed : q.allowed = q'.allowed

/-- Two computations come to the same parameter, or stop for the same reason. -/
inductive Alike (x y : Compile (Option Parameter)) : Prop
  | made {q q' : Parameter} (first : x.result = .ok (some q)) (second : y.result = .ok (some q'))
    (same : q.SameForm q')
  | halted {h h' : Halt} (first : x.result = .error h) (second : y.result = .error h')
    (same : h.unplaced = h'.unplaced)

/-- Two computations come to the same parameter, or to defects of one class. -/
inductive Agree (x y : Compile (Option Parameter)) : Prop
  | made {q q' : Parameter} (first : x.result = .ok (some q)) (second : y.result = .ok (some q'))
    (same : q.SameForm q')
  | defects {d d' : Defect} (first : x.result = .error (.defect d))
    (second : y.result = .error (.defect d')) (same : d.cause.class = d'.cause.class)

section

variable {x y : Compile (Option Parameter)}

theorem Alike.congr {x' y' : Compile (Option Parameter)} (h : Alike x' y')
    (hx : x.result = x'.result) (hy : y.result = y'.result) : Alike x y := by
  cases h with
  | made first second same => exact .made (hx.trans first) (hy.trans second) same
  | halted first second same => exact .halted (hx.trans first) (hy.trans second) same

theorem Agree.hasFate (h : Agree x y) : HasFate x := by
  cases h with
  | made first _ _ => exact hasFate_of_ok first
  | @defects d _ first _ _ =>
    intro e he
    exact ⟨d, (Except.error.inj (first.symm.trans he)).symm⟩

/-- What is alike agrees if it comes to a parameter or to a defect. -/
theorem Alike.agree (h : Alike x y) (fate : HasFate x) : Agree x y := by
  cases h with
  | made first second same => exact .made first second same
  | @halted _ h' first second same =>
    obtain ⟨d, rfl⟩ := fate _ first
    cases h' with
    | defect d' =>
      refine .defects first second ?_
      rw [Halt.unplaced, Halt.unplaced, Halt.defect.injEq, Defect.mk.injEq] at same
      rw [same.1]
    | shape => cases same
    | template => cases same

end

/-! ## Parameters from types -/

/-- The parameter of a type, with the values that it may take and a description. -/
def ofType (p : Profile) (here : String) (earlier : List Parameter) (name : String)
    (placement : Placement) (inPlace : Option (Option InlineEnum)) (description : Compile String)
    (type : Descriptor) : Compile (Option Parameter) := do
  let key := String.ofList (Text.afterLast '.' name.toList)
  let inPlace ← Compile.shaped inPlace
  let identifier := argument p key
  if earlier.any fun q => q.identifier.same identifier then
    .defect (.duplicateArgument name identifier) here
  else do
    let description ← description
    pure (some {
      name := name
      identifier := identifier
      key := key
      placement := placement
      type := type
      zero := zeroFor p placement type
      allowed := (inPlace.map InlineEnum.values).getD []
      description := description })

section

variable {p : Profile} {here : String} {earlier : List Parameter} {name : String}
  {placement : Placement} {inPlace : Option (Option InlineEnum)}
  {description description' : Compile String}

theorem alike_ofType
    (descriptions : (∃ s s', description.result = .ok s ∧ description'.result = .ok s') ∨
      ∃ e, description.result = .error e ∧ description'.result = .error e) (type : Descriptor) :
    Alike (ofType p here earlier name placement inPlace description type)
      (ofType p here earlier name placement inPlace description' type) := by
  unfold ofType
  cases inPlace with
  | none => exact .halted rfl rfl rfl
  | some inPlace =>
    simp only [Compile.shaped_some, pure_bind]
    split
    · exact .halted rfl rfl rfl
    · rcases descriptions with ⟨s, s', hs, hs'⟩ | ⟨e, he, he'⟩
      · refine .made (Logged.result_bind_of_ok hs) (Logged.result_bind_of_ok hs') ?_
        exact ⟨rfl, rfl, rfl, rfl, rfl, rfl, rfl⟩
      · exact .halted (Logged.result_bind_of_error he) (Logged.result_bind_of_error he') rfl

theorem result_ofType_of_hasFate {type : Descriptor} (stops : description.result = .error .shape)
    (fate : HasFate (ofType p here earlier name placement inPlace description type)) :
    (ofType p here earlier name placement inPlace description type).result =
      (ofType p here earlier name placement inPlace description' type).result := by
  unfold ofType at fate ⊢
  cases inPlace with
  | none => rfl
  | some inPlace =>
    simp only [Compile.shaped_some, pure_bind] at fate ⊢
    split
    · rfl
    · next hnew =>
      rw [if_neg hnew] at fate
      obtain ⟨d, hd⟩ := fate .shape (Logged.result_bind_of_error stops)
      cases hd

theorem alike_bind {x x' : Compile Descriptor} (types : x.outcome = x'.outcome)
    {f f' : Descriptor → Compile (Option Parameter)}
    (rest : ∀ d, x.result = .ok d → Alike (f d) (f' d)) : Alike (x >>= f) (x' >>= f') := by
  cases hx : x.result with
  | error e =>
    obtain ⟨e', he', hsame⟩ := error_of_outcome (types.symm.trans (outcome_of_error hx))
    exact .halted (Logged.result_bind_of_error hx) (Logged.result_bind_of_error he') hsame.symm
  | ok d =>
    have hx' := outcome_eq_ok.mp (types.symm.trans (outcome_eq_ok.mpr hx))
    exact (rest d hx).congr (Logged.result_bind_of_ok hx) (Logged.result_bind_of_ok hx')

end

/-! ## Both forms -/

theorem ofValue?_name (placement : Placement) :
    Placement.ofValue? (.text placement.name) = some placement := by
  cases placement <;> rfl

section

variable {p : Profile} {name : String} {placement : Placement} {schema : List (Value × Value)}
  {c : NamingContext}

theorem lookup_inlineForm {key : String} (hname : key ≠ "name") (hplace : key ≠ "in") :
    lookupText key (inlineForm name placement schema) = lookupText key schema := by
  rw [inlineForm, lookupText_cons, lookupText_cons, if_neg, if_neg]
  · simpa using hplace.symm
  · simpa using hname.symm

theorem sameSchema_inlineForm : SameSchema (inlineForm name placement schema) schema := by
  have hother : ∀ key ∈ schemaKeys, key ≠ "name" ∧ key ≠ "in" := by decide
  exact fun key hkey => lookup_inlineForm (hother key hkey).1 (hother key hkey).2

theorem sameSchema_nestedForm : SameSchema (nestedForm name placement schema) [] := by
  have hother : ∀ key ∈ schemaKeys, key ≠ "name" ∧ key ≠ "in" ∧ key ≠ "schema" := by decide
  intro key hkey
  obtain ⟨hname, hplace, hschema⟩ := hother key hkey
  simp [nestedForm, lookupText_cons, hname.symm, hplace.symm, hschema.symm]

theorem wireType_empty :
    wireType p (.map []) c = .defect (.unmappedType .null .null) c.location := by
  unfold wireType
  simp only [Value.entries?, Compile.shaped_some, pure_bind]
  rw [resolve_map]
  rfl

theorem resolveType_inlineForm (free : lookupText "schema" schema = none) :
    resolveType p (inlineForm name placement schema) c = wireType p (.map schema) c := by
  have hschema : lookupText "schema" (inlineForm name placement schema) = none :=
    (lookup_inlineForm (by decide) (by decide)).trans free
  unfold resolveType
  rw [wireType_congr sameSchema_inlineForm, hschema]
  dsimp only
  split
  · simp [Value.isPresent]
  · rfl

theorem outcome_resolveType_nestedForm :
    (resolveType p (nestedForm name placement schema) c).outcome =
      (wireType p (.map schema) c).outcome := by
  have hown : wireType p (.map (nestedForm name placement schema)) c =
      .defect (.unmappedType .null .null) c.location :=
    (wireType_congr sameSchema_nestedForm c).trans wireType_empty
  have hschema : lookupText "schema" (nestedForm name placement schema) = some (.map schema) := rfl
  unfold resolveType
  rw [hown, hschema]
  cases schema with
  | nil =>
    rw [wireType_empty]
    rfl
  | cons e es => exact outcome_wireType (c.sameNames_child "schema") _

theorem ofParameter?_inlineForm (free : lookupText "schema" schema = none) :
    InlineEnum.ofParameter? (inlineForm name placement schema) = InlineEnum.ofEntries? schema := by
  have hschema : lookupText "schema" (inlineForm name placement schema) = none :=
    (lookup_inlineForm (by decide) (by decide)).trans free
  unfold InlineEnum.ofParameter?
  rw [InlineEnum.ofEntries?_congr sameSchema_inlineForm, hschema]
  cases InlineEnum.ofEntries? schema with
  | none => rfl
  | some found => cases found <;> rfl

theorem ofParameter?_nestedForm :
    InlineEnum.ofParameter? (nestedForm name placement schema) =
      InlineEnum.ofEntries? schema := by
  have hschema : lookupText "schema" (nestedForm name placement schema) = some (.map schema) := rfl
  unfold InlineEnum.ofParameter?
  rw [InlineEnum.ofEntries?_congr sameSchema_nestedForm, hschema]
  cases schema <;> rfl

end

section

variable {p : Profile} (shared : Value) (methodName location : String) (earlier : List Parameter)
  (name : String) (placement : Placement) {schema : List (Value × Value)}

theorem compileNested_eq :
    compileNested p shared methodName location earlier name placement schema =
      resolveType p (nestedForm name placement schema) (namingOf methodName location name) >>=
        ofType p (namingOf methodName location name).location earlier name placement
          (InlineEnum.ofEntries? schema) (Model.comment p .null) := by
  have href : lookupText "$ref" (nestedForm name placement schema) = none := rfl
  have hname : lookupText "name" (nestedForm name placement schema) = some (.text name) := rfl
  have hplace : lookupText "in" (nestedForm name placement schema) =
      some (.text placement.name) := rfl
  have hdescription : lookupText "description" (nestedForm name placement schema) = none := rfl
  unfold compileNested compile
  simp only [Value.entries?, Compile.shaped_some, pure_bind, href]
  unfold compileNode
  simp only [hname, hplace, Compile.shaped_some, pure_bind, Option.getD_some, ofValue?_name,
    Value.text?, ofParameter?_nestedForm, hdescription]
  rfl

variable (free : ∀ key ∈ ownKeys, lookupText key schema = none)
include free

theorem compileInline_eq :
    compileInline p shared methodName location earlier name placement schema =
      wireType p (.map schema) (namingOf methodName location name) >>=
        ofType p (namingOf methodName location name).location earlier name placement
          (InlineEnum.ofEntries? schema) (Model.comment p (valueAt schema "description")) := by
  have href : lookupText "$ref" (inlineForm name placement schema) = none :=
    (lookup_inlineForm (by decide) (by decide)).trans (free "$ref" (by decide))
  have hdescription : lookupText "description" (inlineForm name placement schema) =
      lookupText "description" schema := lookup_inlineForm (by decide) (by decide)
  have hname : lookupText "name" (inlineForm name placement schema) = some (.text name) := rfl
  have hplace : lookupText "in" (inlineForm name placement schema) =
      some (.text placement.name) := rfl
  have hschema := free "schema" (by decide)
  unfold compileInline compile
  simp only [Value.entries?, Compile.shaped_some, pure_bind, href]
  unfold compileNode
  simp only [hname, hplace, Compile.shaped_some, pure_bind, Option.getD_some, ofValue?_name,
    Value.text?, resolveType_inlineForm hschema, ofParameter?_inlineForm hschema, hdescription]
  rfl

/-- Both forms come to the same parameter or stop for the same reason, if the description of the
schema is a text or absent. -/
theorem alike_forms (description : (valueAt schema "description").isPresent = true →
      (valueAt schema "description").IsText) :
    Alike (compileInline p shared methodName location earlier name placement schema)
      (compileNested p shared methodName location earlier name placement schema) := by
  rw [compileInline_eq _ _ _ _ _ _ free, compileNested_eq]
  exact alike_bind outcome_resolveType_nestedForm.symm
    fun d _ => alike_ofType (comment_cases p description) d

theorem alike_forms_of_hasFate
    (fate : HasFate (compileInline p shared methodName location earlier name placement schema)) :
    Alike (compileInline p shared methodName location earlier name placement schema)
      (compileNested p shared methodName location earlier name placement schema) := by
  by_cases description : (valueAt schema "description").isPresent = true →
      (valueAt schema "description").IsText
  · exact alike_forms _ _ _ _ _ _ free description
  · obtain ⟨present, other⟩ := Classical.not_imp.mp description
    rw [compileInline_eq _ _ _ _ _ _ free, hasFate_bind_iff] at fate
    rw [compileInline_eq _ _ _ _ _ _ free, compileNested_eq]
    refine alike_bind outcome_resolveType_nestedForm.symm fun d hd => ?_
    -- the description is not cleaned, so that it may be left out
    have hcomment := comment_of_other p present other
    exact (alike_ofType (comment_cases p (v := .null) nofun) d).congr
      (result_ofType_of_hasFate hcomment (fate.2 d hd)) rfl

theorem hasFate_compileInline_iff (hp : p.HasTexts)
    (h : (Value.map schema).IsSchema IsOneOrSeveral) :
    HasFate (compileInline p shared methodName location earlier name placement schema) ↔
      ¬ (Value.map schema).LooksUpList := by
  obtain ⟨found, hfound, -⟩ := exists_inPlace h
  obtain ⟨s, hs⟩ := exists_comment hp h.description
  have hnaming : (namingOf methodName location name).HasTexts := ⟨⟨_, rfl⟩, ⟨_, rfl⟩⟩
  rw [compileInline_eq _ _ _ _ _ _ free, hasFate_bind_iff, hasFate_wireType_iff hp h hnaming]
  refine and_iff_left fun type _ => ?_
  unfold ofType
  simp only [hfound, Compile.shaped_some, pure_bind]
  split
  · exact hasFate_defect _ _
  · exact (hasFate_bind_of_ok hs).mpr (hasFate_pure _)

/-- The two forms of a parameter agree exactly if the inline one comes to a parameter or to a
defect, whatever the entries of the schema are. If the description of the schema is a text or
absent, the forms come to the same in any case. On a schema of the right kinds they agree exactly if
no list of types is looked up in it. -/
theorem forms_agree_iff :
    (Agree (compileInline p shared methodName location earlier name placement schema)
        (compileNested p shared methodName location earlier name placement schema) ↔
      HasFate (compileInline p shared methodName location earlier name placement schema)) ∧
    (((valueAt schema "description").isPresent = true → (valueAt schema "description").IsText) →
      Alike (compileInline p shared methodName location earlier name placement schema)
        (compileNested p shared methodName location earlier name placement schema)) ∧
    (p.HasTexts → (Value.map schema).IsSchema IsOneOrSeveral →
      (Agree (compileInline p shared methodName location earlier name placement schema)
          (compileNested p shared methodName location earlier name placement schema) ↔
        ¬ (Value.map schema).LooksUpList)) := by
  have hagree : Agree (compileInline p shared methodName location earlier name placement schema)
        (compileNested p shared methodName location earlier name placement schema) ↔
      HasFate (compileInline p shared methodName location earlier name placement schema) :=
    ⟨Agree.hasFate, fun fate => (alike_forms_of_hasFate _ _ _ _ _ _ free fate).agree fate⟩
  refine ⟨hagree, alike_forms _ _ _ _ _ _ free, fun hp h => ?_⟩
  rw [hagree, hasFate_compileInline_iff _ _ _ _ _ _ free hp h]

end

def typed (type : Value) : List (Value × Value) := [(.text "type", type)]

/-- A list of types stops both forms; of one type they come to the same parameter. -/
theorem forms_agree_iff_of_types :
    (∀ type, ∀ key ∈ ownKeys, lookupText key (typed type) = none) ∧
    ¬ Agree (compileInline .common .null "getNick" "" [] "nick" .query (typed Package.severalTypes))
      (compileNested .common .null "getNick" "" [] "nick" .query (typed Package.severalTypes)) ∧
    Alike (compileInline .common .null "getNick" "" [] "nick" .query (typed Package.severalTypes))
      (compileNested .common .null "getNick" "" [] "nick" .query (typed Package.severalTypes)) ∧
    Agree (compileInline .common .null "getNick" "" [] "nick" .query (typed (.text "string")))
      (compileNested .common .null "getNick" "" [] "nick" .query (typed (.text "string"))) := by
  have hp : Profile.common.HasTexts := Profile.hasTexts_of_preset List.mem_cons_self
  have free (type : Value) : ∀ key ∈ ownKeys, lookupText key (typed type) = none := by
    simp [ownKeys, typed, lookupText]
  have kinds {type : Value} (h : IsOneOrSeveral type) :
      (Value.map (typed type)).IsSchema IsOneOrSeveral := Package.isSchema_of_type h
  have list : (Value.map (typed Package.severalTypes)).LooksUpList := by
    refine .own rfl rfl ?_ rfl
    rintro _ ⟨⟩
  have undescribed : (valueAt (typed Package.severalTypes) "description").isPresent = false := rfl
  have one : ¬ (Value.map (typed (.text "string"))).LooksUpList :=
    (Package.isSchema_of_type (.inr ⟨_, rfl⟩)).not_looksUpList
  obtain ⟨-, halike, hseveral⟩ :=
    forms_agree_iff (p := .common) .null "getNick" "" [] "nick" .query (free Package.severalTypes)
  obtain ⟨-, -, hone⟩ :=
    forms_agree_iff (p := .common) .null "getNick" "" [] "nick" .query (free (.text "string"))
  exact ⟨free, fun agree => (hseveral hp (kinds (.inr ⟨_, rfl⟩))).mp agree list,
    halike fun described => absurd described (by rw [undescribed]; decide),
    (hone hp (kinds (.inl (.inr ⟨_, rfl⟩)))).mpr one⟩

end Parameter

end ApiSmith

import ApiSmith.Operation
import ApiSmith.Proofs.Settings

/-!
# Artifacts under more primitive types

A profile with more primitive types compiles whatever a profile with fewer of them does, and what it
compiles refers to no other definitions. For a definition the references are the same. For an
operation they can only get fewer: a parameter whose own type was not known before had its type from
its `schema`, which may refer to a definition, and has its own type now, which is a primitive one.

That this is all that can happen is said by `Grows`, of the result of any node under the two
profiles. It is proved by the recursion of `resolve`. From there on each function that compiles a
part of an artifact is gone through once: where it has a result under the first profile it has one
under the second, and the two differ in their types only.
-/

namespace ApiSmith

/-! ## Profiles -/

section

variable {p q : Profile}

theorem Profile.isSome_kindOf? {key : TypeKey} :
    (p.kindOf? key).isSome = true ↔ key ∈ p.primitiveTypes.map (·.1) := by
  rw [kindOf?, Option.isSome_map, List.find?_isSome, List.mem_map]
  simp only [beq_iff_eq]

theorem Profile.Widens.exists_kindOf? (h : p.Widens q) {key : TypeKey} {kind : PrimitiveKind}
    (hkind : p.kindOf? key = some kind) : ∃ other, q.kindOf? key = some other := by
  have hkey := Profile.isSome_kindOf?.mp (Option.isSome_of_mem hkind)
  exact Option.isSome_iff_exists.mp (Profile.isSome_kindOf?.mpr (h.keys hkey))

theorem EnumSpec.membersOfValues_congr (h : p.memberStart = q.memberStart) (location : String)
    (values : List Value) :
    membersOfValues p location values = membersOfValues q location values := by
  induction values with
  | nil => rfl
  | cons v rest ih => rw [membersOfValues, membersOfValues, ih, h]

theorem EnumSpec.membersOfSegments_congr (aliases : p.nameAliases = q.nameAliases)
    (start : p.memberStart = q.memberStart) (location : String) (segments : List (List Char)) :
    membersOfSegments p location segments = membersOfSegments q location segments := by
  have hname : ∀ text, memberName p text location = memberName q text location := by
    intro text
    rw [memberName, memberName, aliases, start]
  induction segments with
  | nil => rfl
  | cons s rest ih => simp only [membersOfSegments, memberOfSegment, hname, ih]

theorem Profile.Widens.ofSchema_eq (h : p.Widens q) (es : List (Value × Value))
    (c : NamingContext) : EnumSpec.ofSchema q es c = EnumSpec.ofSchema p es c := by
  have haliases : q.nameAliases = p.nameAliases := by rw [h.rest]
  have hstart : q.memberStart = p.memberStart := by rw [h.rest]
  simp only [EnumSpec.ofSchema, EnumSpec.membersOfDescription,
    EnumSpec.membersOfValues_congr hstart, EnumSpec.membersOfSegments_congr haliases hstart]

theorem Profile.Widens.comment_eq (h : p.Widens q) (text : Value) :
    Model.comment q text = Model.comment p text := by
  rw [Model.comment, Model.comment, h.rest]

end

/-! ## Types -/

/-- How the type of a node comes out when there are more primitive types: it refers to the same
definitions as before, or it was a primitive one and not known before. -/
inductive Grows : Except Halt Descriptor → Except Halt Descriptor → Prop where
  | same {d e : Descriptor} : e.references = d.references → Grows (.ok d) (.ok e)
  | found {f : Defect} {e : Descriptor} :
      f.cause.class = .unresolvableType → e.references = [] → Grows (.error (.defect f)) (.ok e)
  | halt (h : Halt) : Grows (.error h) (.error h)

theorem Grows.refl (r : Except Halt Descriptor) : Grows r r := by
  cases r with
  | ok d => exact .same rfl
  | error h => exact .halt h

theorem Grows.then {x y : Compile Descriptor} (h : Grows x.result y.result)
    {f : Descriptor → Descriptor} (keeps : ∀ d, (f d).references = d.references) :
    Grows (x >>= fun d => pure (f d)).result (y >>= fun d => pure (f d)).result := by
  rw [Logged.result_bind, Logged.result_bind]
  generalize x.result = r at h
  generalize y.result = s at h
  cases h with
  | same href => exact .same (by rw [keeps, keeps, href])
  | found hclass href => exact .found hclass (by rw [keeps, href])
  | halt e => exact .halt e

theorem Grows.exists_of_ok {d : Descriptor} {r : Except Halt Descriptor} (h : Grows (.ok d) r) :
    ∃ e, r = .ok e ∧ e.references = d.references := by
  cases h with
  | same href => exact ⟨_, rfl, href⟩

section

variable {p q : Profile} (h : p.Widens q)
include h

/-- The kind of a node is looked up among more. -/
theorem grows_resolveKind (es : List (Value × Value)) (c : NamingContext) :
    Grows (resolveKind p es c).result (resolveKind q es c).result := by
  unfold resolveKind
  extract_lets type format kind kind'
  have hkind : ∀ k, kind = some k → ∃ other, kind' = some other := by
    intro k hk
    simp only [kind, kind'] at hk ⊢
    clear_value type format
    split at hk
    · exact h.exists_kindOf? hk
    · exact h.exists_kindOf? hk
    · cases hk
  split
  · exact .halt _
  · cases hfirst : kind with
    | some k =>
      obtain ⟨other, hother⟩ := hkind k hfirst
      rw [hother]
      exact .same rfl
    | none =>
      cases kind' with
      | some other => exact .found rfl rfl
      | none => exact .halt _

theorem grows_resolve (node : Value) (c : NamingContext) :
    Grows (resolve p node c).result (resolve q node c).result := by
  fun_induction resolve p node c with
  | case1 c es henum =>
    simp only [resolve_map, henum, if_true, h.ofSchema_eq]
    exact .refl _
  | case2 c es henum htype items hitems hpresent ih =>
    simp only [resolve_map, henum, htype, hitems, hpresent, if_true]
    exact ih.then fun d => rfl
  | case3 c es henum htype items hitems hpresent =>
    simp only [resolve_map, henum, htype, hitems, hpresent, if_true]
    exact .halt _
  | case4 c es henum htype hitems =>
    simp only [resolve_map, henum, htype, hitems, if_true]
    exact .halt _
  | case5 c es henum htype ref href =>
    simp only [resolve_map, henum, htype, href]
    exact .same rfl
  | case6 c es henum htype ref hne href =>
    simp only [resolve_map, henum, htype, href]
    exact .halt _
  | case7 c es henum htype href v hv x hx ih =>
    simp only [resolve_map, henum, htype, href, hv, hx, Option.map_some]
    exact ih
  | case8 c es henum htype href v hv hx =>
    simp only [resolve_map, henum, htype, href, hv, hx, Option.map_some]
    exact .halt _
  | case9 c es henum htype href v hv hx =>
    simp only [resolve_map, henum, htype, href, hv, hx, Option.map_some]
    exact grows_resolveKind h es c
  | case10 c es henum htype href hv =>
    simp only [resolve_map, henum, htype, href, hv, Option.map_none]
    exact grows_resolveKind h es c
  | case11 node c hmap =>
    rw [resolve]
    · exact .halt _
    · exact hmap

theorem grows_wireType (node : Value) (c : NamingContext) :
    Grows (wireType p node c).result (wireType q node c).result := by
  unfold wireType
  rw [Logged.result_bind, Logged.result_bind]
  cases (Compile.shaped node.entries?).result with
  | error e => exact .halt e
  | ok es =>
    simp only [Except.bind, Logged.result_bind]
    cases (Compile.shaped (InlineEnum.ofEntries? es)).result with
    | error e => exact .halt e
    | ok inPlace =>
      cases inPlace with
      | some e => exact .same rfl
      | none => exact (grows_resolve h node c).then fun d => d.references_withoutEnums

end

/-! ## Parameters -/

theorem any_of_map_eq {α β : Type} {as bs : List α} {f : α → β} (h : bs.map f = as.map f)
    (test : β → Bool) : (bs.any fun b => test (f b)) = as.any fun a => test (f a) := by
  have hany := congrArg (·.any test) h
  simp only [List.any_map] at hany
  exact hany

namespace Parameter

theorem resolveType_cases {p : Profile} {es : List (Value × Value)} {c : NamingContext}
    {d : Descriptor} (hd : (resolveType p es c).result = .ok d) :
    (wireType p (.map es) c).result = .ok d ∨
      ∃ f, (wireType p (.map es) c).result = .error (.defect f) ∧
        (f.cause.class = .unresolvableType ∧
          ((lookupText "schema" es).getD .null).isPresent = true) ∧
        (wireType p ((lookupText "schema" es).getD .null) (c.child "schema")).result = .ok d := by
  unfold resolveType at hd
  simp only at hd
  split at hd
  · next f hf =>
    split at hd
    · next hretry =>
      obtain ⟨_, -, hd⟩ := Logged.result_bind_eq_ok.mp hd
      exact .inr ⟨f, hf, by simpa using hretry, hd⟩
    · exact .inl hd
  · exact .inl hd

/-- A parameter that differs in its type and the default of it, and refers to no more. -/
structure Narrows (a b : Parameter) : Prop where
  rest : b = { a with type := b.type, zero := b.zero }
  references : b.type.references ⊆ a.type.references

theorem identifiers_of_narrows {as bs : List Parameter} (h : List.Forall₂ Narrows as bs) :
    bs.map (·.identifier) = as.map (·.identifier) := by
  induction h with
  | nil => rfl
  | cons hab _ ih => rw [List.map_cons, List.map_cons, ih, hab.rest]

theorem references_of_narrows {as bs : List Parameter} (h : List.Forall₂ Narrows as bs) :
    (bs.flatMap fun b => b.type.references) ⊆ as.flatMap fun a => a.type.references := by
  induction h with
  | nil => exact List.Subset.refl _
  | cons hab _ ih =>
    rw [List.flatMap_cons, List.flatMap_cons]
    exact List.append_subset.mpr ⟨List.Subset.trans hab.references (List.subset_append_left _ _),
      List.Subset.trans ih (List.subset_append_right _ _)⟩

theorem argumentFor_of_narrows {as bs : List Parameter} (h : List.Forall₂ Narrows as bs)
    (name : String) : argumentFor name bs = argumentFor name as := by
  unfold argumentFor
  generalize none = found
  induction h generalizing found with
  | nil => rfl
  | cons hab _ ih =>
    rw [List.foldl_cons, List.foldl_cons, ih, hab.rest]

theorem urlText_of_narrows {as bs : List Parameter} (h : List.Forall₂ Narrows as bs)
    (location : String) (parts : List PathPart) :
    urlText bs location parts = urlText as location parts := by
  induction parts with
  | nil => rfl
  | cons part rest ih =>
    cases part with
    | plain c => rw [urlText, urlText, ih]
    | placeholder name => rw [urlText, urlText, ih, argumentFor_of_narrows h]

section

variable {p q : Profile} (h : p.Widens q) {methodName location : String}
include h

theorem exists_resolveType {es : List (Value × Value)} {c : NamingContext} {d : Descriptor}
    (hd : (resolveType p es c).result = .ok d) :
    ∃ e, (resolveType q es c).result = .ok e ∧ e.references ⊆ d.references := by
  have hown := grows_wireType h (.map es) c
  rcases resolveType_cases hd with hd | ⟨f, hf, hretry, hd⟩
  · obtain ⟨e, he, href⟩ := (hd ▸ hown).exists_of_ok
    exact ⟨e, by simp only [resolveType, he], href ▸ List.Subset.refl _⟩
  · rw [hf] at hown
    generalize hr : (wireType q (.map es) c).result = r at hown
    cases hown with
    | @found _ e _ href =>
      exact ⟨e, by simp only [resolveType, hr], href ▸ List.nil_subset _⟩
    | halt _ =>
      -- still not known, so the `schema` decides again
      have hschema := grows_wireType h ((lookupText "schema" es).getD .null) (c.child "schema")
      obtain ⟨e, he, href⟩ := (hd ▸ hschema).exists_of_ok
      refine ⟨e, ?_, href ▸ List.Subset.refl _⟩
      simp only [resolveType, hr, hretry.1, hretry.2, decide_true, Bool.and_self, if_true]
      exact Logged.result_bind_eq_ok.mpr ⟨(), rfl, he⟩

theorem exists_compileNode {earlier earlier' : List Parameter}
    (hearlier : List.Forall₂ Narrows earlier earlier') {es : List (Value × Value)}
    {found : Option Parameter}
    (hfound : (compileNode p methodName location earlier es).result = .ok found) :
    ∃ found', (compileNode q methodName location earlier' es).result = .ok found' ∧
      List.Forall₂ Narrows found.toList found'.toList := by
  have hargument : ∀ key, argument q key = argument p key := by
    intro key
    rw [argument, argument, h.rest]
  have htaken : ∀ identifier, (earlier'.any fun r => r.identifier.same identifier) =
      earlier.any fun r => r.identifier.same identifier :=
    fun identifier => any_of_map_eq (identifiers_of_narrows hearlier) (·.same identifier)
  unfold compileNode at hfound ⊢
  obtain ⟨nameValue, hvalue, hfound⟩ := Logged.result_bind_eq_ok.mp hfound
  rw [Logged.result_bind_of_ok hvalue]
  cases hplace : Placement.ofValue? ((lookupText "in" es).getD (.text "query")) with
  | none =>
    simp only [hplace] at hfound ⊢
    cases hfound
    exact ⟨none, rfl, .nil⟩
  | some placement =>
    simp only [hplace, hargument, htaken, h.comment_eq] at hfound ⊢
    obtain ⟨name, hname, hfound⟩ := Logged.result_bind_eq_ok.mp hfound
    obtain ⟨type, htype, hfound⟩ := Logged.result_bind_eq_ok.mp hfound
    obtain ⟨inPlace, hinPlace, hfound⟩ := Logged.result_bind_eq_ok.mp hfound
    obtain ⟨other, hother, hrefs⟩ := exists_resolveType h htype
    rw [Logged.result_bind_of_ok hname, Logged.result_bind_of_ok hother,
      Logged.result_bind_of_ok hinPlace]
    split at hfound
    · cases hfound
    · next hnew =>
      obtain ⟨description, hdescription, hfound⟩ := Logged.result_bind_eq_ok.mp hfound
      cases hfound
      rw [if_neg hnew, Logged.result_bind_of_ok hdescription]
      exact ⟨_, rfl, .cons ⟨rfl, hrefs⟩ .nil⟩

theorem exists_compile {shared entry : Value} {earlier earlier' : List Parameter}
    (hearlier : List.Forall₂ Narrows earlier earlier') {found : Option Parameter}
    (hfound : (compile p shared methodName location earlier entry).result = .ok found) :
    ∃ found', (compile q shared methodName location earlier' entry).result = .ok found' ∧
      List.Forall₂ Narrows found.toList found'.toList := by
  unfold compile at hfound ⊢
  obtain ⟨es, hes, hfound⟩ := Logged.result_bind_eq_ok.mp hfound
  rw [Logged.result_bind_of_ok hes]
  cases href : lookupText "$ref" es with
  | none =>
    simp only [href] at hfound ⊢
    exact exists_compileNode h hearlier hfound
  | some ref =>
    simp only [href] at hfound ⊢
    obtain ⟨sharedEntries, hshared, hfound⟩ := Logged.result_bind_eq_ok.mp hfound
    obtain ⟨target, htarget, hfound⟩ := Logged.result_bind_eq_ok.mp hfound
    obtain ⟨entries, hentries, hfound⟩ := Logged.result_bind_eq_ok.mp hfound
    rw [Logged.result_bind_of_ok hshared, Logged.result_bind_of_ok htarget,
      Logged.result_bind_of_ok hentries]
    exact exists_compileNode h hearlier hfound

theorem exists_compileAll {shared : Value} {entries : List Value}
    {earlier earlier' params : List Parameter} (hearlier : List.Forall₂ Narrows earlier earlier')
    (hparams : (compileAll p shared methodName location earlier entries).result = .ok params) :
    ∃ params', (compileAll q shared methodName location earlier' entries).result = .ok params' ∧
      List.Forall₂ Narrows params params' := by
  induction entries generalizing earlier earlier' with
  | nil =>
    cases hparams
    exact ⟨earlier', rfl, hearlier⟩
  | cons entry rest ih =>
    obtain ⟨found, hfound, hparams⟩ := Logged.result_bind_eq_ok.mp hparams
    obtain ⟨found', hfound', hnarrows⟩ := exists_compile h hearlier hfound
    rw [compileAll, Logged.result_bind_of_ok hfound']
    exact ih (List.rel_append hearlier hnarrows) hparams

end

end Parameter

/-! ## Operations -/

theorem Operation.exists_compile {p q : Profile} (h : p.Widens q) {shared path operation : Value}
    {method : String} {op : Operation}
    (hop : (Operation.compile p shared path method operation).result = .ok op) :
    ∃ op', (Operation.compile q shared path method operation).result = .ok op' ∧
      op'.references ⊆ op.references := by
  have hroot : pathRoot? q = pathRoot? p := by rw [pathRoot?, pathRoot?, h.rest]
  unfold Operation.compile at hop ⊢
  simp only [hroot, h.comment_eq] at hop ⊢
  obtain ⟨pathText, hpath, hop⟩ := Logged.result_bind_eq_ok.mp hop
  obtain ⟨root, hroot, hop⟩ := Logged.result_bind_eq_ok.mp hop
  obtain ⟨schema, hschema, hop⟩ := Logged.result_bind_eq_ok.mp hop
  rw [Logged.result_bind_of_ok hpath, Logged.result_bind_of_ok hroot,
    Logged.result_bind_of_ok hschema]
  split at hop
  · cases hop
  · next hpresent =>
    obtain ⟨response, hresponse, hop⟩ := Logged.result_bind_eq_ok.mp hop
    obtain ⟨part, hpart, hop⟩ := Logged.result_bind_eq_ok.mp hop
    obtain ⟨entries, hentries, hop⟩ := Logged.result_bind_eq_ok.mp hop
    obtain ⟨params, hparams, hop⟩ := Logged.result_bind_eq_ok.mp hop
    obtain ⟨url, hurl, hop⟩ := Logged.result_bind_eq_ok.mp hop
    obtain ⟨text, htext, hop⟩ := Logged.result_bind_eq_ok.mp hop
    obtain ⟨summary, hsummary, hop⟩ := Logged.result_bind_eq_ok.mp hop
    cases hop
    obtain ⟨response', hresponse', hrefs⟩ := (hresponse ▸ grows_wireType h _ _).exists_of_ok
    obtain ⟨params', hparams', hnarrows⟩ := Parameter.exists_compileAll h .nil hparams
    rw [if_neg hpresent, Logged.result_bind_of_ok hresponse', Logged.result_bind_of_ok hpart,
      Logged.result_bind_of_ok hentries, Logged.result_bind_of_ok hparams',
      Parameter.urlText_of_narrows hnarrows, Logged.result_bind_of_ok hurl,
      Logged.result_bind_of_ok htext, Logged.result_bind_of_ok hsummary]
    refine ⟨_, rfl, ?_⟩
    have hparameters := Parameter.references_of_narrows hnarrows
    simp only [references, types, List.flatMap_cons, List.flatMap_map, hrefs]
    exact List.append_subset.mpr ⟨List.subset_append_left _ _,
      List.Subset.trans hparameters (List.subset_append_right _ _)⟩

/-! ## Models -/

/-- A field that differs in its type, and refers to the same. -/
structure Field.Matches (f g : Field) : Prop where
  rest : g = { f with type := g.type }
  references : g.type.references = f.type.references

namespace Model

theorem names_of_matches {fs gs : List Field} (h : List.Forall₂ Field.Matches fs gs) :
    gs.map (·.name) = fs.map (·.name) := by
  induction h with
  | nil => rfl
  | cons hfg _ ih => rw [List.map_cons, List.map_cons, ih, hfg.rest]

theorem references_of_matches {fs gs : List Field} (h : List.Forall₂ Field.Matches fs gs) :
    (gs.flatMap fun g => g.type.references) = fs.flatMap fun f => f.type.references := by
  induction h with
  | nil => rfl
  | cons hfg _ ih => rw [List.flatMap_cons, List.flatMap_cons, ih, hfg.references]

section

variable {p q : Profile} (h : p.Widens q) {owner : Value} {required : List Value}
include h

theorem exists_compileField {earlier earlier' : List Field}
    (hearlier : List.Forall₂ Field.Matches earlier earlier') {property schema : Value} {f : Field}
    (hf : (compileField p owner required earlier property schema).result = .ok f) :
    ∃ g, (compileField q owner required earlier' property schema).result = .ok g ∧ f.Matches g := by
  have haliases : q.nameAliases = p.nameAliases := by rw [h.rest]
  have htaken : ∀ name, (earlier'.any fun g => g.name.same name) =
      earlier.any fun f => f.name.same name :=
    fun name => any_of_map_eq (names_of_matches hearlier) (·.same name)
  unfold compileField at hf ⊢
  simp only [haliases, htaken, h.comment_eq] at hf ⊢
  obtain ⟨type, htype, hf⟩ := Logged.result_bind_eq_ok.mp hf
  obtain ⟨key, hkey, hf⟩ := Logged.result_bind_eq_ok.mp hf
  obtain ⟨type', htype', hrefs⟩ := (htype ▸ grows_resolve h _ _).exists_of_ok
  rw [Logged.result_bind_of_ok htype', Logged.result_bind_of_ok hkey]
  split at hf
  · cases hf
  · next hnew =>
    obtain ⟨text, htext, hf⟩ := Logged.result_bind_eq_ok.mp hf
    obtain ⟨description, hdescription, hf⟩ := Logged.result_bind_eq_ok.mp hf
    cases hf
    rw [if_neg hnew, Logged.result_bind_of_ok htext, Logged.result_bind_of_ok hdescription]
    exact ⟨_, rfl, rfl, hrefs⟩

theorem exists_compileFields {properties : List (Value × Value)}
    {earlier earlier' fields : List Field} (hearlier : List.Forall₂ Field.Matches earlier earlier')
    (hfields : (compileFields p owner required earlier properties).result = .ok fields) :
    ∃ fields', (compileFields q owner required earlier' properties).result = .ok fields' ∧
      List.Forall₂ Field.Matches fields fields' := by
  induction properties generalizing earlier earlier' with
  | nil =>
    cases hfields
    exact ⟨earlier', rfl, hearlier⟩
  | cons e rest ih =>
    obtain ⟨property, schema⟩ := e
    obtain ⟨f, hf, hfields⟩ := Logged.result_bind_eq_ok.mp hfields
    obtain ⟨g, hg, hmatches⟩ := exists_compileField h hearlier hf
    rw [compileFields, Logged.result_bind_of_ok hg]
    exact ih (List.rel_append hearlier (.cons hmatches .nil)) hfields

/-- The model of a definition is there too, and refers to the same definitions. -/
theorem exists_compile {name schema : Value} {m : Model}
    (hm : (compile p name schema).result = .ok m) :
    ∃ m', (compile q name schema).result = .ok m' ∧ m'.references = m.references := by
  unfold compile at hm ⊢
  simp only [h.comment_eq] at hm ⊢
  obtain ⟨named, hnamed, hm⟩ := Logged.result_bind_eq_ok.mp hm
  obtain ⟨required, hrequired, hm⟩ := Logged.result_bind_eq_ok.mp hm
  rw [Logged.result_bind_of_ok hnamed, Logged.result_bind_of_ok hrequired]
  split at hm
  · cases hm
  · next hkeys =>
    obtain ⟨part, hpart, hm⟩ := Logged.result_bind_eq_ok.mp hm
    obtain ⟨properties, hproperties, hm⟩ := Logged.result_bind_eq_ok.mp hm
    obtain ⟨fields, hfields, hm⟩ := Logged.result_bind_eq_ok.mp hm
    obtain ⟨text, htext, hm⟩ := Logged.result_bind_eq_ok.mp hm
    obtain ⟨description, hdescription, hm⟩ := Logged.result_bind_eq_ok.mp hm
    cases hm
    obtain ⟨fields', hfields', hmatches⟩ := exists_compileFields h .nil hfields
    rw [if_neg hkeys, Logged.result_bind_of_ok hpart, Logged.result_bind_of_ok hproperties,
      Logged.result_bind_of_ok hfields', Logged.result_bind_of_ok htext,
      Logged.result_bind_of_ok hdescription]
    refine ⟨_, rfl, ?_⟩
    rw [references, references, references_of_matches hmatches]

end

end Model

end ApiSmith

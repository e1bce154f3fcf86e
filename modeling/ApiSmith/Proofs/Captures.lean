import ApiSmith.Proofs.Bindings
import ApiSmith.Proofs.FieldNames

/-!
# Arguments and the names of a body

The body of a method evaluates names of its own beside its arguments: those that every body has, and
those in the annotation of its result, which it passes on as the type to decode. Arguments are kept
from the first by a fixed list of reserved names. The others depend on the response, and of them the
list has only `datetime`. `argument_captures_iff` says which arguments stand for a name of the body:
one called `list` where the response is a list, and one called like the type or the class that the
response is made of.
-/

namespace ApiSmith

open Naming Annotation

/-! ## Names that a body evaluates -/

/-- The name that is evaluated for a dotted name: what stands before its first point. -/
def Annotation.rootOf (name : String) : String := String.ofList (name.toList.takeWhile (· != '.'))

/-- The names that are evaluated for the annotation of a result: that of lists, if it is one, and
the one under its lists. -/
def Annotation.evaluated (t : String) : List String :=
  if "list[".toList.isPrefixOf t.toList then ["list", rootOf (named t)] else [rootOf (named t)]

/-- The names that every body of a method evaluates, whatever its result is. -/
def MethodPart.commonNames (m : MethodPart) : List String :=
  (if m.query.isEmpty then [] else ["query", "with_query"]) ++
    (if m.query.any (·.isDate) then ["format_date"] else []) ++ ["self", "url", "mock"]

def MethodPart.ownNames (m : MethodPart) : List String :=
  m.commonNames ++ Annotation.evaluated m.result

/-- A name is evaluated for a type, and arguments are not kept from it. -/
inductive Descriptor.LeavesFree (p : Profile) (d : Descriptor) : String → Prop
  | list (nested : 0 < d.depth) : d.LeavesFree p "list"
  | kind {k : PrimitiveKind} (leaf : d.leaf = .primitive k) (other : k ≠ .date) :
    d.LeavesFree p k.typeText
  | model {ref c : String} (leaf : d.leaf = .reference ref)
    (named : p.modelClass? (.text ref) = some c) : d.LeavesFree p (rootOf c)

/-! ## Names of types -/

section

variable {p : Profile}

theorem not_isPrefixOf_of_head {s : String} {a : Char} (h : s.toList.head? = some a)
    (hne : a ≠ 'l') : "list[".toList.isPrefixOf s.toList = false := by
  obtain ⟨rest, hrest⟩ := List.head?_eq_some_iff.mp h
  rw [hrest]
  simp [List.isPrefixOf, hne.symm]

theorem isPrefixOf_typeText (preset : p ∈ Profile.presets) {d : Descriptor} {t : String}
    (h : d.typeText? p = some t) : "list[".toList.isPrefixOf t.toList = true ↔ 0 < d.depth := by
  have hclass {c : String} (hc : ∃ a ∈ classLetters, c.toList.head? = some a) :
      "list[".toList.isPrefixOf c.toList = false := by
    obtain ⟨a, ha, hhead⟩ := hc
    refine not_isPrefixOf_of_head hhead ?_
    rintro rfl
    revert ha
    decide
  cases d with
  | primitive k =>
    cases h
    cases k <;> decide
  | reference ref =>
    rw [hclass (head_of_modelClass preset h)]
    exact iff_of_false Bool.false_ne_true (Nat.lt_irrefl 0)
  | enum spec =>
    rw [hclass (head_of_enumClass preset h)]
    exact iff_of_false Bool.false_ne_true (Nat.lt_irrefl 0)
  | array d =>
    obtain ⟨inner, -, rfl⟩ := Option.map_eq_some_iff.mp h
    rw [String.toList_append, String.toList_append, List.append_assoc,
      List.isPrefixOf_iff_prefix]
    exact iff_of_true (List.prefix_append _ _) (Nat.succ_pos _)

theorem mem_evaluated_iff (preset : p ∈ Profile.presets) {d : Descriptor} {t : String}
    (h : d.typeText? p = some t) (n : String) :
    n ∈ Annotation.evaluated t ↔ (0 < d.depth ∧ n = "list") ∨ n = rootOf (named t) := by
  have hlist := isPrefixOf_typeText preset h
  unfold Annotation.evaluated
  split
  · next hp => simp [hlist.mp hp]
  · next hp => simp [mt hlist.mpr hp]

theorem rootOf_kind (k : PrimitiveKind) :
    rootOf k.typeText = if k = .date then "datetime" else k.typeText := by
  cases k <;> decide

/-- An argument's name is among those evaluated for a type exactly if the type leaves it free. -/
theorem mem_evaluated_iff_leavesFree (preset : p ∈ Profile.presets) {d : Descriptor}
    (plain : d.enums = []) {t : String} (h : d.typeText? p = some t) {n : String}
    (free : n ∉ Parameter.reservedArguments) :
    n ∈ Annotation.evaluated t ↔ d.LeavesFree p n := by
  have hleaf := named_typeText preset h
  have hdate : n ≠ "datetime" := by
    rintro rfl
    exact free (by decide)
  rw [mem_evaluated_iff preset h]
  constructor
  · rintro (⟨hnested, rfl⟩ | hn)
    · exact .list hnested
    · cases hd : d.leaf with
      | primitive k =>
        rw [hd] at hleaf
        rw [← Option.some.inj hleaf, rootOf_kind] at hn
        split at hn
        · exact absurd hn hdate
        · next hk =>
          subst hn
          exact .kind hd hk
      | reference ref =>
        rw [hd] at hleaf
        subst hn
        exact .model hd hleaf
      | enum spec =>
        rw [← enums_leaf, hd] at plain
        cases plain
      | array e => exact absurd hd (leaf_ne_array d e)
  · intro hfree
    cases hfree with
    | list hnested => exact .inl ⟨hnested, rfl⟩
    | @kind k hd hk =>
      rw [hd] at hleaf
      rw [← Option.some.inj hleaf, rootOf_kind, if_neg hk]
      exact .inr rfl
    | model hd hc =>
      rw [hd] at hleaf
      rw [Option.some.inj (hc.symm.trans hleaf)]
      exact .inr rfl

end

/-! ## Names of arguments -/

theorem nameOf_not_mem (key : String) : nameOf Parameter.reservedArguments key ∉
    Parameter.reservedArguments := by
  have hguarded : ∀ name ∈ guardedNames Parameter.reservedArguments,
      guarded name ∉ Parameter.reservedArguments := by
    decide +kernel
  unfold nameOf
  split
  · next hguard => exact hguarded _ hguard
  · next hguard =>
    exact fun hmem => hguard (List.mem_append_right _ (List.mem_cons_of_mem _ hmem))

theorem MethodPart.commonNames_subset (m : MethodPart) :
    m.commonNames ⊆ Parameter.reservedArguments := by
  intro n hn
  simp only [MethodPart.commonNames, List.mem_append] at hn
  rcases hn with (hn | hn) | hn
  · split at hn
    · cases hn
    · revert n
      decide
  · split at hn
    · revert n
      decide
    · cases hn
  · revert n
    decide

theorem MethodPart.Prints.identifiers {p : Profile} {op : Operation} {m : MethodPart}
    (h : MethodPart.Prints p op m) :
    m.params.map (·.identifier) = op.parameters.map (·.identifier) := by
  refine map_eq_of_mapM h.params fun q line hline => ?_
  simp only [ParameterLine.of?, Option.pure_def, Option.bind_eq_bind, Option.bind_eq_some_iff,
    Option.some.injEq] at hline
  obtain ⟨_, -, _, -, rfl⟩ := hline
  rfl

/-- The arguments of an operation. None is named like anything that every body evaluates, nor
`datetime`. One is named like something that is evaluated for the result exactly if the type of the
response leaves its name free. -/
theorem argument_captures_iff {p : Profile} (preset : p ∈ Profile.presets)
    {shared path operation : Value} {method : String} {op : Operation}
    (h : (Operation.compile p shared path method operation).result = .ok op) :
    (∀ q ∈ op.parameters, ∃ n, q.identifier = .text n ∧
      n = nameOf Parameter.reservedArguments q.key ∧ n ∉ Parameter.reservedArguments ∧
      ∀ part, MethodPart.of? p op = some part →
        (n ∈ part.ownNames ↔ op.response.LeavesFree p n)) ∧
    ∀ part, MethodPart.of? p op = some part →
      part.params.map (·.identifier) = op.parameters.map (·.identifier) ∧
      part.commonNames ⊆ Parameter.reservedArguments := by
  refine ⟨fun q hq => ?_, fun part hpart =>
    ⟨(MethodPart.prints_of? hpart).identifiers, part.commonNames_subset⟩⟩
  have hnames := (Operation.areNamed_of_compile preset h).arguments.names
  have hname := hnames (q.key, q.identifier) (List.mem_map.mpr ⟨q, hq, rfl⟩)
  have hfree := nameOf_not_mem q.key
  refine ⟨_, hname, rfl, hfree, fun part hpart => ?_⟩
  have hresult := (MethodPart.prints_of? hpart).result
  have hplain := (Operation.compiled_of_compile h).response
  rw [MethodPart.ownNames, List.mem_append,
    or_iff_right fun hmem => hfree (part.commonNames_subset hmem)]
  exact mem_evaluated_iff_leavesFree preset hplain hresult hfree

/-- An operation with an argument `list` whose response is a list of integers. -/
def listing : Value :=
  .map [
    (.text "parameters", .list [
      .map [(.text "name", .text "list"), (.text "type", .text "boolean")]]),
    (.text "responses", .map [(.text "200", .map [(.text "schema", .map [
      (.text "type", .text "array"), (.text "items", .map [(.text "type", .text "integer")])])])])]

/-- The argument `list` takes the place of the type in the annotation of the result. -/
theorem argument_captures_iff_of_list :
    Profile.common ∈ Profile.presets ∧
    ∃ op, (Operation.compile .common .null (.text "/user/get") "get" listing).result = .ok op ∧
      ∃ part, MethodPart.of? .common op = some part ∧ part.result = "list[int]" ∧
        ∃ q ∈ op.parameters, q.identifier = .text "list" ∧ "list" ∈ part.ownNames := by
  have preset : Profile.common ∈ Profile.presets := List.mem_cons_self
  have hmade : (Operation.compile .common .null (.text "/user/get") "get"
      listing).result.toOption.bind (fun op => (MethodPart.of? .common op).map fun part =>
        (part.result, op.response, op.parameters.map (·.identifier.text?))) =
          some ("list[int]", .array (.primitive .int), [some "list"]) := by
    decide +kernel
  obtain ⟨op, hop, hmade⟩ := Option.bind_eq_some_iff.mp hmade
  rw [toOption_eq_some] at hop
  obtain ⟨part, hpart, hmade⟩ := Option.map_eq_some_iff.mp hmade
  obtain ⟨hresult, hresponse, hidentifiers⟩ := by simpa only [Prod.mk.injEq] using hmade
  have hmem : some "list" ∈ op.parameters.map (·.identifier.text?) := by
    rw [hidentifiers]
    exact List.mem_cons_self
  obtain ⟨q, hq, htext⟩ := List.mem_map.mp hmem
  rw [Value.text?_eq_some] at htext
  obtain ⟨n, hn, -, -, hcaptures⟩ := (argument_captures_iff preset hop).1 q hq
  have hlist : n = "list" := by
    rw [htext] at hn
    cases hn
    rfl
  have hfree : op.response.LeavesFree .common "list" := by
    rw [hresponse]
    exact .list (by decide)
  subst hlist
  exact ⟨preset, op, hop, part, hpart, hresult, q, hq, htext, (hcaptures part hpart).mpr hfree⟩

end ApiSmith

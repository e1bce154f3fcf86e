import ApiSmith.Proofs.Compiling

/-!
# What operations come from

An operation that compiles says of itself where it stood in the document (`Operation.Compiled`). Its
types are those of the wire, so no enum is among them, and the default of each of its parameters is
the zero of its type.
-/

namespace ApiSmith

/-! ## Parameters -/

theorem enums_of_wireType {p : Profile} {node : Value} {c : NamingContext} {d : Descriptor}
    (h : (wireType p node c).result = .ok d) : d.enums = [] := by
  unfold wireType at h
  obtain ⟨es, -, h⟩ := Logged.result_bind_eq_ok.mp h
  obtain ⟨inPlace, -, h⟩ := Logged.result_bind_eq_ok.mp h
  cases inPlace with
  | some e =>
    cases h
    unfold InlineEnum.type
    split <;> rfl
  | none =>
    obtain ⟨own, -, h⟩ := Logged.result_bind_eq_ok.mp h
    cases h
    exact Descriptor.enums_withoutEnums own

namespace Parameter

theorem enums_of_resolveType {p : Profile} {es : List (Value × Value)} {c : NamingContext}
    {d : Descriptor} (h : (resolveType p es c).result = .ok d) : d.enums = [] := by
  unfold resolveType at h
  simp only at h
  split at h
  · split at h
    · obtain ⟨_, -, h⟩ := Logged.result_bind_eq_ok.mp h
      exact enums_of_wireType h
    · exact enums_of_wireType h
  · exact enums_of_wireType h

/-- A parameter as it goes over the wire. -/
structure OnWire (p : Profile) (q : Parameter) : Prop where
  plain : q.type.enums = []
  zero : q.zero = zeroFor p q.placement q.type

section

variable {p : Profile} {methodName location : String} {earlier : List Parameter}

theorem onWire_of_compileNode {es : List (Value × Value)} {found : Option Parameter}
    (h : (compileNode p methodName location earlier es).result = .ok found) :
    ∀ q ∈ found, OnWire p q := by
  unfold compileNode at h
  obtain ⟨nameValue, -, h⟩ := Logged.result_bind_eq_ok.mp h
  simp only at h
  split at h
  · obtain ⟨_, -, h⟩ := Logged.result_bind_eq_ok.mp h
    cases h
    simp
  · obtain ⟨name, -, h⟩ := Logged.result_bind_eq_ok.mp h
    obtain ⟨type, htype, h⟩ := Logged.result_bind_eq_ok.mp h
    obtain ⟨inPlace, -, h⟩ := Logged.result_bind_eq_ok.mp h
    split at h
    · cases h
    · obtain ⟨description, -, h⟩ := Logged.result_bind_eq_ok.mp h
      cases h
      rintro q ⟨⟩
      exact ⟨enums_of_resolveType htype, rfl⟩

theorem onWire_of_compile {shared entry : Value} {found : Option Parameter}
    (h : (compile p shared methodName location earlier entry).result = .ok found) :
    ∀ q ∈ found, OnWire p q := by
  unfold compile at h
  obtain ⟨es, -, h⟩ := Logged.result_bind_eq_ok.mp h
  split at h
  · exact onWire_of_compileNode h
  · obtain ⟨shared, -, h⟩ := Logged.result_bind_eq_ok.mp h
    obtain ⟨target, -, h⟩ := Logged.result_bind_eq_ok.mp h
    obtain ⟨es, -, h⟩ := Logged.result_bind_eq_ok.mp h
    exact onWire_of_compileNode h

theorem onWire_of_compileAll {shared : Value} {entries : List Value} {params : List Parameter}
    (hearlier : ∀ q ∈ earlier, OnWire p q)
    (h : (compileAll p shared methodName location earlier entries).result = .ok params) :
    ∀ q ∈ params, OnWire p q := by
  induction entries generalizing earlier with
  | nil =>
    cases h
    exact hearlier
  | cons entry rest ih =>
    obtain ⟨found, hfound, h⟩ := Logged.result_bind_eq_ok.mp h
    refine ih (List.forall_mem_append.mpr ⟨hearlier, fun q hq => ?_⟩) h
    exact onWire_of_compile hfound q (Option.mem_toList.mp hq)

end

end Parameter

/-! ## Operations -/

def Profile.groupOf (p : Profile) (path : Value) : String :=
  String.ofList (Naming.groupKey ((Operation.pathRoot? p).getD []) (path.text?.getD "").toList)

/-- What an operation has of its path and its HTTP method. -/
structure Operation.Compiled (p : Profile) (path : Value) (method : String) (op : Operation) :
    Prop where
  template : path = .text op.path
  verb : op.verb = Text.lowerString method
  groupKey : op.groupKey = p.groupOf path
  response : op.response.enums = []
  parameters : ∀ q ∈ op.parameters, Parameter.OnWire p q

theorem Operation.compiled_of_compile {p : Profile} {shared path operation : Value}
    {method : String} {op : Operation}
    (h : (Operation.compile p shared path method operation).result = .ok op) :
    Operation.Compiled p path method op := by
  have hsteps := Operation.steps_of_compile h
  obtain ⟨schema, -, -, hresponse⟩ := hsteps.response
  obtain ⟨_, _, -, -, hparams⟩ := hsteps.parameters
  refine ⟨hsteps.template, hsteps.verb, ?_, enums_of_wireType hresponse,
    Parameter.onWire_of_compileAll (by simp) hparams⟩
  obtain ⟨root, hroot, -, hkey⟩ := hsteps.named
  rw [hkey, Profile.groupOf, hroot, hsteps.template]
  rfl

end ApiSmith

import ApiSmith.Operation

/-!
# Groups of operations

Operations are grouped by their key, groups in the order of their first operations and operations in
their own order. Where a method name occurs again in a group it gets a number, the smallest from two
on that makes a name not taken in the group.
-/

namespace ApiSmith

structure Group where
  key : String
  operations : List Operation

namespace Group

def keys (ops : List Operation) : List String := firstOccurrences [] (ops.map (·.groupKey))

/-- A name with the first number from `n` on that makes it new, among so many numbers; after those
the next one. -/
def numbered (taken : List String) (name : String) : Nat → Nat → String
  | 0, n => name ++ Number.intString n
  | k + 1, n =>
    let candidate := name ++ Number.intString n
    if taken.contains candidate then numbered taken name k (n + 1) else candidate

def freshName (taken : List String) (name : String) : String :=
  numbered taken name taken.length 2

/-- The operations with names that occurred before made new. `taken` holds all names of the group,
`seen` those met so far. -/
def distinguish (taken seen : List String) : List Operation → List Operation
  | [] => []
  | op :: rest =>
    if seen.contains op.methodName then
      let fresh := freshName taken op.methodName
      { op with methodName := fresh } :: distinguish (fresh :: taken) seen rest
    else op :: distinguish taken (op.methodName :: seen) rest

def ofKey (ops : List Operation) (key : String) : Group :=
  let own := ops.filter fun op => op.groupKey = key
  ⟨key, distinguish (own.map (·.methodName)) [] own⟩

def ofOperations (ops : List Operation) : List Group := (keys ops).map (ofKey ops)

def className? (p : Profile) (g : Group) : Option String :=
  p.groupEnd.text?.map fun ending => Naming.groupClass g.key ending

def types (g : Group) : List Descriptor := g.operations.flatMap Operation.types

def references (g : Group) : List String :=
  firstOccurrences [] (g.types.flatMap Descriptor.references)

end Group

end ApiSmith

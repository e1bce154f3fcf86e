import ApiSmith.Schema.Definition

/-!
# Models whose references are there

A model is kept only if every definition it refers to is kept. The table is gone through from the
start again and again, models with a missing reference being taken out at once, until a pass takes
out none. What is taken out comes with the reference that was missing then.
-/

namespace ApiSmith.Model

def isNamedIn (names : List Value) (ref : String) : Bool := names.any fun n => n.isText ref

def missingIn (names : List Value) (refs : List String) : Option String :=
  refs.find? fun r => !isNamedIn names r

/-- What a pass over models leaves and takes out. `names` holds the names of the models still
there. -/
def sweep (names : List Value) : List Model → List Model × List (Model × String)
  | [] => ([], [])
  | m :: rest =>
    match missingIn names m.references with
    | none =>
      let r := sweep names rest
      (m :: r.1, r.2)
    | some ref =>
      let r := sweep (names.filter fun n => !n.same m.name) rest
      (r.1, (m, ref) :: r.2)

theorem length_sweep (names : List Value) (ms : List Model) :
    (sweep names ms).1.length + (sweep names ms).2.length = ms.length := by
  induction ms generalizing names with
  | nil => rfl
  | cons m rest ih =>
    unfold sweep
    split
    · have := ih names
      simp only [List.length_cons]
      omega
    · have := ih (names.filter fun n => !n.same m.name)
      simp only [List.length_cons]
      omega

def pass (ms : List Model) : List Model × List (Model × String) := sweep (ms.map (·.name)) ms

theorem length_pass_lt {ms : List Model} (h : ¬(pass ms).2.isEmpty) :
    (pass ms).1.length < ms.length := by
  have hl := length_sweep (ms.map (·.name)) ms
  have : 0 < (pass ms).2.length := List.length_pos_iff.2 fun h' => h (by simp [h'])
  unfold pass at *
  omega

/-- The models whose references are all there, and those taken out with what they missed. -/
def settle (ms : List Model) : List Model × List (Model × String) :=
  if (pass ms).2.isEmpty then pass ms
  else
    let rest := settle (pass ms).1
    (rest.1, (pass ms).2 ++ rest.2)
termination_by ms.length
decreasing_by all_goals exact length_pass_lt ‹_›

end ApiSmith.Model

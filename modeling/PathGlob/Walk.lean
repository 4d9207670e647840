/-!
# Walking a path one component at a time

A walk takes the components of a path through a list of `Stage`s. It keeps a row of truth values:
entry `p` says that the stages so far can use up exactly the first `p` components.

* `Walk.rowAfter` is the row after all stages, and `Walk.arrives` reads the verdict off it;
* `Walk.Covers` says what the verdict means: the components can be cut into one block per stage;
* `Walk.questions` lists the components that each stage is asked about.
-/

namespace PathGlob

/-- One stage of a walk. -/
inductive Stage where
  /-- Takes any number of components. -/
  | any
  /-- Takes one component with a given property. -/
  | one (accepts : List Char → Bool)
  /-- Takes nothing whatever. -/
  | never

namespace Walk

/-- The row before the first stage. -/
def start (components : List (List Char)) : List Bool := true :: components.map fun _ => false

/-- Each entry or one before it, or `seen`. -/
def absorb : Bool → List Bool → List Bool
  | _, [] => []
  | seen, b :: bs => (seen || b) :: absorb (seen || b) bs

/-- The row after one component has been taken. -/
def advance (accepts : List Char → Bool) (row : List Bool) (components : List (List Char)) :
    List Bool :=
  false :: List.zipWith (fun b c => b && accepts c) row components

/-- The row after a stage. The last stage may go without a component if it accepts the empty
one. -/
def next (components : List (List Char)) (last : Bool) (row : List Bool) : Stage → List Bool
  | .any => absorb false row
  | .one accepts =>
    let moved := advance accepts row components
    if last && row.getLastD false && accepts [] then moved.dropLast ++ [true] else moved
  | .never => row.map fun _ => false

/-- The row after all stages. -/
def rowAfter (components : List (List Char)) (row : List Bool) : List Stage → List Bool
  | [] => row
  | s :: ss => rowAfter components (next components ss.isEmpty row s) ss

/-- The stages can use up all components. -/
def arrives (stages : List Stage) (components : List (List Char)) : Bool :=
  (rowAfter components (start components) stages).getLastD false

/-! ### Meaning -/

/-- The components can be cut into one block per stage. -/
def Covers : List Stage → List (List Char) → Prop
  | [], cs => cs = []
  | [.one accepts], cs => (∃ c, cs = [c] ∧ accepts c = true) ∨ cs = [] ∧ accepts [] = true
  | .any :: ss, cs => ∃ block rest, cs = block ++ rest ∧ Covers ss rest
  | .one accepts :: ss, cs => ∃ c rest, cs = c :: rest ∧ accepts c = true ∧ Covers ss rest
  | .never :: _, _ => False

/-! ### Questions -/

/-- The components that a stage is asked about, in order. -/
def asked (components : List (List Char)) (last : Bool) (row : List Bool) :
    Stage → List (List Char)
  | .one _ =>
    ((row.zip components).filter (·.1)).map (·.2) ++
      if last && row.getLastD false then [[]] else []
  | .any => []
  | .never => []

/-- The components that each stage is asked about. -/
def questions (components : List (List Char)) (row : List Bool) :
    List Stage → List (List (List Char))
  | [] => []
  | s :: ss =>
    asked components ss.isEmpty row s ::
      questions components (next components ss.isEmpty row s) ss

end Walk

end PathGlob

import CodeSample.Layout.Sink
import CodeSample.Render.Backend

/-!
# Finished output

* `Fragment.output` lays a fragment out, unless something in it cannot be written;
* `Rendering` is the text of a sample with the diagnostics reported on the way, and
  `Backend.render` makes it;
* `Rendering.log` is what is told of a rendering while it goes on.
-/

namespace CodeSample

namespace Layout

/-- What is at fault when something cannot be done to a sink. -/
def Sink.Obstacle.fault : Sink.Obstacle → Fault
  | alien => .noProperty
  | indent => .wrongSort
  | noChange => .outOfRange

/-- The text of a fragment, if all of it can be written. -/
def Fragment.output (f : Fragment) : Except Fault String :=
  match Sink.write? {} true f with
  | .ok s => .ok s.text
  | .error obstacle => .error obstacle.fault

/-- A plain fragment has an output: what it renders. -/
theorem Fragment.output_of_isPlain {f : Fragment} (h : f.isPlain = true) :
    f.output = .ok f.render := by
  rw [output, Sink.write?_of_isPlain _ h, render]

end Layout

/-- The text of a sample, and the diagnostics reported while it was rendered. -/
structure Rendering where
  text : String
  diagnostics : List Diagnostic

namespace Rendering

/-- Whether nothing was reported. -/
def isOk (r : Rendering) : Bool := r.diagnostics.isEmpty

end Rendering

/-- Renders a sample from the context that the backend starts in. -/
def Backend.render {C : Type} (backend : Backend C) (checker : Checker) (root : Value) :
    Except Fault Rendering := do
  let run := backend.convert checker backend.initial root
  return ⟨← (← run.outcome).output, run.reports⟩

/-! ### What is told of a rendering -/

/-- What tells of a rendering. -/
inductive Teller where
  /-- The renderer, of each diagnostic. -/
  | renderer
  /-- The rendering as a whole, when it is finished. -/
  | rendering
deriving DecidableEq, Repr

/-- Something told of a rendering. -/
structure Notice where
  teller : Teller
  message : String
deriving DecidableEq, Repr

namespace Notice

/-- What is told of a diagnostic. -/
def ofDiagnostic (d : Diagnostic) : Notice :=
  ⟨.renderer, "diagnostic on " ++ d.kind.name ++ ": " ++ d.shown⟩

/-- What is told of a finished rendering. -/
def summary (root : Kind) (target : String) (reported : Nat) : Notice :=
  ⟨.rendering, "translated " ++ root.name ++ " to " ++ target ++ ": " ++ toString reported ++
    " diagnostic(s)"⟩

end Notice

/-- Everything that is told of a rendering: each diagnostic as it was reported, and a summary. -/
def Rendering.log (r : Rendering) (root : Kind) (target : String) : List Notice :=
  r.diagnostics.map Notice.ofDiagnostic ++ [.summary root target r.diagnostics.length]

end CodeSample

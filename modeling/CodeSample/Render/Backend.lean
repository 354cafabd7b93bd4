import CodeSample.Layout.Fragment
import CodeSample.Render.Checker
import CodeSample.Render.Run

/-!
# Backends

A backend renders each kind of node by a rule. A rule sees a view: the context it is rendered in,
the checker, and how other values are rendered. It may render parts of its node in contexts of its
own.

* `View` and `Rule` are what a rule sees and what it is, `Backend` is the table of rules;
* `Backend.visit` renders a node by the rule for its kind;
* `Backend.convertWithin` renders a value, with the depth of nodes bounded, and `Backend.convert`
  with as much depth as the value has.
-/

namespace CodeSample

open Layout (Fragment)

/-- A value as a fragment of output. Only texts can be written, and null is left out. -/
def Value.toFragment : Value → Fragment
  | .null => .nothing
  | .text s => .text s
  | _ => .alien

/-- What a rule sees. -/
structure View (C : Type) where
  context : C
  checker : Checker
  /-- Renders a value in a context. -/
  convertIn : C → Value → Run Fragment

namespace View

variable {C : Type}

/-- Renders a value in the current context. -/
def convert (view : View C) (v : Value) : Run Fragment := view.convertIn view.context v

/-- Renders everything that a value enumerates. -/
def convertAll (view : View C) (v : Value) : Run (List Fragment) := do
  (← v.items).mapM view.convert

/-- The same view with another context. -/
def withContext (view : View C) (context : C) : View C := { view with context }

end View

/-- How nodes of a kind are rendered. -/
abbrev Rule (C : Type) := View C → Node → Run Fragment

/-- A table of rules, with the context that rendering starts in. -/
structure Backend (C : Type) where
  name : String
  initial : C
  rule? : Kind → Option (Rule C)

namespace Backend

variable {C : Type}

/-- Renders a node by the rule for its kind. -/
def visit (backend : Backend C) (view : View C) (n : Node) : Run Fragment :=
  match backend.rule? n.kind with
  | some rule => rule view n
  | none => .fail (.unsupported backend.name n.kind n.pos)

/-- The same backend without the rules for some kinds. -/
def without (backend : Backend C) (dropped : List Kind) : Backend C :=
  { backend with rule? := fun k => if k ∈ dropped then none else backend.rule? k }

/-- Renders a value in which nodes stand at most so deep in one another. Null is rendered as
nothing, and any other value that is no node is a fault. -/
def convertWithin (backend : Backend C) (checker : Checker) : Nat → C → Value → Run Fragment
  | _, _, .null => pure .empty
  | depth + 1, context, .node kind pos source type? fields =>
    backend.visit ⟨context, checker, convertWithin backend checker depth⟩
      ⟨kind, pos, source, type?, fields⟩
  | _, _, _ => .fail .noProperty

/-- Renders a value in a context. -/
def convert (backend : Backend C) (checker : Checker) (context : C) (v : Value) : Run Fragment :=
  backend.convertWithin checker v.depth context v

/-- The view of a backend on a context. -/
def view (backend : Backend C) (checker : Checker) (context : C) : View C :=
  ⟨context, checker, backend.convert checker⟩

end Backend

end CodeSample

import CodeSample.Render.Output
import CodeSample.Render.Visitor
import CodeSample.Syntax.Codec
import CodeSample.Target.Neutral

/-!
# Sessions

A session renders trees one by one in contexts that are derived from one another. Its views share
the visitor, the checker and the diagnostics, and each has its own context.

* `Session.start` is a session with one view, `Session.step` takes a step;
* a step that fails adds no view, and keeps the diagnostics that were reported before the fault.
-/

namespace CodeSample

/-- A visitor with a checker, the contexts of the views, what the visitor has kept, and the
diagnostics so far. -/
structure Session (C : Type) where
  visitor : Visitor C
  checker : Checker
  views : List C
  kept : Data
  reports : List Diagnostic

/-- What is asked of a view. -/
inductive Request where
  /-- To render a value. -/
  | convert (v : Value)
  /-- To derive a view. -/
  | update (settings : List (String × Data))
  /-- To tell its context. -/
  | context
  /-- To report a problem with a value. -/
  | report (v : Value) (message : Data)
  /-- To tell the diagnostics so far. -/
  | diagnostics
  /-- The source text of a value. -/
  | sourceText (v : Value)
  /-- The type of an annotation. -/
  | typeOfAscription (v : Value)
  /-- The type of an expression. -/
  | typeOfExpression (v : Value)
  /-- Whether a value is a call that prints. -/
  | isPrintCall (v : Value)

/-- What a view answers. -/
inductive Answer where
  /-- A text, whether nothing was rendered, and the number of diagnostics so far. -/
  | rendered (text : String) (empty : Bool) (reported : Nat)
  /-- The number and the context of a derived view. -/
  | derived (view : Nat) (context : Data)
  | context (context : Data)
  | reported (count : Nat)
  | diagnostics (ds : List Diagnostic)
  | source (text : Value)
  | type (t? : Option Ty)
  | verdict (b : Bool)

namespace Session

variable {C : Type} [Settings C]

/-- A session with one view. -/
def start (visitor : Visitor C) (checker : Checker) (context : C) : Session C :=
  ⟨visitor, checker, [context], visitor.kept, []⟩

/-- A script on a view, which leaves its diagnostics to the session. -/
def perform {α : Type} (s : Session C) (script : Script α)
    (answer : α → Nat → Except Fault Answer) : Session C × Except Fault Answer :=
  let (kept, reports, outcome) := script.run s.kept s.reports
  ({ s with kept, reports }, do answer (← outcome) reports.length)

/-- A view derived from a context. -/
def derive (s : Session C) (context : C) (settings : List (String × Data)) :
    Session C × Except Fault Answer :=
  let (kept, reports, outcome) := (s.visitor.merge context settings).run s.kept s.reports
  match outcome with
  | .ok derived =>
    ({ s with views := s.views ++ [derived], kept, reports },
      do return .derived s.views.length (← Settings.toData derived))
  | .error fault => ({ s with kept, reports }, .error fault)

/-- What a view answers to a request. -/
def answer (s : Session C) (context : C) : Request → Session C × Except Fault Answer
  | .convert v =>
    s.perform (s.visitor.convert s.checker context v) fun f reported => do
      return .rendered (← f.output) f.isEmpty reported
  | .update settings => s.derive context settings
  | .context => (s, do return .context (← Settings.toData context))
  | .report v message =>
    s.perform (Run.report v message).script fun _ reported => return .reported reported
  | .diagnostics => (s, .ok (.diagnostics s.reports))
  | .sourceText v => (s, do return .source (← v.sourceText))
  | .typeOfAscription v => (s, do return .type (← s.checker.typeOfAscription v))
  | .typeOfExpression v => (s, do return .type (← s.checker.typeOfExpression v))
  | .isPrintCall v =>
    (s, do return .verdict (← Dispatch.isPrintCall (← v.property .expression)))

/-- Asks something of a view, by its number. -/
def step (s : Session C) (view : Nat) (request : Request) : Session C × Except Fault Answer :=
  match s.views[view]? with
  | some context => s.answer context request
  | none => (s, .error .outOfRange)

end Session

end CodeSample

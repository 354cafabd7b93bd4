import CodeSample.Syntax.Source

/-!
# Checkers

Who answers for the types of annotations and expressions. Unless a checker knows better, a node has
the type that its parser recorded with it.

* `Checker.recorded` answers from the nodes, `Checker.ofTables` from tables by source text.
-/

namespace CodeSample

/-- Answers for types. -/
structure Checker where
  /-- The type that an annotation stands for. -/
  typeOfAscription : Value → Except Fault (Option Ty)
  /-- The type of an expression. -/
  typeOfExpression : Value → Except Fault (Option Ty)

namespace Checker

/-- Every node has the type that was recorded with it. -/
def recorded : Checker := ⟨fun v => .ok v.type?, fun v => .ok v.type?⟩

/-- The type in a table at the source text of a node, else the one recorded with it. A text that is
a list or an object cannot be looked up. -/
def lookUp (table : List (String × Ty)) (v : Value) : Except Fault (Option Ty) := do
  match (← v.sourceText) with
  | .text s => return (table.lookup s).or v.type?
  | .list _ | .object _ => .error .wrongSort
  | _ => return v.type?

/-- Answers from tables of annotations and of expressions. -/
def ofTables (ascriptions expressions : List (String × Ty)) : Checker :=
  ⟨lookUp ascriptions, lookUp expressions⟩

/-! ### Annotations and expressions that may be missing -/

/-- The type of an annotation, if there is one. -/
def ascribed? (checker : Checker) (v : Value) : Except Fault (Option Ty) :=
  if v.isNull then .ok none else checker.typeOfAscription v

/-- The type of an expression, if there is one. -/
def inferred? (checker : Checker) (v : Value) : Except Fault (Option Ty) :=
  if v.isNull then .ok none else checker.typeOfExpression v

end Checker

end CodeSample

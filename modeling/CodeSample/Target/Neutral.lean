import CodeSample.Render.Backend
import CodeSample.Render.Context

/-!
# The neutral backend

The rules that need nothing of a particular target language. Constructs that most languages spell
alike are rendered in the syntax of the C family; every other construct is reported, and its source
text stands in the output. Annotations, heritage clauses and the spans of templates have no rule:
the constructs around them read them.

* `Neutral.rule?` is the table of rules, `Neutral.backend` the backend;
* `Dispatch` are the choices between two or three ways of rendering a kind, which other backends
  take over with ways of their own.
-/

namespace CodeSample

open Layout (Fragment)
open Layout.Fragment (row line block separated)

variable {C : Type}

/-! ### Choices -/

namespace Dispatch

/-- Whether a call prints to the console: its callee is the property access `console.log`. -/
def isPrintCall (callee : Value) : Except Fault Bool :=
  if callee.isKind .propertyAccessExpression then do
    return (← callee.sourceText).isText "console.log"
  else return false

/-- Whether an interface only holds data: every member is a property. -/
def isDataInterface (n : Node) : Except Fault Bool := do
  return (← (n.get .members).items).all (·.isKind .propertySignature)

/-- Calls that print, and others. -/
def call (print regular : Rule C) : Rule C := fun view n => do
  if ← isPrintCall (n.get .expression) then print view n else regular view n

/-- Object literals of a struct type; of a type that is known and not builtin, with the type of the
elements if it is a map; and others. Unions stand for their one member that is not absent. -/
def objectLiteral (struct : Ty → Rule C) (keyed : Option Ty → Rule C) (untyped : Rule C) :
    Rule C := fun view n => do
  match (← view.checker.typeOfExpression n.toValue).bind Ty.concrete? with
  | none => untyped view n
  | some t =>
    if t.isStruct then struct t view n
    else if t.isPrimitive then untyped view n
    else keyed t.element? view n

/-- Interfaces that only hold data, and others. -/
def interface (data behaviour : Rule C) : Rule C := fun view n => do
  if ← isDataInterface n then data view n else behaviour view n

end Dispatch

/-! ### Rules -/

namespace Neutral

/-- The problem with a construct that a backend cannot express. -/
def notSupported (name : String) (kind : Kind) : String :=
  "This construct is not supported by the " ++ name ++ " backend: " ++ kind.name

/-- A construct that a backend cannot express: it is reported, and its source text is written. -/
def echo (name : String) : Rule C := fun _ n => do
  Run.report n.toValue (.text (notSupported name n.kind))
  return row [(← n.toValue.sourceText).toFragment]

/-- A word that is the same in all languages of the family. -/
def word (s : String) : Rule C := fun _ _ => return row [.text s]

/-- A node that is rendered as the content of one of its fields. -/
def through (f : Field) : Rule C := fun view n => view.convert (n.get f)

/-- A node that is rendered as a block of what one of its fields enumerates. -/
def blockOf (f : Field) : Rule C := fun view n => return block (← view.convertAll (n.get f))

/-- A node that is rendered as its source text. -/
def sourceOf : Rule C := fun _ n => return row [(← n.toValue.sourceText).toFragment]

/-- `return;` or `return e;`. -/
def returnStatement : Rule C := fun view n => do
  let expression := n.get .expression
  if expression.isNull then return line [.text "return;"]
  else return line [.text "return ", ← view.convert expression, .text ";"]

/-- `(e)`. -/
def parenthesized : Rule C := fun view n =>
  return row [.text "(", ← view.convert (n.get .expression), .text ")"]

/-- The spelling of an operator: the strict comparisons lose a sign. A list cannot be looked up. -/
def operatorOf : Value → Except Fault Value
  | .text s => .ok (.text (if s = "===" then "==" else if s = "!==" then "!=" else s))
  | .list _ | .object _ => .error .wrongSort
  | v => .ok v

/-- `a op b`. -/
def binary : Rule C := fun view n => do
  let operator ← operatorOf (n.get .operator)
  let left ← view.convert (n.get .left)
  let right ← view.convert (n.get .right)
  return row [left, .text " ", operator.toFragment, .text " ", right]

/-- `op a`. -/
def prefixUnary : Rule C := fun view n => do
  return row [(n.get .operator).toFragment, ← view.convert (n.get .operand)]

/-- `a ? b : c`. -/
def conditional : Rule C := fun view n => do
  let condition ← view.convert (n.get .condition)
  let whenTrue ← view.convert (n.get .whenTrue)
  let whenFalse ← view.convert (n.get .whenFalse)
  return row [condition, .text " ? ", whenTrue, .text " : ", whenFalse]

/-- `e[i]`. -/
def elementAccess : Rule C := fun view n => do
  let expression ← view.convert (n.get .expression)
  let argument ← view.convert (n.get .argument)
  return row [expression, .text "[", argument, .text "]"]

/-- `new T(a, b)`. -/
def newExpression : Rule C := fun view n => do
  let expression ← view.convert (n.get .expression)
  let arguments ← view.convertAll (n.get .arguments)
  return row [.text "new ", expression, .text "(", separated ", " arguments, .text ")"]

/-- The rules of the neutral backend, with its name for reports. -/
def rule? (name : String) : Kind → Option (Rule C)
  | .sourceFile => some (blockOf .statements)
  | .variableStatement => some (through .declarationList)
  | .variableDeclarationList => some (blockOf .declarations)
  | .returnStatement => some returnStatement
  | .expressionWithTypeArguments => some (through .expression)
  | .numericLiteral => some sourceOf
  | .trueKeyword => some (word "true")
  | .falseKeyword => some (word "false")
  | .nullKeyword => some (word "null")
  | .thisKeyword => some (word "this")
  | .parenthesizedExpression => some parenthesized
  | .binaryExpression => some binary
  | .prefixUnaryExpression => some prefixUnary
  | .conditionalExpression => some conditional
  | .elementAccessExpression => some elementAccess
  | .newExpression => some newExpression
  | .callExpression => some (Dispatch.call (echo name) (echo name))
  | .objectLiteralExpression =>
    some (Dispatch.objectLiteral (fun _ => echo name) (fun _ => echo name) (echo name))
  | .interfaceDeclaration => some (Dispatch.interface (echo name) (echo name))
  | .typeNode | .heritageClause | .templateSpan => none
  | _ => some (echo name)

/-- The neutral backend under a name. -/
def backend (name : String) : Backend Plain := ⟨name, {}, rule? name⟩

end Neutral

end CodeSample

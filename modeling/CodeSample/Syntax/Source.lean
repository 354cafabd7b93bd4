import CodeSample.Syntax.Node

/-!
# The source text of a node

A node's source text is what the parser recorded. For simple expressions without a recording it is
put together from the parts, as the language of the samples spells them; for all other nodes it is
empty.

* `sourceText` is the source text, `sourceTexts` those of several nodes.
-/

namespace CodeSample.Value

/-- The spelling of the keywords that are expressions. -/
def keyword? : Kind → Option String
  | .thisKeyword => some "this"
  | .trueKeyword => some "true"
  | .falseKeyword => some "false"
  | .nullKeyword => some "null"
  | _ => none

/-- A value between two texts. -/
def between (opening closing : String) (v : Value) : Except Fault Value := do
  (← v.after opening).before closing

mutual

/-- The source text of a node. A value that is no node has none. -/
def sourceText : Value → Except Fault Value
  | node kind _ source _ fields =>
    if source.truthy then .ok source
    else match kind, fields with
      | .propertyAccessExpression, [expression, name] => do
        let receiver ← (← sourceText expression).before "."
        receiver.add (← name.property .text)
      | .elementAccessExpression, [expression, argument] => do
        let receiver ← (← sourceText expression).before "["
        (← receiver.add (← sourceText argument)).before "]"
      | .callExpression, [expression, arguments] => do
        let listed ← join ", " (← sourceTextsOf arguments)
        let callee ← (← sourceText expression).before "("
        (← callee.add listed).before ")"
      | .parenthesizedExpression, [expression] => do
        between "(" ")" (← sourceText expression)
      | .binaryExpression, [left, operator, right] => do
        let left ← (← sourceText left).before " "
        let left ← (← left.add operator).before " "
        left.add (← sourceText right)
      | .prefixUnaryExpression, [operator, operand] => do
        operator.add (← sourceText operand)
      | _, _ => .ok (text ((keyword? kind).getD ""))
  | _ => .error .noProperty

/-- The source texts of the nodes that a value enumerates. -/
def sourceTextsOf : Value → Except Fault (List Value)
  | list vs => sourceTexts vs
  | text s => if s.isEmpty then .ok [] else .error .noProperty
  | object ms => if ms.isEmpty then .ok [] else .error .noProperty
  | _ => .error .wrongSort

/-- The source texts of nodes, one after the other. -/
def sourceTexts : List Value → Except Fault (List Value)
  | [] => .ok []
  | v :: vs => do
    let s ← sourceText v
    let ss ← sourceTexts vs
    return s :: ss

end

end CodeSample.Value

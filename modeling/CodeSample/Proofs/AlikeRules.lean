import CodeSample.Proofs.Likeness
import CodeSample.Target.CSharp

/-!
# The rules that backends share go alike

A rule asks whether fields of its node are null, count as true or are of a kind, reads texts and
types, and renders parts. All of this comes out alike on nodes that stand for one another, so the
rule makes the same of them.

* `Dispatch.alike_call`, `alike_objectLiteral`, `alike_interface`: the choices between rules;
* `Neutral.alike_rule`: the rules of the neutral backend, with any contexts.
-/

namespace CodeSample

open Layout (Fragment)

variable {C : Type} {L : Likeness} {K : C → C → Prop} {kind : Kind} {n' n : Node}

/-! ### Choices -/

namespace Dispatch

/-- Of two callees that are alike, both print or neither does. -/
theorem agree_isPrintCall {v' v : Value} (h : Value.Alike L.node v' v) :
    Agree Eq (isPrintCall v') (isPrintCall v) := by
  unfold isPrintCall
  rw [h.isKind L.alike]
  split
  · exact (h.sourceText L.alike).bind fun _ _ hs => .ok (hs.isText _)
  · exact .ok rfl

/-- Of two interfaces that stand for one another, both only hold data or neither does. -/
theorem agree_isDataInterface (hn : L.node n' n) :
    Agree Eq (isDataInterface n') (isDataInterface n) := by
  unfold isDataInterface
  refine ((L.alike hn).get rfl).items.bind fun vs' vs hvs => .ok ?_
  induction hvs with
  | nil => rfl
  | cons hv _ ih => rw [List.all_cons, List.all_cons, hv.isKind L.alike, ih]

/-- Calls are rendered alike when those that print are, and so are all others. -/
theorem alike_call {print' print regular' regular : Rule C}
    (hp : Rule.Alike L K kind print' print) (hr : Rule.Alike L K kind regular' regular) :
    Rule.Alike L K kind (call print' regular') (call print regular) := by
  intro view' view h n' n hn hk
  unfold call
  refine L.bind_ofExcept (agree_isPrintCall ((L.alike hn).get rfl)) ?_
  rintro _ b rfl
  split
  · exact hp h hn hk
  · exact hr h hn hk

/-- Interfaces are rendered alike when both sorts of them are. -/
theorem alike_interface {data' data behaviour' behaviour : Rule C}
    (hd : Rule.Alike L K kind data' data) (hb : Rule.Alike L K kind behaviour' behaviour) :
    Rule.Alike L K kind (interface data' behaviour') (interface data behaviour) := by
  intro view' view h n' n hn hk
  unfold interface
  refine L.bind_ofExcept (agree_isDataInterface hn) ?_
  rintro _ b rfl
  split
  · exact hd h hn hk
  · exact hb h hn hk

/-- Object literals are rendered alike when those of each sort of type are: the checkers have the
same type for them. -/
theorem alike_objectLiteral {struct' struct : Ty → Rule C} {keyed' keyed : Option Ty → Rule C}
    {untyped' untyped : Rule C}
    (hs : ∀ t, Rule.Alike L K .objectLiteralExpression (struct' t) (struct t))
    (hk : ∀ t?, Rule.Alike L K .objectLiteralExpression (keyed' t?) (keyed t?))
    (hu : Rule.Alike L K .objectLiteralExpression untyped' untyped) :
    Rule.Alike L K .objectLiteralExpression (objectLiteral struct' keyed' untyped')
      (objectLiteral struct keyed untyped) := by
  intro view' view h n' n hn hkind
  unfold objectLiteral
  refine L.bind (h.checkers.literal hn hkind) ?_
  rintro _ t? rfl
  split
  · exact hu h hn hkind
  · rename_i t _
    split
    · exact hs t h hn hkind
    · split
      · exact hu h hn hkind
      · exact hk t.element? h hn hkind

end Dispatch

/-! ### The neutral rules -/

namespace Neutral

/-- A construct that a backend cannot express is reported and echoed alike. -/
theorem alike_echo (name : String) : Rule.Alike L K kind (echo name) (echo name) := by
  intro view' view h n' n hn hk
  unfold echo
  rw [(L.alike hn).kind]
  refine L.bind (L.report _ hn) fun _ _ _ => ?_
  refine L.bind_ofExcept (Value.Alike.sourceText L.alike (.node hn)) fun s' s hs => ?_
  exact L.pure (L.row (.cons (L.toFragment hs) .nil))

/-- Nodes are rendered alike as their source texts. -/
theorem alike_sourceOf : Rule.Alike L K kind sourceOf sourceOf := by
  intro view' view h n' n hn hk
  refine L.bind_ofExcept (Value.Alike.sourceText L.alike (.node hn)) fun s' s hs => ?_
  exact L.pure (L.row (.cons (L.toFragment hs) .nil))

/-- A word is rendered alike, whatever the node. -/
theorem alike_word (s : String) : Rule.Alike L K kind (word s) (word s) :=
  fun _ _ _ _ _ => L.pure (L.row (.cons (L.text s) .nil))

/-- Nodes are rendered alike as the content of a field that rules may read. -/
theorem alike_through {f : Field} (hf : f.isRead = true) :
    Rule.Alike L K kind (through f) (through f) :=
  fun h _ _ hn _ => h.field hn hf

/-- Nodes are rendered alike as blocks of what a field enumerates that rules may read. -/
theorem alike_blockOf {f : Field} (hf : f.isRead = true) :
    Rule.Alike L K kind (blockOf f) (blockOf f) := by
  intro view' view h n' n hn hk
  exact L.bind (h.items hn hf) fun _ _ hparts => L.pure (L.block hparts)

/-- Returns are rendered alike, with an expression or without. -/
theorem alike_returnStatement : Rule.Alike L K kind returnStatement returnStatement := by
  intro view' view h n' n hn hk
  have he := (L.alike hn).get (f := .expression) rfl
  simp only [returnStatement, he.isNull]
  split
  · exact L.pure (L.line (by simp [L.text]))
  · refine L.bind (h.convert he) fun expression' expression hexpression => ?_
    exact L.pure (L.line (by simp [L.text, hexpression]))

/-- Expressions in parentheses are rendered alike. -/
theorem alike_parenthesized : Rule.Alike L K kind parenthesized parenthesized := by
  intro view' view h n' n hn hk
  refine L.bind (h.field hn rfl) fun expression' expression hexpression => ?_
  exact L.pure (L.row (by simp [L.text, hexpression]))

/-- Operators that are alike are spelled alike. -/
theorem agree_operatorOf {v' v : Value} (h : Value.Alike L.node v' v) :
    Agree (Value.Alike L.node) (operatorOf v') (operatorOf v) := by
  cases h with
  | text s => exact .ok (.text _)
  | list _ | object _ => exact .wrongSort
  | null => exact .ok .null
  | bool b => exact .ok (.bool b)
  | int i => exact .ok (.int i)
  | float x => exact .ok (.float x)
  | node hn => exact .ok (.node hn)

/-- Binary expressions are rendered alike. -/
theorem alike_binary : Rule.Alike L K kind binary binary := by
  intro view' view h n' n hn hk
  refine L.bind_ofExcept (agree_operatorOf ((L.alike hn).get rfl)) fun op' op hop => ?_
  refine L.bind (h.field hn rfl) fun left' left hleft => ?_
  refine L.bind (h.field hn rfl) fun right' right hright => ?_
  exact L.pure (L.row (by simp [L.text, L.toFragment hop, hleft, hright]))

/-- Prefix expressions are rendered alike. -/
theorem alike_prefixUnary : Rule.Alike L K kind prefixUnary prefixUnary := by
  intro view' view h n' n hn hk
  have hop := L.toFragment ((L.alike hn).get (f := .operator) rfl)
  refine L.bind (h.field hn rfl) fun operand' operand hoperand => ?_
  exact L.pure (L.row (by simp [hop, hoperand]))

/-- Conditional expressions are rendered alike. -/
theorem alike_conditional : Rule.Alike L K kind conditional conditional := by
  intro view' view h n' n hn hk
  refine L.bind (h.field hn rfl) fun condition' condition hcondition => ?_
  refine L.bind (h.field hn rfl) fun whenTrue' whenTrue hwhenTrue => ?_
  refine L.bind (h.field hn rfl) fun whenFalse' whenFalse hwhenFalse => ?_
  exact L.pure (L.row (by simp [L.text, hcondition, hwhenTrue, hwhenFalse]))

/-- Accesses to elements are rendered alike. -/
theorem alike_elementAccess : Rule.Alike L K kind elementAccess elementAccess := by
  intro view' view h n' n hn hk
  refine L.bind (h.field hn rfl) fun expression' expression hexpression => ?_
  refine L.bind (h.field hn rfl) fun argument' argument hargument => ?_
  exact L.pure (L.row (by simp [L.text, hexpression, hargument]))

/-- Constructions of objects are rendered alike. -/
theorem alike_newExpression : Rule.Alike L K kind newExpression newExpression := by
  intro view' view h n' n hn hk
  refine L.bind (h.field hn rfl) fun expression' expression hexpression => ?_
  refine L.bind (h.items hn rfl) fun arguments' arguments harguments => ?_
  exact L.pure (L.row (by simp [L.text, hexpression, L.separated ", " harguments]))

/-- The rules of the neutral backend go alike. -/
theorem alike_rule (name : String) (kind : Kind) :
    Option.Rel (Rule.Alike L K kind) (rule? name kind) (rule? name kind) := by
  cases kind
  case sourceFile | variableDeclarationList => exact .some (alike_blockOf rfl)
  case variableStatement | expressionWithTypeArguments => exact .some (alike_through rfl)
  case returnStatement => exact .some alike_returnStatement
  case numericLiteral => exact .some alike_sourceOf
  case trueKeyword | falseKeyword | nullKeyword | thisKeyword => exact .some (alike_word _)
  case parenthesizedExpression => exact .some alike_parenthesized
  case binaryExpression => exact .some alike_binary
  case prefixUnaryExpression => exact .some alike_prefixUnary
  case conditionalExpression => exact .some alike_conditional
  case elementAccessExpression => exact .some alike_elementAccess
  case newExpression => exact .some alike_newExpression
  case callExpression => exact .some (Dispatch.alike_call (alike_echo name) (alike_echo name))
  case objectLiteralExpression =>
    exact .some (Dispatch.alike_objectLiteral (fun _ => alike_echo name) (fun _ => alike_echo name)
      (alike_echo name))
  case interfaceDeclaration =>
    exact .some (Dispatch.alike_interface (alike_echo name) (alike_echo name))
  case typeNode | heritageClause | templateSpan => exact .none
  all_goals exact .some (alike_echo name)

end Neutral

end CodeSample

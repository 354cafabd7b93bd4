import CodeSample.Proofs.CSharpOutput
import CodeSample.Proofs.NodeShares

/-!
# What each rule reports

Each rule reports on its own node at most once, and looks at no field twice; so what it reports is
counted against different shares of the node. Two rules need more than that. A declared type is
looked for in two places, and can be reported on the annotation and on the node. The name of a
shorthand property is rendered twice, but it is an identifier, and the rule for names reports
nothing.

* `Rule.Splits` is the notion, `Neutral.splits_rule` and `CSharp.splits_rule` say it of all rules;
* `within_` and the name of a rule says which shares that rule is counted against.
-/

namespace CodeSample

open Layout (Fragment Indent)

/-! ### The neutral rules -/

namespace Dispatch

variable {C : Type} {view : View C} {n : Node} {b : Multiset Node}

/-- A call reports within the shares that are enough for calls that print and for all others. -/
theorem within_call {print regular : Rule C} (hprint : (print view n).Within b)
    (hregular : (regular view n).Within b) : (call print regular view n).Within b := by
  unfold call
  refine Run.within_bind_ofExcept fun prints _ => ?_
  split
  · exact hprint
  · exact hregular

/-- An interface reports within the shares that are enough for both sorts of interfaces. -/
theorem within_interface {data behaviour : Rule C} (hdata : (data view n).Within b)
    (hbehaviour : (behaviour view n).Within b) : (interface data behaviour view n).Within b := by
  unfold interface
  refine Run.within_bind_ofExcept fun holdsData _ => ?_
  split
  · exact hdata
  · exact hbehaviour

/-- An object literal reports within the shares that are enough for each sort of type. Asking for
the type reports nothing. -/
theorem within_objectLiteral {struct : Ty → Rule C} {keyed : Option Ty → Rule C} {untyped : Rule C}
    (hstruct : ∀ t, (struct t view n).Within b) (hkeyed : ∀ t?, (keyed t? view n).Within b)
    (huntyped : (untyped view n).Within b) :
    (objectLiteral struct keyed untyped view n).Within b := by
  unfold objectLiteral
  refine Run.within_bind_ofExcept fun t? _ => ?_
  split
  · exact huntyped
  · split
    · exact hstruct _
    · split
      · exact huntyped
      · exact hkeyed _

end Dispatch

/-- What a rule reports on a node is counted against different shares of the node. -/
def Rule.Splits {C : Type} (rule : Rule C) (view : View C) (n : Node) : Prop :=
  ∃ ss : List Share, ss.Nodup ∧ (∀ s ∈ ss, s ∈ n.kind.shares) ∧ (rule view n).Within (n.shares ss)

namespace Neutral

variable {C : Type} {view : View C} {n : Node}

/-- What cannot be expressed is reported on the node itself, once. -/
theorem within_echo (name : String) : (echo name view n).Within (n.shares [.own]) := by
  unfold echo
  refine (Run.within_report n.toValue _).own.andPure fun _ => ?_
  exact Run.within_bind_ofExcept fun _ _ => Run.within_pure _ _

section

variable (h : Counts view.convertIn) (hn : n.toValue.isDeclared = true)
include h hn

/-- A block reports on the nodes in the field that it enumerates. -/
theorem within_blockOf (f : Field) : (blockOf f view n).Within (n.shares [.of f]) := by
  unfold blockOf
  exact (h.parts hn _ _ f).andPure fun _ => Run.within_pure _ _

/-- A return reports on the nodes in its expression. -/
theorem within_returnStatement : (returnStatement view n).Within (n.shares [.of .expression]) := by
  unfold returnStatement
  dsimp only
  split
  · exact Run.within_pure _ _
  · exact (h.part hn _ .expression).andPure fun _ => Run.within_pure _ _

/-- Parentheses report on the nodes in their expression. -/
theorem within_parenthesized : (parenthesized view n).Within (n.shares [.of .expression]) := by
  unfold parenthesized
  exact (h.part hn _ .expression).andPure fun _ => Run.within_pure _ _

/-- A binary expression reports on the nodes in its two operands. -/
theorem within_binary : (binary view n).Within (n.shares [.of .left, .of .right]) := by
  unfold binary
  refine Run.within_bind_ofExcept fun operator _ => ?_
  refine (h.part hn _ .left).andThen fun _ => ?_
  exact (h.part hn _ .right).andPure fun _ => Run.within_pure _ _

/-- A prefix expression reports on the nodes in its operand. -/
theorem within_prefixUnary : (prefixUnary view n).Within (n.shares [.of .operand]) := by
  unfold prefixUnary
  exact (h.part hn _ .operand).andPure fun _ => Run.within_pure _ _

/-- A conditional expression reports on the nodes in its three parts. -/
theorem within_conditional :
    (conditional view n).Within (n.shares [.of .condition, .of .whenTrue, .of .whenFalse]) := by
  unfold conditional
  refine (h.part hn _ .condition).andThen fun _ => (h.part hn _ .whenTrue).andThen fun _ => ?_
  exact (h.part hn _ .whenFalse).andPure fun _ => Run.within_pure _ _

/-- An access to an element reports on the nodes in what is accessed and in the argument. -/
theorem within_elementAccess :
    (elementAccess view n).Within (n.shares [.of .expression, .of .argument]) := by
  unfold elementAccess
  refine (h.part hn _ .expression).andThen fun _ => ?_
  exact (h.part hn _ .argument).andPure fun _ => Run.within_pure _ _

/-- A construction reports on the nodes in what is constructed and in the arguments. -/
theorem within_newExpression :
    (newExpression view n).Within (n.shares [.of .expression, .of .arguments]) := by
  unfold newExpression
  refine (h.part hn _ .expression).andThen fun _ => ?_
  exact (h.parts hn _ _ .arguments).andPure fun _ => Run.within_pure _ _

/-- Every neutral rule reports within shares of its node that do not overlap. -/
theorem splits_rule {name : String} {rule : Rule C} (hr : rule? name n.kind = some rule) :
    rule.Splits view n := by
  have hecho : (echo name view n).Within (n.shares [.own]) := within_echo name
  unfold Rule.Splits
  cases hk : n.kind <;> rw [hk] at hr <;> simp only [rule?, Option.some.injEq, reduceCtorEq] at hr
  all_goals subst hr
  case sourceFile => exact ⟨_, by decide, by decide, within_blockOf h hn _⟩
  case variableStatement => exact ⟨_, by decide, by decide, h.part hn _ .declarationList⟩
  case variableDeclarationList => exact ⟨_, by decide, by decide, within_blockOf h hn _⟩
  case returnStatement => exact ⟨_, by decide, by decide, within_returnStatement h hn⟩
  case expressionWithTypeArguments => exact ⟨_, by decide, by decide, h.part hn _ .expression⟩
  case parenthesizedExpression => exact ⟨_, by decide, by decide, within_parenthesized h hn⟩
  case binaryExpression => exact ⟨_, by decide, by decide, within_binary h hn⟩
  case prefixUnaryExpression => exact ⟨_, by decide, by decide, within_prefixUnary h hn⟩
  case conditionalExpression => exact ⟨_, by decide, by decide, within_conditional h hn⟩
  case elementAccessExpression => exact ⟨_, by decide, by decide, within_elementAccess h hn⟩
  case newExpression => exact ⟨_, by decide, by decide, within_newExpression h hn⟩
  case numericLiteral =>
    exact ⟨[], by decide, by decide, Run.within_bind_ofExcept fun _ _ => Run.within_pure _ _⟩
  case trueKeyword | falseKeyword | nullKeyword | thisKeyword =>
    exact ⟨[], by decide, by decide, Run.within_pure _ _⟩
  case callExpression => exact ⟨_, by decide, by decide, Dispatch.within_call hecho hecho⟩
  case interfaceDeclaration =>
    exact ⟨_, by decide, by decide, Dispatch.within_interface hecho hecho⟩
  case objectLiteralExpression =>
    exact ⟨_, by decide, by decide,
      Dispatch.within_objectLiteral (fun _ => hecho) (fun _ => hecho) hecho⟩
  all_goals exact ⟨_, by decide, by decide, hecho⟩

end

end Neutral

/-! ### The C# rules -/

namespace CSharp

variable {view : View Flags} {n : Node} {indent : Indent}

/-! ### Types -/

/-- Spelling a type reports at most once, on the node that the type is spelled for. -/
theorem within_renderType (v : Value) (t : Ty) (nullable : Bool) :
    (renderType v t nullable).Within v.self := by
  induction hd : t.depth using Nat.strongRecOn generalizing t nullable with | _ depth ih
  subst hd
  unfold renderType
  split
  · refine Run.within_bind_ofExcept fun problem _ => ?_
    exact (Run.within_report v _).andPure fun _ => Run.within_pure _ _
  · rename_i e he
    refine (ih _ (Ty.depth_lt_of_concrete?_map he) e false rfl).andPure fun _ => ?_
    exact Run.within_bind_ofExcept fun _ _ => Run.within_ofExcept _ _
  · rename_i e he
    refine (ih _ (Ty.depth_lt_of_concrete?_array he) e false rfl).andPure fun _ => ?_
    exact Run.within_bind_ofExcept fun _ _ => Run.within_ofExcept _ _
  · exact Run.within_bind_ofExcept fun _ _ => Run.within_ofExcept _ _

/-- An annotation that cannot be resolved is reported on itself. -/
theorem within_reportUnresolved (v : Value) : (reportUnresolved v).Within v.self := by
  unfold reportUnresolved
  refine Run.within_bind_ofExcept fun _ _ => Run.within_bind_ofExcept fun _ _ => ?_
  exact (Run.within_report v _).andPure fun _ => Run.within_pure _ _

/-- Spelling an annotation reports on the annotation at most once: either it cannot be resolved, or
its type has no spelling. -/
theorem within_renderAscription (checker : Checker) (v : Value) (nullable : Bool)
    (missing : String) : (renderAscription checker v nullable missing).Within v.self := by
  unfold renderAscription
  split
  · exact Run.within_pure _ _
  · refine Run.within_bind_ofExcept fun t? _ => ?_
    split
    · exact within_renderType v _ nullable
    · exact within_reportUnresolved v

/-- A type is resolved from the annotation or inferred, and then reported on another node. -/
theorem within_declaredTypeText (checker : Checker) (n : Node) (nullable : Bool)
    (missing : String) : (declaredTypeText checker n nullable missing).Within
      (n.shares [.of .type, .own]) := by
  have hdeclared : (declaredType checker n).Within (n.shares [.of .type]) := by
    unfold declaredType
    refine Run.within_bind_ofExcept fun t? _ => ?_
    split
    · exact Run.within_pure _ _
    · split
      · exact Run.within_ofExcept _ _
      · exact (within_reportUnresolved (n.get .type)).field.andPure fun _ =>
          Run.within_ofExcept _ _
  unfold declaredTypeText
  refine hdeclared.andThen fun t? => ?_
  split
  · exact (within_renderType n.toValue _ nullable).own
  · exact Run.within_pure _ _

/-- The type of a parameter is reported on the parameter or in its annotation. -/
theorem within_parameterType (checker : Checker) (n : Node) :
    (parameterType checker n).Within (n.shares [.own, .of .type]) := by
  unfold parameterType
  refine Run.within_bind_ofExcept fun inferred _ => ?_
  split
  · split
    · exact (within_renderType n.toValue _ _).own.among (by decide)
    · exact Run.within_pure _ _
  · exact (within_renderAscription checker (n.get .type) _ _).field.among (by decide)

/-- The type of the values of a literal is reported on the literal. -/
theorem within_valueType (n : Node) (t? : Option Ty) :
    (valueType n t?).Within (n.shares [.own]) := by
  unfold valueType
  split
  · exact (within_renderType n.toValue _ false).own
  · exact Run.within_pure _ _

/-! ### Names, texts and loops -/

/-- The rule for names reports nothing, so that a name may be rendered more than once. -/
theorem within_identifier : (identifier view n).Within 0 := by
  unfold identifier
  dsimp only
  split
  · exact Run.within_bind_ofExcept fun _ _ => Run.within_pure _ _
  · split
    · exact Run.within_bind_ofExcept fun _ _ => Run.within_pure _ _
    · split
      · exact Run.within_pure _ _
      · exact Run.within_bind_ofExcept fun _ _ => Run.within_pure _ _

/-- Quoting a text reports nothing. -/
theorem within_quotedText : (quotedText view n).Within 0 :=
  Run.within_bind_ofExcept fun _ _ => Run.within_pure _ _

/-- String literals report nothing, in whatever place. -/
theorem within_stringLiteral : (stringLiteral view n).Within 0 := by
  unfold stringLiteral
  split
  · exact within_identifier
  · exact within_quotedText

/-- Templates report nothing: the holes are written from their source texts. -/
theorem within_templateExpression : (templateExpression view n).Within 0 :=
  Run.within_bind_ofExcept fun _ _ => Run.within_pure _ _

/-- A loop head that does not declare exactly one variable is reported on itself. -/
theorem within_loopVariable (v : Value) : (loopVariable v).Within v.self := by
  unfold loopVariable
  refine Run.within_bind_ofExcept fun declaration? _ => ?_
  split
  · exact Run.within_bind_ofExcept fun _ _ => Run.within_ofExcept _ _
  · exact (Run.within_report v _).andPure fun _ => Run.within_pure _ _

section

variable (h : Counts view.convertIn) (hn : n.toValue.isDeclared = true)
include h hn

/-! ### Functions -/

/-- Parameters and a body report on the nodes in them. -/
theorem within_signature (head : List Fragment) :
    (signature view n head).Within (n.shares [.of .parameters, .of .body]) := by
  unfold signature
  refine (h.parts hn _ _ .parameters).andThen fun _ => ?_
  dsimp only
  split
  · exact Run.within_pure _ _
  · exact (h.part hn _ .body).andPure fun _ => Run.within_pure _ _

/-- A function reports on the nodes in its name, annotation, parameters and body. -/
theorem within_function :
    (function view n).Within (n.shares [.of .name, .of .type, .of .parameters, .of .body]) := by
  unfold function
  refine (h.part hn _ .name).andThen fun _ => ?_
  refine (within_renderAscription view.checker (n.get .type) _ _).field.andThen fun _ => ?_
  exact within_signature h hn _

/-- A parameter reports on itself, for an inferred type, and on the nodes in its parts. -/
theorem within_parameter :
    (parameter view n).Within (n.shares [.own, .of .type, .of .initializer, .of .name]) := by
  have hdefault (annotated : Option Ty) :
      (parameterDefault view n annotated).Within (n.shares [.of .initializer]) := by
    unfold parameterDefault
    split
    · exact Run.within_pure _ _
    · split
      · exact Run.within_pure _ _
      · exact (h.part hn _ .initializer).andPure fun _ => Run.within_pure _ _
  unfold parameter
  refine Run.within_bind_ofExcept fun annotated _ => ?_
  refine (within_parameterType view.checker n).andThen fun _ => (hdefault _).andThen fun _ => ?_
  exact (h.part hn _ .name).andPure fun _ => Run.within_pure _ _

/-! ### Expressions -/

/-- A call that prints reports on the nodes in its arguments only. The callee is no matter. -/
theorem within_printCall :
    (printCall view n).Within (n.shares [.of .expression, .of .arguments]) := by
  unfold printCall
  refine Run.within_bind_ofExcept fun count _ => ?_
  have harguments : (view.convertAll (n.get .arguments)).Within
      (n.shares [.of .expression, .of .arguments]) := (h.parts hn _ _ .arguments).among (by decide)
  split <;>
  · exact harguments.andPure fun _ => Run.within_pure _ _

/-- A call reports on the nodes in its callee and its arguments. -/
theorem within_regularCall :
    (regularCall view n).Within (n.shares [.of .expression, .of .arguments]) := by
  unfold regularCall
  refine (h.part hn _ .expression).andThen fun _ => ?_
  exact (h.parts hn _ _ .arguments).andPure fun _ => Run.within_pure _ _

/-- A property access reports on the nodes in its receiver and its name. -/
theorem within_propertyAccess :
    (propertyAccess view n).Within (n.shares [.of .expression, .of .name]) := by
  have hreceiver : (receiver view (n.get .expression)).Within (n.shares [.of .expression]) := by
    unfold receiver
    refine Run.within_bind_ofExcept fun isThis _ => ?_
    split
    · exact Run.within_pure _ _
    · exact (h.part hn _ .expression).andPure fun _ => Run.within_pure _ _
  unfold propertyAccess
  refine hreceiver.andThen fun _ => ?_
  exact (h.part hn _ .name).andPure fun _ => Run.within_pure _ _

/-- A cast reports on the nodes in its annotation and its expression. -/
theorem within_asExpression :
    (asExpression view n).Within (n.shares [.of .type, .of .expression]) := by
  unfold asExpression
  refine (within_renderAscription view.checker (n.get .type) _ _).field.andThen fun _ => ?_
  exact (h.part hn _ .expression).andPure fun _ => Run.within_pure _ _

/-! ### Literals -/

/-- An array literal reports on the nodes in its elements. -/
theorem within_arrayLiteral : (arrayLiteral indent view n).Within (n.shares [.of .elements]) := by
  unfold arrayLiteral
  exact (h.parts hn _ _ .elements).andPure fun _ => Run.within_pure _ _

/-- An object literal reports on itself, for the type of its values, and on the nodes in its
properties. -/
theorem within_objectLiteral :
    (Dispatch.objectLiteral (structLiteral indent) (keyedLiteral indent) (untypedLiteral indent)
      view n).Within (n.shares [.own, .of .properties]) := by
  have hkeyed (t? : Option Ty) :
      (keyedLiteral indent t? view n).Within (n.shares [.own, .of .properties]) := by
    unfold keyedLiteral
    refine (within_valueType n t?).andThen fun _ => ?_
    refine (h.parts hn _ _ .properties).andPure fun _ => ?_
    exact Run.within_bind_ofExcept fun _ _ => Run.within_pure _ _
  have hproperties : (view.convertAll (n.get .properties)).Within
      (n.shares [.own, .of .properties]) := (h.parts hn _ _ .properties).among (by decide)
  refine Dispatch.within_objectLiteral (fun t => ?_) hkeyed ?_
  · unfold structLiteral
    refine Run.within_bind_ofExcept fun _ _ => Run.within_bind_ofExcept fun _ _ => ?_
    exact hproperties.andPure fun _ => Run.within_pure _ _
  · unfold untypedLiteral
    split
    · exact hproperties.andPure fun _ => Run.within_pure _ _
    · exact hkeyed none

omit h hn in
/-- An assignment or a pair reports within the shares of its key and of its value, whatever the
contexts that they are rendered in. -/
theorem within_assignment {key value : Value} {ss ts : List Share}
    (hkey : ∀ c, (view.convertIn c key).Within (n.shares ss))
    (hvalue : ∀ c, (view.convertIn c value).Within (n.shares ts)) :
    (assignment view key value).Within (n.shares (ss ++ ts)) := by
  unfold assignment
  split <;>
  · refine (hkey _).andThen fun _ => ?_
    exact (hvalue _).andPure fun _ => Run.within_pure _ _

/-! ### Statements -/

/-- A block reports on the nodes in its statements. -/
theorem within_blockStatement :
    (blockStatement indent view n).Within (n.shares [.of .statements]) := by
  unfold blockStatement
  exact (h.parts hn _ _ .statements).andPure fun _ => Run.within_pure _ _

/-- An expression statement reports on the nodes in its expression. -/
theorem within_expressionStatement :
    (expressionStatement view n).Within (n.shares [.of .expression]) := by
  unfold expressionStatement
  exact (h.part hn _ .expression).andPure fun _ => Run.within_pure _ _

/-- A conditional reports on the nodes in its condition and its two branches. -/
theorem within_ifStatement : (ifStatement indent view n).Within
    (n.shares [.of .expression, .of .thenStatement, .of .elseStatement]) := by
  unfold ifStatement
  refine (h.part hn _ .expression).andThen fun _ => ?_
  refine (h.part hn _ .thenStatement).andThen fun _ => ?_
  dsimp only
  split
  · exact Run.within_pure _ _
  · exact (h.part hn _ .elseStatement).andPure fun _ => by split <;> exact Run.within_pure _ _

/-- A loop reports on its head, and on the nodes in what it goes through and in its body. -/
theorem within_forOfStatement : (forOfStatement indent view n).Within
    (n.shares [.of .initializer, .of .expression, .of .statement]) := by
  unfold forOfStatement
  refine (within_loopVariable (n.get .initializer)).field.andThen fun _ => ?_
  refine (h.part hn _ .expression).andThen fun _ => ?_
  exact (h.part hn _ .statement).andPure fun _ => Run.within_pure _ _

/-- A declaration reports on its annotation, on itself, and on the nodes in its name and its
initializer. -/
theorem within_variableDeclaration : (variableDeclaration view n).Within
    (n.shares [.of .type, .own, .of .name, .of .initializer]) := by
  unfold variableDeclaration
  refine (within_declaredTypeText view.checker n _ _).andThen fun _ => ?_
  refine Run.within_bind_ofExcept fun _ _ => ?_
  dsimp only
  refine (h.part hn _ .name).andThen fun _ => ?_
  split
  · exact Run.within_pure _ _
  · exact (h.part hn _ .initializer).andPure fun _ => Run.within_pure _ _

/-! ### Declarations -/

/-- What a class extends is reported on in its heritage clauses. -/
theorem within_heritage : (heritage view n).Within (n.shares [.of .heritageClauses]) := by
  have hclause {clause : Value} (hdeclared : clause.isDeclared = true) :
      (heritageClause view clause).Within clause.tree := by
    unfold heritageClause
    refine Run.within_bind_ofExcept fun types htypes => ?_
    refine Run.within_bind_ofExcept fun ts hts => ?_
    refine Run.Within.mono (Run.within_mapM fun t ht => ?_)
      (le_trans (Value.sum_tree_le_of_items hts) (Value.nodesIn_le_of_property htypes))
    have htdeclared := Value.all_items (Value.all_property hdeclared htypes) hts ht
    unfold heritageType
    refine Run.within_bind_ofExcept fun e he => ?_
    refine (h view.context e (Value.all_property htdeclared he)).mono ?_
    exact le_trans e.tree_le_nodesIn (Value.nodesIn_le_of_property he)
  rw [Node.shares_singleton]
  unfold heritage
  refine Run.within_bind_ofExcept fun clauses hclauses => ?_
  refine Run.Within.mono (Run.Within.andPure (Run.within_mapM fun clause hmem =>
    hclause (Value.all_items (Value.all_get hn _) hclauses hmem)) fun _ => ?_)
    (Value.sum_tree_le_of_items hclauses)
  dsimp only
  split <;> exact Run.within_pure _ _

/-- A class or an interface reports on the nodes in its name, its heritage clauses and its members,
whatever the context of the members. -/
theorem within_declaration (word : String) (inside : Flags) :
    (declaration indent word view ⟨inside, view.checker, view.convertIn⟩ n).Within
      (n.shares [.of .name, .of .heritageClauses, .of .members]) := by
  unfold declaration
  refine (h.part hn _ .name).andThen fun _ => (within_heritage h hn).andThen fun _ => ?_
  exact (h.parts hn _ _ .members).andPure fun _ => Run.within_pure _ _

/-- A property of an interface reports on the nodes in its annotation and its name. -/
theorem within_propertySignature :
    (propertySignature view n).Within (n.shares [.of .type, .of .name]) := by
  unfold propertySignature
  refine (within_renderAscription view.checker (n.get .type) _ _).field.andThen fun _ => ?_
  refine (h.part hn _ .name).andPure fun _ => ?_
  split <;> exact Run.within_pure _ _

/-- A method of an interface reports on the nodes in its annotation, its name and its parameters. -/
theorem within_methodSignature :
    (methodSignature view n).Within (n.shares [.of .type, .of .name, .of .parameters]) := by
  unfold methodSignature
  refine (within_renderAscription view.checker (n.get .type) _ _).field.andThen fun _ => ?_
  refine (h.part hn _ .name).andThen fun _ => ?_
  exact (h.parts hn _ _ .parameters).andPure fun _ => Run.within_pure _ _

/-- A property of a class reports on its annotation, on itself, and on the nodes in its name and its
initializer. -/
theorem within_propertyDeclaration : (propertyDeclaration view n).Within
    (n.shares [.of .type, .own, .of .name, .of .initializer]) := by
  have hvalue : (initialValue view (n.get .initializer)).Within (n.shares [.of .initializer]) := by
    unfold initialValue
    split
    · exact Run.within_pure _ _
    · exact (h.part hn _ .initializer).andPure fun _ => Run.within_pure _ _
  unfold propertyDeclaration
  refine (within_declaredTypeText view.checker n _ _).andThen fun _ => ?_
  refine (h.part hn _ .name).andThen fun _ => ?_
  exact hvalue.andPure fun _ => Run.within_pure _ _

/-! ### All rules -/

omit h in
/-- A shorthand property renders its name twice, as its key and as its value. -/
theorem within_shorthandAssignment
    (hnames : ∀ c (m : Node), m.kind = .identifier → (view.convertIn c m.toValue).Within 0)
    (hk : n.kind = .shorthandPropertyAssignment) :
    (shorthandAssignment view n).Within (n.shares []) := by
  have hcontent : Grammar.declared.content? n.kind .name = some (.one [.identifier]) := by
    rw [hk]
    rfl
  obtain ⟨m, hm, hmk⟩ := Node.one_of_isShaped ((Value.all_toValue n).1 hn).1 hcontent
  have hname (c : Flags) : (view.convertIn c (n.get .name)).Within (n.shares []) :=
    hm ▸ hnames c m (List.mem_singleton.1 hmk)
  exact within_assignment hname hname

/-- Every C# rule reports within shares of its node that do not overlap, as long as names report
nothing. -/
theorem splits_rule
    (hnames : ∀ c (m : Node), m.kind = .identifier → (view.convertIn c m.toValue).Within 0)
    {rule : Rule Flags} (hr : rule? indent n.kind = some rule) : rule.Splits view n := by
  have hneutral (hr : Neutral.rule? name n.kind = some rule) : rule.Splits view n :=
    Neutral.splits_rule h hn hr
  have hshorthand := within_shorthandAssignment hn hnames
  unfold Rule.Splits at *
  cases hk : n.kind <;> rw [hk] at hr hneutral <;> simp only [rule?] at hr <;>
    try exact hneutral hr
  all_goals
    obtain rfl := Option.some.inj hr
    clear hneutral
  case identifier => exact ⟨[], by decide, by decide, within_identifier⟩
  case stringLiteral => exact ⟨[], by decide, by decide, within_stringLiteral⟩
  case noSubstitutionTemplateLiteral => exact ⟨[], by decide, by decide, within_quotedText⟩
  case templateExpression => exact ⟨[], by decide, by decide, within_templateExpression⟩
  case functionDeclaration | methodDeclaration =>
    exact ⟨_, by decide, by decide, within_function h hn⟩
  case constructor => exact ⟨_, by decide, by decide, within_signature h hn _⟩
  case parameter => exact ⟨_, by decide, by decide, within_parameter h hn⟩
  case callExpression =>
    exact ⟨_, by decide, by decide,
      Dispatch.within_call (within_printCall h hn) (within_regularCall h hn)⟩
  case propertyAccessExpression => exact ⟨_, by decide, by decide, within_propertyAccess h hn⟩
  case asExpression => exact ⟨_, by decide, by decide, within_asExpression h hn⟩
  case arrayLiteralExpression => exact ⟨_, by decide, by decide, within_arrayLiteral h hn⟩
  case objectLiteralExpression => exact ⟨_, by decide, by decide, within_objectLiteral h hn⟩
  case propertyAssignment =>
    exact ⟨_, by decide, by decide,
      within_assignment (h.part hn · .name) (h.part hn · .initializer)⟩
  case shorthandPropertyAssignment => exact ⟨[], by decide, by decide, hshorthand hk⟩
  case block => exact ⟨_, by decide, by decide, within_blockStatement h hn⟩
  case expressionStatement => exact ⟨_, by decide, by decide, within_expressionStatement h hn⟩
  case ifStatement => exact ⟨_, by decide, by decide, within_ifStatement h hn⟩
  case forOfStatement => exact ⟨_, by decide, by decide, within_forOfStatement h hn⟩
  case variableDeclaration => exact ⟨_, by decide, by decide, within_variableDeclaration h hn⟩
  case classDeclaration =>
    exact ⟨_, by decide, by decide,
      Run.within_bind_ofExcept fun _ _ => within_declaration h hn _ _⟩
  case interfaceDeclaration =>
    exact ⟨_, by decide, by decide, Dispatch.within_interface (within_declaration h hn _ _)
      (within_declaration h hn _ _)⟩
  case propertySignature => exact ⟨_, by decide, by decide, within_propertySignature h hn⟩
  case methodSignature => exact ⟨_, by decide, by decide, within_methodSignature h hn⟩
  case propertyDeclaration => exact ⟨_, by decide, by decide, within_propertyDeclaration h hn⟩

end

end CSharp

end CodeSample

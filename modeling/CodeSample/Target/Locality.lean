import CodeSample.Render.Locality
import CodeSample.Target.CSharp

/-!
# The rules of both backends are local

* `Neutral.isLocal`, `CSharp.isLocal`: every rule only renders parts of its node;
* `CSharp.visit_of_rule`: a node is rendered by the rule for its kind.
-/

namespace CodeSample

open Layout (Fragment)

variable {C : Type}

/-! ### Choices -/

namespace Dispatch

/-- Calls are rendered locally if those that print are and all others are. -/
theorem isLocal_call {print regular : Rule C} (hp : print.IsLocal) (hr : regular.IsLocal) :
    Rule.IsLocal (call print regular) := by
  intro n c checker f g h
  simp only [call, hp n c checker f g h, hr n c checker f g h]

/-- Interfaces are rendered locally if both sorts of them are. -/
theorem isLocal_interface {data behaviour : Rule C} (hd : data.IsLocal)
    (hb : behaviour.IsLocal) : Rule.IsLocal (interface data behaviour) := by
  intro n c checker f g h
  simp only [interface, hd n c checker f g h, hb n c checker f g h]

/-- Object literals are rendered locally if those of each sort of type are. -/
theorem isLocal_objectLiteral {struct : Ty → Rule C} {keyed : Option Ty → Rule C}
    {untyped : Rule C} (hs : ∀ t, (struct t).IsLocal) (hk : ∀ t, (keyed t).IsLocal)
    (hu : untyped.IsLocal) : Rule.IsLocal (objectLiteral struct keyed untyped) := by
  intro n c checker f g h
  simp only [objectLiteral, hs _ n c checker f g h, hk _ n c checker f g h,
    hu n c checker f g h]

end Dispatch

/-! ### The neutral rules -/

namespace Neutral

/-- Echoing a construct renders nothing else. -/
theorem isLocal_echo (name : String) : Rule.IsLocal (@echo C name) := fun _ _ _ _ _ _ => rfl

/-- All neutral rules are local. -/
theorem isLocal_rule {name : String} {kind : Kind} {rule : Rule C}
    (hr : rule? name kind = some rule) : rule.IsLocal := by
  have echoed := @isLocal_echo C name
  cases kind <;> simp only [rule?, Option.some.injEq, reduceCtorEq] at hr
  all_goals subst hr
  case callExpression => exact Dispatch.isLocal_call echoed echoed
  case interfaceDeclaration => exact Dispatch.isLocal_interface echoed echoed
  case objectLiteralExpression =>
    exact Dispatch.isLocal_objectLiteral (fun _ => echoed) (fun _ => echoed) echoed
  all_goals
    intro n c checker f g h
    first
    | rfl
    | simp only [conditional, binary, blockOf, through, newExpression, elementAccess, prefixUnary,
        parenthesized, returnStatement, View.convert_congr (Value.depth_get_lt n _) h,
        View.convertAll_congr (Value.depth_get_lt n _) h]

/-- All rules of the neutral backend are local. -/
theorem isLocal (name : String) : (backend name).IsLocal := fun _ _ hr => isLocal_rule hr

end Neutral

/-! ### The C# rules -/

namespace CSharp

variable {n : Node} {c : Flags} {checker : Checker} {f g : Flags → Value → Run Fragment}

/-- What a declaration extends depends on how less deep values are rendered. -/
theorem heritage_congr (h : ∀ c v, v.depth < n.toValue.depth → f c v = g c v) :
    heritage ⟨c, checker, f⟩ n = heritage ⟨c, checker, g⟩ n := by
  have clauses (vs : List Value) (hvs : (n.get .heritageClauses).items = .ok vs) :
      vs.mapM (heritageClause ⟨c, checker, f⟩) = vs.mapM (heritageClause ⟨c, checker, g⟩) :=
    Run.mapM_congr fun clause hclause => by
      rw [heritageClause, heritageClause]
      refine Run.bind_congr fun types htypes => Run.bind_congr fun ts hts => ?_
      refine Run.mapM_congr fun t ht => ?_
      rw [heritageType, heritageType]
      refine Run.bind_congr fun e he => View.convert_congr ?_ h
      calc e.depth ≤ t.depth := Value.depth_le_of_property he
        _ ≤ types.depth := Value.depth_le_of_items hts ht
        _ ≤ clause.depth := Value.depth_le_of_property htypes
        _ ≤ (n.get .heritageClauses).depth := Value.depth_le_of_items hvs hclause
        _ < n.toValue.depth := Value.depth_get_lt n _
  rw [heritage, heritage]
  refine Run.bind_congr fun vs hvs => ?_
  rw [clauses vs hvs]

/-- Classes and interfaces of both sorts are rendered locally. -/
theorem isLocal_declarations (indent : Layout.Indent) :
    Rule.IsLocal (classDeclaration indent) ∧ Rule.IsLocal (dataInterface indent) ∧
      Rule.IsLocal (behaviourInterface indent) := by
  refine ⟨?_, ?_, ?_⟩ <;>
  · intro n c checker f g h
    simp only [classDeclaration, dataInterface, behaviourInterface, declaration, inClass,
      inInterface, View.withContext, heritage_congr h,
      View.convertAll_congr (Value.depth_get_lt n _) h,
      View.convert_congr (Value.depth_get_lt n _) h]

/-- Calls of both sorts are rendered locally. -/
theorem isLocal_calls : Rule.IsLocal printCall ∧ Rule.IsLocal regularCall := by
  refine ⟨?_, ?_⟩ <;>
  · intro n c checker f g h
    simp only [printCall, regularCall, asMember, View.withContext,
      View.convertAll_congr (Value.depth_get_lt n _) h,
      View.convert_congr (Value.depth_get_lt n _) h]

/-- Object literals of every sort are rendered locally. -/
theorem isLocal_literals (indent : Layout.Indent) :
    (∀ t, Rule.IsLocal (structLiteral indent t)) ∧ (∀ t, Rule.IsLocal (keyedLiteral indent t)) ∧
      Rule.IsLocal (untypedLiteral indent) := by
  refine ⟨fun t => ?_, fun t => ?_, ?_⟩ <;>
  · intro n c checker f g h
    simp only [structLiteral, untypedLiteral, keyedLiteral, amongPairs, View.withContext,
      View.convertAll_congr (Value.depth_get_lt n _) h]

/-- All C# rules are local. -/
theorem isLocal_rule {indent : Layout.Indent} {kind : Kind} {rule : Rule Flags}
    (hr : rule? indent kind = some rule) : rule.IsLocal := by
  cases kind <;> simp only [rule?, Option.some.injEq] at hr <;> try exact Neutral.isLocal_rule hr
  all_goals subst hr
  case callExpression => exact Dispatch.isLocal_call isLocal_calls.1 isLocal_calls.2
  case objectLiteralExpression =>
    obtain ⟨hs, hk, hu⟩ := isLocal_literals indent
    exact Dispatch.isLocal_objectLiteral hs hk hu
  case classDeclaration => exact (isLocal_declarations indent).1
  case interfaceDeclaration =>
    obtain ⟨_, hd, hb⟩ := isLocal_declarations indent
    exact Dispatch.isLocal_interface hd hb
  all_goals
    intro n c checker f g h
    simp only [identifier, quotedText, stringLiteral, templateExpression, function, constructor,
      signature, parameter, parameterDefault, propertyAccess, receiver, asExpression, arrayLiteral,
      propertyAssignment, shorthandAssignment, assignment, blockStatement, expressionStatement,
      ifStatement, forOfStatement, variableDeclaration, propertySignature, methodSignature,
      propertyDeclaration, initialValue, asMember, notMember, asPairKey, asPairValue,
      asPropertyName, asInitializer, View.withContext,
      View.convertAll_congr (Value.depth_get_lt n _) h,
      View.convert_congr (Value.depth_get_lt n _) h]

/-- A node is rendered by the rule for its kind. -/
theorem visit_of_rule {indent : Layout.Indent} {preferStruct : Data} {view : View Flags}
    {rule : Rule Flags} (h : rule? indent n.kind = some rule) :
    (backend indent preferStruct).visit view n = rule view n := by
  have hrule : (backend indent preferStruct).rule? n.kind = some rule := h
  rw [Backend.visit, hrule]

/-- All rules of the C# backend are local. -/
theorem isLocal (indent : Layout.Indent) (preferStruct : Data) :
    (backend indent preferStruct).IsLocal :=
  fun _ _ hr => isLocal_rule hr

end CSharp

end CodeSample

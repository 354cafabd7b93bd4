import CodeSample.Proofs.Gives
import CodeSample.Target.Neutral

/-!
# What the neutral rules write

For each neutral rule, the output that it makes of the output of the parts of its node. The output
of the parts is known by properties, which the statements carry over.

* one statement for each rule, `gives_` and the name of the rule.
-/

namespace CodeSample

open Layout (Fragment)
open Layout.Fragment (row line block separated)

variable {C : Type} (view : View C) {n : Node} {A B D : Fragment → Prop}

/-! ### Choices -/

namespace Dispatch

/-- Whether a call prints can be told if its callee has a source text. -/
theorem isPrintCall_ok {v : Value} (h : ∃ s, v.sourceText = .ok (.text s)) :
    ∃ b, isPrintCall v = .ok b := by
  obtain ⟨s, hs⟩ := h
  unfold isPrintCall
  split
  · exact ⟨_, by rw [hs]; rfl⟩
  · exact ⟨false, rfl⟩

/-- A call is rendered by one of two rules. -/
theorem gives_call {print regular : Rule C}
    (hsource : ∃ s, (n.get .expression).sourceText = .ok (.text s))
    (hprint : (print view n).Gives A) (hregular : (regular view n).Gives A) :
    (call print regular view n).Gives A := by
  obtain ⟨b, hb⟩ := isPrintCall_ok hsource
  unfold call
  refine Run.gives_bind_ofExcept hb ?_
  cases b with
  | true => exact hprint
  | false => exact hregular

/-- An object literal is rendered by one of three rules, by its type. -/
theorem gives_objectLiteral {struct : Ty → Rule C} {keyed : Option Ty → Rule C} {untyped : Rule C}
    {t? : Option Ty} (ht : view.checker.typeOfExpression n.toValue = .ok t?)
    (hstruct : ∀ t ∈ t?.bind Ty.concrete?, (struct t view n).Gives A)
    (hkeyed : ∀ t ∈ t?.bind Ty.concrete?, (keyed t.element? view n).Gives A)
    (huntyped : (untyped view n).Gives A) :
    (objectLiteral struct keyed untyped view n).Gives A := by
  unfold objectLiteral
  refine Run.gives_bind_ofExcept ht ?_
  cases h : t?.bind Ty.concrete? with
  | none => exact huntyped
  | some t =>
    dsimp only
    split
    · exact hstruct t h
    · split
      · exact huntyped
      · exact hkeyed t h

/-- An interface is rendered by one of two rules. -/
theorem gives_interface {data behaviour : Rule C} {vs : List Value}
    (hmembers : n.get .members = .list vs) (hdata : (data view n).Gives A)
    (hbehaviour : (behaviour view n).Gives A) : (interface data behaviour view n).Gives A := by
  have hb : ∃ b, isDataInterface n = .ok b := by
    unfold isDataInterface
    exact ⟨_, by rw [hmembers]; rfl⟩
  obtain ⟨b, hb⟩ := hb
  unfold interface
  refine Run.gives_bind_ofExcept hb ?_
  cases b with
  | true => exact hdata
  | false => exact hbehaviour

end Dispatch

namespace Neutral

/-- The kinds that most languages spell alike. -/
def shared : List Kind := [
  .sourceFile, .variableStatement, .variableDeclarationList, .returnStatement,
  .expressionWithTypeArguments, .numericLiteral, .trueKeyword, .falseKeyword, .nullKeyword,
  .thisKeyword, .parenthesizedExpression, .binaryExpression, .prefixUnaryExpression,
  .conditionalExpression, .elementAccessExpression, .newExpression]

/-! ### Nodes that are written as a text -/

/-- A construct that cannot be expressed writes its source text. -/
theorem gives_echo (name : String) {s : String} (hs : n.toValue.sourceText = .ok (.text s)) :
    (echo name view n).Gives (· = row [.text s]) := by
  unfold echo
  refine (Run.gives_report n _).bind fun _ _ => ?_
  exact Run.gives_bind_ofExcept hs (Run.gives_pure rfl)

/-- A word writes itself. -/
theorem gives_word (s : String) : (word s view n).Gives (· = row [.text s]) := by
  unfold word
  exact Run.gives_pure rfl

/-- A node that stands for itself writes its source text. -/
theorem gives_sourceOf {s : String} (hs : n.toValue.sourceText = .ok (.text s)) :
    (sourceOf view n).Gives (· = row [.text s]) := by
  unfold sourceOf
  exact Run.gives_bind_ofExcept hs (Run.gives_pure rfl)

/-! ### Blocks and statements -/

/-- A block writes what its field enumerates. -/
theorem gives_blockOf {f : Field} (h : (view.convertAll (n.get f)).Gives fun xs => ∀ x ∈ xs, A x) :
    (blockOf f view n).Gives fun r => ∃ xs, (∀ x ∈ xs, A x) ∧ r = block xs := by
  unfold blockOf
  exact h.bind fun xs hxs => Run.gives_pure ⟨xs, hxs, rfl⟩

/-- A return writes its word, and its expression if there is one. -/
theorem gives_returnStatement
    (h : n.get .expression = .null ∨ (view.convert (n.get .expression)).Gives A) :
    (returnStatement view n).Gives fun r =>
      r = line [.text "return;"] ∨ ∃ x, A x ∧ r = line [.text "return ", x, .text ";"] := by
  unfold returnStatement
  dsimp only
  split
  · exact Run.gives_pure (Or.inl rfl)
  · rename_i hnull
    rcases h with h | h
    · simp [h, Value.isNull] at hnull
    · exact h.bind fun x hx => Run.gives_pure (Or.inr ⟨x, hx, rfl⟩)

/-! ### Expressions -/

/-- Parentheses write themselves and their expression. -/
theorem gives_parenthesized (h : (view.convert (n.get .expression)).Gives A) :
    (parenthesized view n).Gives fun r => ∃ x, A x ∧ r = row [.text "(", x, .text ")"] := by
  unfold parenthesized
  exact h.bind fun x hx => Run.gives_pure ⟨x, hx, rfl⟩

/-- The operator that stands for one in a binary expression. -/
def strict (s : String) : String := if s = "===" then "==" else if s = "!==" then "!=" else s

/-- A binary expression writes its operands and, between them, the operator that stands for its own.
-/
theorem gives_binary {s : String} (hs : n.get .operator = .text s)
    (hleft : (view.convert (n.get .left)).Gives A)
    (hright : (view.convert (n.get .right)).Gives B) :
    (binary view n).Gives fun r => ∃ x y, A x ∧ B y ∧
      r = row [x, .text " ", .text (strict s), .text " ", y] := by
  unfold binary
  rw [hs]
  refine Run.gives_bind_ofExcept rfl ?_
  refine hleft.bind fun x hx => hright.bind fun y hy => ?_
  exact Run.gives_pure ⟨x, y, hx, hy, rfl⟩

/-- A prefix expression writes its operator and its operand. -/
theorem gives_prefixUnary {s : String} (hs : n.get .operator = .text s)
    (h : (view.convert (n.get .operand)).Gives A) :
    (prefixUnary view n).Gives fun r => ∃ x, A x ∧ r = row [.text s, x] := by
  unfold prefixUnary
  rw [hs]
  exact h.bind fun x hx => Run.gives_pure ⟨x, hx, rfl⟩

/-- A conditional expression writes its condition and its alternatives. -/
theorem gives_conditional (hcondition : (view.convert (n.get .condition)).Gives A)
    (htrue : (view.convert (n.get .whenTrue)).Gives B)
    (hfalse : (view.convert (n.get .whenFalse)).Gives D) :
    (conditional view n).Gives fun r => ∃ x y z, A x ∧ B y ∧ D z ∧
      r = row [x, .text " ? ", y, .text " : ", z] := by
  unfold conditional
  refine hcondition.bind fun x hx => htrue.bind fun y hy => hfalse.bind fun z hz => ?_
  exact Run.gives_pure ⟨x, y, z, hx, hy, hz, rfl⟩

/-- An access to an element writes what is accessed and, in brackets, the argument. -/
theorem gives_elementAccess (hexpression : (view.convert (n.get .expression)).Gives A)
    (hargument : (view.convert (n.get .argument)).Gives B) :
    (elementAccess view n).Gives fun r => ∃ x y, A x ∧ B y ∧
      r = row [x, .text "[", y, .text "]"] := by
  unfold elementAccess
  refine hexpression.bind fun x hx => hargument.bind fun y hy => ?_
  exact Run.gives_pure ⟨x, y, hx, hy, rfl⟩

/-- A construction of an object writes what is constructed and, in parentheses, the arguments. -/
theorem gives_newExpression (hexpression : (view.convert (n.get .expression)).Gives A)
    (harguments : (view.convertAll (n.get .arguments)).Gives fun xs => ∀ x ∈ xs, B x) :
    (newExpression view n).Gives fun r => ∃ x ys, A x ∧ (∀ y ∈ ys, B y) ∧
      r = row [.text "new ", x, .text "(", separated ", " ys, .text ")"] := by
  unfold newExpression
  refine hexpression.bind fun x hx => harguments.bind fun ys hys => ?_
  exact Run.gives_pure ⟨x, ys, hx, hys, rfl⟩

end Neutral

end CodeSample

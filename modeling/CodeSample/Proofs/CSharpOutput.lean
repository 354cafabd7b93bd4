import CodeSample.Proofs.NeutralOutput
import CodeSample.Proofs.TypeWords

/-!
# What the C# rules write

For each C# rule, the output that it makes of the output of the parts of its node. The output of the
parts is known by properties, which the statements carry over; a word that is written for a type is
known by a property of texts.

* `spelledName` is the spelling of a name in a context, and `templateOf` an interpolated string;
* one statement for each rule, `gives_` and the name of the rule.
-/

namespace CodeSample.CSharp

open Layout (Fragment Indent)
open Layout.Fragment (row line separated)

variable (view : View Flags) {n : Node} {A B D : Fragment → Prop} {Q : String → Prop}
variable {indent : Indent}

/-- The C# backend takes over the neutral rules for what most languages spell alike. -/
theorem rule?_of_shared (indent : Indent) {kind : Kind} (h : kind ∈ Neutral.shared) :
    rule? indent kind = Neutral.rule? name kind := by
  cases kind <;> first | rfl | exact absurd h (by decide)

/-! ### Names and literals -/

/-- Capitalising a text makes its first letter a capital. -/
theorem capitalized_text (s : String) : capitalized (.text s) = .ok (Text.upperFirst s) := by
  unfold capitalized
  by_cases h : s = ""
  · subst h
    simp [Value.truthy]
  · simp [Value.truthy, h]

/-- The spelling of a name: quoted, capitalised, or as it is. -/
def spelledName (c : Flags) (kind : Kind) (s : String) : String :=
  if c.identifierAsString.truthy then Text.quote s
  else if c.memberPosition.truthy then safeName (Text.upperFirst s)
  else if kind = .identifier ∧ s = "undefined" then "null"
  else safeName s

/-- An identifier is written as its context spells the name. -/
theorem gives_identifier {s : String} (hs : n.get .text = .text s) :
    (identifier view n).Gives (· = row [.text (spelledName view.context n.kind s)]) := by
  unfold identifier spelledName
  rw [hs]
  dsimp only
  split
  · exact Run.gives_bind_ofExcept rfl (Run.gives_pure rfl)
  · split
    · exact Run.gives_bind_ofExcept (capitalized_text s) (Run.gives_pure rfl)
    · have htext : (Value.text s).isText "undefined" = true ↔ s = "undefined" := by
        simp [Value.isText, Value.text?]
      simp only [htext]
      split
      · exact Run.gives_pure rfl
      · exact Run.gives_bind_ofExcept rfl (Run.gives_pure rfl)

/-- A literal text is written in quotes. -/
theorem gives_quotedText {s : String} (hs : n.get .text = .text s) :
    (quotedText view n).Gives (· = row [.text (Text.quote s)]) := by
  unfold quotedText
  rw [hs]
  exact Run.gives_bind_ofExcept rfl (Run.gives_pure rfl)

/-- A string literal is written as a name where it stands for one, and in quotes elsewhere. -/
theorem gives_stringLiteral {s : String} (hs : n.get .text = .text s) :
    (stringLiteral view n).Gives (· = row [.text
      (if view.context.stringAsIdentifier.truthy then spelledName view.context n.kind s
        else Text.quote s)]) := by
  unfold stringLiteral
  split
  · exact gives_identifier view hs
  · exact gives_quotedText view hs

/-- The text of an interpolated string: what stands in front, and holes with what follows each. -/
def templateOf (head : String) (spans : List (String × String)) : String :=
  "$\"" ++ Text.escapeInterpolated head ++
    String.join (spans.map fun x => "\x7b" ++ x.1 ++ "\x7d" ++ Text.escapeInterpolated x.2) ++ "\""

/-- In an interpolated string a text is escaped. -/
theorem interpolated_text (s : String) :
    interpolated (.text s) = .ok (Text.escapeInterpolated s) := by
  unfold interpolated
  by_cases h : s = ""
  · subst h
    rfl
  · simp [Value.truthy, Value.text?, h]

/-- A value is the span of a template, with these texts in the hole and after it. -/
def IsSpanOf (v : Value) (x : String × String) : Prop :=
  ∃ e, v.property .expression = .ok e ∧ e.sourceText = .ok (.text x.1) ∧
    v.property .literal = .ok (.text x.2)

/-- A span writes its hole in braces and the text after it, escaped. -/
theorem templateSpan_eq {v : Value} {x : String × String} (h : IsSpanOf v x) :
    templateSpan v = .ok ("\x7b" ++ x.1 ++ "\x7d" ++ Text.escapeInterpolated x.2) := by
  obtain ⟨e, he, hhole, hliteral⟩ := h
  unfold templateSpan
  rw [he, hliteral]
  change (do
    let hole ← e.sourceText
    let hole ← hole.between "\x7b" "\x7d"
    return (hole.text?.getD "") ++ (← interpolated (.text x.2))) = _
  rw [hhole, interpolated_text]
  rfl

/-- A template writes what stands in front, its holes and the texts between them. -/
theorem templateText_eq {head : String} {vs : List Value} {spans : List (String × String)}
    (hhead : n.get .head = .text head) (hvs : n.get .spans = .list vs)
    (h : List.Forall₂ IsSpanOf vs spans) : templateText n = .ok (templateOf head spans) := by
  have holes : vs.mapM templateSpan =
      .ok (spans.map fun x => "\x7b" ++ x.1 ++ "\x7d" ++ Text.escapeInterpolated x.2) := by
    clear hvs
    induction h with
    | nil => rfl
    | cons hspan _ ih =>
      rw [List.mapM_cons, templateSpan_eq hspan, ih]
      rfl
  unfold templateText
  rw [hhead, hvs, interpolated_text]
  change (do
    let spans ← vs.mapM templateSpan
    return "$\"" ++ Text.escapeInterpolated head ++ String.join spans ++ "\"") = _
  rw [holes]
  rfl

/-- A value is the span of a template, with a source text in the hole and a text after it. -/
def IsSpan (P R : String → Prop) (v : Value) : Prop :=
  ∃ e hole literal, v.property .expression = .ok e ∧ e.sourceText = .ok (.text hole) ∧
    v.property .literal = .ok (.text literal) ∧ P hole ∧ R literal

/-- Values that are spans have texts in their holes and after them. -/
theorem exists_spans {P R : String → Prop} {vs : List Value} (h : ∀ v ∈ vs, IsSpan P R v) :
    ∃ spans : List (String × String), (∀ x ∈ spans, P x.1 ∧ R x.2) ∧
      List.Forall₂ IsSpanOf vs spans := by
  induction vs with
  | nil => exact ⟨[], by simp, .nil⟩
  | cons v vs ih =>
    obtain ⟨spans, hspans, hall⟩ := ih fun w hw => h w (by simp [hw])
    obtain ⟨e, hole, literal, he, hhole, hliteral, hp, hr⟩ := h v (by simp)
    exact ⟨(hole, literal) :: spans, List.forall_mem_cons.2 ⟨⟨hp, hr⟩, hspans⟩,
      .cons ⟨e, he, hhole, hliteral⟩ hall⟩

/-- A template is written as an interpolated string of its texts. -/
theorem gives_templateExpression {P R : String → Prop} {head : String} {vs : List Value}
    (hhead : n.get .head = .text head) (hspans : n.get .spans = .list vs)
    (h : ∀ v ∈ vs, IsSpan P R v) :
    (templateExpression view n).Gives fun r =>
      ∃ spans : List (String × String), (∀ x ∈ spans, P x.1 ∧ R x.2) ∧
        r = row [.text (templateOf head spans)] := by
  obtain ⟨spans, hall, hmatch⟩ := exists_spans h
  unfold templateExpression
  exact Run.gives_bind_ofExcept (templateText_eq hhead hspans hmatch)
    (Run.gives_pure ⟨spans, hall, rfl⟩)

/-! ### Functions -/

/-- Parameters in parentheses and a body. -/
theorem gives_signature {head : List Fragment}
    (hparameters : (view.convertAll (n.get .parameters)).Gives fun xs => ∀ x ∈ xs, A x)
    (hbody : n.get .body = .null ∨ (view.convert (n.get .body)).Gives B) :
    (signature view n head).Gives fun r => ∃ xs, (∀ x ∈ xs, A x) ∧
      (r = line (head ++ [.text "(", separated ", " xs, .text ");"]) ∨
        ∃ y, B y ∧ r = .tree (head ++ [.text "(", separated ", " xs, .text ") "]) [y]
          { fresh := true }) := by
  unfold signature
  refine hparameters.bind fun xs hxs => ?_
  dsimp only
  split
  · exact Run.gives_pure ⟨xs, hxs, Or.inl rfl⟩
  · rename_i hnull
    rcases hbody with hbody | hbody
    · simp [hbody, Value.isNull] at hnull
    · exact hbody.bind fun y hy => Run.gives_pure ⟨xs, hxs, Or.inr ⟨y, hy, rfl⟩⟩

/-- The head of a function or method: a word for its type, and its name. -/
theorem gives_function (hQ : TypeWords Q) (htype : view.checker.KnowsIfAny Q (n.get .type))
    (hname : ((asMember view).convert (n.get .name)).Gives A)
    (h : ∀ x w, A x → Q w →
      (signature view n [.text "public ", .text w, .text " ", x]).Gives D) :
    (function view n).Gives D := by
  unfold function
  refine hname.bind fun x hx => ?_
  refine (gives_renderAscription hQ htype false (hQ.word _ (by simp))).bind ?_
  rintro _ ⟨w, rfl, hw⟩
  exact h x w hx hw

/-- The head of a constructor: the name of its class, or a placeholder outside of classes. -/
theorem gives_constructor {P : String → Prop} (hplaceholder : P placeholderClass)
    (hclass : view.context.className = .null ∨ view.context.className.IsWord P)
    (h : ∀ w, P w → (signature view n [.text "public ", .text w]).Gives D) :
    (constructor view n).Gives D := by
  unfold constructor Value.orElse
  split
  · rename_i htruthy
    rcases hclass with hnull | ⟨w, hw, hp⟩
    · simp [hnull, Value.truthy] at htruthy
    · rw [hw]
      exact h w hp
  · exact h placeholderClass hplaceholder

/-- A parameter: a word for its type, its name, and its default if it may be left out. -/
theorem gives_parameter (hQ : TypeWords Q) (htype : view.checker.KnowsIfAny Q (n.get .type))
    (hinitializer : view.checker.KnowsIfAny Q (n.get .initializer))
    (hname : (view.convert (n.get .name)).Gives A)
    (hvalue : n.get .initializer = .null ∨ (view.convert (n.get .initializer)).Gives B) :
    (parameter view n).Gives fun r => ∃ w x default, Q w ∧ A x ∧
      (default = [] ∨ default = [.text " = ", .text "null"] ∨
        ∃ y, B y ∧ default = [.text " = ", y]) ∧
      r = row ([.text w, .text " ", x] ++ default) := by
  have hdefault (annotated : Option Ty) : (parameterDefault view n annotated).Gives fun default =>
      default = [] ∨ default = [.text " = ", .text "null"] ∨
        ∃ y, B y ∧ default = [.text " = ", y] := by
    unfold parameterDefault
    split
    · exact Run.gives_pure (Or.inl rfl)
    · split
      · exact Run.gives_pure (Or.inr (Or.inl rfl))
      · rename_i hnull
        rcases hvalue with hvalue | hvalue
        · simp [hvalue, Value.isNull] at hnull
        · exact hvalue.bind fun y hy => Run.gives_pure (Or.inr (Or.inr ⟨y, hy, rfl⟩))
  obtain ⟨annotated, hannotated, -⟩ := htype.ascribed?
  unfold parameter
  refine Run.gives_bind_ofExcept hannotated ?_
  refine (gives_parameterType hQ htype hinitializer).bind ?_
  rintro _ ⟨w, rfl, hw⟩
  refine (hdefault annotated).bind fun default hd => hname.bind fun x hx => ?_
  exact Run.gives_pure ⟨w, x, default, hw, hx, hd, rfl⟩

/-! ### Expressions -/

/-- A call that prints, of at most one argument or of several. -/
theorem gives_printCall {vs : List Value} (harguments : n.get .arguments = .list vs)
    (h : (view.convertAll (n.get .arguments)).Gives fun xs => ∀ x ∈ xs, A x) :
    (printCall view n).Gives fun r => ∃ xs, (∀ x ∈ xs, A x) ∧
      (r = row ([.text "Console.WriteLine("] ++ xs ++ [.text ")"]) ∨
        r = row [.text "Console.WriteLine(", .text "$\"",
          separated " " (xs.map fun x => row [.text "\x7b", x, .text "\x7d"]), .text "\"",
          .text ")"]) := by
  have hcount : count (n.get .arguments) = .ok vs.length := by
    rw [harguments]
    rfl
  unfold printCall
  refine Run.gives_bind_ofExcept hcount ?_
  split
  · exact h.bind fun xs hxs => Run.gives_pure ⟨xs, hxs, Or.inl rfl⟩
  · exact h.bind fun xs hxs => Run.gives_pure ⟨xs, hxs, Or.inr rfl⟩

/-- A call writes its callee and, in parentheses, its arguments with commas between them. -/
theorem gives_regularCall (hcallee : ((asMember view).convert (n.get .expression)).Gives A)
    (harguments : (view.convertAll (n.get .arguments)).Gives fun xs => ∀ x ∈ xs, B x) :
    (regularCall view n).Gives fun r => ∃ x ys, A x ∧ (∀ y ∈ ys, B y) ∧
      r = row [x, .text "(", separated ", " ys, .text ")"] := by
  unfold regularCall
  refine hcallee.bind fun x hx => harguments.bind fun ys hys => ?_
  exact Run.gives_pure ⟨x, ys, hx, hys, rfl⟩

/-- Whether a value is `this` can be told if it has a source text. -/
theorem isThis_ok {v : Value} (h : ∃ s, v.sourceText = .ok (.text s)) : ∃ b, isThis v = .ok b := by
  obtain ⟨s, hs⟩ := h
  unfold isThis
  split
  · exact ⟨true, rfl⟩
  · exact ⟨_, by rw [hs]; rfl⟩

/-- A property access, with its receiver or without. -/
theorem gives_propertyAccess (hsource : ∃ s, (n.get .expression).sourceText = .ok (.text s))
    (hreceiver : ((notMember view).convert (n.get .expression)).Gives A)
    (hname : ((asMember view).convert (n.get .name)).Gives B) :
    (propertyAccess view n).Gives fun r => ∃ y, B y ∧
      (r = row [y] ∨ ∃ x, A x ∧ r = row [x, .text ".", y]) := by
  obtain ⟨b, hb⟩ := isThis_ok hsource
  have hfront : (receiver view (n.get .expression)).Gives fun front =>
      front = [] ∨ ∃ x, A x ∧ front = [x, .text "."] := by
    unfold receiver
    refine Run.gives_bind_ofExcept hb ?_
    cases b with
    | true => exact Run.gives_pure (Or.inl rfl)
    | false => exact hreceiver.bind fun x hx => Run.gives_pure (Or.inr ⟨x, hx, rfl⟩)
  unfold propertyAccess
  refine hfront.bind fun front hfront => hname.bind fun y hy => ?_
  rcases hfront with rfl | ⟨x, hx, rfl⟩
  · exact Run.gives_pure ⟨y, hy, Or.inl rfl⟩
  · exact Run.gives_pure ⟨y, hy, Or.inr ⟨x, hx, rfl⟩⟩

/-- A cast writes the word for its type in parentheses, and its expression. -/
theorem gives_asExpression (hQ : TypeWords Q) (htype : view.checker.KnowsIfAny Q (n.get .type))
    (h : (view.convert (n.get .expression)).Gives A) :
    (asExpression view n).Gives fun r => ∃ w x, Q w ∧ A x ∧
      r = row [.text "(", .text w, .text ")", x] := by
  unfold asExpression
  refine (gives_renderAscription hQ htype false (hQ.word _ (by simp))).bind ?_
  rintro _ ⟨w, rfl, hw⟩
  exact h.bind fun x hx => Run.gives_pure ⟨w, x, hw, hx, rfl⟩

/-! ### Object and array literals -/

/-- An array literal writes its elements in braces. -/
theorem gives_arrayLiteral
    (h : (view.convertAll (n.get .elements)).Gives fun xs => ∀ x ∈ xs, A x) :
    (arrayLiteral indent view n).Gives fun r => ∃ xs, (∀ x ∈ xs, A x) ∧
      r = initializerList indent [.text "new []"] xs := by
  unfold arrayLiteral
  exact h.bind fun xs hxs => Run.gives_pure ⟨xs, hxs, rfl⟩

/-- What a literal makes: a struct by a word for its type, or a dictionary of values by one. -/
def IsMade (Q : String → Prop) (s : String) : Prop :=
  ∃ w, Q w ∧ (s = "new " ++ w ∨ s = "new Dictionary<string, " ++ w ++ ">")

/-- An object literal of a struct type writes the struct that it makes and its properties in braces.
-/
theorem gives_structLiteral (hQ : TypeWords Q) {t : Ty} (ht : t.Named Q)
    (h : (view.convertAll (n.get .properties)).Gives fun xs => ∀ x ∈ xs, A x) :
    (structLiteral indent t view n).Gives fun r => ∃ s xs, IsMade Q s ∧ (∀ x ∈ xs, A x) ∧
      r = initializerList indent [.text s] xs := by
  obtain ⟨w, hw, hq⟩ := isWord_typeName hQ ht
  unfold structLiteral
  refine Run.gives_bind_ofExcept hw ?_
  refine Run.gives_bind_ofExcept rfl ?_
  exact h.bind fun xs hxs => Run.gives_pure ⟨"new " ++ w, xs, ⟨w, hq, Or.inl rfl⟩, hxs, rfl⟩

/-- An object literal writes the dictionary that it makes and its pairs in braces. -/
theorem gives_keyedLiteral (hQ : TypeWords Q) {element : Option Ty} (ht : ∀ t ∈ element, t.Named Q)
    (h : ((amongPairs view).convertAll (n.get .properties)).Gives fun xs => ∀ x ∈ xs, A x) :
    (keyedLiteral indent element view n).Gives fun r => ∃ s xs, IsMade Q s ∧ (∀ x ∈ xs, A x) ∧
      r = initializerList indent [.text s] xs := by
  have hvalue : (valueType n element).Gives (Value.IsWord Q) := by
    cases element with
    | none => exact Run.gives_pure ⟨"object", rfl, hQ.word _ (by simp)⟩
    | some t => exact gives_renderType hQ n t (ht t rfl) false
  unfold keyedLiteral
  refine hvalue.bind ?_
  rintro _ ⟨w, rfl, hw⟩
  refine h.bind fun xs hxs => ?_
  refine Run.gives_bind_ofExcept rfl (Run.gives_pure ?_)
  exact ⟨_, xs, ⟨w, hw, Or.inr rfl⟩, hxs, rfl⟩

/-- An object literal of unknown type writes either, as the context prefers. -/
theorem gives_untypedLiteral (hQ : TypeWords Q)
    (hstruct : (view.convertAll (n.get .properties)).Gives fun xs => ∀ x ∈ xs, A x)
    (hkeyed : ((amongPairs view).convertAll (n.get .properties)).Gives fun xs => ∀ x ∈ xs, A x) :
    (untypedLiteral indent view n).Gives fun r => ∃ s xs,
      (IsMade Q s ∨ s = "new " ++ placeholderStruct) ∧ (∀ x ∈ xs, A x) ∧
      r = initializerList indent [.text s] xs := by
  unfold untypedLiteral
  split
  · exact hstruct.bind fun xs hxs => Run.gives_pure ⟨_, xs, Or.inr rfl, hxs, rfl⟩
  · refine (gives_keyedLiteral view hQ (by simp) hkeyed).mono ?_
    rintro _ ⟨s, xs, hs, hxs, rfl⟩
    exact ⟨s, xs, Or.inl hs, hxs, rfl⟩

/-- A pair of a dictionary, or an assignment to a property. -/
theorem gives_assignment {key value : Value}
    (hpair : view.context.keyValue.truthy = true →
      ((asPairKey view).convert key).Gives A ∧ ((asPairValue view).convert value).Gives B)
    (hproperty : view.context.keyValue.truthy = false →
      ((asPropertyName view).convert key).Gives A ∧ (view.convert value).Gives B) :
    (assignment view key value).Gives fun r => ∃ x y, A x ∧ B y ∧
      (r = line [.text "\x7b ", x, .text ", ", y, .text " \x7d"] ∨
        r = line [x, .text " = ", y]) := by
  unfold assignment
  split
  · rename_i h
    obtain ⟨hkey, hvalue⟩ := hpair h
    refine hkey.bind fun x hx => hvalue.bind fun y hy => ?_
    exact Run.gives_pure ⟨x, y, hx, hy, Or.inl rfl⟩
  · rename_i h
    obtain ⟨hkey, hvalue⟩ := hproperty (by simpa using h)
    refine hkey.bind fun x hx => hvalue.bind fun y hy => ?_
    exact Run.gives_pure ⟨x, y, hx, hy, Or.inr rfl⟩

/-! ### Statements -/

/-- A block writes its statements between braces on lines of their own. -/
theorem gives_blockStatement
    (h : (view.convertAll (n.get .statements)).Gives fun xs => ∀ x ∈ xs, A x) :
    (blockStatement indent view n).Gives fun r => ∃ xs, (∀ x ∈ xs, A x) ∧
      r = .tree [.text "\n\x7b"] xs { indent, closing := some "\n\x7d" } := by
  unfold blockStatement
  exact h.bind fun xs hxs => Run.gives_pure ⟨xs, hxs, rfl⟩

/-- An expression statement writes its expression and a semicolon. -/
theorem gives_expressionStatement (h : (view.convert (n.get .expression)).Gives A) :
    (expressionStatement view n).Gives fun r => ∃ x, A x ∧ r = line [x, .text ";"] := by
  unfold expressionStatement
  exact h.bind fun x hx => Run.gives_pure ⟨x, hx, rfl⟩

/-- A conditional, without an alternative, with one that is a conditional again, or with another. -/
theorem gives_ifStatement (hcondition : (view.convert (n.get .expression)).Gives A)
    (hthen : (view.convert (n.get .thenStatement)).Gives B)
    (helse : n.get .elseStatement = .null ∨ (view.convert (n.get .elseStatement)).Gives D) :
    (ifStatement indent view n).Gives fun r => ∃ x y, A x ∧ B y ∧
      let consequence :=
        withBody indent [.text "if (", x, .text ") "] (n.get .thenStatement) y
      (n.get .elseStatement = .null ∧ r = consequence ∨ ∃ z, D z ∧ ∃ alternative,
        ((n.get .elseStatement).isKind .ifStatement = true ∧
            alternative = line [.text "else ", z] ∨
          (n.get .elseStatement).isKind .ifStatement = false ∧
            alternative = withBody indent [.text "else "] (n.get .elseStatement) z) ∧
        r = .tree [] [consequence, alternative] { separator := some "\n", fresh := true }) := by
  unfold ifStatement
  refine hcondition.bind fun x hx => ?_
  dsimp only
  refine hthen.bind fun y hy => ?_
  rcases helse with hnull | helse
  · rw [hnull]
    exact Run.gives_pure ⟨x, y, hx, hy, Or.inl ⟨rfl, rfl⟩⟩
  · split
    · rename_i hnull
      have hnull : n.get .elseStatement = .null := by
        cases h : n.get .elseStatement <;> simp_all [Value.isNull]
      exact Run.gives_pure ⟨x, y, hx, hy, Or.inl ⟨hnull, rfl⟩⟩
    · refine helse.bind fun z hz => Run.gives_pure ⟨x, y, hx, hy, Or.inr ⟨z, hz, _, ?_, rfl⟩⟩
      cases h : (n.get .elseStatement).isKind .ifStatement
      · exact Or.inr ⟨rfl, rfl⟩
      · exact Or.inl ⟨rfl, rfl⟩

/-- The variable of a loop: the source text of a declared name, or a placeholder. -/
theorem gives_loopVariable {P : String → Prop} (hplaceholder : P unknownVariable) {m : Node}
    (hlist : m.kind = .variableDeclarationList → ∃ vs, m.get .declarations = .list vs ∧
      ∀ v ∈ vs, ∃ name s, v.property .name = .ok name ∧ name.sourceText = .ok (.text s) ∧ P s) :
    (loopVariable m.toValue).Gives (Value.IsWord P) := by
  have hsole : ∃ declaration?, soleDeclaration? m.toValue = .ok declaration? ∧
      ∀ v ∈ declaration?, ∃ name s, v.property .name = .ok name ∧
        name.sourceText = .ok (.text s) ∧ P s := by
    unfold soleDeclaration?
    by_cases hk : m.kind = .variableDeclarationList
    · rw [if_pos (by simp [Value.isKind, Value.kind?, hk])]
      obtain ⟨vs, hvs, hall⟩ := hlist hk
      have hproperty : m.toValue.property .declarations = .ok (.list vs) := by
        rw [Node.property_toValue (by rw [hk]; rfl), hvs]
      rw [hproperty]
      cases vs with
      | nil => exact ⟨none, rfl, by simp⟩
      | cons declaration rest =>
        cases rest with
        | nil => exact ⟨some declaration, rfl, fun v hv => hall v (by simp_all)⟩
        | cons _ _ => exact ⟨none, rfl, by simp⟩
    · rw [if_neg (by simp [Value.isKind, Value.kind?, hk])]
      exact ⟨none, rfl, by simp⟩
  obtain ⟨declaration?, hdeclaration, hall⟩ := hsole
  unfold loopVariable
  refine Run.gives_bind_ofExcept hdeclaration ?_
  cases declaration? with
  | none =>
    refine (Run.gives_report m _).bind fun _ _ => Run.gives_pure ?_
    exact ⟨unknownVariable, rfl, hplaceholder⟩
  | some declaration =>
    obtain ⟨name, s, hname, hs, hp⟩ := hall declaration rfl
    exact Run.gives_bind_ofExcept hname (Run.gives_ofExcept hs ⟨s, rfl, hp⟩)

/-- A loop writes its variable and what it goes through in parentheses, and then its body. -/
theorem gives_forOfStatement {P : String → Prop}
    (hvariable : (loopVariable (n.get .initializer)).Gives (Value.IsWord P))
    (hexpression : (view.convert (n.get .expression)).Gives A)
    (hbody : (view.convert (n.get .statement)).Gives B) :
    (forOfStatement indent view n).Gives fun r => ∃ s x y, P s ∧ A x ∧ B y ∧
      r = withBody indent
        [.text "foreach (var ", .text s, .text " in ", x, .text ") "] (n.get .statement) y := by
  unfold forOfStatement
  refine hvariable.bind ?_
  rintro _ ⟨s, rfl, hs⟩
  refine hexpression.bind fun x hx => ?_
  dsimp only
  exact hbody.bind fun y hy => Run.gives_pure ⟨s, x, y, hs, hx, hy, rfl⟩

/-- A declaration of a variable, with an initial value or without. -/
theorem gives_variableDeclaration (hQ : TypeWords Q)
    (htype : view.checker.KnowsIfAny Q (n.get .type))
    (hinitializer : view.checker.KnowsIfAny Q (n.get .initializer))
    (hname : (view.convert (n.get .name)).Gives A)
    (hvalue : n.get .initializer = .null ∨
      ((asInitializer view).convert (n.get .initializer)).Gives B) :
    (variableDeclaration view n).Gives fun r => ∃ w x, Q w ∧ A x ∧
      (r = line [.text w, .text " ", x, .text ";"] ∨
        ∃ y, B y ∧ r = line [.text w, .text " ", x, .text " = ", y, .text ";"]) := by
  unfold variableDeclaration
  refine (gives_declaredTypeText hQ htype hinitializer false (hQ.word _ (by simp))).bind ?_
  rintro _ ⟨s, rfl, hs⟩
  obtain ⟨w, hw, hq⟩ := variableType_text hQ hs
  refine Run.gives_bind_ofExcept hw ?_
  dsimp only
  refine hname.bind fun x hx => ?_
  split
  · refine Run.gives_pure ?_
    split
    · exact ⟨"object", x, hQ.word _ (by simp), hx, Or.inl rfl⟩
    · exact ⟨w, x, hq, hx, Or.inl rfl⟩
  · rename_i hnull
    rcases hvalue with hvalue | hvalue
    · simp [hvalue, Value.isNull] at hnull
    · exact hvalue.bind fun y hy => Run.gives_pure ⟨w, x, hq, hx, Or.inr ⟨y, hy, rfl⟩⟩

/-! ### Types and members -/

/-- The types that a class or an interface extends or implements. -/
theorem gives_heritage {clauses : List Value} (hclauses : n.get .heritageClauses = .list clauses)
    (h : ∀ clause ∈ clauses, ∃ types, clause.property .types = .ok (.list types) ∧
      ∀ t ∈ types, ∃ e, t.property .expression = .ok e ∧ (view.convert e).Gives A) :
    (heritage view n).Gives fun front => front = [] ∨ ∃ xs, (∀ x ∈ xs, A x) ∧
      front = [.text " : ", separated ", " xs] := by
  have hclause (clause : Value) (hmem : clause ∈ clauses) :
      (heritageClause view clause).Gives fun xs => ∀ x ∈ xs, A x := by
    obtain ⟨types, htypes, hall⟩ := h clause hmem
    unfold heritageClause
    refine Run.gives_bind_ofExcept htypes (Run.gives_bind_ofExcept rfl ?_)
    refine Run.gives_mapM fun t ht => ?_
    obtain ⟨e, he, hgives⟩ := hall t ht
    exact Run.gives_bind_ofExcept he hgives
  unfold heritage
  rw [hclauses]
  refine Run.gives_bind_ofExcept rfl ((Run.gives_mapM hclause).bind fun lists hlists => ?_)
  have hflat : ∀ x ∈ lists.flatten, A x := by
    intro x hx
    obtain ⟨xs, hxs, hmem⟩ := List.mem_flatten.1 hx
    exact hlists xs hxs x hmem
  dsimp only
  split
  · exact Run.gives_pure (Or.inl rfl)
  · exact Run.gives_pure (Or.inr ⟨_, hflat, rfl⟩)

/-- A class or an interface. -/
theorem gives_declaration {word : String} {inside : View Flags}
    (hname : (view.convert (n.get .name)).Gives A)
    (hheritage : (heritage view n).Gives fun front => front = [] ∨ ∃ xs, (∀ x ∈ xs, B x) ∧
      front = [.text " : ", separated ", " xs])
    (hmembers : (inside.convertAll (n.get .members)).Gives fun xs => ∀ x ∈ xs, D x) :
    (declaration indent word view inside n).Gives fun r => ∃ x front ys, A x ∧
      (front = [] ∨ ∃ xs, (∀ x ∈ xs, B x) ∧ front = [.text " : ", separated ", " xs]) ∧
      (∀ y ∈ ys, D y) ∧
      r = .tree ([.text word, x] ++ front ++ [.text "\n\x7b"]) ys
        { indent, fresh := true, closing := some "\n\x7d" } := by
  unfold declaration
  refine hname.bind fun x hx => hheritage.bind fun front hfront => hmembers.bind fun ys hys => ?_
  exact Run.gives_pure ⟨x, front, ys, hx, hfront, hys, rfl⟩

/-- A property of an interface writes its type, its name and its accessors, and is public in an
interface that only holds data. -/
theorem gives_propertySignature (hQ : TypeWords Q)
    (htype : view.checker.KnowsIfAny Q (n.get .type))
    (hname : ((asMember view).convert (n.get .name)).Gives A) :
    (propertySignature view n).Gives fun r => ∃ w x, Q w ∧ A x ∧
      (r = line [.text "public ", .text w, .text " ", x, .text " \x7b get; set; \x7d"] ∨
        r = line [.text w, .text " ", x, .text " \x7b get; \x7d"]) := by
  unfold propertySignature
  refine (gives_renderAscription hQ htype _ (hQ.word _ (by simp))).bind ?_
  rintro _ ⟨w, rfl, hw⟩
  refine hname.bind fun x hx => ?_
  split
  · exact Run.gives_pure ⟨w, x, hw, hx, Or.inl rfl⟩
  · exact Run.gives_pure ⟨w, x, hw, hx, Or.inr rfl⟩

/-- A method of an interface writes its type, its name and its parameters. -/
theorem gives_methodSignature (hQ : TypeWords Q)
    (htype : view.checker.KnowsIfAny Q (n.get .type))
    (hname : ((asMember view).convert (n.get .name)).Gives A)
    (hparameters : (view.convertAll (n.get .parameters)).Gives fun xs => ∀ x ∈ xs, B x) :
    (methodSignature view n).Gives fun r => ∃ w x ys, Q w ∧ A x ∧ (∀ y ∈ ys, B y) ∧
      r = line [.text w, .text " ", x, .text "(", separated ", " ys, .text ");"] := by
  unfold methodSignature
  refine (gives_renderAscription hQ htype false (hQ.word _ (by simp))).bind ?_
  rintro _ ⟨w, rfl, hw⟩
  refine hname.bind fun x hx => hparameters.bind fun ys hys => ?_
  exact Run.gives_pure ⟨w, x, ys, hw, hx, hys, rfl⟩

/-- A property of a class, with an initial value or without. -/
theorem gives_propertyDeclaration (hQ : TypeWords Q)
    (htype : view.checker.KnowsIfAny Q (n.get .type))
    (hinitializer : view.checker.KnowsIfAny Q (n.get .initializer))
    (hname : ((asMember view).convert (n.get .name)).Gives A)
    (hvalue : n.get .initializer = .null ∨ (view.convert (n.get .initializer)).Gives B) :
    (propertyDeclaration view n).Gives fun r => ∃ w x value, Q w ∧ A x ∧
      (value = [] ∨ ∃ y, B y ∧ value = [.text " = ", y, .text ";"]) ∧
      r = line ([.text "public ", .text w, .text " ", x, .text " \x7b get; set; \x7d"] ++
        value) := by
  have hinitial : (initialValue view (n.get .initializer)).Gives fun value =>
      value = [] ∨ ∃ y, B y ∧ value = [.text " = ", y, .text ";"] := by
    unfold initialValue
    split
    · exact Run.gives_pure (Or.inl rfl)
    · rename_i hnull
      rcases hvalue with hvalue | hvalue
      · simp [hvalue, Value.isNull] at hnull
      · exact hvalue.bind fun y hy => Run.gives_pure (Or.inr ⟨y, hy, rfl⟩)
  unfold propertyDeclaration
  dsimp only
  refine (gives_declaredTypeText hQ htype hinitializer _ (hQ.word _ (by simp))).bind ?_
  rintro _ ⟨w, rfl, hw⟩
  refine hname.bind fun x hx => hinitial.bind fun value hv => ?_
  exact Run.gives_pure ⟨w, x, value, hw, hx, hv, rfl⟩

end CodeSample.CSharp

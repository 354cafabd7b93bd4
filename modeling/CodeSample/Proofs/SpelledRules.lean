import CodeSample.Proofs.Calls
import CodeSample.Proofs.OptionalMarks
import CodeSample.Proofs.SpelledKeys
import CodeSample.Proofs.TypeCodec

/-!
# Rules on trees that are spelled out

A rule renders a node whose parts are spelled out like the node itself, if that holds of how the
parts are rendered: what it reports is spelled out as well, and its outcome is the same.

* `Run.spelledOut` is a run with what it reports spelled out, with a lemma for each way in which
  runs are put together;
* `Flags.namesKeys` are the contexts in which keys are rendered, and `KeepsSpelling` says that trees
  which are spelled out are rendered like the trees, keys only in such contexts;
* `renderType_spelledOut`, `heritage_spelledOut`, … are the steps of the rules;
* `Rule.KeepsSpelling` says it of a rule, and `keepsSpelling_rule` of all rules of the C# backend.
-/

namespace CodeSample

open Layout (Fragment Indent)

/-! ### Runs -/

/-- A diagnostic on a node whose parts are spelled out. -/
def Diagnostic.spelledOut (d : Diagnostic) : Diagnostic := { d with node := d.node.spelledOut }

namespace Run

variable {α β : Type}

/-- A run with all that is reported spelled out. -/
def spelledOut (r : Run α) : Run α := ⟨r.reports.map Diagnostic.spelledOut, r.outcome⟩

/-- An answer without a report stays as it is. -/
@[simp] theorem spelledOut_pure (a : α) : (pure a : Run α).spelledOut = pure a := rfl

/-- An outcome without a report stays as it is. -/
@[simp] theorem spelledOut_ofExcept (x : Except Fault α) :
    (liftM x : Run α).spelledOut = liftM x := rfl

/-- Two runs one after the other are spelled out each on its own. -/
@[simp] theorem spelledOut_bind (r : Run α) (next : α → Run β) :
    (r >>= next).spelledOut = r.spelledOut >>= fun a => (next a).spelledOut := by
  obtain ⟨reports, outcome⟩ := r
  cases outcome with
  | error fault => rfl
  | ok a =>
    rw [bind_ok, spelledOut, spelledOut, bind_ok, List.map_append]
    rfl

/-- Of two runs, the one that is chosen is spelled out. -/
@[simp] theorem spelledOut_ite (p : Prop) [Decidable p] (r s : Run α) :
    (if p then r else s).spelledOut = if p then r.spelledOut else s.spelledOut := by
  split <;> rfl

/-- Items that are spelled out go through a step like the items. -/
theorem mapM_spelledOut {vs : List Value} {seat : Seat} {step' step : Value → Run β}
    (h : ∀ v ∈ vs, step' (v.spelledOut seat) = (step v).spelledOut) :
    (vs.map (Value.spelledOut seat)).mapM step' = (vs.mapM step).spelledOut := by
  induction vs with
  | nil => rfl
  | cons v vs ih =>
    rw [List.map_cons, List.mapM_cons, List.mapM_cons, h v (by simp),
      ih fun w hw => h w (by simp [hw])]
    simp only [spelledOut_bind, spelledOut_pure]

/-- A report on a value that is spelled out is the report on the value, spelled out. -/
theorem report_spelledOut (v : Value) (message : Data) :
    report (v.spelledOut .other) message = (report v message).spelledOut := by
  rw [report, report, Value.node?_spelledOut]
  cases v.node? <;> rfl

end Run

/-! ### Views -/

namespace CSharp

/-- The context of a key: whether an identifier or a string literal stands there makes no
difference. -/
def Flags.namesKeys (c : Flags) : Prop :=
  c.identifierAsString.truthy = true ∨
    c.memberPosition.truthy = true ∧ c.stringAsIdentifier.truthy = true

/-- Trees that are spelled out are rendered like the trees themselves, keys in the contexts of keys
only. -/
def KeepsSpelling (f' f : Flags → Value → Run Fragment) : Prop :=
  ∀ (seat : Seat) (c : Flags) (v : Value), v.isDeclared = true → (seat = .key → c.namesKeys) →
    f' c (v.spelledOut seat) = (f c v).spelledOut

section

variable {c : Flags} {checker : Checker} {f' f : Flags → Value → Run Fragment} {v : Value}
  {seat : Seat}

/-- In a view that keeps spellings, a value that is spelled out is rendered like the value; a key
only where names are keys. -/
theorem convert_spelledOut (checker : Checker) (seat : Seat) (h : KeepsSpelling f' f)
    (hv : v.isDeclared = true) (hseat : seat = .key → c.namesKeys) :
    (View.mk c checker f').convert (v.spelledOut seat) =
      ((View.mk c checker f).convert v).spelledOut :=
  h seat c v hv hseat

/-- The same of a value that is neither a property nor its key nor its value. -/
theorem convert_part (h : KeepsSpelling f' f) (hv : v.isDeclared = true) :
    (View.mk c checker f').convert (v.spelledOut .other) =
      ((View.mk c checker f).convert v).spelledOut :=
  convert_spelledOut checker .other h hv fun hseat => by cases hseat

/-- What is made of each item. -/
theorem mapM_items_spelledOut {β : Type} {step' step : Value → Run β} (hv : v.isDeclared = true)
    (hstep : ∀ w : Value, w.isDeclared = true →
      step' (w.spelledOut seat) = (step w).spelledOut) :
    (do (← (v.spelledOut seat).items).mapM step' : Run (List β)) =
      (do (← v.items).mapM step : Run (List β)).spelledOut := by
  rw [Value.items_spelledOut]
  cases hvs : v.items with
  | error fault => rfl
  | ok vs =>
    show (vs.map (Value.spelledOut seat)).mapM step' = (vs.mapM step).spelledOut
    exact Run.mapM_spelledOut fun w hw => hstep w (Value.all_items hv hvs hw)

/-- What is made of a property. -/
theorem bind_property_spelledOut {β : Type} {next' next : Value → Run β} {field : Field}
    (hv : v.isDeclared = true) (hfield : field.seat = .other)
    (hnext : ∀ w : Value, w.isDeclared = true →
      next' (w.spelledOut .other) = (next w).spelledOut) :
    (do next' (← (v.spelledOut .other).property field) : Run β) =
      (do next (← v.property field) : Run β).spelledOut := by
  rw [Value.property_spelledOut v hfield]
  cases hw : v.property field with
  | error fault => rfl
  | ok w => exact hnext w (Value.all_property hv hw)

/-- What a value enumerates is rendered like what it enumerates when it is spelled out, but for
keys. -/
theorem convertAll_spelledOut (h : KeepsSpelling f' f) (hv : v.isDeclared = true)
    (hseat : seat ≠ .key) :
    (View.mk c checker f').convertAll (v.spelledOut seat) =
      ((View.mk c checker f).convertAll v).spelledOut :=
  mapM_items_spelledOut hv fun _ hw =>
    convert_spelledOut checker seat h hw fun hkey => absurd hkey hseat

/-- The same of a value that is neither a property nor its key nor its value. -/
theorem convertAll_part (h : KeepsSpelling f' f) (hv : v.isDeclared = true) :
    (View.mk c checker f').convertAll (v.spelledOut .other) =
      ((View.mk c checker f).convertAll v).spelledOut :=
  convertAll_spelledOut h hv (by decide)

end

/-! ### Types -/

section

variable {checker : Checker} {v : Value}

/-- Spelling a type for a value that is spelled out only makes a difference to the node of a report.
-/
theorem renderType_spelledOut (v : Value) (t : Ty) (nullable : Bool) :
    renderType (v.spelledOut .other) t nullable = (renderType v t nullable).spelledOut := by
  induction hd : t.depth using Nat.strongRecOn generalizing t nullable with | _ depth ih
  subst hd
  cases ht : t.concrete? with
  | none =>
    rw [renderType_of_concrete?_eq_none ht, renderType_of_concrete?_eq_none ht]
    simp only [Run.report_spelledOut, Run.spelledOut_bind, Run.spelledOut_ofExcept,
      Run.spelledOut_pure]
  | some u =>
    rw [renderType_of_concrete? ht, renderType_of_concrete? ht]
    have hmember : memberType (v.spelledOut .other) u = (memberType v u).spelledOut := by
      cases u with
      | map e =>
        simp only [memberType, ih _ (Ty.depth_lt_of_concrete?_map ht) e false rfl,
          Run.spelledOut_bind, Run.spelledOut_ofExcept]
      | array e =>
        simp only [memberType, ih _ (Ty.depth_lt_of_concrete?_array ht) e false rfl,
          Run.spelledOut_bind, Run.spelledOut_ofExcept]
      | _ => rfl
    simp only [hmember, Run.spelledOut_bind, Run.spelledOut_ofExcept]

/-- The same of a type that is spelled for a node. -/
theorem renderType_node_spelledOut (n : Node) (t : Ty) (nullable : Bool) :
    renderType n.spelledOut.toValue t nullable =
      (renderType n.toValue t nullable).spelledOut := by
  rw [Value.toValue_spelledOut, renderType_spelledOut]

/-- What is reported on an annotation is spelled out already. -/
theorem spelledOut_reportUnresolved (hv : v.spelledOut .other = v) :
    (reportUnresolved v).spelledOut = reportUnresolved v := by
  simp only [reportUnresolved, Run.spelledOut_bind, Run.spelledOut_ofExcept, Run.spelledOut_pure,
    ← Run.report_spelledOut, hv]

/-- An annotation that stays as it is when it is spelled out is reported on as it is. -/
theorem spelledOut_renderAscription (hv : v.spelledOut .other = v) (nullable : Bool)
    (missing : String) : (renderAscription checker v nullable missing).spelledOut =
      renderAscription checker v nullable missing := by
  unfold renderAscription
  rw [Run.spelledOut_ite, Run.spelledOut_bind]
  refine congrArg (ite _ _) (Run.bind_congr fun t? _ => ?_)
  cases t? with
  | none => exact spelledOut_reportUnresolved hv
  | some t =>
    dsimp only
    rw [← renderType_spelledOut, hv]

/-- Spelling a value out does not make it `this`, and does not change that it is. -/
theorem isThis_spelledOut (hv : v.isDeclared = true) :
    isThis (v.spelledOut .other) = isThis v := by
  rw [isThis, isThis, Value.isKind_spelledOut, Value.sourceText_spelledOut hv]

/-- Spelling a callee out does not change whether it prints. -/
theorem isPrintCall_spelledOut (hv : v.isDeclared = true) :
    Dispatch.isPrintCall (v.spelledOut .other) = Dispatch.isPrintCall v := by
  rw [Dispatch.isPrintCall, Dispatch.isPrintCall, Value.isKind_spelledOut,
    Value.sourceText_spelledOut hv]

end

end CSharp

/-! ### Rules -/

/-- A rule renders a node whose parts are spelled out like the node, where this holds of the
parts. -/
def Rule.KeepsSpelling (rule : Rule CSharp.Flags) : Prop :=
  ∀ (n : Node) (c : CSharp.Flags) (checker : Checker)
    (f' f : CSharp.Flags → Value → Run Fragment),
    n.toValue.isDeclared = true → checker.IgnoresSpelling → CSharp.KeepsSpelling f' f →
      rule ⟨c, checker, f'⟩ n.spelledOut = (rule ⟨c, checker, f⟩ n).spelledOut

/-! ### Choices -/

namespace Dispatch

open CSharp

/-- Spelling an interface out does not change whether it only holds data. -/
theorem isDataInterface_spelledOut (n : Node) :
    isDataInterface n.spelledOut = isDataInterface n := by
  unfold isDataInterface
  rw [Node.get_spelledOut, show Field.members.seat = .other from rfl, Value.items_spelledOut]
  cases (n.get .members).items with
  | error fault => rfl
  | ok vs =>
    show Except.ok ((vs.map _).all _) = Except.ok (vs.all _)
    simp only [List.all_map, Function.comp_def, Value.isKind_spelledOut]

/-- Calls keep spellings if those that print do and all others do. -/
theorem keepsSpelling_call {print regular : Rule Flags} (hprint : print.KeepsSpelling)
    (hregular : regular.KeepsSpelling) : Rule.KeepsSpelling (call print regular) := by
  intro n c checker f' f hn hc h
  simp only [call, Node.get_spelledOut, Field.seat, isPrintCall_spelledOut (Value.all_get hn _),
    hprint n c checker f' f hn hc h, hregular n c checker f' f hn hc h, Run.spelledOut_bind,
    Run.spelledOut_ofExcept, Run.spelledOut_ite]

/-- Interfaces keep spellings if both sorts of them do. -/
theorem keepsSpelling_interface {data behaviour : Rule Flags} (hdata : data.KeepsSpelling)
    (hbehaviour : behaviour.KeepsSpelling) : Rule.KeepsSpelling (interface data behaviour) := by
  intro n c checker f' f hn hc h
  simp only [interface, isDataInterface_spelledOut, hdata n c checker f' f hn hc h,
    hbehaviour n c checker f' f hn hc h, Run.spelledOut_bind, Run.spelledOut_ofExcept,
    Run.spelledOut_ite]

/-- Object literals keep spellings if those of each sort of type do: the checker ignores spellings.
-/
theorem keepsSpelling_objectLiteral {struct : Ty → Rule Flags} {keyed : Option Ty → Rule Flags}
    {untyped : Rule Flags} (hstruct : ∀ t, (struct t).KeepsSpelling)
    (hkeyed : ∀ t?, (keyed t?).KeepsSpelling) (huntyped : untyped.KeepsSpelling) :
    Rule.KeepsSpelling (objectLiteral struct keyed untyped) := by
  intro n c checker f' f hn hc h
  simp only [objectLiteral, Value.toValue_spelledOut, hc n.toValue hn, Run.spelledOut_bind,
    Run.spelledOut_ofExcept]
  refine Run.bind_congr fun t? _ => ?_
  cases t?.bind Ty.concrete? with
  | none => exact huntyped n c checker f' f hn hc h
  | some t =>
    simp only [hstruct t n c checker f' f hn hc h, hkeyed _ n c checker f' f hn hc h,
      huntyped n c checker f' f hn hc h, Run.spelledOut_ite]

end Dispatch

/-! ### The neutral rules -/

namespace Neutral

open CSharp

/-- Echoing a construct keeps spellings, as the source text is recorded with the node. -/
theorem keepsSpelling_echo (name : String) : Rule.KeepsSpelling (echo name) := by
  intro n c checker f' f hn _ _
  simp only [echo, Node.kind_spelledOut, Value.toValue_spelledOut, Run.report_spelledOut,
    Value.sourceText_spelledOut hn, Run.spelledOut_bind, Run.spelledOut_ofExcept,
    Run.spelledOut_pure]

/-- All neutral rules keep spellings. -/
theorem keepsSpelling_rule {name : String} {kind : Kind} {rule : Rule Flags}
    (hr : rule? name kind = some rule) : rule.KeepsSpelling := by
  have echoed := keepsSpelling_echo name
  cases kind <;> simp only [rule?, Option.some.injEq, reduceCtorEq] at hr
  all_goals subst hr
  case callExpression => exact Dispatch.keepsSpelling_call echoed echoed
  case interfaceDeclaration => exact Dispatch.keepsSpelling_interface echoed echoed
  case objectLiteralExpression =>
    exact Dispatch.keepsSpelling_objectLiteral (fun _ => echoed) (fun _ => echoed) echoed
  all_goals first
    | exact echoed
    | intro n c checker f' f hn _ h
      simp (disch := decide) only [conditional, binary, blockOf, through, newExpression,
        elementAccess, prefixUnary, parenthesized, returnStatement, word, sourceOf,
        Node.get_spelledOut, Field.seat, Node.spelledOut_get_of_isFixed hn,
        Value.isNull_spelledOut, Value.toValue_spelledOut, Value.sourceText_spelledOut hn,
        convert_part h (Value.all_get hn _), convertAll_part h (Value.all_get hn _),
        Run.spelledOut_bind, Run.spelledOut_ofExcept, Run.spelledOut_pure, Run.spelledOut_ite]

end Neutral

/-! ### The C# rules -/

namespace CSharp

variable {n : Node} {c : Flags} {checker : Checker} {f' f : Flags → Value → Run Fragment}

section

variable (hn : n.toValue.isDeclared = true) (hc : checker.IgnoresSpelling)
include hn hc

/-- Declared types are spelled alike, and reported alike, on declarations that are spelled out. -/
theorem declaredTypeText_spelledOut (nullable : Bool) (missing : String) :
    declaredTypeText checker n.spelledOut nullable missing =
      (declaredTypeText checker n nullable missing).spelledOut := by
  have hannotation : (n.get .type).spelledOut .other = n.get .type :=
    Node.spelledOut_get_of_isFixed hn rfl
  have hinitializer : checker.inferred? ((n.get .initializer).spelledOut .other) =
      checker.inferred? (n.get .initializer) := hc.inferred? (Value.all_get hn _)
  have htype : declaredType checker n.spelledOut = (declaredType checker n).spelledOut := by
    simp only [declaredType, Node.get_spelledOut, Field.seat, hannotation, hinitializer,
      Run.spelledOut_bind, Run.spelledOut_ofExcept]
    refine Run.bind_congr fun t? _ => ?_
    cases t? with
    | none =>
      simp only [spelledOut_reportUnresolved hannotation, Run.spelledOut_bind,
        Run.spelledOut_ofExcept, Run.spelledOut_ite]
    | some t => rfl
  simp only [declaredTypeText, htype, Run.spelledOut_bind]
  refine Run.bind_congr fun t? _ => ?_
  cases t? with
  | none => rfl
  | some t => exact renderType_node_spelledOut n t nullable

/-- The types of parameters are spelled alike, and reported alike, on parameters that are spelled
out. -/
theorem parameterType_spelledOut :
    parameterType checker n.spelledOut = (parameterType checker n).spelledOut := by
  have hannotation : (n.get .type).spelledOut .other = n.get .type :=
    Node.spelledOut_get_of_isFixed hn rfl
  simp (disch := decide) only [parameterType, Node.get_spelledOut, Field.seat, hannotation,
    Node.spelledOut_get_of_isFixed hn, hc.inferred? (Value.all_get hn _),
    Run.spelledOut_bind, Run.spelledOut_ofExcept, Run.spelledOut_ite,
    spelledOut_renderAscription hannotation]
  refine Run.bind_congr fun t? _ => congrArg (ite _ · _) ?_
  cases t? with
  | none => rfl
  | some t => exact renderType_node_spelledOut n t _

end

/-- The defaults of parameters are rendered alike when the parameters are spelled out. -/
theorem parameterDefault_spelledOut (hn : n.toValue.isDeclared = true) (h : KeepsSpelling f' f)
    (annotated : Option Ty) : parameterDefault ⟨c, checker, f'⟩ n.spelledOut annotated =
      (parameterDefault ⟨c, checker, f⟩ n annotated).spelledOut := by
  have hoptional : isOptional n.spelledOut annotated = isOptional n annotated := by
    simp (disch := decide) only [isOptional, Node.get_spelledOut, Field.seat,
      Node.spelledOut_get_of_isFixed hn, Value.isNull_spelledOut]
  simp only [parameterDefault, hoptional, Node.get_spelledOut, Field.seat,
    Value.isNull_spelledOut, convert_part h (Value.all_get hn _), Run.spelledOut_ite,
    Run.spelledOut_bind, Run.spelledOut_pure]

/-- Spelling out does not change how a hole of a template is written. -/
theorem templateSpan_spelledOut {v : Value} (hv : v.isDeclared = true) :
    templateSpan (v.spelledOut .other) = templateSpan v := by
  unfold templateSpan
  rw [Value.property_spelledOut v rfl, Value.property_spelledOut_of_isFixed hv rfl]
  cases he : v.property .expression with
  | error fault => rfl
  | ok e =>
    show (e.spelledOut .other).sourceText >>= _ = e.sourceText >>= _
    rw [Value.sourceText_spelledOut (Value.all_property hv he)]

/-- Spelling out does not change how the holes of a template are written. -/
theorem templateSpans_spelledOut {vs : List Value} (h : ∀ v ∈ vs, v.isDeclared = true) :
    (vs.map (Value.spelledOut .other)).mapM templateSpan = vs.mapM templateSpan := by
  induction vs with
  | nil => rfl
  | cons v vs ih =>
    rw [List.map_cons, List.mapM_cons, List.mapM_cons, templateSpan_spelledOut (h v (by simp)),
      ih fun w hw => h w (by simp [hw])]

/-- Spelling out does not change the interpolated string that a template becomes. -/
theorem templateText_spelledOut (hn : n.toValue.isDeclared = true) :
    templateText n.spelledOut = templateText n := by
  unfold templateText
  rw [Node.get_spelledOut_of_isFixed hn rfl, Node.get_spelledOut,
    show Field.spans.seat = .other from rfl, Value.items_spelledOut]
  cases hspans : (n.get .spans).items with
  | error fault => rfl
  | ok spans =>
    have hmap := templateSpans_spelledOut fun v hv => Value.all_items (Value.all_get hn _) hspans hv
    refine congrArg (_ >>= ·) (funext fun head => ?_)
    show (spans.map (Value.spelledOut .other)).mapM templateSpan >>= _ =
      spans.mapM templateSpan >>= _
    rw [hmap]

/-- Spelling out does not change how many things a value enumerates. -/
theorem count_spelledOut (v : Value) : count (v.spelledOut .other) = count v := by
  unfold count
  rw [Value.items_spelledOut]
  cases v.items with
  | error fault => rfl
  | ok vs => exact congrArg Except.ok (List.length_map _)

/-- Spelling out does not change how the body of a statement is indented. -/
theorem bodyIndent_spelledOut (indent : Indent) (v : Value) :
    bodyIndent indent (v.spelledOut .other) = bodyIndent indent v := by
  rw [bodyIndent, bodyIndent, Value.isNull_spelledOut, Value.isKind_spelledOut]

/-! #### The variables of loops -/

/-- The one declaration of a loop head that is spelled out is that of the head, spelled out. -/
theorem soleDeclaration?_spelledOut (v : Value) :
    soleDeclaration? (v.spelledOut .other) =
      (soleDeclaration? v).map (Option.map (Value.spelledOut .other)) := by
  unfold soleDeclaration?
  rw [Value.isKind_spelledOut, Value.property_spelledOut v rfl]
  split
  · cases v.property .declarations with
    | error fault => rfl
    | ok declarations =>
      show (declarations.spelledOut .other).items >>= _ = Except.map _ (declarations.items >>= _)
      rw [Value.items_spelledOut]
      cases declarations.items with
      | error fault => rfl
      | ok vs => rcases vs with _ | ⟨v, _ | ⟨w, vs⟩⟩ <;> rfl
  · rfl

/-- The one declaration of a loop head is as its class declares if the head is. -/
theorem isDeclared_of_soleDeclaration? {v w : Value} (hv : v.isDeclared = true)
    (h : soleDeclaration? v = .ok (some w)) : w.isDeclared = true := by
  unfold soleDeclaration? at h
  split at h
  · obtain ⟨declarations, hdeclarations, h⟩ := Fault.exists_of_bind h
    obtain ⟨vs, hvs, h⟩ := Fault.exists_of_bind h
    rcases vs with _ | ⟨u, _ | ⟨u', vs⟩⟩ <;> cases h
    exact Value.all_items (Value.all_property hv hdeclarations) hvs (by simp)
  · cases h

/-- The variable of a loop is the same when the head is spelled out, and so is the report. -/
theorem loopVariable_spelledOut {v : Value} (hv : v.isDeclared = true) :
    loopVariable (v.spelledOut .other) = (loopVariable v).spelledOut := by
  unfold loopVariable
  rw [soleDeclaration?_spelledOut]
  cases hsole : soleDeclaration? v with
  | error fault => rfl
  | ok declaration? =>
    cases declaration? with
    | none =>
      show Run.report _ _ >>= _ = Run.spelledOut (Run.report _ _ >>= _)
      rw [Run.report_spelledOut, Run.spelledOut_bind]
      rfl
    | some w =>
      refine bind_property_spelledOut (isDeclared_of_soleDeclaration? hv hsole) rfl
        fun name hname => ?_
      rw [Value.sourceText_spelledOut hname]
      rfl

/-! #### Heritage -/

/-- Heritage clauses are rendered alike when they are spelled out. -/
theorem heritageClause_spelledOut (h : KeepsSpelling f' f) {clause : Value}
    (hclause : clause.isDeclared = true) :
    heritageClause ⟨c, checker, f'⟩ (clause.spelledOut .other) =
      (heritageClause ⟨c, checker, f⟩ clause).spelledOut := by
  have htype (t : Value) (ht : t.isDeclared = true) :
      heritageType ⟨c, checker, f'⟩ (t.spelledOut .other) =
        (heritageType ⟨c, checker, f⟩ t).spelledOut := by
    unfold heritageType
    exact bind_property_spelledOut ht rfl fun _ he => convert_part h he
  unfold heritageClause
  exact bind_property_spelledOut hclause rfl fun _ htypes => mapM_items_spelledOut htypes htype

/-- What a declaration extends is rendered alike when the declaration is spelled out. -/
theorem heritage_spelledOut (h : KeepsSpelling f' f) (hn : n.toValue.isDeclared = true) :
    heritage ⟨c, checker, f'⟩ n.spelledOut = (heritage ⟨c, checker, f⟩ n).spelledOut := by
  unfold heritage
  rw [← bind_assoc, ← bind_assoc, Node.get_spelledOut,
    show Field.heritageClauses.seat = .other from rfl,
    mapM_items_spelledOut (Value.all_get hn _) fun _ hclause => heritageClause_spelledOut h hclause]
  simp only [Run.spelledOut_bind, Run.spelledOut_ite, Run.spelledOut_pure]

/-- Classes and interfaces are rendered alike when they are spelled out. -/
theorem declaration_spelledOut (h : KeepsSpelling f' f) (hn : n.toValue.isDeclared = true)
    (indent : Indent) (word : String) (inside : Flags) :
    declaration indent word ⟨c, checker, f'⟩ ⟨inside, checker, f'⟩ n.spelledOut =
      (declaration indent word ⟨c, checker, f⟩ ⟨inside, checker, f⟩ n).spelledOut := by
  simp only [declaration, Node.get_spelledOut, Field.seat, heritage_spelledOut h hn,
    convert_part h (Value.all_get hn _), convertAll_part h (Value.all_get hn _),
    Run.spelledOut_bind, Run.spelledOut_pure]

/-- Classes and interfaces of both sorts keep spellings. -/
theorem keepsSpelling_declarations (indent : Indent) :
    Rule.KeepsSpelling (classDeclaration indent) ∧ Rule.KeepsSpelling (dataInterface indent) ∧
      Rule.KeepsSpelling (behaviourInterface indent) := by
  refine ⟨?_, ?_, ?_⟩ <;>
  · intro n c checker f' f hn _ h
    simp only [classDeclaration, dataInterface, behaviourInterface, inClass, inInterface,
      View.withContext, Node.get_spelledOut, Field.seat,
      Value.sourceText_spelledOut (Value.all_get hn _), declaration_spelledOut h hn,
      Run.spelledOut_bind, Run.spelledOut_ofExcept]

/-! #### Assignments -/

/-- Keys are rendered in contexts in which it makes no difference how they are spelled. -/
theorem assignment_spelledOut (h : KeepsSpelling f' f) {key value : Value} {seat seat' : Seat}
    (hkey : key.isDeclared = true) (hvalue : value.isDeclared = true) (hseat : seat' ≠ .key) :
    assignment ⟨c, checker, f'⟩ (key.spelledOut seat) (value.spelledOut seat') =
      (assignment ⟨c, checker, f⟩ key value).spelledOut := by
  have hpair := convert_spelledOut checker seat
    (c := { c with memberPosition := .bool false, identifierAsString := .bool true }) h hkey
    fun _ => Or.inl rfl
  have hname := convert_spelledOut checker seat
    (c := { c with memberPosition := .bool true, stringAsIdentifier := .bool true }) h hkey
    fun _ => Or.inr ⟨rfl, rfl⟩
  have hpart (c : Flags) := convert_spelledOut checker seat' (c := c) h
    hvalue fun hkey => absurd hkey hseat
  simp only [assignment, asPairKey, asPropertyName, asPairValue, View.withContext, hpair, hname,
    hpart, Run.spelledOut_bind, Run.spelledOut_pure, Run.spelledOut_ite]

/-! #### The table -/

/-- Calls of both sorts keep spellings. -/
theorem keepsSpelling_calls : Rule.KeepsSpelling printCall ∧ Rule.KeepsSpelling regularCall := by
  refine ⟨?_, ?_⟩ <;>
  · intro n c checker f' f hn _ h
    simp only [printCall, regularCall, asMember, View.withContext, Node.get_spelledOut, Field.seat,
      count_spelledOut, convert_part h (Value.all_get hn _),
      convertAll_part h (Value.all_get hn _), Run.spelledOut_bind, Run.spelledOut_ofExcept,
      Run.spelledOut_pure, Run.spelledOut_ite]

/-- The type of the values of a literal is spelled alike when the literal is spelled out. -/
theorem valueType_spelledOut (n : Node) (t? : Option Ty) :
    valueType n.spelledOut t? = (valueType n t?).spelledOut := by
  cases t? with
  | none => rfl
  | some t => exact renderType_node_spelledOut n t false

/-- Object literals of every sort keep spellings. -/
theorem keepsSpelling_literals (indent : Indent) :
    (∀ t, Rule.KeepsSpelling (structLiteral indent t)) ∧
      (∀ t?, Rule.KeepsSpelling (keyedLiteral indent t?)) ∧
        Rule.KeepsSpelling (untypedLiteral indent) := by
  refine ⟨fun t => ?_, fun t? => ?_, ?_⟩ <;>
  · intro n c checker f' f hn _ h
    simp only [structLiteral, untypedLiteral, keyedLiteral, amongPairs, View.withContext,
      Node.get_spelledOut, Field.seat, valueType_spelledOut,
      convertAll_spelledOut h (Value.all_get hn _) (show Seat.property ≠ .key by decide),
      Run.spelledOut_bind, Run.spelledOut_ofExcept, Run.spelledOut_pure, Run.spelledOut_ite]

/-- All C# rules keep spellings. -/
theorem keepsSpelling_rule {indent : Indent} {kind : Kind} {rule : Rule Flags}
    (hr : rule? indent kind = some rule) : rule.KeepsSpelling := by
  cases kind <;> simp only [rule?, Option.some.injEq] at hr <;>
    try exact Neutral.keepsSpelling_rule hr
  all_goals subst hr
  case callExpression =>
    exact Dispatch.keepsSpelling_call keepsSpelling_calls.1 keepsSpelling_calls.2
  case objectLiteralExpression =>
    obtain ⟨hs, hk, hu⟩ := keepsSpelling_literals indent
    exact Dispatch.keepsSpelling_objectLiteral hs hk hu
  case classDeclaration => exact (keepsSpelling_declarations indent).1
  case interfaceDeclaration =>
    obtain ⟨_, hd, hb⟩ := keepsSpelling_declarations indent
    exact Dispatch.keepsSpelling_interface hd hb
  all_goals
    intro n c checker f' f hn hc h
    have hannotation : (n.get .type).spelledOut .other = n.get .type :=
      Node.spelledOut_get_of_isFixed hn rfl
    simp (disch := decide) only [identifier, quotedText, stringLiteral, templateExpression,
      templateText_spelledOut hn, function, constructor, signature, parameter,
      parameterType_spelledOut hn hc, parameterDefault_spelledOut hn h, propertyAccess, receiver,
      isThis_spelledOut (Value.all_get hn _), asExpression, arrayLiteral, propertyAssignment,
      shorthandAssignment, assignment_spelledOut h (Value.all_get hn _) (Value.all_get hn _),
      blockStatement, expressionStatement, ifStatement, withBody, bodyIndent_spelledOut,
      forOfStatement, loopVariable_spelledOut (Value.all_get hn _), variableDeclaration,
      declaredTypeText_spelledOut hn hc, propertySignature, methodSignature, propertyDeclaration,
      initialValue, asMember, notMember, asInitializer, View.withContext,
      spelledOut_renderAscription hannotation, Node.kind_spelledOut, Node.get_spelledOut,
      Field.seat, hannotation, Node.spelledOut_get_of_isFixed hn, Value.isNull_spelledOut,
      Value.isKind_spelledOut, convert_part h (Value.all_get hn _),
      convertAll_part h (Value.all_get hn _), Run.spelledOut_bind, Run.spelledOut_ofExcept,
      Run.spelledOut_pure, Run.spelledOut_ite]

end CSharp

end CodeSample

import CodeSample.Proofs.AlikeRules
import CodeSample.Target.Locality
import CodeSample.Target.Registry

/-!
# The C# rules go alike

The C# rules make the same of nodes that stand for one another, with indentations that do. Their
contexts hold one value that may come from a tree, the name of a class, and are otherwise the same.

* `Flags.Alike` relates contexts, and `switch` and `alike_derived` are what is asked of them and
  derived from them;
* `alike_renderType`, `alike_renderAscription`, …: the spellings of types;
* `CSharp.alike_rule`: the table of rules;
* `Target.tally_render`: what follows for the finished output of every target.
-/

namespace CodeSample.CSharp

open Layout (Fragment Indent)
open Layout.Fragment (row line separated)

/-! ### Contexts -/

/-- Two contexts are the same but for nodes in the name of the class. The name is only shown, and
no node is, so that these have nothing to do with one another. -/
structure Flags.Alike (c' c : Flags) : Prop where
  className : Value.Alike (fun _ _ => True) c'.className c.className
  rest : { c' with className := c.className } = c

/-- Two views of the C# rules go alike. -/
abbrev ViewAlike (L : Likeness) (view' view : View Flags) : Prop :=
  View.Alike L Flags.Alike view' view

/-- Two C# rules for a kind of node go alike. -/
abbrev RuleAlike (L : Likeness) (kind : Kind) (rule' rule : Rule Flags) : Prop :=
  Rule.Alike L Flags.Alike kind rule' rule

variable {L : Likeness} {kind : Kind} {n' n : Node}

section views

variable {view' view : View Flags} (h : ViewAlike L view' view)
include h

/-- What is asked of a context besides the name of the class is the same. -/
theorem switch {α : Type} (look : Flags → α)
    (hlook : ∀ (c : Flags) (v : Value), look { c with className := v } = look c) :
    look view'.context = look view.context := by
  rw [← hlook view'.context view.context.className, h.context.rest]

/-- What is derived from contexts that correspond, and leaves the name of the class, corresponds. -/
theorem alike_derived (derive : Flags → Flags)
    (hname : ∀ c : Flags, (derive c).className = c.className)
    (hrest : ∀ (c : Flags) (v : Value),
      derive { c with className := v } = { derive c with className := v }) :
    ViewAlike L (view'.withContext (derive view'.context))
      (view.withContext (derive view.context)) := by
  refine h.withContext ⟨?_, ?_⟩
  · rw [hname, hname]
    exact h.context.className
  · rw [hname, ← hrest, h.context.rest]

/-- Stepping to the place of a member keeps two views alike. -/
theorem alike_asMember : ViewAlike L (asMember view') (asMember view) :=
  alike_derived h (fun c => { c with memberPosition := .bool true }) (fun _ => rfl) fun _ _ => rfl

/-- Stepping out of the place of a member keeps two views alike. -/
theorem alike_notMember : ViewAlike L (notMember view') (notMember view) :=
  alike_derived h (fun c => { c with memberPosition := .bool false }) (fun _ => rfl) fun _ _ => rfl

/-- Two views that go alike do so among the pairs of a dictionary. -/
theorem alike_amongPairs : ViewAlike L (amongPairs view') (amongPairs view) :=
  alike_derived h (fun c => { c with keyValue := .bool true }) (fun _ => rfl) fun _ _ => rfl

/-- Two views that go alike do so on the key of a pair. -/
theorem alike_asPairKey : ViewAlike L (asPairKey view') (asPairKey view) :=
  alike_derived h
    (fun c => { c with memberPosition := .bool false, identifierAsString := .bool true })
    (fun _ => rfl) fun _ _ => rfl

/-- Two views that go alike do so on the value of a pair. -/
theorem alike_asPairValue : ViewAlike L (asPairValue view') (asPairValue view) :=
  alike_derived h (fun c => { c with keyValue := .bool false }) (fun _ => rfl) fun _ _ => rfl

/-- Two views that go alike do so on the name of a property that is assigned to. -/
theorem alike_asPropertyName : ViewAlike L (asPropertyName view') (asPropertyName view) :=
  alike_derived h
    (fun c => { c with memberPosition := .bool true, stringAsIdentifier := .bool true })
    (fun _ => rfl) fun _ _ => rfl

/-- Two views that go alike do so on what initializes a variable. -/
theorem alike_asInitializer : ViewAlike L (asInitializer view') (asInitializer view) :=
  alike_derived h (fun c => { c with preferStruct := .bool false }) (fun _ => rfl) fun _ _ => rfl

/-- Two views that go alike do so on the members of an interface of either sort. -/
theorem alike_inInterface (data : Bool) :
    ViewAlike L (inInterface view' data) (inInterface view data) :=
  alike_derived h (fun c => { c with dataInterface := .bool data }) (fun _ => rfl) fun _ _ => rfl

/-- Two views that go alike do so on the members of classes whose names are alike. -/
theorem alike_inClass {name' name : Value} (hname : Value.Alike L.node name' name) :
    ViewAlike L (inClass view' name') (inClass view name) := by
  refine h.withContext ⟨hname.mono fun _ _ _ => trivial, ?_⟩
  exact congrArg (fun c : Flags => { c with className := name }) h.context.rest

end views

/-! ### Names and literals -/

section values

variable {v' v : Value} (hv : Value.Alike L.node v' v)
include hv

/-- Values that are alike make alike names. -/
theorem agree_nameOf : Agree (Value.Alike L.node) (nameOf v') (nameOf v) := by
  cases hv with
  | text s => exact .ok (.text _)
  | list _ | object _ => exact .wrongSort
  | null => exact .ok .null
  | bool b => exact .ok (.bool b)
  | int i => exact .ok (.int i)
  | float x => exact .ok (.float x)
  | node hn => exact .ok (.node hn)

/-- What is capitalised is a text, which is the same in values that are alike. -/
theorem agree_capitalized : Agree Eq (capitalized v') (capitalized v) := by
  unfold capitalized
  rw [hv.truthy]
  split
  · cases hv with
    | text s => exact .ok rfl
    | list hvs =>
      cases hvs with
      | nil => exact .wrongSort
      | cons hw _ =>
        dsimp only
        rw [hw.text?]
        split
        · exact .wrongSort
        · exact .noProperty
    | _ => exact .wrongSort
  · exact .ok rfl

/-- Values that are alike make the same literal. -/
theorem agree_literalOf : Agree Eq (literalOf v') (literalOf v) := by
  unfold literalOf
  rw [hv.text?]
  split
  · exact .ok rfl
  · exact .noProperty

/-- Values that are alike make the same part of an interpolated string. -/
theorem agree_interpolated : Agree Eq (interpolated v') (interpolated v) := by
  unfold interpolated
  rw [hv.truthy, hv.text?]
  split
  · split
    · exact .ok rfl
    · exact .noProperty
  · exact .ok rfl

/-- Holes that are alike are written the same, as they have the same source texts. -/
theorem agree_templateSpan : Agree Eq (templateSpan v') (templateSpan v) := by
  unfold templateSpan
  refine (hv.property L.alike rfl).bind fun expression' expression hexpression => ?_
  refine (hexpression.sourceText L.alike).bind fun hole' hole hhole => ?_
  refine (hhole.between _ _).bind fun hole' hole hhole => ?_
  refine (hv.property L.alike rfl).bind fun literal' literal hliteral => ?_
  refine (agree_interpolated hliteral).bind ?_
  rintro _ s rfl
  rw [hhole.text?]
  exact .ok rfl

end values

/-- Identifiers that are alike are rendered alike in every place. -/
theorem alike_identifier : RuleAlike L kind identifier identifier := by
  intro view' view h n' n hn hk
  have htext := (L.alike hn).get (f := .text) rfl
  simp only [identifier, (L.alike hn).kind, htext.isText]
  rw [switch h Flags.identifierAsString fun _ _ => rfl,
    switch h Flags.memberPosition fun _ _ => rfl]
  split
  · refine L.bind_ofExcept (agree_literalOf htext) ?_
    rintro _ s rfl
    exact L.pure (L.row (by simp [L.text]))
  · split
    · refine L.bind_ofExcept (agree_capitalized htext) ?_
      rintro _ s rfl
      exact L.pure (L.row (by simp [L.text]))
    · split
      · exact L.pure (L.row (by simp [L.text]))
      · refine L.bind_ofExcept (agree_nameOf htext) fun name' name hname => ?_
        exact L.pure (L.row (by simp [L.toFragment hname]))

/-- Literal texts that are alike are quoted alike. -/
theorem alike_quotedText : RuleAlike L kind quotedText quotedText := by
  intro view' view h n' n hn hk
  refine L.bind_ofExcept (agree_literalOf ((L.alike hn).get rfl)) ?_
  rintro _ s rfl
  exact L.pure (L.row (by simp [L.text]))

/-- String literals that are alike are rendered alike, be it as identifiers or as strings. -/
theorem alike_stringLiteral : RuleAlike L kind stringLiteral stringLiteral := by
  intro view' view h n' n hn hk
  unfold stringLiteral
  rw [switch h Flags.stringAsIdentifier fun _ _ => rfl]
  split
  · exact alike_identifier h hn hk
  · exact alike_quotedText h hn hk

/-- Templates that stand for one another make the same interpolated string. -/
theorem agree_templateText (hn : L.node n' n) :
    Agree Eq (templateText n') (templateText n) := by
  unfold templateText
  refine (agree_interpolated ((L.alike hn).get rfl)).bind ?_
  rintro _ head rfl
  refine ((L.alike hn).get rfl).items.bind fun spans' spans hspans => ?_
  refine (Tally.mapM hspans fun _ _ hspan => agree_templateSpan hspan).bind fun ss' ss hss => ?_
  rw [List.forall₂_eq_eq_eq] at hss
  exact .ok (by rw [hss])

/-- Templates are rendered alike. -/
theorem alike_templateExpression : RuleAlike L kind templateExpression templateExpression := by
  intro view' view h n' n hn hk
  refine L.bind_ofExcept (agree_templateText hn) ?_
  rintro _ s rfl
  exact L.pure (L.row (by simp [L.text]))

/-! ### Types -/

/-- The name of a type agrees with itself: there is no node in it. -/
theorem agree_typeName (t : Ty) : Agree (Value.Alike L.node) (typeName t) (typeName t) := by
  cases t with
  | named name aliasName struct => exact .ok (Value.alike_ofData _)
  | primitive name =>
    have hname : Agree Eq (builtinNameOf name) (builtinNameOf name) := by
      cases name with
      | list _ | object _ => exact .wrongSort
      | _ => exact .ok rfl
    refine hname.bind ?_
    rintro _ _ rfl
    exact .ok (.text _)
  | _ => exact .ok (.text _)

/-- Spellings that are alike are alike with the mark of a nullable type, too. -/
theorem agree_markedIf (nullable : Bool) {v' v : Value} (hv : Value.Alike L.node v' v) :
    Agree (Value.Alike L.node) (markedIf nullable v') (markedIf nullable v) := by
  unfold markedIf marked
  rw [hv.text?]
  split
  · split
    · exact .ok (.text _)
    · exact .noProperty
  · exact .ok hv

/-- The message about a union agrees with itself: it tells of the type only. -/
theorem agree_unionProblem (t : Ty) : Agree Eq (unionProblem t) (unionProblem t) := by
  unfold unionProblem
  split
  · exact .ok rfl
  · exact .wrongSort

/-- Reports on values that are alike go alike: both are on a node, or neither is. -/
theorem alike_report {v' v : Value} (hv : Value.Alike L.node v' v) (message : Data) :
    L.run (fun _ _ => True) (Run.report v' message) (Run.report v message) := by
  cases hv with
  | node hn => exact L.report message hn
  | _ => exact L.ofExcept Agree.noProperty

/-- A type is spelled alike, and what cannot be spelled is reported on the node that stands for the
other. -/
theorem alike_renderType {v' v : Value} (hv : Value.Alike L.node v' v) (t : Ty)
    (nullable : Bool) :
    L.run (Value.Alike L.node) (renderType v' t nullable) (renderType v t nullable) := by
  induction hd : t.depth using Nat.strongRecOn generalizing t nullable with | _ depth ih
  subst hd
  unfold renderType
  split
  · refine L.bind_ofExcept (agree_unionProblem t) ?_
    rintro _ s rfl
    exact L.bind (alike_report hv _) fun _ _ _ => L.pure (.text _)
  · rename_i e he
    refine L.bind (ih _ (Ty.depth_lt_of_concrete?_map he) e false rfl) fun _ _ helement => ?_
    refine L.bind_ofExcept (helement.between "IDictionary<string, " ">") fun _ _ hname => ?_
    exact L.ofExcept (agree_markedIf _ hname)
  · rename_i e he
    refine L.bind (ih _ (Ty.depth_lt_of_concrete?_array he) e false rfl) fun _ _ helement => ?_
    refine L.bind_ofExcept (helement.before "[]") fun _ _ hname => ?_
    exact L.ofExcept (agree_markedIf _ hname)
  · rename_i u _ _ hu
    refine L.bind_ofExcept (agree_typeName (L := L) u) fun _ _ hname => ?_
    exact L.ofExcept (agree_markedIf _ hname)

/-- Annotations that cannot be resolved are reported alike. -/
theorem alike_reportUnresolved {v' v : Value} (hv : Value.Alike L.node v' v) :
    L.run (Value.Alike L.node) (reportUnresolved v') (reportUnresolved v) := by
  have hproblem {s' s : Value} (hs : Value.Alike L.node s' s) :
      Agree Eq (unresolvedProblem s') (unresolvedProblem s) := by
    unfold unresolvedProblem
    rw [(hs.orElse "<unknown>").text?]
    split
    · exact .ok rfl
    · exact .wrongSort
  unfold reportUnresolved
  refine L.bind_ofExcept (hv.sourceText L.alike) fun written' written hwritten => ?_
  refine L.bind_ofExcept (hproblem hwritten) ?_
  rintro _ problem rfl
  exact L.bind (alike_report hv _) fun _ _ _ => L.pure (.text _)

section checkers

variable {checker' checker : Checker} (hc : L.Checkers checker' checker) (hn : L.node n' n)
include hc hn

/-- The annotation of a node is spelled alike. -/
theorem alike_renderAscription (nullable : Bool) (missing : String) :
    L.run (Value.Alike L.node) (renderAscription checker' (n'.get .type) nullable missing)
      (renderAscription checker (n.get .type) nullable missing) := by
  have htype := (L.alike hn).get (f := .type) rfl
  have hask := hc.ascribed hn
  unfold renderAscription
  unfold Checker.ascribed? at hask
  rw [htype.isNull] at hask ⊢
  split
  · exact L.pure (.text _)
  · rename_i hnull
    rw [if_neg hnull, if_neg hnull] at hask
    refine L.bind hask ?_
    rintro _ t? rfl
    split
    · exact alike_renderType htype _ nullable
    · exact alike_reportUnresolved htype

/-- Declarations that stand for one another have the same type. -/
theorem alike_declaredType (hkind : n.kind ≠ .forOfStatement) :
    L.run Eq (declaredType checker' n') (declaredType checker n) := by
  have htype := (L.alike hn).get (f := .type) rfl
  unfold declaredType
  rw [htype.isNull]
  refine L.bind (hc.ascribed hn) ?_
  rintro _ t? rfl
  split
  · exact L.pure rfl
  · split
    · exact hc.inferred hn hkind
    · exact L.bind (alike_reportUnresolved htype) fun _ _ _ => hc.inferred hn hkind

/-- The types of declarations that stand for one another are spelled alike. -/
theorem alike_declaredTypeText (hkind : n.kind ≠ .forOfStatement) (nullable : Bool)
    (missing : String) :
    L.run (Value.Alike L.node) (declaredTypeText checker' n' nullable missing)
      (declaredTypeText checker n nullable missing) := by
  refine L.bind (alike_declaredType hc hn hkind) ?_
  rintro _ t? rfl
  split
  · exact alike_renderType (.node hn) _ nullable
  · exact L.pure (.text _)

/-- The types of parameters that stand for one another are spelled alike. -/
theorem alike_parameterType (hkind : n.kind ≠ .forOfStatement) :
    L.run (Value.Alike L.node) (parameterType checker' n') (parameterType checker n) := by
  unfold parameterType
  rw [((L.alike hn).get (f := .type) rfl).isNull,
    ((L.alike hn).get (f := .questionToken) rfl).truthy]
  refine L.bind (hc.inferred hn hkind) ?_
  rintro _ t? rfl
  split
  · split
    · exact alike_renderType (.node hn) _ _
    · exact L.pure (.text _)
  · exact alike_renderAscription hc hn _ _

end checkers

/-- Spellings that are alike are left to inference alike. -/
theorem agree_variableType {v' v : Value} (hv : Value.Alike L.node v' v) :
    Agree (Value.Alike L.node) (variableType v') (variableType v) := by
  unfold variableType
  rw [hv.text?]
  split
  · exact .ok (.text _)
  · exact .noProperty

/-- The type of the values of a literal is spelled alike. -/
theorem alike_valueType (hn : L.node n' n) (t? : Option Ty) :
    L.run (Value.Alike L.node) (valueType n' t?) (valueType n t?) := by
  cases t? with
  | none => exact L.pure (.text _)
  | some t => exact alike_renderType (.node hn) t false

/-! ### Functions -/

/-- Parameters and bodies are rendered alike after heads that are. -/
theorem alike_signature {view' view : View Flags} (h : ViewAlike L view' view) (hn : L.node n' n)
    {head' head : List Fragment} (hhead : List.Forall₂ L.fragment head' head) :
    L.run L.fragment (signature view' n' head') (signature view n head) := by
  have hbody := (L.alike hn).get (f := .body) rfl
  simp only [signature, hbody.isNull]
  refine L.bind (h.items hn rfl) fun parameters' parameters hparameters => ?_
  have hopened (closing : String) :
      List.Forall₂ L.fragment (head' ++ [.text "(", separated ", " parameters', .text closing])
        (head ++ [.text "(", separated ", " parameters, .text closing]) :=
    List.rel_append hhead (by simp [L.text, L.separated ", " hparameters])
  split
  · exact L.pure (L.line (hopened ");"))
  · refine L.bind (h.convert hbody) fun body' body hb => ?_
    exact L.pure (L.tree { fresh := true } (hopened ") ") (by simp [hb]) L.blank)

/-- Functions and methods are rendered alike. -/
theorem alike_function : RuleAlike L kind function function := by
  intro view' view h n' n hn hk
  refine L.bind ((alike_asMember h).field hn rfl) fun name' name hname => ?_
  refine L.bind (alike_renderAscription h.checkers hn _ _) fun type' type htype => ?_
  exact alike_signature h hn (by simp [L.text, L.toFragment htype, hname])

/-- Constructors are rendered alike. The name of the class is only shown, and a node in it is not.
-/
theorem alike_constructor : RuleAlike L kind constructor constructor := by
  intro view' view h n' n hn hk
  have hclass := h.context.className.orElse placeholderClass
  exact alike_signature h hn (by simp [L.text, L.toFragment hclass])

/-- Parameters that stand for one another are optional alike. -/
theorem isOptional_alike (hn : L.node n' n) (annotated : Option Ty) :
    isOptional n' annotated = isOptional n annotated := by
  unfold isOptional
  rw [((L.alike hn).get (f := .initializer) rfl).isNull,
    ((L.alike hn).get (f := .questionToken) rfl).truthy]

/-- The defaults of parameters that stand for one another are rendered alike. -/
theorem alike_parameterDefault {view' view : View Flags} (h : ViewAlike L view' view)
    (hn : L.node n' n) (annotated : Option Ty) :
    L.run (List.Forall₂ L.fragment) (parameterDefault view' n' annotated)
      (parameterDefault view n annotated) := by
  have hinitializer := (L.alike hn).get (f := .initializer) rfl
  unfold parameterDefault
  rw [isOptional_alike hn, hinitializer.isNull]
  split
  · exact L.pure .nil
  · split
    · exact L.pure (by simp [L.text])
    · refine L.bind (h.convert hinitializer) fun value' value hvalue => ?_
      exact L.pure (by simp [L.text, hvalue])

/-- Parameters are rendered alike. -/
theorem alike_parameter (hkind : kind ≠ .forOfStatement) :
    RuleAlike L kind parameter parameter := by
  intro view' view h n' n hn hk
  refine L.bind (h.checkers.ascribed hn) ?_
  rintro annotated _ rfl
  refine L.bind (alike_parameterType h.checkers hn (hk ▸ hkind)) fun type' type htype => ?_
  refine L.bind (alike_parameterDefault h hn annotated) fun default' default hdefault => ?_
  refine L.bind (h.field hn rfl) fun name' name hname => ?_
  exact L.pure (L.row (List.rel_append (by simp [L.text, L.toFragment htype, hname]) hdefault))

/-! ### Expressions -/

/-- Values that are alike enumerate equally many things. -/
theorem agree_count {v' v : Value} (hv : Value.Alike L.node v' v) :
    Agree Eq (count v') (count v) :=
  hv.items.bind fun _ _ hvs => .ok hvs.length_eq

/-- Calls that print are rendered alike. -/
theorem alike_printCall : RuleAlike L kind printCall printCall := by
  intro view' view h n' n hn hk
  have harguments := (L.alike hn).get (f := .arguments) rfl
  refine L.bind_ofExcept (agree_count harguments) ?_
  rintro _ k rfl
  split
  · refine L.bind (h.convertAll harguments) fun args' args hargs => ?_
    exact L.pure (L.row (List.rel_append (List.rel_append (by simp [L.text]) hargs)
      (by simp [L.text])))
  · refine L.bind (h.convertAll harguments) fun args' args hargs => ?_
    have hholes : List.Forall₂ L.fragment
        (args'.map fun a => row [.text "\x7b", a, .text "\x7d"])
        (args.map fun a => row [.text "\x7b", a, .text "\x7d"]) := by
      rw [List.forall₂_map_left_iff, List.forall₂_map_right_iff]
      exact hargs.imp fun _ _ ha => L.row (by simp [L.text, ha])
    exact L.pure (L.row (by simp [L.text, L.separated " " hholes]))

/-- All other calls are rendered alike. -/
theorem alike_regularCall : RuleAlike L kind regularCall regularCall := by
  intro view' view h n' n hn hk
  refine L.bind ((alike_asMember h).field hn rfl) fun callee' callee hcallee => ?_
  refine L.bind (h.items hn rfl) fun arguments' arguments harguments => ?_
  exact L.pure (L.row (by simp [L.text, hcallee, L.separated ", " harguments]))

/-- Of two values that are alike, both are `this` or neither is. -/
theorem agree_isThis {v' v : Value} (hv : Value.Alike L.node v' v) :
    Agree Eq (isThis v') (isThis v) := by
  unfold isThis
  rw [hv.isKind L.alike]
  split
  · exact .ok rfl
  · exact (hv.sourceText L.alike).bind fun _ _ hs => .ok (hs.isText _)

/-- Receivers that are alike are rendered alike, or both left out. -/
theorem alike_receiver {view' view : View Flags} (h : ViewAlike L view' view) {v' v : Value}
    (hv : Value.Alike L.node v' v) :
    L.run (List.Forall₂ L.fragment) (receiver view' v') (receiver view v) := by
  refine L.bind_ofExcept (agree_isThis hv) ?_
  rintro _ b rfl
  split
  · exact L.pure .nil
  · refine L.bind ((alike_notMember h).convert hv) fun f' f hf => ?_
    exact L.pure (by simp [L.text, hf])

/-- Property accesses are rendered alike. -/
theorem alike_propertyAccess : RuleAlike L kind propertyAccess propertyAccess := by
  intro view' view h n' n hn hk
  refine L.bind (alike_receiver h ((L.alike hn).get rfl)) fun receiver' receiver hreceiver => ?_
  refine L.bind ((alike_asMember h).field hn rfl) fun name' name hname => ?_
  exact L.pure (L.row (List.rel_append hreceiver (by simp [hname])))

/-- Casts are rendered alike. -/
theorem alike_asExpression : RuleAlike L kind asExpression asExpression := by
  intro view' view h n' n hn hk
  refine L.bind (alike_renderAscription h.checkers hn _ _) fun type' type htype => ?_
  refine L.bind (h.field hn rfl) fun expression' expression hexpression => ?_
  exact L.pure (L.row (by simp [L.text, L.toFragment htype, hexpression]))

/-! ### Object and array literals -/

section indents

variable {indent' indent : Indent} (hi : L.indent indent' indent)
include hi

/-- Parts that are alike make literals that are, with indentations that stand for one another. -/
theorem alike_initializerList {head' head parts' parts : List Fragment}
    (hhead : List.Forall₂ L.fragment head' head) (hparts : List.Forall₂ L.fragment parts' parts) :
    L.fragment (initializerList indent' head' parts') (initializerList indent head parts) := by
  have hempty : parts'.all Fragment.isEmpty = parts.all Fragment.isEmpty := by
    induction hparts with
    | nil => rfl
    | cons hpart _ ih => rw [List.all_cons, List.all_cons, L.isEmpty hpart, ih]
  unfold initializerList
  rw [hempty]
  split
  · exact L.row (List.rel_append hhead (by simp [L.text]))
  · exact L.tree { separator := some ", ", closing := some " \x7d" }
      (List.rel_append hhead (by simp [L.text])) hparts hi

/-- Array literals are rendered alike. -/
theorem alike_arrayLiteral : RuleAlike L kind (arrayLiteral indent') (arrayLiteral indent) := by
  intro view' view h n' n hn hk
  refine L.bind (h.items hn rfl) fun elements' elements helements => ?_
  exact L.pure (alike_initializerList hi (by simp [L.text]) helements)

/-- Object literals of one struct type are rendered alike. -/
theorem alike_structLiteral (t : Ty) :
    RuleAlike L kind (structLiteral indent' t) (structLiteral indent t) := by
  intro view' view h n' n hn hk
  refine L.bind_ofExcept (agree_typeName (L := L) t) fun name' name hname => ?_
  refine L.bind_ofExcept (hname.after "new ") fun head' head hhead => ?_
  refine L.bind (h.items hn rfl) fun properties' properties hproperties => ?_
  exact L.pure (alike_initializerList hi (by simp [L.toFragment hhead]) hproperties)

/-- Object literals are rendered alike as dictionaries. -/
theorem alike_keyedLiteral (element : Option Ty) :
    RuleAlike L kind (keyedLiteral indent' element) (keyedLiteral indent element) := by
  intro view' view h n' n hn hk
  refine L.bind (alike_valueType hn element) fun value' value hvalue => ?_
  refine L.bind ((alike_amongPairs h).items hn rfl) fun entries' entries hentries => ?_
  refine L.bind_ofExcept (hvalue.between _ _) fun head' head hhead => ?_
  exact L.pure (alike_initializerList hi (by simp [L.toFragment hhead]) hentries)

/-- Object literals of unknown type are rendered alike, as the contexts have the same preference. -/
theorem alike_untypedLiteral :
    RuleAlike L kind (untypedLiteral indent') (untypedLiteral indent) := by
  intro view' view h n' n hn hk
  unfold untypedLiteral
  rw [switch h Flags.preferStruct fun _ _ => rfl]
  split
  · refine L.bind (h.items hn rfl) fun properties' properties hproperties => ?_
    exact L.pure (alike_initializerList hi (by simp [L.text]) hproperties)
  · exact alike_keyedLiteral hi none h hn hk

end indents

/-- Keys and values that are alike make assignments, or pairs, that are. -/
theorem alike_assignment {view' view : View Flags} (h : ViewAlike L view' view)
    {key' key value' value : Value} (hkey : Value.Alike L.node key' key)
    (hvalue : Value.Alike L.node value' value) :
    L.run L.fragment (assignment view' key' value') (assignment view key value) := by
  unfold assignment
  rw [switch h Flags.keyValue fun _ _ => rfl]
  split
  · refine L.bind ((alike_asPairKey h).convert hkey) fun k' k hk => ?_
    refine L.bind ((alike_asPairValue h).convert hvalue) fun v' v hv => ?_
    exact L.pure (L.line (by simp [L.text, hk, hv]))
  · refine L.bind ((alike_asPropertyName h).convert hkey) fun k' k hk => ?_
    refine L.bind (h.convert hvalue) fun v' v hv => ?_
    exact L.pure (L.line (by simp [L.text, hk, hv]))

/-- Properties with a value are rendered alike. -/
theorem alike_propertyAssignment : RuleAlike L kind propertyAssignment propertyAssignment :=
  fun h _ _ hn _ => alike_assignment h ((L.alike hn).get rfl) ((L.alike hn).get rfl)

/-- Properties whose value is the variable of their name are rendered alike. -/
theorem alike_shorthandAssignment : RuleAlike L kind shorthandAssignment shorthandAssignment :=
  fun h _ _ hn _ => alike_assignment h ((L.alike hn).get rfl) ((L.alike hn).get rfl)

/-! ### Statements -/

/-- Expressions are rendered alike as statements. -/
theorem alike_expressionStatement :
    RuleAlike L kind expressionStatement expressionStatement := by
  intro view' view h n' n hn hk
  refine L.bind (h.field hn rfl) fun expression' expression hexpression => ?_
  exact L.pure (L.line (by simp [L.text, hexpression]))

/-- Of two loop heads that are alike, both declare exactly one variable or neither does. -/
theorem agree_soleDeclaration? {v' v : Value} (hv : Value.Alike L.node v' v) :
    Agree (Option.Rel (Value.Alike L.node)) (soleDeclaration? v') (soleDeclaration? v) := by
  unfold soleDeclaration?
  rw [hv.isKind L.alike]
  split
  · refine (hv.property L.alike rfl).bind fun declarations' declarations hdeclarations => ?_
    refine hdeclarations.items.bind fun vs' vs hvs => ?_
    rcases hvs with _ | ⟨hdeclaration, _ | ⟨_, _⟩⟩
    · exact .ok .none
    · exact .ok (.some hdeclaration)
    · exact .ok .none
  · exact .ok .none

/-- Loop heads that are alike have variables that are, and are reported alike if they have none. -/
theorem alike_loopVariable {v' v : Value} (hv : Value.Alike L.node v' v) :
    L.run (Value.Alike L.node) (loopVariable v') (loopVariable v) := by
  unfold loopVariable
  refine L.bind_ofExcept (agree_soleDeclaration? hv) fun declaration'? declaration? hsole => ?_
  cases hsole with
  | none =>
    exact L.bind (alike_report hv _) fun _ _ _ => L.pure (.text _)
  | some hdeclaration =>
    refine L.bind_ofExcept (hdeclaration.property L.alike rfl) fun name' name hname => ?_
    exact L.ofExcept (hname.sourceText L.alike)

section indents

variable {indent' indent : Indent} (hi : L.indent indent' indent)
include hi

/-- Blocks are rendered alike. -/
theorem alike_blockStatement :
    RuleAlike L kind (blockStatement indent') (blockStatement indent) := by
  intro view' view h n' n hn hk
  refine L.bind (h.items hn rfl) fun statements' statements hstatements => ?_
  exact L.pure (L.tree { closing := some "\n\x7d" } (by simp [L.text]) hstatements hi)

/-- Bodies that are alike are put on a line of their own alike. -/
theorem alike_withBody {head' head : List Fragment} (hhead : List.Forall₂ L.fragment head' head)
    {body' body : Value} (hbody : Value.Alike L.node body' body) {rendered' rendered : Fragment}
    (hrendered : L.fragment rendered' rendered) :
    L.fragment (withBody indent' head' body' rendered') (withBody indent head body rendered) := by
  have hbodyIndent : L.indent (bodyIndent indent' body') (bodyIndent indent body) := by
    unfold bodyIndent
    rw [hbody.isNull, hbody.isKind L.alike]
    split
    · exact L.blank
    · exact hi
  exact L.tree { fresh := true } hhead (by simp [hrendered]) hbodyIndent

/-- Conditionals are rendered alike. What stands on the line of an `else` depends on its kind only.
-/
theorem alike_ifStatement : RuleAlike L kind (ifStatement indent') (ifStatement indent) := by
  intro view' view h n' n hn hk
  have hthen := (L.alike hn).get (f := .thenStatement) rfl
  have helse := (L.alike hn).get (f := .elseStatement) rfl
  simp only [ifStatement, helse.isNull, helse.isKind L.alike]
  refine L.bind (h.field hn rfl) fun condition' condition hcondition => ?_
  refine L.bind (h.convert hthen) fun consequence' consequence hconsequence => ?_
  have hhead : List.Forall₂ L.fragment [.text "if (", condition', .text ") "]
      [.text "if (", condition, .text ") "] := by simp [L.text, hcondition]
  have hfirst := alike_withBody hi hhead hthen hconsequence
  split
  · exact L.pure hfirst
  · refine L.bind (h.convert helse) fun alternative' alternative halternative => ?_
    refine L.pure (L.tree { separator := some "\n", fresh := true } .nil
      (.cons hfirst (.cons ?_ .nil)) L.blank)
    split
    · exact L.line (by simp [L.text, halternative])
    · exact alike_withBody hi (by simp [L.text]) helse halternative

/-- Loops are rendered alike. -/
theorem alike_forOfStatement :
    RuleAlike L kind (forOfStatement indent') (forOfStatement indent) := by
  intro view' view h n' n hn hk
  have hbody := (L.alike hn).get (f := .statement) rfl
  refine L.bind (alike_loopVariable ((L.alike hn).get rfl)) fun name' name hname => ?_
  refine L.bind (h.field hn rfl) fun expression' expression hexpression => ?_
  refine L.bind (h.convert hbody) fun body' body hrendered => ?_
  exact L.pure (alike_withBody hi (by simp [L.text, L.toFragment hname, hexpression]) hbody
    hrendered)

end indents

/-- Declarations of variables are rendered alike. -/
theorem alike_variableDeclaration (hkind : kind ≠ .forOfStatement) :
    RuleAlike L kind variableDeclaration variableDeclaration := by
  intro view' view h n' n hn hk
  have hinitializer := (L.alike hn).get (f := .initializer) rfl
  simp only [variableDeclaration, hinitializer.isNull]
  refine L.bind (alike_declaredTypeText h.checkers hn (hk ▸ hkind) false "var")
    fun declared' declared hdeclared => ?_
  refine L.bind_ofExcept (agree_variableType hdeclared) fun type' type htype => ?_
  refine L.bind (h.field hn rfl) fun name' name hname => ?_
  split
  · have hshown : Value.Alike L.node (if type'.isText "var" then .text "object" else type')
        (if type.isText "var" then .text "object" else type) := by
      rw [htype.isText]
      split
      · exact .text _
      · exact htype
    exact L.pure (L.line (by simp [L.text, L.toFragment hshown, hname]))
  · refine L.bind ((alike_asInitializer h).convert hinitializer) fun value' value hvalue => ?_
    exact L.pure (L.line (by simp [L.text, L.toFragment htype, hname, hvalue]))

/-! ### Types and members -/

section members

variable {view' view : View Flags} (h : ViewAlike L view' view)
include h

/-- Types in a heritage clause are rendered alike. -/
theorem alike_heritageType {t' t : Value} (ht : Value.Alike L.node t' t) :
    L.run L.fragment (heritageType view' t') (heritageType view t) :=
  L.bind_ofExcept (ht.property L.alike rfl) fun _ _ hexpression => h.convert hexpression

/-- Heritage clauses are rendered alike. -/
theorem alike_heritageClause {clause' clause : Value}
    (hclause : Value.Alike L.node clause' clause) :
    L.run (List.Forall₂ L.fragment) (heritageClause view' clause')
      (heritageClause view clause) := by
  refine L.bind_ofExcept (hclause.property L.alike rfl) fun types' types htypes => ?_
  refine L.bind_ofExcept htypes.items fun ts' ts hts => ?_
  exact L.mapM hts fun _ _ ht => alike_heritageType h ht

/-- What two declarations extend is rendered alike. -/
theorem alike_heritage (hn : L.node n' n) :
    L.run (List.Forall₂ L.fragment) (heritage view' n') (heritage view n) := by
  refine L.bind_ofExcept ((L.alike hn).get rfl).items fun clauses' clauses hclauses => ?_
  refine L.bind (L.mapM hclauses fun _ _ hclause => alike_heritageClause h hclause)
    fun types' types htypes => ?_
  have hempty {fs' fs : List Fragment} (hfs : List.Forall₂ L.fragment fs' fs) :
      fs'.isEmpty = fs.isEmpty := by cases hfs <;> rfl
  have hall : List.Forall₂ L.fragment types'.flatten types.flatten := List.rel_flatten htypes
  dsimp only
  rw [hempty hall]
  split
  · exact L.pure .nil
  · exact L.pure (by simp [L.text, L.separated ", " hall])

/-- Initial values that are alike are rendered alike, or both left out. -/
theorem alike_initialValue {initializer' initializer : Value}
    (hinitializer : Value.Alike L.node initializer' initializer) :
    L.run (List.Forall₂ L.fragment) (initialValue view' initializer')
      (initialValue view initializer) := by
  unfold initialValue
  rw [hinitializer.isNull]
  split
  · exact L.pure .nil
  · refine L.bind (h.convert hinitializer) fun value' value hvalue => ?_
    exact L.pure (by simp [L.text, hvalue])

variable {indent' indent : Indent} (hi : L.indent indent' indent)
include hi

/-- Classes and interfaces are rendered alike, with views on their members that go alike. -/
theorem alike_declaration {inside' inside : View Flags} (hinside : ViewAlike L inside' inside)
    (word : String) (hn : L.node n' n) :
    L.run L.fragment (declaration indent' word view' inside' n')
      (declaration indent word view inside n) := by
  refine L.bind (h.field hn rfl) fun name' name hname => ?_
  refine L.bind (alike_heritage h hn) fun extended' extended hextended => ?_
  refine L.bind (hinside.items hn rfl) fun members' members hmembers => ?_
  refine L.pure (L.tree { fresh := true, closing := some "\n\x7d" } ?_ hmembers hi)
  exact List.rel_append (List.rel_append (by simp [L.text, hname]) hextended) (by simp [L.text])

end members

section indents

variable {indent' indent : Indent} (hi : L.indent indent' indent)
include hi

/-- Classes are rendered alike, and their members know them by names that are alike. -/
theorem alike_classDeclaration :
    RuleAlike L kind (classDeclaration indent') (classDeclaration indent) := by
  intro view' view h n' n hn hk
  refine L.bind_ofExcept (((L.alike hn).get rfl).sourceText L.alike) fun name' name hname => ?_
  exact alike_declaration h hi (alike_inClass h hname) _ hn

/-- Interfaces that only hold data are rendered alike. -/
theorem alike_dataInterface :
    RuleAlike L kind (dataInterface indent') (dataInterface indent) :=
  fun h _ _ hn _ => alike_declaration h hi (alike_inInterface h true) _ hn

/-- All other interfaces are rendered alike. -/
theorem alike_behaviourInterface :
    RuleAlike L kind (behaviourInterface indent') (behaviourInterface indent) :=
  fun h _ _ hn _ => alike_declaration h hi (alike_inInterface h false) _ hn

end indents

/-- Properties of interfaces are rendered alike. -/
theorem alike_propertySignature : RuleAlike L kind propertySignature propertySignature := by
  intro view' view h n' n hn hk
  unfold propertySignature
  rw [((L.alike hn).get (f := .questionToken) rfl).truthy,
    switch h Flags.dataInterface fun _ _ => rfl]
  refine L.bind (alike_renderAscription h.checkers hn _ _) fun type' type htype => ?_
  refine L.bind ((alike_asMember h).field hn rfl) fun name' name hname => ?_
  split
  · exact L.pure (L.line (by simp [L.text, L.toFragment htype, hname]))
  · exact L.pure (L.line (by simp [L.text, L.toFragment htype, hname]))

/-- Methods of interfaces are rendered alike. -/
theorem alike_methodSignature : RuleAlike L kind methodSignature methodSignature := by
  intro view' view h n' n hn hk
  refine L.bind (alike_renderAscription h.checkers hn _ _) fun type' type htype => ?_
  refine L.bind ((alike_asMember h).field hn rfl) fun name' name hname => ?_
  refine L.bind (h.items hn rfl) fun parameters' parameters hparameters => ?_
  exact L.pure (L.line (by
    simp [L.text, L.toFragment htype, hname, L.separated ", " hparameters]))

/-- Properties of classes are rendered alike. -/
theorem alike_propertyDeclaration (hkind : kind ≠ .forOfStatement) :
    RuleAlike L kind propertyDeclaration propertyDeclaration := by
  intro view' view h n' n hn hk
  simp only [propertyDeclaration, ((L.alike hn).get (f := .questionToken) rfl).truthy]
  refine L.bind (alike_declaredTypeText h.checkers hn (hk ▸ hkind) _ _) fun type' type htype => ?_
  refine L.bind ((alike_asMember h).field hn rfl) fun name' name hname => ?_
  refine L.bind (alike_initialValue h ((L.alike hn).get rfl)) fun value' value hvalue => ?_
  exact L.pure (L.line (List.rel_append (by simp [L.text, L.toFragment htype, hname]) hvalue))

/-! ### The table -/

/-- The rules of the C# backend go alike, for indentations that correspond. -/
theorem alike_rule {indent' indent : Indent} (hi : L.indent indent' indent) (kind : Kind) :
    Option.Rel (RuleAlike L kind) (rule? indent' kind) (rule? indent kind) := by
  cases kind
  case identifier => exact .some alike_identifier
  case stringLiteral => exact .some alike_stringLiteral
  case noSubstitutionTemplateLiteral => exact .some alike_quotedText
  case templateExpression => exact .some alike_templateExpression
  case functionDeclaration | methodDeclaration => exact .some alike_function
  case constructor => exact .some alike_constructor
  case parameter => exact .some (alike_parameter (by decide))
  case callExpression => exact .some (Dispatch.alike_call alike_printCall alike_regularCall)
  case propertyAccessExpression => exact .some alike_propertyAccess
  case asExpression => exact .some alike_asExpression
  case arrayLiteralExpression => exact .some (alike_arrayLiteral hi)
  case objectLiteralExpression =>
    exact .some (Dispatch.alike_objectLiteral (alike_structLiteral hi) (alike_keyedLiteral hi)
      (alike_untypedLiteral hi))
  case propertyAssignment => exact .some alike_propertyAssignment
  case shorthandPropertyAssignment => exact .some alike_shorthandAssignment
  case block => exact .some (alike_blockStatement hi)
  case expressionStatement => exact .some alike_expressionStatement
  case ifStatement => exact .some (alike_ifStatement hi)
  case forOfStatement => exact .some (alike_forOfStatement hi)
  case variableDeclaration => exact .some (alike_variableDeclaration (by decide))
  case classDeclaration => exact .some (alike_classDeclaration hi)
  case interfaceDeclaration =>
    exact .some (Dispatch.alike_interface (alike_dataInterface hi) (alike_behaviourInterface hi))
  case propertySignature => exact .some alike_propertySignature
  case methodSignature => exact .some alike_methodSignature
  case propertyDeclaration => exact .some (alike_propertyDeclaration (by decide))
  all_goals exact Neutral.alike_rule name _

/-- The C# backends for two indentations that stand for one another go alike, rule by rule. -/
theorem alike_backend {indent' indent : Indent} (hi : L.indent indent' indent)
    (preferStruct : Data) :
    Backend.Alike L Flags.Alike (backend indent' preferStruct)
      (backend indent preferStruct) :=
  Backend.alike_of_rules rfl (alike_rule hi)

/-- The contexts that rendering starts in, outside of all classes. -/
theorem alike_initial (indent' indent : Indent) (preferStruct : Data) :
    Flags.Alike (backend indent' preferStruct).initial (backend indent preferStruct).initial :=
  ⟨.null, rfl⟩

end CodeSample.CSharp

/-! ### Targets -/

namespace CodeSample.Target

/-- Which backend there is for a target has nothing to do with a tree, and all are C# backends. -/
theorem agree_backend (target : Data) (options : List (String × Data)) :
    Agree (fun b' b => b' = b ∧ ∃ indent preferStruct, b = CSharp.backend indent preferStruct)
      (backend target options) (backend target options) := by
  have hset (o : Options) (option : String × Data) : Agree Eq (o.set option) (o.set option) := by
    unfold Options.set
    split
    · exact .ok rfl
    · exact .ok rfl
    · exact .wrongSort
  have hoptions : ∀ o : Options,
      Agree Eq (options.foldlM Options.set o) (options.foldlM Options.set o) := by
    induction options with
    | nil => exact fun o => .ok rfl
    | cons option options ih =>
      intro o
      rw [List.foldlM_cons]
      refine (hset o option).bind ?_
      rintro o _ rfl
      exact ih o
  unfold backend
  split
  · exact .wrongSort
  · exact .wrongSort
  · split
    · refine (hoptions {}).bind ?_
      rintro o _ rfl
      exact .ok ⟨rfl, o.indent, o.preferStruct, rfl⟩
    · exact .error ⟨rfl, rfl⟩

/-- Renderings for every target tally, if those by all C# backends do. -/
theorem tally_of_backends {R : Rendering → Rendering → Prop} {E : Fault → Fault → Prop}
    (same : ∀ fault : Fault, fault.isPlaced = false → E fault fault) {checker' checker : Checker}
    {root' root : Value}
    (h : ∀ indent preferStruct,
      Tally E R ((CSharp.backend indent preferStruct).render checker' root')
        ((CSharp.backend indent preferStruct).render checker root)) (target : Data)
    (options : List (String × Data)) :
    Tally E R (render target options checker' root') (render target options checker root) := by
  have hsame : ∀ fault' fault : Fault, fault' = fault ∧ fault.isPlaced = false → E fault' fault :=
    fun _ _ h => h.1 ▸ same _ (h.1 ▸ h.2)
  unfold render
  split
  · exact .error (same _ rfl)
  · refine ((agree_backend target options).mono hsame fun _ _ h => h).bind ?_
    rintro _ b ⟨rfl, indent, preferStruct, rfl⟩
    exact h indent preferStruct

/-- Trees whose nodes stand for one another are rendered alike for every target. -/
theorem tally_render {N : Node → Node → Prop} {E : Fault → Fault → Prop}
    {alike : ∀ {n' n : Node}, N n' n → Node.Alike N n' n}
    {same : ∀ fault : Fault, fault.isPlaced = false → E fault fault}
    {refuse : ∀ (visitor : String) {n' n : Node}, N n' n →
      E (.unsupported visitor n'.kind n'.pos) (.unsupported visitor n.kind n.pos)}
    {checker' checker : Checker}
    (hcheckers : (Likeness.ofNodes N alike E same refuse).Checkers checker' checker)
    {root' root : Value} (hroot : Value.Alike N root' root) (target : Data)
    (options : List (String × Data)) :
    Tally E (Rendering.Alike N) (Target.render target options checker' root')
      (Target.render target options checker root) := by
  refine tally_of_backends same (fun indent preferStruct => Backend.tally_render same ?_) _ _
  exact Likeness.convert (L := .ofNodes N alike E same refuse)
    (CSharp.alike_backend rfl preferStruct) hcheckers (CSharp.isLocal indent preferStruct)
    (CSharp.isLocal indent preferStruct) (CSharp.alike_initial indent indent preferStruct) hroot

end CodeSample.Target

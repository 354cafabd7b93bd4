import CodeSample.Proofs.AccessChains

/-!
# Two printers of simple expressions

The neutral backend renders some expressions part by part, and echoes the source text of others,
which it reports. The source text in turn is put together from the parts where none was recorded.
For simple expressions the two come to the same, whatever is inside what: what is written is the
source text, and what is echoed as a whole is reported once, with nothing inside of it.

* `Kind.echoed` are the simple expressions that are echoed, `Node.isSimple` checks the nodes of a
  simple expression, and `Value.outermost` are the outermost nodes of some kinds in a tree;
* `Neutral.Echoes` says of a run that it writes a source text and reports what is outermost;
* `echoes_…` is the statement for each rule, `echoes_convert` joins them;
* `Neutral.render_simple` is the statement for renderings.
-/

namespace CodeSample

open Layout (Fragment)
open Layout.Fragment (row flows_row flows_row_text raw_row raw_row_text raw_text)
open Layout.Sink (stripLineEnds)

/-! ### Simple expressions -/

namespace Kind

/-- The kinds of simple expressions that the neutral backend echoes. -/
def echoed : List Kind := [.identifier, .stringLiteral, .propertyAccessExpression, .callExpression]

/-- The kinds of simple expressions that stand for themselves. -/
def words : List Kind := [.numericLiteral, .trueKeyword, .falseKeyword, .nullKeyword, .thisKeyword]

/-- The kinds of simple expressions that the neutral backend renders part by part. -/
def framing : List Kind := [
  .elementAccessExpression, .parenthesizedExpression, .binaryExpression, .prefixUnaryExpression]

end Kind

namespace Node

/-- Whether a node is a simple expression without a recorded span. A strict comparison is none. -/
def isSimple (n : Node) : Bool :=
  n.isShaped .source && n.hasNoSpan &&
    (Kind.echoed ++ Kind.words ++ Kind.framing).contains n.kind &&
    !(n.kind == .binaryExpression &&
      ((n.get .operator).isText "===" || (n.get .operator).isText "!=="))

/-- A simple expression all the way down. -/
def IsSimple (n : Node) : Prop := n.toValue.all (·.isSimple) = true

/-- A simple expression is shaped. -/
theorem isShaped_of_isSimple (m : Node) (h : m.isSimple = true) : m.isShaped .source = true := by
  unfold isSimple at h
  simp only [Bool.and_eq_true] at h
  exact h.1.1.1

namespace IsSimple

variable {n : Node} (h : n.IsSimple)
include h

/-- The root of a simple expression is simple. -/
theorem isSimple : n.isSimple = true := ((Value.all_toValue n).1 h).1

/-- A simple expression is a tree of the language. -/
theorem isProgram : n.IsProgram := Value.all_mono isShaped_of_isSimple h

/-- The root of a simple expression is shaped. -/
theorem isShaped : n.isShaped .source = true := isShaped_of_isSimple n h.isSimple

/-- A simple expression is echoed, stands for itself or is rendered part by part. -/
theorem kind : n.kind ∈ Kind.echoed ++ Kind.words ++ Kind.framing := by
  have := h.isSimple
  unfold Node.isSimple at this
  simp only [Bool.and_eq_true, List.contains_iff_mem] at this
  exact this.1.2

/-- No span was recorded of a simple expression. -/
theorem isUnspanned : n.IsUnspanned := by
  refine Value.all_mono (fun m hm => ?_) h
  unfold Node.isSimple at hm
  rw [Bool.and_eq_true, Bool.and_eq_true] at hm
  exact hm.1.1

/-- A part of a simple expression is one. -/
theorem one {f : Field} {kinds : List Kind}
    (hf : Grammar.source.content? n.kind f = some (.one kinds)) :
    ∃ m : Node, n.get f = m.toValue ∧ m.IsSimple := by
  obtain ⟨m, hm, hsimple, -⟩ := Node.one_of_all isShaped_of_isSimple h hf
  exact ⟨m, hm, hsimple⟩

/-- The operator of a binary expression is no strict comparison. -/
theorem operator (hk : n.kind = .binaryExpression) :
    ∃ o, n.get .operator = .text o ∧ Neutral.strict o = o := by
  obtain ⟨o, ho⟩ := Node.text_of_isShaped h.isShaped (f := .operator) (by rw [hk]; rfl)
  have := h.isSimple
  unfold Node.isSimple at this
  rw [hk, ho] at this
  simp only [Bool.and_eq_true, Value.isText, Value.text?, beq_self_eq_true, Bool.true_and,
    Bool.not_eq_true', Bool.or_eq_false_iff, beq_eq_false_iff_ne, ne_eq, Option.some.injEq] at this
  exact ⟨o, ho, by unfold Neutral.strict; rw [if_neg this.2.1, if_neg this.2.2]⟩

end IsSimple

end Node

/-! ### Outermost nodes -/

namespace Value

mutual

/-- The outermost nodes of some kinds in a tree, from left to right. -/
def outermost (kinds : List Kind) : Value → List Node
  | node kind pos source type? fields =>
    if kind ∈ kinds then [⟨kind, pos, source, type?, fields⟩] else outermostOf kinds fields
  | list vs => outermostOf kinds vs
  | _ => []

/-- The outermost nodes of some kinds in several trees. -/
def outermostOf (kinds : List Kind) : List Value → List Node
  | [] => []
  | v :: vs => outermost kinds v ++ outermostOf kinds vs

end

variable {kinds : List Kind} {n : Node}

/-- The outermost nodes in several trees are those in each, one after the other. -/
theorem outermostOf_eq_flatMap (vs : List Value) :
    outermostOf kinds vs = vs.flatMap (outermost kinds) := by
  induction vs with
  | nil => rfl
  | cons v vs ih => rw [outermostOf, ih, List.flatMap_cons]

/-- A node of one of the kinds is outermost in itself. -/
theorem outermost_of_mem (hk : n.kind ∈ kinds) : n.toValue.outermost kinds = [n] := by
  rw [Node.toValue, outermost, if_pos hk]

/-- Below a node of another kind they are those in its fields. -/
theorem outermost_of_not_mem (hk : n.kind ∉ kinds)
    (hlength : n.fields.length = n.kind.slots.length) :
    n.toValue.outermost kinds =
      n.kind.slots.flatMap fun slot => (n.get slot.field).outermost kinds := by
  rw [Node.toValue, outermost, if_neg hk, outermostOf_eq_flatMap, Node.fields_eq_map_get hlength,
    List.flatMap_map]

end Value

/-! ### Rules -/

namespace Neutral

variable {C : Type} {name : String} {view : View C} {n : Node}

/-- The report on a construct that the backend cannot express. -/
def unsupported (name : String) (n : Node) : Diagnostic := ⟨n, .text (notSupported name n.kind)⟩

/-- A run writes the source text of a value, and reports what is outermost in the value of the kinds
that are echoed. -/
def Echoes (name : String) (v : Value) (r : Run Fragment) : Prop :=
  ∃ (s : String) (f : Fragment), v.sourceText = .ok (.text s) ∧
    r = ⟨(v.outermost Kind.echoed).map (unsupported name), .ok f⟩ ∧ f.flows = true ∧
    f.raw = s.toList

/-- What is echoed is reported itself, and is its own outermost node. -/
theorem echoes_echo (hn : n.IsProgram) (hk : n.kind ∈ Kind.echoed) :
    Echoes name n.toValue (echo name view n) := by
  obtain ⟨s, hs⟩ := exists_text hn
  refine ⟨s, row [.text s], hs, ?_, flows_row_text s, raw_row_text s⟩
  rw [Value.outermost_of_mem hk]
  unfold echo
  rw [hs]
  rfl

/-- A number is written as its source text, and nothing is reported. -/
theorem echoes_number (hn : n.IsSimple) (hk : n.kind = .numericLiteral) :
    Echoes name n.toValue (sourceOf view n) := by
  obtain ⟨s, hs⟩ := exists_text hn.isProgram
  obtain ⟨t, ht⟩ := Node.text_of_isShaped hn.isShaped (f := .text) (by rw [hk]; rfl)
  refine ⟨s, row [.text s], hs, ?_, flows_row_text s, raw_row_text s⟩
  have hnone : n.toValue.outermost Kind.echoed = [] := by
    rw [Value.outermost_of_not_mem (by rw [hk]; decide) hn.isUnspanned.length_fields, hk]
    show (n.get .text).outermost Kind.echoed ++ [] = []
    rw [ht]
    rfl
  rw [hnone]
  unfold sourceOf
  rw [hs]
  rfl

/-- A word is its own source text, and nothing is reported. -/
theorem echoes_word (hn : n.IsSimple) {s : String} (hs : Value.keyword? n.kind = some s) :
    Echoes name n.toValue (word s view n) := by
  have hkeyword : ∀ k ∈ Kind.all, (Value.keyword? k).isSome = true →
      k ∉ [Kind.identifier, .numericLiteral, .stringLiteral, .typeNode] ∧ k ∉ Kind.composed ∧
        k ∉ Kind.echoed ∧ k.slots = [] := by decide
  obtain ⟨hother, hcomposed, hechoed, hslots⟩ :=
    hkeyword n.kind n.kind.mem_all (by rw [hs]; rfl)
  refine ⟨s, row [.text s], ?_, ?_, flows_row_text s, raw_row_text s⟩
  · rw [Value.sourceText_eq_keyword (hn.isUnspanned.truthy_source hother)
      hn.isUnspanned.length_fields hcomposed, hs]
    rfl
  · rw [Value.outermost_of_not_mem hechoed hn.isUnspanned.length_fields, hslots]
    rfl

/-! ### Rules that render the parts -/

/-- An expression in parentheses echoes if the expression does. -/
theorem echoes_parenthesized (hn : n.IsSimple) (hk : n.kind = .parenthesizedExpression)
    (h : Echoes name (n.get .expression) (view.convert (n.get .expression))) :
    Echoes name n.toValue (parenthesized view n) := by
  obtain ⟨s, f, hs, hrun, hflows, hraw⟩ := h
  have hall : ∀ x ∈ [.text "(", f, .text ")"], x.flows = true := by simp [hflows]
  refine ⟨"(" ++ s ++ ")", row [.text "(", f, .text ")"], ?_, ?_, flows_row hall false, ?_⟩
  · rw [Value.sourceText_eq_parenthesized (hn.isUnspanned.truthy_source (by rw [hk]; decide))
      hn.isUnspanned.length_fields hk, hs]
    rfl
  · rw [Value.outermost_of_not_mem (by rw [hk]; decide) hn.isUnspanned.length_fields, hk]
    unfold parenthesized
    rw [hrun]
    simp [Kind.slots]
  · rw [row, raw_row hall]
    simp [hraw]

/-- An access to an element echoes if what is accessed and the argument do: the reports follow one
another. -/
theorem echoes_elementAccess (hn : n.IsSimple) (hk : n.kind = .elementAccessExpression)
    (hexpression : Echoes name (n.get .expression) (view.convert (n.get .expression)))
    (hargument : Echoes name (n.get .argument) (view.convert (n.get .argument))) :
    Echoes name n.toValue (elementAccess view n) := by
  obtain ⟨s, f, hs, hrun, hflows, hraw⟩ := hexpression
  obtain ⟨t, g, ht, hrun', hflows', hraw'⟩ := hargument
  have hall : ∀ x ∈ [f, .text "[", g, .text "]"], x.flows = true := by simp [hflows, hflows']
  refine ⟨s ++ "[" ++ t ++ "]", row [f, .text "[", g, .text "]"], ?_, ?_, flows_row hall false, ?_⟩
  · rw [Value.sourceText_eq_elementAccess (hn.isUnspanned.truthy_source (by rw [hk]; decide))
      hn.isUnspanned.length_fields hk, hs, ht]
    rfl
  · rw [Value.outermost_of_not_mem (by rw [hk]; decide) hn.isUnspanned.length_fields, hk]
    unfold elementAccess
    rw [hrun, hrun']
    simp [Kind.slots]
  · rw [row, raw_row hall]
    simp [hraw, hraw']

/-- A binary expression echoes if its operands do: its operator is written as in the source. -/
theorem echoes_binary (hn : n.IsSimple) (hk : n.kind = .binaryExpression)
    (hleft : Echoes name (n.get .left) (view.convert (n.get .left)))
    (hright : Echoes name (n.get .right) (view.convert (n.get .right))) :
    Echoes name n.toValue (binary view n) := by
  obtain ⟨s, f, hs, hrun, hflows, hraw⟩ := hleft
  obtain ⟨t, g, ht, hrun', hflows', hraw'⟩ := hright
  obtain ⟨o, ho, hstrict⟩ := hn.operator hk
  have hoperator : operatorOf (n.get .operator) = .ok (.text o) := by
    rw [ho]
    exact congrArg (fun o => Except.ok (Value.text o)) hstrict
  have hall : ∀ x ∈ [f, .text " ", .text o, .text " ", g], x.flows = true := by
    simp [hflows, hflows']
  refine ⟨s ++ " " ++ o ++ " " ++ t, row [f, .text " ", .text o, .text " ", g], ?_, ?_,
    flows_row hall false, ?_⟩
  · rw [Value.sourceText_eq_binary (hn.isUnspanned.truthy_source (by rw [hk]; decide))
      hn.isUnspanned.length_fields hk, hs, ht, ho]
    rfl
  · rw [Value.outermost_of_not_mem (by rw [hk]; decide) hn.isUnspanned.length_fields, hk]
    unfold binary
    rw [hoperator, hrun, hrun']
    simp [Kind.slots, ho, Value.outermost, liftM, monadLift, MonadLift.monadLift, Run.ofExcept,
      Value.toFragment]
  · rw [row, raw_row hall]
    simp [hraw, hraw']

/-- A prefix expression echoes if its operand does. -/
theorem echoes_prefixUnary (hn : n.IsSimple) (hk : n.kind = .prefixUnaryExpression)
    (h : Echoes name (n.get .operand) (view.convert (n.get .operand))) :
    Echoes name n.toValue (prefixUnary view n) := by
  obtain ⟨s, f, hs, hrun, hflows, hraw⟩ := h
  obtain ⟨o, ho⟩ := Node.text_of_isShaped hn.isShaped (f := .operator) (by rw [hk]; rfl)
  have hall : ∀ x ∈ [.text o, f], x.flows = true := by simp [hflows]
  refine ⟨o ++ s, row [.text o, f], ?_, ?_, flows_row hall false, ?_⟩
  · rw [Value.sourceText_eq_prefixUnary (hn.isUnspanned.truthy_source (by rw [hk]; decide))
      hn.isUnspanned.length_fields hk, hs, ho]
    rfl
  · rw [Value.outermost_of_not_mem (by rw [hk]; decide) hn.isUnspanned.length_fields, hk]
    unfold prefixUnary
    rw [hrun]
    simp [Kind.slots, ho, Value.outermost, Value.toFragment]
  · rw [row, raw_row hall]
    simp [hraw]

/-! ### Whole expressions -/

/-- The callee of a call has a source text, so that it is found out whether the call prints; it is
echoed in any case. -/
theorem call_echo (hn : n.IsSimple) (hk : n.kind = .callExpression) :
    Dispatch.call (echo name) (echo name) view n = echo name view n := by
  obtain ⟨m, hm, hsimple⟩ := hn.one (f := .expression) (by rw [hk]; rfl)
  obtain ⟨b, hb⟩ := Dispatch.isPrintCall_ok (v := n.get .expression)
    (hm ▸ exists_text hsimple.isProgram)
  unfold Dispatch.call
  rw [hb]
  cases b <;> rfl

/-- What the rule for a simple expression writes and reports, if its parts are rendered as they
should be. -/
theorem echoes_rule (hn : n.IsSimple)
    (h : ∀ f, (∃ m : Node, n.get f = m.toValue ∧ m.IsSimple) →
      Echoes name (n.get f) (view.convert (n.get f))) :
    ∃ rule : Rule C, rule? name n.kind = some rule ∧ Echoes name n.toValue (rule view n) := by
  have part {f : Field} {kinds : List Kind}
      (hf : Grammar.source.content? n.kind f = some (.one kinds)) := h f (hn.one hf)
  have hkind := hn.kind
  cases hk : n.kind
  case identifier | stringLiteral | propertyAccessExpression =>
    exact ⟨_, rfl, echoes_echo hn.isProgram (by rw [hk]; decide)⟩
  case callExpression =>
    refine ⟨_, rfl, ?_⟩
    rw [call_echo hn hk]
    exact echoes_echo hn.isProgram (by rw [hk]; decide)
  case numericLiteral => exact ⟨_, rfl, echoes_number hn hk⟩
  case trueKeyword | falseKeyword | nullKeyword | thisKeyword =>
    exact ⟨_, rfl, echoes_word hn (by rw [hk]; rfl)⟩
  case elementAccessExpression =>
    exact ⟨_, rfl, echoes_elementAccess hn hk (part (by rw [hk]; rfl)) (part (by rw [hk]; rfl))⟩
  case parenthesizedExpression =>
    exact ⟨_, rfl, echoes_parenthesized hn hk (part (by rw [hk]; rfl))⟩
  case binaryExpression =>
    exact ⟨_, rfl, echoes_binary hn hk (part (by rw [hk]; rfl)) (part (by rw [hk]; rfl))⟩
  case prefixUnaryExpression => exact ⟨_, rfl, echoes_prefixUnary hn hk (part (by rw [hk]; rfl))⟩
  all_goals exact absurd (hk ▸ hkind) (by decide)

/-- What is written and reported for a simple expression. -/
theorem echoes_convert (name : String) (checker : Checker) (hn : n.IsSimple) :
    Echoes name n.toValue ((backend name).convert checker (backend name).initial n.toValue) := by
  induction hd : n.toValue.depth using Nat.strongRecOn generalizing n with | _ depth ih
  subst hd
  have hparts (f : Field) (hf : ∃ m : Node, n.get f = m.toValue ∧ m.IsSimple) :
      Echoes name (n.get f)
        (((backend name).view checker (backend name).initial).convert (n.get f)) := by
    obtain ⟨m, hm, hsimple⟩ := hf
    have hlt := Value.depth_get_lt n f
    rw [hm] at hlt ⊢
    exact ih _ hlt hsimple rfl
  obtain ⟨rule, hrule, hechoes⟩ := echoes_rule hn hparts
  rw [Backend.convert_node (isLocal name)]
  unfold Backend.visit
  rw [show (backend name).rule? n.kind = some rule from hrule]
  exact hechoes

/-- The two printers of simple expressions agree. The neutral backend writes the source text, of
which only blanks at line ends are dropped, and reports every outermost name, string, access to a
property and call, once each and from left to right. -/
theorem render_simple (name : String) (checker : Checker) {n : Node} (hn : n.IsSimple) :
    ∃ s, n.toValue.sourceText = .ok (.text s) ∧
      (backend name).render checker n.toValue =
        .ok ⟨String.ofList (stripLineEnds s.toList),
          (n.toValue.outermost Kind.echoed).map (unsupported name)⟩ := by
  obtain ⟨s, f, hs, hrun, hflows, hraw⟩ := echoes_convert name checker hn
  refine ⟨s, hs, Backend.render_eq_ok_iff.2 ⟨f, hrun, ?_⟩⟩
  rw [Fragment.output_of_isPlain (Layout.Fragment.isPlain_of_flows hflows)]
  refine congrArg Except.ok (String.toList_inj.1 ?_)
  rw [Layout.Fragment.toList_render, hraw, String.toList_ofList]

/-- An expression without a recorded span. -/
def bareExpression (kind : Kind) (source : String) (fields : List Value) : Node :=
  ⟨kind, .unknown, .text source, none, fields⟩

/-- The name `rows`. -/
def rowsName : Node := bareExpression .identifier "rows" [.text "rows"]

/-- The call `this.skip("a")`, in which nothing is reported but the call. -/
def skipCall : Node :=
  bareExpression .callExpression "" [
    (bareExpression .propertyAccessExpression "" [(bareExpression .thisKeyword "" []).toValue,
      (bareExpression .identifier "skip" [.text "skip"]).toValue]).toValue,
    .list [(bareExpression .stringLiteral "\"a\"" [.text "a"]).toValue]]

/-- The expression `-(rows[0]) == this.skip("a")`. -/
def rowsCompared : Node :=
  bareExpression .binaryExpression "" [
    (bareExpression .prefixUnaryExpression "" [.text "-",
      (bareExpression .parenthesizedExpression "" [
        (bareExpression .elementAccessExpression "" [rowsName.toValue,
          (bareExpression .numericLiteral "0" [.text "0"]).toValue]).toValue]).toValue]).toValue,
    .text "==", skipCall.toValue]

/-- The comparison of rows is written as in the source, and two of its names are reported. -/
theorem render_simple_rows :
    rowsCompared.IsSimple ∧
    (backend "default").render .recorded rowsCompared.toValue =
      .ok ⟨"-(rows[0]) == this.skip(\"a\")",
        [unsupported "default" rowsName, unsupported "default" skipCall]⟩ := by
  have hsimple : rowsCompared.IsSimple := by
    unfold Node.IsSimple
    decide
  obtain ⟨s, hs, hrender⟩ := render_simple "default" .recorded hsimple
  have hsource : rowsCompared.toValue.sourceText = .ok (.text "-(rows[0]) == this.skip(\"a\")") :=
    rfl
  obtain rfl := Value.text.inj (Except.ok.inj (hs.symm.trans hsource))
  exact ⟨hsimple, hrender⟩

end Neutral

end CodeSample

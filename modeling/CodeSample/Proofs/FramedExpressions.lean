import CodeSample.Proofs.FramedOutput
import CodeSample.Proofs.TidyTrees

/-!
# What is written for an expression starts and ends with ink

Expressions are written without lines of their own, and what is written for them starts and ends
with ink if their names, numbers and operators hold no white space. Nothing is asked of the texts of
strings and templates: they stand between quotation marks. Only where a string literal stands for
the name of a property may nothing at all be written for it.

* `Text.isUnspaced` are the texts that are not empty and hold no white space, and
  `Node.IsUnspacedProgram` are the trees whose names, numbers and operators are such texts;
* `CSharp.IsFound` says where an expression or an assignment may be met, and `CSharp.Frames` what is
  written for it there;
* `frames_…` is the statement for each rule, `frames_convert` joins them;
* `exists_framed` is what this means for an expression.
-/

namespace CodeSample

open Layout (Fragment Indent)
open Text (isInk)

/-! ### Texts without white space -/

namespace Text

/-- Whether a text is not empty and holds no white space. -/
def isUnspaced (s : String) : Bool := s != "" && s.toList.all (!isBlank ·)

/-- A text is unspaced if it is not empty and consists of no white space. -/
theorem isUnspaced_iff {s : String} :
    isUnspaced s = true ↔ s ≠ "" ∧ Consists (!isBlank ·) s := by
  unfold isUnspaced
  rw [Bool.and_eq_true, bne_iff_ne, List.all_eq_true]
  exact Iff.rfl

/-- What holds no white space starts and ends with ink. -/
theorem isFramed_of_isUnspaced {s : String} (h : isUnspaced s = true) : IsFramed s.toList := by
  obtain ⟨hne, hall⟩ := isUnspaced_iff.1 h
  have hink : ∀ c ∈ s.toList, isInk c = true := by
    intro c hc
    have hblank := hall c hc
    unfold isInk
    simp only [Bool.and_eq_true, bne_iff_ne]
    refine ⟨⟨?_, ?_⟩, ?_⟩ <;>
    · rintro rfl
      exact absurd hblank (by decide)
  have hne : s.toList ≠ [] := fun hnil => hne (String.toList_eq_nil_iff.1 hnil)
  exact ⟨⟨_, List.head?_eq_some_head hne, hink _ (List.head_mem hne)⟩,
    ⟨_, List.getLast?_eq_some_getLast hne, hink _ (List.getLast_mem hne)⟩⟩

/-- Capitalising a text brings no white space into it. -/
theorem isUnspaced_upperFirst {s : String} (h : isUnspaced s = true) :
    isUnspaced (upperFirst s) = true := by
  obtain ⟨hne, hall⟩ := isUnspaced_iff.1 h
  refine isUnspaced_iff.2 ⟨upperFirst_ne_empty hne, consists_upperFirst (fun c hc => ?_) hall⟩
  unfold isSolid at hc
  rw [Bool.and_eq_true, Bool.and_eq_true] at hc
  exact hc.1.1

/-- A text that a mark starts and another one ends. -/
theorem isFramed_between {s t : String} (hs : IsFramed s.toList) (ht : IsFramed t.toList)
    (u : String) : IsFramed (s ++ u ++ t).toList := by
  rw [String.toList_append, String.toList_append]
  refine ⟨?_, ends_append ht.ends _⟩
  exact begins_append (begins_append hs.begins _) _

end Text

/-! ### Trees without white space in their words -/

namespace Node

/-- Whether what is written for a name, a number or an operator is not empty and holds no white
space. What is written for a number is its source. -/
def isUnspaced (n : Node) : Bool :=
  match n.kind with
  | .identifier => (n.get .text).isTextThat Text.isUnspaced
  | .numericLiteral => n.source.isTextThat Text.isUnspaced
  | .binaryExpression | .prefixUnaryExpression => (n.get .operator).isTextThat Text.isUnspaced
  | _ => true

/-- A tree of the language whose names, numbers and operators hold no white space. -/
def IsUnspacedProgram (n : Node) : Prop :=
  n.toValue.all (fun m => m.isShaped .source && m.isUnspaced) = true

/-- The recorded source of a node is its source text. -/
theorem sourceText_of_source {n : Node} {s : String} (hs : n.source = .text s) (hne : s ≠ "") :
    n.toValue.sourceText = .ok (.text s) := by
  have htruthy : n.source.truthy = true := by
    rw [hs]
    simpa [Value.truthy] using hne
  rw [toValue]
  unfold Value.sourceText
  rw [if_pos htruthy, hs]

/-- What passes both checks is shaped. -/
theorem isShaped_of_isUnspaced (m : Node) (h : (m.isShaped .source && m.isUnspaced) = true) :
    m.isShaped .source = true := by
  rw [Bool.and_eq_true] at h
  exact h.1

namespace IsUnspacedProgram

variable {n : Node} (h : n.IsUnspacedProgram)
include h

/-- The root of an unspaced program is unspaced. -/
theorem isUnspaced : n.isUnspaced = true := by
  have := ((Value.all_toValue n).1 h).1
  rw [Bool.and_eq_true] at this
  exact this.2

/-- An unspaced program is a tree of the language. -/
theorem isProgram : n.IsProgram := Value.all_mono isShaped_of_isUnspaced h

/-- The root of an unspaced program is shaped. -/
theorem isShaped : n.isShaped .source = true := isShaped_of_all isShaped_of_isUnspaced h

/-- The text of a name. -/
theorem text (hk : n.kind = .identifier) :
    ∃ s, n.get .text = .text s ∧ Text.isUnspaced s = true := by
  have := h.isUnspaced
  unfold Node.isUnspaced at this
  rw [hk] at this
  exact Value.exists_of_isTextThat this

/-- The source text of a number. -/
theorem number (hk : n.kind = .numericLiteral) :
    ∃ s, n.toValue.sourceText = .ok (.text s) ∧ Text.isUnspaced s = true := by
  have := h.isUnspaced
  unfold Node.isUnspaced at this
  rw [hk] at this
  obtain ⟨s, hs, hunspaced⟩ := Value.exists_of_isTextThat this
  exact ⟨s, sourceText_of_source hs (Text.isUnspaced_iff.1 hunspaced).1, hunspaced⟩

/-- The operator of an expression that has one. -/
theorem operator (hk : n.kind ∈ [.binaryExpression, .prefixUnaryExpression]) :
    ∃ s, n.get .operator = .text s ∧ Text.isUnspaced s = true := by
  have := h.isUnspaced
  unfold Node.isUnspaced at this
  rw [List.mem_cons, List.mem_singleton] at hk
  rcases hk with hk | hk <;>
  · rw [hk] at this
    exact Value.exists_of_isTextThat this

end IsUnspacedProgram

end Node

namespace CSharp

open Layout.Fragment (row separated isFramed_row isFramed_tree isFramed_text flows_row
  flows_separated flows_tree raw_text)

/-! ### Words -/

/-- Escaping a keyword brings no white space into a name. -/
theorem isUnspaced_safeName {s : String} (h : Text.isUnspaced s = true) :
    Text.isUnspaced (safeName s) = true := by
  obtain ⟨hne, hall⟩ := Text.isUnspaced_iff.1 h
  unfold safeName
  split
  · refine Text.isUnspaced_iff.2 ⟨?_, Text.Consists.append (by decide) hall⟩
    intro hnil
    rw [← String.toList_inj] at hnil
    simp at hnil
  · exact h

/-- However a name is spelled, it starts and ends with ink. -/
theorem isFramed_spelledName (c : Flags) (kind : Kind) {s : String} (h : Text.isUnspaced s = true) :
    Text.IsFramed (spelledName c kind s).toList := by
  unfold spelledName
  split
  · exact Text.isFramed_between (by decide) (by decide) _
  · split
    · exact Text.isFramed_of_isUnspaced (isUnspaced_safeName (Text.isUnspaced_upperFirst h))
    · split
      · decide
      · exact Text.isFramed_of_isUnspaced (isUnspaced_safeName h)

/-- A quoted text starts and ends with its quotation marks. -/
theorem isFramed_quote (s : String) : Text.IsFramed (Text.quote s).toList :=
  Text.isFramed_between (by decide) (by decide) _

/-- An interpolated string starts with its sign and ends with a quotation mark. -/
theorem isFramed_templateOf (head : String) (spans : List (String × String)) :
    Text.IsFramed (templateOf head spans).toList := by
  obtain ⟨inner, hinner⟩ : ∃ inner, templateOf head spans = "$\"" ++ inner ++ "\"" :=
    ⟨_, congrArg (· ++ "\"") String.append_assoc⟩
  rw [hinner]
  exact Text.isFramed_between (by decide) (by decide) _

/-- A text as the output of a rule. -/
theorem isFramed_word {s : String} (h : Text.IsFramed s.toList) : (row [.text s]).IsFramed :=
  isFramed_row rfl rfl (by simp) (isFramed_text h).begins (isFramed_text h).ends

/-- A literal in braces. -/
theorem isFramed_initializerList {indent : Indent} (hindent : indent.isWhole = true) {s : String}
    (hs : Text.Begins s.toList) {xs : List Fragment} (hxs : ∀ x ∈ xs, x.flows = true) :
    (initializerList indent [.text s] xs).IsFramed := by
  have hbegins : Text.Begins (Fragment.text s).raw := by
    rwa [raw_text]
  unfold initializerList
  split
  · refine isFramed_row (y := .text " \x7b \x7d") rfl rfl (by simp) hbegins ?_
    rw [raw_text]
    decide
  · refine isFramed_tree rfl rfl (flows_tree.2 ⟨by simp, hxs, Or.inr rfl, hindent⟩) hbegins ?_
    exact ⟨'\x7d', rfl, rfl⟩

/-! ### Where expressions are met -/

/-- An expression or an assignment may be met in a context. Where string literals stand for
identifiers, only these two are met. -/
structure IsFound (c : Flags) (n : Node) : Prop where
  tree : n.IsUnspacedProgram
  kind : n.kind ∈ Kind.expressions ++ Kind.assignments
  asIdentifier : c.stringAsIdentifier.truthy = true → n.kind ∈ [.identifier, .stringLiteral]

/-- What is written for an expression or an assignment in a context. -/
structure Frames (c : Flags) (n : Node) (f : Fragment) : Prop where
  flows : f.flows = true
  framed : n.kind ∈ Kind.expressions → c.stringAsIdentifier.truthy = false → f.IsFramed

/-- All less deep expressions and assignments are written as they should be. -/
def RendersFramed (convertIn : Flags → Value → Run Fragment) (n : Node) : Prop :=
  Renders convertIn IsFound Frames n

/-- Where string literals are strings, all expressions and assignments may be met. -/
theorem isFound {c : Flags} (hc : c.stringAsIdentifier.truthy = false) {n : Node}
    (hn : n.IsUnspacedProgram) (hk : n.kind ∈ Kind.expressions ++ Kind.assignments) :
    IsFound c n :=
  ⟨hn, hk, fun htruthy => by rw [hc] at htruthy; cases htruthy⟩

variable {view : View Flags} {n : Node}

namespace RendersFramed

variable {convertIn : Flags → Value → Run Fragment} {c : Flags} {checker : Checker}
  {f : Field} {kinds : List Kind}
variable (h : RendersFramed convertIn n) (hn : n.IsUnspacedProgram)
  (hc : c.stringAsIdentifier.truthy = false)
include h hn

/-- A name, or a string literal that may stand for one. -/
theorem name (hf : Grammar.source.content? n.kind f = some (.one kinds))
    (hkinds : kinds ⊆ [.identifier, .stringLiteral]) :
    (convertIn c (n.get f)).Gives fun x => x.flows = true := by
  have hexpression : ∀ kind ∈ [Kind.identifier, Kind.stringLiteral],
      kind ∈ Kind.expressions ++ Kind.assignments := by decide
  refine Renders.one h Node.isShaped_of_isUnspaced hn hf (fun m hm hk => ?_)
    fun _ _ _ hx => hx.flows
  exact ⟨hm, hexpression _ (hkinds hk), fun _ => hkinds hk⟩

include hc

/-- The expression in a field is written between ink and ink. -/
theorem one (hf : Grammar.source.content? n.kind f = some (.one kinds))
    (hkinds : kinds ⊆ Kind.expressions) : (convertIn c (n.get f)).Gives Fragment.IsFramed :=
  Renders.one h Node.isShaped_of_isUnspaced hn hf
    (fun _ hm hk => isFound hc hm (List.mem_append_left _ (hkinds hk)))
    fun _ hk _ hx => hx.framed (hkinds hk) hc

/-- The expressions that a field enumerates are written between ink and ink. -/
theorem all (hf : Grammar.source.content? n.kind f = some (.many Kind.expressions)) :
    ((View.mk c checker convertIn).convertAll (n.get f)).Gives fun xs =>
      ∀ x ∈ xs, x.IsFramed :=
  Renders.all h Node.isShaped_of_isUnspaced hn hf
    (fun _ hm hk => isFound hc hm (List.mem_append_left _ hk))
    fun _ hk _ hx => hx.framed hk hc

/-- The assignments that a field enumerates are written without lines of their own. -/
theorem assignments (hf : Grammar.source.content? n.kind f = some (.many Kind.assignments)) :
    ((View.mk c checker convertIn).convertAll (n.get f)).Gives fun xs =>
      ∀ x ∈ xs, x.flows = true :=
  Renders.all h Node.isShaped_of_isUnspaced hn hf
    (fun _ hm hk => isFound hc hm (List.mem_append_right _ hk)) fun _ _ _ hx => hx.flows

end RendersFramed

section

variable (h : RendersFramed view.convertIn n) (hn : n.IsUnspacedProgram)
  (hc : view.context.stringAsIdentifier.truthy = false)
include h hn hc

/-! ### Calls and accesses -/

/-- A call that prints starts with its name and ends with a parenthesis. -/
theorem frames_printCall (hk : n.kind = .callExpression) :
    (printCall view n).Gives Fragment.IsFramed := by
  obtain ⟨vs, hvs, -⟩ :=
    Node.many_of_all Node.isShaped_of_isUnspaced hn (f := .arguments) (by rw [hk]; rfl)
  refine (gives_printCall view hvs (h.all hn hc (by rw [hk]; rfl))).mono ?_
  intro r hr
  obtain ⟨xs, hxs, hr⟩ := hr
  have hflows : ∀ x ∈ xs, x.flows = true := fun x hx => (hxs x hx).flows
  have hbegins := (isFramed_text (s := "Console.WriteLine(") (by decide)).begins
  have hends := (isFramed_text (s := ")") (by decide)).ends
  rcases hr with rfl | rfl
  · refine isFramed_row rfl List.getLast?_concat ?_ hbegins hends
    simpa [or_imp, forall_and] using hflows
  · have hholes : (separated " "
        (xs.map fun x => row [.text "\x7b", x, .text "\x7d"])).flows = true := by
      refine flows_separated _ fun y hy => ?_
      obtain ⟨x, hx, rfl⟩ := List.mem_map.1 hy
      exact flows_row (by simp [hflows x hx]) false
    exact isFramed_row rfl rfl (by simp [hholes]) hbegins hends

/-- A call of either sort starts and ends with ink. -/
theorem frames_call (hk : n.kind = .callExpression) :
    (Dispatch.call printCall regularCall view n).Gives Fragment.IsFramed := by
  have hcallee : ((asMember view).convert (n.get .expression)).Gives Fragment.IsFramed :=
    h.one (c := (asMember view).context) hn hc (by rw [hk]; rfl) (List.Subset.refl _)
  refine Dispatch.gives_call view (exists_text_of_one hn.isProgram (by rw [hk]; rfl))
    (frames_printCall h hn hc hk) ?_
  refine (gives_regularCall view hcallee (h.all hn hc (by rw [hk]; rfl))).mono ?_
  rintro _ ⟨x, ys, hx, hys, rfl⟩
  have hcommas := flows_separated ", " fun y hy => (hys y hy).flows
  exact isFramed_row rfl rfl (by simp [hx.flows, hcommas]) hx.begins
    (isFramed_text (s := ")") (by decide)).ends

/-- A property access ends with its name, which is not empty, and starts with its receiver or with
the name. -/
theorem frames_propertyAccess (hk : n.kind = .propertyAccessExpression) :
    (propertyAccess view n).Gives Fragment.IsFramed := by
  have hreceiver : ((notMember view).convert (n.get .expression)).Gives Fragment.IsFramed :=
    h.one (c := (notMember view).context) hn hc (by rw [hk]; rfl) (List.Subset.refl _)
  have hname : ((asMember view).convert (n.get .name)).Gives Fragment.IsFramed :=
    h.one (c := (asMember view).context) hn hc (by rw [hk]; rfl) (by decide)
  refine (gives_propertyAccess view (exists_text_of_one hn.isProgram (by rw [hk]; rfl)) hreceiver
    hname).mono ?_
  rintro _ ⟨y, hy, rfl | ⟨x, hx, rfl⟩⟩
  · exact isFramed_row rfl rfl (by simp [hy.flows]) hy.begins hy.ends
  · exact isFramed_row rfl rfl (by simp [hx.flows, hy.flows]) hx.begins hy.ends

/-- An access to an element starts with what is accessed and ends with a bracket. -/
theorem frames_elementAccess (hk : n.kind = .elementAccessExpression) :
    (Neutral.elementAccess view n).Gives Fragment.IsFramed := by
  refine (Neutral.gives_elementAccess view
    (h.one hn hc (f := .expression) (by rw [hk]; rfl) (List.Subset.refl _))
    (h.one hn hc (f := .argument) (by rw [hk]; rfl) (List.Subset.refl _))).mono ?_
  rintro _ ⟨x, y, hx, hy, rfl⟩
  exact isFramed_row rfl rfl (by simp [hx.flows, hy.flows]) hx.begins
    (isFramed_text (s := "]") (by decide)).ends

/-- A construction of an object starts with a word and ends with a parenthesis. -/
theorem frames_newExpression (hk : n.kind = .newExpression) :
    (Neutral.newExpression view n).Gives Fragment.IsFramed := by
  refine (Neutral.gives_newExpression view
    (h.one hn hc (f := .expression) (by rw [hk]; rfl) (List.Subset.refl _))
    (h.all hn hc (by rw [hk]; rfl))).mono ?_
  rintro _ ⟨x, ys, hx, hys, rfl⟩
  have hcommas := flows_separated ", " fun y hy => (hys y hy).flows
  refine isFramed_row rfl rfl (by simp [hx.flows, hcommas]) ?_
    (isFramed_text (s := ")") (by decide)).ends
  rw [raw_text]
  decide

/-! ### Operators -/

/-- An expression in parentheses starts and ends with them. -/
theorem frames_parenthesized (hk : n.kind = .parenthesizedExpression) :
    (Neutral.parenthesized view n).Gives Fragment.IsFramed := by
  refine (Neutral.gives_parenthesized view
    (h.one hn hc (by rw [hk]; rfl) (List.Subset.refl _))).mono ?_
  rintro _ ⟨x, hx, rfl⟩
  exact isFramed_row rfl rfl (by simp [hx.flows]) (isFramed_text (s := "(") (by decide)).begins
    (isFramed_text (s := ")") (by decide)).ends

/-- A binary expression starts with one operand and ends with the other. -/
theorem frames_binary (hk : n.kind = .binaryExpression) :
    (Neutral.binary view n).Gives Fragment.IsFramed := by
  obtain ⟨o, ho, -⟩ := hn.operator (by rw [hk]; decide)
  refine (Neutral.gives_binary view ho
    (h.one hn hc (f := .left) (by rw [hk]; rfl) (List.Subset.refl _))
    (h.one hn hc (f := .right) (by rw [hk]; rfl) (List.Subset.refl _))).mono ?_
  rintro _ ⟨x, y, hx, hy, rfl⟩
  exact isFramed_row rfl rfl (by simp [hx.flows, hy.flows]) hx.begins hy.ends

/-- A prefix expression starts with its operator and ends with the operand. -/
theorem frames_prefixUnary (hk : n.kind = .prefixUnaryExpression) :
    (Neutral.prefixUnary view n).Gives Fragment.IsFramed := by
  obtain ⟨o, ho, hunspaced⟩ := hn.operator (by rw [hk]; decide)
  refine (Neutral.gives_prefixUnary view ho
    (h.one hn hc (f := .operand) (by rw [hk]; rfl) (List.Subset.refl _))).mono ?_
  rintro _ ⟨x, hx, rfl⟩
  exact isFramed_row rfl rfl (by simp [hx.flows])
    (isFramed_text (Text.isFramed_of_isUnspaced hunspaced)).begins hx.ends

/-- A conditional expression starts with its condition and ends with the last alternative. -/
theorem frames_conditional (hk : n.kind = .conditionalExpression) :
    (Neutral.conditional view n).Gives Fragment.IsFramed := by
  refine (Neutral.gives_conditional view
    (h.one hn hc (f := .condition) (by rw [hk]; rfl) (List.Subset.refl _))
    (h.one hn hc (f := .whenTrue) (by rw [hk]; rfl) (List.Subset.refl _))
    (h.one hn hc (f := .whenFalse) (by rw [hk]; rfl) (List.Subset.refl _))).mono ?_
  rintro _ ⟨x, y, z, hx, hy, hz, rfl⟩
  exact isFramed_row rfl rfl (by simp [hx.flows, hy.flows, hz.flows]) hx.begins hz.ends

/-- A cast starts with a parenthesis and ends with its expression. -/
theorem frames_asExpression (hchecker : view.checker.IsTabled) (hk : n.kind = .asExpression) :
    (asExpression view n).Gives Fragment.IsFramed := by
  have htype : view.checker.KnowsIfAny anyText (n.get .type) :=
    knowsIfAny_of_one Node.isShaped_of_isUnspaced
      (fun m hm => hchecker.knows (Node.IsUnspacedProgram.isProgram hm)) hn (by rw [hk]; rfl)
  refine (gives_asExpression view typeWords_anyText htype
    (h.one hn hc (f := .expression) (by rw [hk]; rfl) (List.Subset.refl _))).mono ?_
  rintro _ ⟨w, x, -, hx, rfl⟩
  exact isFramed_row rfl rfl (by simp [hx.flows]) (isFramed_text (s := "(") (by decide)).begins
    hx.ends

/-! ### Literals -/

/-- An array literal starts with a word and ends with a brace. -/
theorem frames_arrayLiteral {indent : Indent} (hindent : indent.isWhole = true)
    (hk : n.kind = .arrayLiteralExpression) :
    (arrayLiteral indent view n).Gives Fragment.IsFramed := by
  refine (gives_arrayLiteral view (h.all hn hc (by rw [hk]; rfl))).mono ?_
  rintro _ ⟨xs, hxs, rfl⟩
  exact isFramed_initializerList hindent (by decide) fun x hx => (hxs x hx).flows

/-- An object literal starts with a word and ends with a brace, whatever it makes. -/
theorem frames_objectLiteral {indent : Indent} (hindent : indent.isWhole = true)
    (hchecker : view.checker.IsTabled) (hk : n.kind = .objectLiteralExpression) :
    (Dispatch.objectLiteral (structLiteral indent) (keyedLiteral indent) (untypedLiteral indent)
      view n).Gives Fragment.IsFramed := by
  obtain ⟨t?, ht, hnamed⟩ := (hchecker.knows hn.isProgram).expression
  have concrete : ∀ t ∈ t?.bind Ty.concrete?, t.Named anyText := by
    intro t htc
    obtain ⟨u, hu, hut⟩ := Option.bind_eq_some_iff.1 htc
    exact (hnamed u hu).concrete hut
  have element : ∀ t : Ty, t.Named anyText → ∀ e ∈ t.element?, e.Named anyText := by
    intro t hnamed e he
    cases t <;> simp only [Ty.element?, Option.mem_def, reduceCtorEq, Option.some.injEq] at he
    subst he
    exact hnamed.map
  have parts {c : Flags} (hc : c.stringAsIdentifier.truthy = false) :
      ((view.withContext c).convertAll (n.get .properties)).Gives
        fun xs => ∀ x ∈ xs, x.flows = true :=
    h.assignments hn hc (by rw [hk]; rfl)
  have hpairs : (amongPairs view).context.stringAsIdentifier.truthy = false := hc
  have made {s : String} (hs : IsMade anyText s) : Text.Begins s.toList := by
    obtain ⟨w, -, rfl | rfl⟩ := hs
    · rw [String.toList_append]
      exact Text.begins_append (by decide) _
    · rw [String.toList_append, String.toList_append]
      exact Text.begins_append (Text.begins_append (by decide) _) _
  refine Dispatch.gives_objectLiteral view ht (fun t htc => ?_) (fun t htc => ?_) ?_
  · refine (gives_structLiteral view typeWords_anyText (concrete t htc) (parts hc)).mono ?_
    rintro _ ⟨s, xs, hs, hxs, rfl⟩
    exact isFramed_initializerList hindent (made hs) hxs
  · refine (gives_keyedLiteral view typeWords_anyText (element t (concrete t htc))
      (parts hpairs)).mono ?_
    rintro _ ⟨s, xs, hs, hxs, rfl⟩
    exact isFramed_initializerList hindent (made hs) hxs
  · refine (gives_untypedLiteral view typeWords_anyText (parts hc) (parts hpairs)).mono ?_
    rintro _ ⟨s, xs, hs | rfl, hxs, rfl⟩
    · exact isFramed_initializerList hindent (made hs) hxs
    · exact isFramed_initializerList hindent (by decide) hxs

/-- A pair of a dictionary or an assignment to a property, of a key and a value in two fields. -/
theorem flows_assignment {key value : Field} {keys values : List Kind}
    (hkey : Grammar.source.content? n.kind key = some (.one keys))
    (hvalue : Grammar.source.content? n.kind value = some (.one values))
    (hkeys : keys ⊆ [.identifier, .stringLiteral]) (hvalues : values ⊆ Kind.expressions) :
    (assignment view (n.get key) (n.get value)).Gives fun x => x.flows = true := by
  have value {c : Flags} (hc : c.stringAsIdentifier.truthy = false) :
      (view.convertIn c (n.get value)).Gives Fragment.IsFramed := h.one hn hc hvalue hvalues
  have hordinary : (asPairValue view).context.stringAsIdentifier.truthy = false := hc
  refine (gives_assignment view (fun _ => ⟨h.name hn hkey hkeys, value hordinary⟩)
    fun _ => ⟨h.name hn hkey hkeys, value hc⟩).mono ?_
  rintro _ ⟨x, y, hx, hy, rfl | rfl⟩
  · exact flows_row (by simp [hx, hy.flows]) true
  · exact flows_row (by simp [hx, hy.flows]) true

omit h hc in
/-- A template starts and ends as an interpolated string does. -/
theorem frames_templateExpression (hk : n.kind = .templateExpression) :
    (templateExpression view n).Gives Fragment.IsFramed := by
  obtain ⟨head, hhead⟩ := Node.text_of_isShaped hn.isShaped (f := .head) (by rw [hk]; rfl)
  obtain ⟨vs, hvs, hall⟩ := spans_of_all (P := anyText) (R := anyText)
    Node.isShaped_of_isUnspaced hn hk
    (fun m hm _ => by
      obtain ⟨s, hs⟩ := exists_text (Node.IsUnspacedProgram.isProgram hm)
      exact ⟨s, hs, trivial⟩)
    fun _ _ _ _ _ => trivial
  refine (gives_templateExpression view hhead hvs hall).mono ?_
  rintro _ ⟨spans, -, rfl⟩
  exact isFramed_word (isFramed_templateOf head spans)

/-! ### Whole expressions -/

/-- What is written for the expressions that most languages spell alike. -/
theorem frames_shared (hk : n.kind ∈ Neutral.shared) (hexpression : n.kind ∈ Kind.expressions) :
    ∃ rule : Rule Flags, Neutral.rule? name n.kind = some rule ∧
      (rule view n).Gives Fragment.IsFramed := by
  have worded (s : String) (hs : Text.IsFramed s.toList) :
      (Neutral.word s view n).Gives Fragment.IsFramed :=
    (Neutral.gives_word view s).mono fun _ hx => hx ▸ isFramed_word hs
  cases hk' : n.kind
  case numericLiteral =>
    obtain ⟨s, hs, hunspaced⟩ := hn.number hk'
    refine ⟨_, rfl, (Neutral.gives_sourceOf view hs).mono fun _ hx => ?_⟩
    exact hx ▸ isFramed_word (Text.isFramed_of_isUnspaced hunspaced)
  case trueKeyword | falseKeyword | nullKeyword | thisKeyword =>
    exact ⟨_, rfl, worded _ (by decide)⟩
  case parenthesizedExpression => exact ⟨_, rfl, frames_parenthesized h hn hc hk'⟩
  case binaryExpression => exact ⟨_, rfl, frames_binary h hn hc hk'⟩
  case prefixUnaryExpression => exact ⟨_, rfl, frames_prefixUnary h hn hc hk'⟩
  case conditionalExpression => exact ⟨_, rfl, frames_conditional h hn hc hk'⟩
  case elementAccessExpression => exact ⟨_, rfl, frames_elementAccess h hn hc hk'⟩
  case newExpression => exact ⟨_, rfl, frames_newExpression h hn hc hk'⟩
  all_goals first
    | exact absurd (hk' ▸ hk) (by decide)
    | exact absurd (hk' ▸ hexpression) (by decide)

/-- What is written for an expression in an ordinary context. -/
theorem frames_rule {indent : Indent} (hindent : indent.isWhole = true)
    (hchecker : view.checker.IsTabled) (hexpression : n.kind ∈ Kind.expressions)
    (hnames : n.kind ∉ [.identifier, .stringLiteral]) :
    ∃ rule, rule? indent n.kind = some rule ∧ (rule view n).Gives Fragment.IsFramed := by
  by_cases hshared : n.kind ∈ Neutral.shared
  · obtain ⟨rule, hrule, hgives⟩ := frames_shared h hn hc hshared hexpression
    exact ⟨rule, (rule?_of_shared _ hshared).trans hrule, hgives⟩
  cases hk : n.kind
  case noSubstitutionTemplateLiteral =>
    obtain ⟨s, hs⟩ := Node.text_of_isShaped hn.isShaped (f := .text) (by rw [hk]; rfl)
    refine ⟨_, rfl, (gives_quotedText view hs).mono fun _ hx => hx ▸ isFramed_word ?_⟩
    exact isFramed_quote s
  case templateExpression => exact ⟨_, rfl, frames_templateExpression hn hk⟩
  case callExpression => exact ⟨_, rfl, frames_call h hn hc hk⟩
  case propertyAccessExpression => exact ⟨_, rfl, frames_propertyAccess h hn hc hk⟩
  case asExpression => exact ⟨_, rfl, frames_asExpression h hn hc hchecker hk⟩
  case arrayLiteralExpression => exact ⟨_, rfl, frames_arrayLiteral h hn hc hindent hk⟩
  case objectLiteralExpression => exact ⟨_, rfl, frames_objectLiteral h hn hc hindent hchecker hk⟩
  case identifier | stringLiteral => exact absurd (hk ▸ hnames) (by decide)
  all_goals first
    | exact absurd (hk ▸ hshared) (by decide)
    | exact absurd (hk ▸ hexpression) (by decide)

end

/-- What is written for a name or a string, in any context. -/
theorem frames_names {indent : Indent} (hn : n.IsUnspacedProgram)
    (hk : n.kind ∈ [.identifier, .stringLiteral]) :
    ∃ rule, rule? indent n.kind = some rule ∧ (rule view n).Gives (Frames view.context n) := by
  have framed {s : String} (hs : Text.IsFramed s.toList) :
      Frames view.context n (row [.text s]) :=
    ⟨(isFramed_word hs).flows, fun _ _ => isFramed_word hs⟩
  rw [List.mem_cons, List.mem_singleton] at hk
  rcases hk with hk | hk
  · obtain ⟨s, hs, hunspaced⟩ := hn.text hk
    refine ⟨identifier, by rw [hk]; rfl, (gives_identifier view hs).mono ?_⟩
    rintro _ rfl
    exact framed (isFramed_spelledName _ _ hunspaced)
  · obtain ⟨s, hs⟩ := Node.text_of_isShaped hn.isShaped (f := .text) (by rw [hk]; rfl)
    refine ⟨stringLiteral, by rw [hk]; rfl, (gives_stringLiteral view hs).mono ?_⟩
    rintro _ rfl
    split
    · rename_i htruthy
      refine ⟨flows_row (by simp) false, fun _ hfalse => ?_⟩
      rw [htruthy] at hfalse
      cases hfalse
    · exact framed (isFramed_quote s)

/-- What is written for an expression or an assignment, in any context in which it may be met. -/
theorem frames_convert {indent : Indent} (hindent : indent.isWhole = true) {checker : Checker}
    (hchecker : checker.IsTabled) (preferStruct : Data) {c : Flags} (hn : IsFound c n) :
    ((backend indent preferStruct).convert checker c n.toValue).Gives (Frames c n) := by
  refine Backend.convert_gives IsFound Frames ?_ hn
  intro c m f hm ih
  have hrule : ∃ rule, rule? indent m.kind = some rule ∧
      (rule ⟨c, checker, f⟩ m).Gives (Frames c m) := by
    by_cases hnames : m.kind ∈ [.identifier, .stringLiteral]
    · exact frames_names hm.tree hnames
    have hc : c.stringAsIdentifier.truthy = false := by
      rw [← Bool.not_eq_true]
      exact fun htruthy => hnames (hm.asIdentifier htruthy)
    have h : RendersFramed (View.mk c checker f).convertIn m := ih
    rcases List.mem_append.1 hm.kind with hexpression | hassignment
    · obtain ⟨rule, hrule, hgives⟩ := frames_rule h hm.tree hc hindent hchecker hexpression hnames
      exact ⟨rule, hrule, hgives.mono fun _ hx => ⟨hx.flows, fun _ _ => hx⟩⟩
    have hassigned : ∀ x : Fragment, x.flows = true → Frames c m x := by
      refine fun x hx => ⟨hx, fun hexpression => ?_⟩
      have hdisjoint : ∀ kind ∈ Kind.assignments, kind ∉ Kind.expressions := by decide
      exact absurd hexpression (hdisjoint _ hassignment)
    rw [Kind.assignments, List.mem_cons, List.mem_singleton] at hassignment
    rcases hassignment with hk | hk
    · exact ⟨propertyAssignment, by rw [hk]; rfl, (flows_assignment h hm.tree hc (by rw [hk]; rfl)
        (by rw [hk]; rfl) (List.Subset.refl _) (List.Subset.refl _)).mono hassigned⟩
    · exact ⟨shorthandAssignment, by rw [hk]; rfl, (flows_assignment h hm.tree hc (by rw [hk]; rfl)
        (by rw [hk]; rfl) (by decide) (by decide)).mono hassigned⟩
  obtain ⟨rule, hrule, hgives⟩ := hrule
  unfold Backend.visit
  rw [show (backend indent preferStruct).rule? m.kind = some rule from hrule]
  exact hgives

end CSharp

end CodeSample

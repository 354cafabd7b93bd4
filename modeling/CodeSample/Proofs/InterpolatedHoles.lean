import CodeSample.Proofs.AccessChains
import CodeSample.Proofs.InterpolatedStrings

/-!
# The holes of interpolated strings

In the hole of a template stands the source text of an expression. Where none was recorded, it is
put together from the parts for some expressions only, and nothing at all stands there for others:
templates in templates, literals of objects and arrays, instantiations, assertions, and choices. A
prefix operator that is not empty makes up for what is missing behind it, and so does every other
expression that is put together, as it has a mark of its own.

* `Kind.unspelled` are the kinds of expressions that are not put together, and `Node.IsUnspelled`
  says that nothing stands in the source text of an expression;
* `Node.IsWorded` are the trees without recorded spans whose names and numbers are not empty;
* `Node.IsWorded.sourceText_eq_empty_iff`: in such a tree, the source text of an expression is empty
  if and only if the expression is unspelled;
* `CSharp.holes_of_template`: the holes of a template are empty for unspelled expressions and for no
  others, and nothing is reported in either case.
-/

namespace CodeSample

/-! ### Trees and expressions -/

namespace Kind

/-- The kinds of expressions that have no source text but a recorded one. -/
def unspelled : List Kind := [
  .templateExpression, .noSubstitutionTemplateLiteral, .newExpression, .objectLiteralExpression,
  .arrayLiteralExpression, .asExpression, .conditionalExpression]

/-- The kinds of expressions that get a source text where none was recorded. -/
def worded : List Kind := [.identifier, .numericLiteral, .stringLiteral]

variable {kind : Kind}

/-- No other expression than a name, a number or a string gets a source from its own text. -/
theorem unrecorded_of_expression (h : kind ∈ expressions) (hword : kind ∉ worded) :
    kind ∉ [identifier, numericLiteral, stringLiteral, typeNode] := by
  revert kind
  decide

/-- What is put together, or gets a source text of its own, is not unspelled. -/
theorem not_mem_unspelled (h : kind ∈ worded ++ composed) : kind ∉ unspelled := by
  revert kind
  decide

/-- Of the expressions that are neither put together nor get a source text, the keywords are
spelled. -/
theorem keyword_eq_empty_iff (h : kind ∈ expressions) (hword : kind ∉ worded)
    (hcomposed : kind ∉ composed) : (Value.keyword? kind).getD "" = "" ↔ kind ∈ unspelled := by
  cases kind <;> first | exact absurd h (by decide) | exact absurd hword (by decide) |
    exact absurd hcomposed (by decide) | decide

end Kind

namespace Node

/-- An expression for which nothing is put together: one of certain kinds, or one behind an empty
prefix operator. -/
inductive IsUnspelled : Node → Prop where
  | kind {n : Node} : n.kind ∈ Kind.unspelled → IsUnspelled n
  | behind {n m : Node} : n.kind = .prefixUnaryExpression → n.get .operator = .text "" →
    n.get .operand = m.toValue → IsUnspelled m → IsUnspelled n

/-- Whether the text of a node, if it is a name or a number, is not empty. -/
def isWorded (n : Node) : Bool :=
  !(n.kind == .identifier || n.kind == .numericLiteral) || (n.get .text).isTextThat (· != "")

/-- A tree of the language without recorded spans whose names and numbers are not empty. -/
def IsWorded (n : Node) : Prop :=
  n.toValue.all (fun m => m.isShaped .source && m.hasNoSpan && m.isWorded) = true

/-- What passes all three checks is shaped. -/
theorem isShaped_of_isWorded (m : Node)
    (h : (m.isShaped .source && m.hasNoSpan && m.isWorded) = true) :
    m.isShaped .source = true := by
  rw [Bool.and_eq_true, Bool.and_eq_true] at h
  exact h.1.1

variable {n : Node}

/-- What is no prefix expression is unspelled by its kind alone. -/
theorem isUnspelled_iff (hunary : n.kind ≠ .prefixUnaryExpression) :
    n.IsUnspelled ↔ n.kind ∈ Kind.unspelled := by
  constructor
  · intro h
    cases h with
    | kind hk => exact hk
    | behind hk => exact absurd hk hunary
  · exact .kind

/-- Behind a prefix operator nothing is spelled if the operator is empty and nothing is spelled for
the operand. -/
theorem isUnspelled_prefix_iff {m : Node} {o : String} (hk : n.kind = .prefixUnaryExpression)
    (ho : n.get .operator = .text o) (hm : n.get .operand = m.toValue) :
    n.IsUnspelled ↔ o = "" ∧ m.IsUnspelled := by
  constructor
  · intro h
    cases h with
    | kind hmem => exact absurd (hk ▸ hmem) (by decide)
    | @behind _ m' _ ho' hm' h =>
      have hsame : m' = m := Option.some.inj (congrArg Value.node? (hm'.symm.trans hm))
      exact ⟨Value.text.inj (ho.symm.trans ho'), hsame ▸ h⟩
  · rintro ⟨rfl, h⟩
    exact .behind hk ho hm h

namespace IsWorded

variable (h : n.IsWorded)
include h

/-- A worded tree has no recorded spans. -/
theorem isUnspanned : n.IsUnspanned :=
  Value.all_mono (fun _ hm => (Bool.and_eq_true _ _ ▸ hm).1) h

/-- The node in a field. -/
theorem one {f : Field} {kinds : List Kind}
    (hf : Grammar.source.content? n.kind f = some (.one kinds)) :
    ∃ m : Node, n.get f = m.toValue ∧ m.IsWorded ∧ m.kind ∈ kinds :=
  one_of_all isShaped_of_isWorded h hf

/-- The text of a name or of a number. -/
theorem exists_word (hk : n.kind ∈ [.identifier, .numericLiteral]) :
    ∃ s, n.get .text = .text s ∧ s ≠ "" := by
  have := ((Value.all_toValue n).1 h).1
  rw [Bool.and_eq_true, isWorded] at this
  have hword : (n.get .text).isTextThat (· != "") = true := by
    rcases List.mem_pair.1 hk with hk | hk <;> simpa [hk] using this.2
  obtain ⟨s, hs, hne⟩ := Value.exists_of_isTextThat hword
  exact ⟨s, hs, by simpa using hne⟩

/-- A name or a literal has a source that is not empty. -/
theorem exists_source (hk : n.kind ∈ Kind.worded) :
    ∃ s, n.source = .text s ∧ s ≠ "" := by
  by_cases hstring : n.kind = .stringLiteral
  · obtain ⟨s, hs⟩ := text_of_isShaped h.isUnspanned.isShaped (f := .text) (by rw [hstring]; rfl)
    refine ⟨_, h.isUnspanned.source (defaultSource_of_string (n := n.unrecorded) hstring hs), ?_⟩
    simp [quotedSource]
  · have hnamed : n.kind ∈ [.identifier, .numericLiteral] := by
      simpa [Kind.worded, hstring] using hk
    obtain ⟨s, hs, hne⟩ := h.exists_word hnamed
    refine ⟨s, h.isUnspanned.source ?_, hne⟩
    exact (defaultSource_of_named (n := n.unrecorded) hnamed).trans (congrArg _ hs)

end IsWorded

end Node

/-! ### Marks between the parts -/

namespace Value

/-- What never comes to the empty text does not do so after anything. -/
theorem bind_ne_empty {α : Type} {x : Except Fault α} {f : α → Except Fault Value}
    (h : ∀ a, f a ≠ .ok (text "")) : x >>= f ≠ .ok (text "") := by
  cases x with
  | error fault => exact fun heq => nomatch heq
  | ok a => exact h a

/-- A mark behind a value keeps it from being empty. -/
theorem before_ne_empty {mark : String} (hmark : mark ≠ "") (v : Value) :
    v.before mark ≠ .ok (text "") := by
  cases v with
  | text t =>
    intro heq
    exact hmark (String.append_eq_empty_iff.1 (Value.text.inj (Except.ok.inj heq))).2
  | _ => exact fun heq => nomatch heq

/-- What goes on behind a mark goes on from a text that is not empty. -/
theorem before_bind_ne_empty {mark : String} (hmark : mark ≠ "") (v : Value)
    {f : Value → Except Fault Value} (h : ∀ t, t ≠ "" → f (text t) ≠ .ok (text "")) :
    v.before mark >>= f ≠ .ok (text "") := by
  cases v with
  | text t => exact h _ fun heq => hmark (String.append_eq_empty_iff.1 heq).2
  | _ => exact fun heq => nomatch heq

/-- A text in front that is not empty keeps a sum from being empty. -/
theorem add_ne_empty {t : String} (ht : t ≠ "") (w : Value) : (text t).add w ≠ .ok (text "") := by
  cases w with
  | text u =>
    intro heq
    exact ht (String.append_eq_empty_iff.1 (Value.text.inj (Except.ok.inj heq))).1
  | _ => exact fun heq => nomatch heq

end Value

namespace Node

variable {n : Node}

/-! ### Source texts -/

namespace IsWorded

variable (h : n.IsWorded)
include h

/-- An expression that is put together has a mark of its own, if it is no prefix operator. -/
theorem sourceText_ne_empty (hsource : n.source.truthy = false) (hk : n.kind ∈ Kind.composed)
    (hunary : n.kind ≠ .prefixUnaryExpression) : n.toValue.sourceText ≠ .ok (.text "") := by
  have hlength := h.isUnspanned.length_fields
  simp only [Kind.composed, List.mem_cons, List.not_mem_nil, or_false] at hk
  rcases hk with hk | hk | hk | hk | hk | hk
  · -- a property access, with a point before the name
    rw [Value.sourceText_eq_propertyAccess hsource hlength hk]
    exact Value.bind_ne_empty fun receiver =>
      Value.before_bind_ne_empty (by decide) receiver fun t ht =>
        Value.bind_ne_empty fun name => Value.add_ne_empty ht name
  · -- an element access, with a bracket at its end
    rw [Value.sourceText_eq_elementAccess hsource hlength hk]
    exact Value.bind_ne_empty fun _ => Value.bind_ne_empty fun _ => Value.bind_ne_empty fun _ =>
      Value.bind_ne_empty fun access => Value.before_ne_empty (by decide) access
  · -- a call, with a parenthesis at its end
    rw [Value.sourceText_eq_call hsource hlength hk]
    exact Value.bind_ne_empty fun _ => Value.bind_ne_empty fun _ => Value.bind_ne_empty fun _ =>
      Value.bind_ne_empty fun _ => Value.bind_ne_empty fun call =>
        Value.before_ne_empty (by decide) call
  · -- parentheses
    rw [Value.sourceText_eq_parenthesized hsource hlength hk]
    exact Value.bind_ne_empty fun _ => Value.bind_ne_empty fun inside =>
      Value.before_ne_empty (by decide) inside
  · -- a binary expression, with a blank behind its operator
    rw [Value.sourceText_eq_binary hsource hlength hk]
    exact Value.bind_ne_empty fun _ => Value.bind_ne_empty fun _ => Value.bind_ne_empty fun left =>
      Value.before_bind_ne_empty (by decide) left fun t ht =>
        Value.bind_ne_empty fun right => Value.add_ne_empty ht right
  · exact absurd hk hunary

/-- A prefix operator has no mark of its own, so that it depends on its operand. -/
theorem sourceText_prefix_eq_empty_iff (hsource : n.source.truthy = false)
    (hk : n.kind = .prefixUnaryExpression)
    (ih : ∀ m : Node, m.IsWorded → m.kind ∈ Kind.expressions →
      m.toValue.depth < n.toValue.depth →
      (m.toValue.sourceText = .ok (.text "") ↔ m.IsUnspelled)) :
    n.toValue.sourceText = .ok (.text "") ↔ n.IsUnspelled := by
  obtain ⟨o, ho⟩ := text_of_isShaped h.isUnspanned.isShaped (f := .operator) (by rw [hk]; rfl)
  obtain ⟨m, hm, hworded, hmk⟩ := h.one (f := .operand) (by rw [hk]; rfl)
  obtain ⟨t, ht⟩ := exists_text hworded.isUnspanned.isProgram
  have hlt := Value.depth_get_lt n .operand
  rw [hm] at hlt
  have hjoined : n.toValue.sourceText = .ok (.text (o ++ t)) := by
    rw [Value.sourceText_eq_prefixUnary hsource h.isUnspanned.length_fields hk, ho, hm, ht]
    rfl
  rw [isUnspelled_prefix_iff hk ho hm, ← ih m hworded hmk hlt, hjoined, ht]
  simp only [Except.ok.injEq, Value.text.injEq, String.append_eq_empty_iff]

/-- The source text of an expression is empty if and only if the expression is unspelled. -/
theorem sourceText_eq_empty_iff (hexpression : n.kind ∈ Kind.expressions) :
    n.toValue.sourceText = .ok (.text "") ↔ n.IsUnspelled := by
  induction hd : n.toValue.depth using Nat.strongRecOn generalizing n with | _ depth ih
  subst hd
  by_cases hword : n.kind ∈ Kind.worded
  · -- a name or a literal
    have hunary : n.kind ≠ .prefixUnaryExpression := fun hk => absurd (hk ▸ hword) (by decide)
    obtain ⟨s, hs, hne⟩ := h.exists_source hword
    rw [isUnspelled_iff hunary, sourceText_of_source hs hne]
    exact iff_of_false (by simpa using hne)
      (Kind.not_mem_unspelled (List.mem_append_left _ hword))
  have hsource := h.isUnspanned.truthy_source (Kind.unrecorded_of_expression hexpression hword)
  by_cases hunary : n.kind = .prefixUnaryExpression
  · exact h.sourceText_prefix_eq_empty_iff hsource hunary fun m hm hmk hlt => ih _ hlt hm hmk rfl
  rw [isUnspelled_iff hunary]
  by_cases hcomposed : n.kind ∈ Kind.composed
  · exact iff_of_false (h.sourceText_ne_empty hsource hcomposed hunary)
      (Kind.not_mem_unspelled (List.mem_append_right _ hcomposed))
  · -- a keyword, or nothing
    rw [Value.sourceText_eq_keyword hsource h.isUnspanned.length_fields hcomposed]
    simp only [Except.ok.injEq, Value.text.injEq]
    exact Kind.keyword_eq_empty_iff hexpression hword hcomposed

end IsWorded

end Node

/-! ### Holes -/

namespace CSharp

open Layout.Fragment (row)

variable {n : Node}

/-- A value is the span of a template with a hole for an expression, in which the source text of the
expression stands, and with the text behind it. The hole is empty if and only if the expression is
unspelled. -/
def IsHoleOf (v : Value) (x : String × String) : Prop :=
  ∃ e : Node, v.property .expression = .ok e.toValue ∧
    e.toValue.sourceText = .ok (.text x.1) ∧ v.property .literal = .ok (.text x.2) ∧
    (x.1 = "" ↔ e.IsUnspelled)

/-- A hole of a template is a span of it. -/
theorem IsHoleOf.isSpanOf {v : Value} {x : String × String} (h : IsHoleOf v x) : IsSpanOf v x := by
  obtain ⟨e, he, hhole, hliteral, -⟩ := h
  exact ⟨e.toValue, he, hhole, hliteral⟩

/-- Every span of a worded template is a hole for an expression. -/
theorem exists_isHoleOf {m : Node} (h : m.IsWorded) (hk : m.kind = .templateSpan) :
    ∃ x, IsHoleOf m.toValue x := by
  obtain ⟨e, he, hworded, hek⟩ := h.one (f := .expression) (by rw [hk]; rfl)
  obtain ⟨hole, hhole⟩ := exists_text hworded.isUnspanned.isProgram
  obtain ⟨literal, hliteral⟩ := Node.text_of_isShaped h.isUnspanned.isShaped (f := .literal)
    (by rw [hk]; rfl)
  refine ⟨(hole, literal), e, ?_, hhole, ?_, ?_⟩
  · rw [Node.property_toValue (by rw [hk]; rfl), he]
  · rw [Node.property_toValue (by rw [hk]; rfl), hliteral]
  · rw [← hworded.sourceText_eq_empty_iff hek, hhole]
    simp

/-- If each of some things has a partner, all of them have partners in a row. -/
theorem exists_forall₂ {α β : Type} {R : α → β → Prop} {as : List α}
    (h : ∀ a ∈ as, ∃ b, R a b) : ∃ bs, List.Forall₂ R as bs := by
  induction as with
  | nil => exact ⟨[], .nil⟩
  | cons a as ih =>
    rw [List.forall_mem_cons] at h
    obtain ⟨b, hb⟩ := h.1
    obtain ⟨bs, hbs⟩ := ih h.2
    exact ⟨b :: bs, .cons hb hbs⟩

/-- What is in the holes of a template: for each span there is one, with the source text of its
expression, and it is empty if and only if the expression is one of those that have no source text
where none was recorded, or stands behind empty prefix operators in front of one. Wherever the
template stands, and on its own, nothing is reported. This holds of trees without recorded spans
whose names and numbers are not empty. -/
theorem holes_of_template (h : n.IsWorded) (hk : n.kind = .templateExpression) :
    ∃ head vs spans, n.get .head = .text head ∧ n.get .spans = .list vs ∧
      List.Forall₂ IsHoleOf vs spans ∧
      (∀ indent preferStruct checker c, (backend indent preferStruct).convert checker c n.toValue =
        pure (row [.text (templateOf head spans)])) ∧
      ∀ options checker, (∀ o ∈ options, Target.IsOption o) →
        Target.render (.text name) options checker n.toValue =
          .ok ⟨(row [.text (templateOf head spans)]).render, []⟩ := by
  obtain ⟨head, hhead⟩ := Node.text_of_isShaped h.isUnspanned.isShaped (f := .head)
    (by rw [hk]; rfl)
  obtain ⟨vs, hvs, hall⟩ := Node.many_of_all Node.isShaped_of_isWorded h (f := .spans)
    (by rw [hk]; rfl)
  obtain ⟨spans, hspans⟩ := exists_forall₂ fun v hv => by
    obtain ⟨m, rfl, hm, hmk⟩ := hall v hv
    exact exists_isHoleOf hm (List.mem_singleton.1 hmk)
  have htemplate : IsTemplate n head spans :=
    ⟨hk, hhead, vs, hvs, hspans.imp fun _ _ => IsHoleOf.isSpanOf⟩
  refine ⟨head, vs, spans, hhead, hvs, hspans, convert_template htemplate, ?_⟩
  intro options checker hoptions
  obtain ⟨o, ho, -⟩ := Target.ofMembers_ok hoptions
  rw [Target.render_eq hoptions ho]
  exact render_row_template htemplate _ _ _

/-- A greeting with the name of a guest, and one of two words. -/
def greeting : Node :=
  let name (s : String) : Value := .node .identifier .unknown (.text s) none [.text s]
  ⟨.templateExpression, .unknown, .text "", none,
    [.text "Hi ", .list [.bare .templateSpan [name "guest", .text ", "],
      .bare .templateSpan [.bare .conditionalExpression [name "late", name "hurry", name "welcome"],
        .text "!"]]]⟩

/-- The greeting is written with the name of the guest in one hole and nothing in the other, and
nothing is reported. -/
theorem holes_of_template_greeting :
    greeting.IsWorded ∧ greeting.kind = .templateExpression ∧
    ∃ head vs spans, greeting.get .head = .text head ∧ greeting.get .spans = .list vs ∧
      List.Forall₂ IsHoleOf vs spans ∧
      Target.render (.text name) [] .recorded greeting.toValue =
        .ok ⟨(row [.text (templateOf head spans)]).render, []⟩ := by
  have hworded : greeting.IsWorded := by
    unfold Node.IsWorded
    decide
  obtain ⟨head, vs, spans, hhead, hvs, hspans, -, hrender⟩ := holes_of_template hworded rfl
  exact ⟨hworded, rfl, head, vs, spans, hhead, hvs, hspans, hrender [] .recorded (by simp)⟩

/-- The choice between the two words is left out, and nothing is reported. -/
theorem render_greeting :
    greeting.IsWorded ∧ greeting.kind = .templateExpression ∧
    IsTemplate greeting "Hi " [("guest", ", "), ("", "!")] ∧
    Target.render (.text name) [] .recorded greeting.toValue =
      .ok ⟨"$\"Hi \x7bguest\x7d, \x7b\x7d!\"", []⟩ := by
  have htemplate : IsTemplate greeting "Hi " [("guest", ", "), ("", "!")] :=
    ⟨rfl, rfl, _, rfl, .cons ⟨_, rfl, rfl, rfl⟩ (.cons ⟨_, rfl, rfl, rfl⟩ .nil)⟩
  refine ⟨by unfold Node.IsWorded; decide, rfl, htemplate, ?_⟩
  rw [Target.render_eq (by simp) rfl]
  exact render_template htemplate (by simp) _ _ _

end CSharp

end CodeSample

import CodeSample.Proofs.Grammar
import CodeSample.Syntax.Source

/-!
# The source text of shaped trees

Every node of a shaped tree has a source text, and nothing stands in it but what was recorded, the
texts of names and operators, and the marks with which the parts are put together.

* `Node.spells` says that the recorded texts of a node which can reach a source text consist of
  certain characters;
* `sourceText_eq_…` are the source texts of the expressions that are put together from their parts;
* `exists_sourceText`: a node of a shaped tree has a source text, which consists of such characters
  if the recorded texts in the tree do.
-/

namespace CodeSample

/-! ### Texts of certain characters -/

/-- A text consists of certain characters. -/
def Text.Consists (p : Char → Bool) (s : String) : Prop := ∀ c ∈ s.toList, p c = true

namespace Text.Consists

variable {p : Char → Bool} {s t : String}

/-- Two texts of certain characters are one together. -/
theorem append (hs : Consists p s) (ht : Consists p t) : Consists p (s ++ t) := by
  intro c hc
  rw [String.toList_append, List.mem_append] at hc
  exact hc.elim (hs c) (ht c)

/-- Texts of certain characters with a separator of such characters are one together. -/
theorem intercalate {ss : List String} (hs : Consists p s) (hss : ∀ t ∈ ss, Consists p t) :
    Consists p (s.intercalate ss) := by
  induction ss with
  | nil => exact fun c hc => by simp at hc
  | cons t ts ih =>
    have hts : ∀ u ∈ ts, Consists p u := fun u hu => hss u (by simp [hu])
    by_cases h : ts = []
    · subst h
      simpa using hss t (by simp)
    · rw [String.intercalate_cons_of_ne_nil h]
      exact ((hss t (by simp)).append hs).append (ih hts)

end Text.Consists

/-- The kinds of expressions whose source text is put together from their parts. -/
def Kind.composed : List Kind := [
  .propertyAccessExpression, .elementAccessExpression, .callExpression, .parenthesizedExpression,
  .binaryExpression, .prefixUnaryExpression]

/-- The characters with which a source text is put together, those of the keywords included. -/
def sourceMarks : List Char := ".[](), thisruefalnu".toList

namespace Value

/-- Whether a value, if it is a text, consists of certain characters. -/
def spells (p : Char → Bool) (v : Value) : Bool := v.text?.all (·.toList.all p)

/-- A text spells certain characters if it consists of them. -/
theorem spells_text {p : Char → Bool} {s : String} :
    (text s).spells p = true ↔ Text.Consists p s := by
  simp [spells, text?, Text.Consists]

end Value

/-- Whether the texts of a node that can stand in a source text consist of certain characters: what
is recorded of an expression, the text of an identifier and an operator. -/
def Node.spells (p : Char → Bool) (n : Node) : Bool :=
  (!Kind.expressions.contains n.kind || n.source.spells p) && (n.get .operator).spells p &&
    (n.kind != .identifier || (n.get .text).spells p)

/-- Every node spells some characters or other. -/
theorem Node.spells_true (n : Node) : n.spells (fun _ => true) = true := by
  simp [Node.spells, Value.spells, Option.all_eq_true]

namespace Value

variable {n : Node}

/-! ### Expressions that are put together -/

/-- A node whose parser recorded nothing, with its fields in the order of its kind. -/
theorem sourceText_toValue (hsource : n.source.truthy = false)
    (hlength : n.fields.length = n.kind.slots.length) :
    n.toValue.sourceText =
      sourceText (node n.kind n.pos (text "") n.type?
        (n.kind.slots.map fun slot => n.get slot.field)) := by
  rw [Node.toValue, ← Node.fields_eq_map_get hlength]
  unfold sourceText
  rw [if_neg (by simp [hsource]), if_neg (by simp [truthy])]

variable (hsource : n.source.truthy = false) (hlength : n.fields.length = n.kind.slots.length)
include hsource hlength

/-- Where none was recorded, the source text of an access to a property is that of the receiver, a
point and the name. -/
theorem sourceText_eq_propertyAccess (hk : n.kind = .propertyAccessExpression) :
    n.toValue.sourceText = (do
      let receiver ← (← sourceText (n.get .expression)).before "."
      receiver.add (← (n.get .name).property .text)) := by
  rw [sourceText_toValue hsource hlength, hk]
  rfl

/-- Where none was recorded, the source text of an access to an element has the argument in
brackets. -/
theorem sourceText_eq_elementAccess (hk : n.kind = .elementAccessExpression) :
    n.toValue.sourceText = (do
      let receiver ← (← sourceText (n.get .expression)).before "["
      (← receiver.add (← sourceText (n.get .argument))).before "]") := by
  rw [sourceText_toValue hsource hlength, hk]
  rfl

/-- Where none was recorded, the source text of a call has the arguments in parentheses, with commas
between them. -/
theorem sourceText_eq_call (hk : n.kind = .callExpression) :
    n.toValue.sourceText = (do
      let listed ← join ", " (← sourceTextsOf (n.get .arguments))
      let callee ← (← sourceText (n.get .expression)).before "("
      (← callee.add listed).before ")") := by
  rw [sourceText_toValue hsource hlength, hk]
  rfl

/-- Where none was recorded, the source text of an expression in parentheses is that of the
expression in parentheses. -/
theorem sourceText_eq_parenthesized (hk : n.kind = .parenthesizedExpression) :
    n.toValue.sourceText = (do between "(" ")" (← sourceText (n.get .expression))) := by
  rw [sourceText_toValue hsource hlength, hk]
  rfl

/-- Where none was recorded, the source text of a binary expression has its operator between blanks.
-/
theorem sourceText_eq_binary (hk : n.kind = .binaryExpression) :
    n.toValue.sourceText = (do
      let left ← (← sourceText (n.get .left)).before " "
      let left ← (← left.add (n.get .operator)).before " "
      left.add (← sourceText (n.get .right))) := by
  rw [sourceText_toValue hsource hlength, hk]
  rfl

/-- Where none was recorded, the source text of a prefix expression is its operator and that of the
operand. -/
theorem sourceText_eq_prefixUnary (hk : n.kind = .prefixUnaryExpression) :
    n.toValue.sourceText = (do (n.get .operator).add (← sourceText (n.get .operand))) := by
  rw [sourceText_toValue hsource hlength, hk]
  rfl

/-- All other nodes have the spelling of a keyword, or nothing. -/
theorem sourceText_eq_keyword (hk : n.kind ∉ Kind.composed) :
    n.toValue.sourceText = .ok (text ((keyword? n.kind).getD "")) := by
  rw [sourceText_toValue hsource hlength]
  cases h : n.kind <;> first | rfl | exact absurd (h ▸ hk) (by decide)

end Value

/-! ### Shaped trees -/

namespace Value

/-- A value has a source text that consists of certain characters. -/
def HasSource (p : Char → Bool) (v : Value) : Prop :=
  ∃ s, v.sourceText = .ok (text s) ∧ Text.Consists p s

variable {p : Char → Bool}

/-- Values that have source texts of certain characters have a list of such texts. -/
theorem sourceTexts_of_hasSource {vs : List Value} (h : ∀ v ∈ vs, v.HasSource p) :
    ∃ ss : List String, sourceTexts vs = .ok (ss.map text) ∧ ∀ s ∈ ss, Text.Consists p s := by
  induction vs with
  | nil => exact ⟨[], rfl, by simp⟩
  | cons v vs ih =>
    obtain ⟨s, hs, hsp⟩ := h v (by simp)
    obtain ⟨ss, hss, hssp⟩ := ih fun w hw => h w (by simp [hw])
    refine ⟨s :: ss, ?_, by simpa using ⟨hsp, hssp⟩⟩
    rw [sourceTexts, hs, hss]
    rfl

/-- Texts are joined as texts are. -/
theorem join_map_text (separator : String) (ss : List String) :
    join separator (ss.map text) = .ok (text (separator.intercalate ss)) := by
  have : texts (ss.map text) = .ok ss := by
    induction ss with
    | nil => rfl
    | cons s ss ih =>
      rw [List.map_cons, texts, ih]
      rfl
  rw [join, this]
  rfl

end Value

/-- A tree of the language whose texts consist of certain characters as far as they can reach the
source text of its root. -/
structure Node.IsRecorded (p : Char → Bool) (n : Node) : Prop where
  shaped : n.toValue.all (·.isShaped .source) = true
  spelled : n.toValue.all (·.spells p) = true
  source : n.source.spells p = true

namespace Node.IsRecorded

variable {p : Char → Bool} {n : Node} {f : Field} {kinds : List Kind}

/-- The root of a recorded tree is shaped. -/
theorem isShaped (h : n.IsRecorded p) : n.isShaped .source = true :=
  ((Value.all_toValue n).1 h.shaped).1

/-- An expression in a tree. -/
theorem of_expression (hshaped : n.toValue.all (·.isShaped .source) = true)
    (hspelled : n.toValue.all (·.spells p) = true) (hk : n.kind ∈ Kind.expressions) :
    n.IsRecorded p := by
  refine ⟨hshaped, hspelled, ?_⟩
  have h := ((Value.all_toValue n).1 hspelled).1
  unfold Node.spells at h
  rw [Bool.and_eq_true, Bool.and_eq_true] at h
  simpa [hk] using h.1.1

/-- The expression in a field of a recorded tree is recorded. -/
theorem one (h : n.IsRecorded p) (hf : Grammar.source.content? n.kind f = some (.one kinds))
    (hkinds : kinds ⊆ Kind.expressions) :
    ∃ m : Node, n.get f = m.toValue ∧ m.IsRecorded p ∧ m.kind ∈ kinds := by
  obtain ⟨m, hm, hk⟩ := one_of_isShaped h.isShaped hf
  refine ⟨m, hm, of_expression ?_ ?_ (hkinds hk), hk⟩
  · exact hm ▸ Value.all_get h.shaped f
  · exact hm ▸ Value.all_get h.spelled f

/-- The expressions that a field of a recorded tree enumerates are recorded. -/
theorem many (h : n.IsRecorded p) (hf : Grammar.source.content? n.kind f = some (.many kinds))
    (hkinds : kinds ⊆ Kind.expressions) : ∃ vs : List Value, n.get f = .list vs ∧
      ∀ v ∈ vs, ∃ m : Node, v = m.toValue ∧ m.IsRecorded p := by
  obtain ⟨vs, hvs, hall⟩ := many_of_isShaped h.isShaped hf
  refine ⟨vs, hvs, fun v hv => ?_⟩
  obtain ⟨m, rfl, hk⟩ := hall v hv
  refine ⟨m, rfl, of_expression ?_ ?_ (hkinds hk)⟩
  · exact Value.all_of_mem (hvs ▸ Value.all_get h.shaped f) hv
  · exact Value.all_of_mem (hvs ▸ Value.all_get h.spelled f) hv

/-- The text of an identifier. -/
theorem text (h : n.IsRecorded p) (hk : n.kind = .identifier) :
    ∃ s, n.get .text = .text s ∧ Text.Consists p s := by
  obtain ⟨s, hs⟩ := text_of_isShaped h.isShaped (f := .text) (by rw [hk]; rfl)
  refine ⟨s, hs, ?_⟩
  have := ((Value.all_toValue n).1 h.spelled).1
  rw [Node.spells, Bool.and_eq_true, hk, hs] at this
  simpa [Value.spells_text] using this.2

/-- The operator of an expression that has one. -/
theorem operator (h : n.IsRecorded p)
    (hf : Grammar.source.content? n.kind .operator = some .text) :
    ∃ s, n.get .operator = .text s ∧ Text.Consists p s := by
  obtain ⟨s, hs⟩ := text_of_isShaped h.isShaped hf
  refine ⟨s, hs, ?_⟩
  have := ((Value.all_toValue n).1 h.spelled).1
  rw [Node.spells, Bool.and_eq_true, Bool.and_eq_true, hs, Value.spells_text] at this
  exact this.1.2

end Node.IsRecorded

namespace Value

variable {p : Char → Bool}

/-- The source text of a node that is put together from its parts, where less deep nodes have
one. -/
theorem exists_sourceText_composed (hp : ∀ c ∈ sourceMarks, p c = true) {n : Node}
    (h : n.IsRecorded p) (hsource : n.source.truthy = false) (hk : n.kind ∈ Kind.composed)
    (ih : ∀ m : Node, m.IsRecorded p → m.toValue.depth < n.toValue.depth → m.toValue.HasSource p) :
    n.toValue.HasSource p := by
  have marks (s : String) (hs : s.toList ⊆ sourceMarks) : Text.Consists p s :=
    fun c hc => hp c (hs hc)
  have part {f : Field} {kinds : List Kind}
      (hf : Grammar.source.content? n.kind f = some (.one kinds))
      (hkinds : kinds ⊆ Kind.expressions) : (n.get f).HasSource p := by
    obtain ⟨m, hm, hrecorded, -⟩ := h.one hf hkinds
    have hlt := depth_get_lt n f
    rw [hm] at hlt ⊢
    exact ih m hrecorded hlt
  have hlength := Node.length_of_isShaped h.isShaped Grammar.length_source
  simp only [Kind.composed, List.mem_cons, List.not_mem_nil, or_false] at hk
  rcases hk with hk | hk | hk | hk | hk | hk
  · -- a property access
    obtain ⟨e, he, hep⟩ := part (f := .expression) (by rw [hk]; rfl) (List.Subset.refl _)
    obtain ⟨m, hm, hrecorded, hmk⟩ := h.one (f := .name) (by rw [hk]; rfl) (by decide)
    have hmk : m.kind = .identifier := List.mem_singleton.1 hmk
    obtain ⟨t, ht, htp⟩ := hrecorded.text hmk
    refine ⟨e ++ "." ++ t, ?_, (hep.append (marks _ (by decide))).append htp⟩
    rw [sourceText_eq_propertyAccess hsource hlength hk, he, hm,
      Node.property_toValue (by rw [hmk]; rfl), ht]
    rfl
  · -- an element access
    obtain ⟨e, he, hep⟩ := part (f := .expression) (by rw [hk]; rfl) (List.Subset.refl _)
    obtain ⟨t, ht, htp⟩ := part (f := .argument) (by rw [hk]; rfl) (List.Subset.refl _)
    refine ⟨e ++ "[" ++ t ++ "]", ?_,
      ((hep.append (marks _ (by decide))).append htp).append (marks _ (by decide))⟩
    rw [sourceText_eq_elementAccess hsource hlength hk, he, ht]
    rfl
  · -- a call
    obtain ⟨e, he, hep⟩ := part (f := .expression) (by rw [hk]; rfl) (List.Subset.refl _)
    obtain ⟨vs, hvs, hall⟩ := h.many (f := .arguments) (by rw [hk]; rfl) (List.Subset.refl _)
    have hlt := depth_get_lt n .arguments
    rw [hvs, depth] at hlt
    obtain ⟨ss, hss, hssp⟩ := sourceTexts_of_hasSource (p := p) fun v hv => by
      obtain ⟨m, rfl, hrecorded⟩ := hall v hv
      exact ih m hrecorded (Nat.lt_of_le_of_lt (depth_le_depthOf hv) hlt)
    refine ⟨e ++ "(" ++ ", ".intercalate ss ++ ")", ?_, ?_⟩
    · rw [sourceText_eq_call hsource hlength hk, he, hvs, sourceTextsOf, hss]
      change (join ", " (ss.map text) >>= _) = _
      rw [join_map_text]
      rfl
    · have := Text.Consists.intercalate (marks ", " (by decide)) hssp
      exact ((hep.append (marks _ (by decide))).append this).append (marks _ (by decide))
  · -- a parenthesized expression
    obtain ⟨e, he, hep⟩ := part (f := .expression) (by rw [hk]; rfl) (List.Subset.refl _)
    refine ⟨"(" ++ e ++ ")", ?_, ((marks _ (by decide)).append hep).append (marks _ (by decide))⟩
    rw [sourceText_eq_parenthesized hsource hlength hk, he]
    rfl
  · -- a binary expression
    obtain ⟨l, hl, hlp⟩ := part (f := .left) (by rw [hk]; rfl) (List.Subset.refl _)
    obtain ⟨r, hr, hrp⟩ := part (f := .right) (by rw [hk]; rfl) (List.Subset.refl _)
    obtain ⟨o, ho, hop⟩ := h.operator (by rw [hk]; rfl)
    refine ⟨l ++ " " ++ o ++ " " ++ r, ?_, ?_⟩
    · rw [sourceText_eq_binary hsource hlength hk, hl, hr, ho]
      rfl
    · have hblank := marks " " (by decide)
      exact (((hlp.append hblank).append hop).append hblank).append hrp
  · -- a prefix operator
    obtain ⟨e, he, hep⟩ := part (f := .operand) (by rw [hk]; rfl) (List.Subset.refl _)
    obtain ⟨o, ho, hop⟩ := h.operator (by rw [hk]; rfl)
    refine ⟨o ++ e, ?_, hop.append hep⟩
    rw [sourceText_eq_prefixUnary hsource hlength hk, he, ho]
    rfl

/-- A node of a shaped tree has a source text, and nothing stands in it but what was recorded and
the marks between the parts. -/
theorem exists_sourceText (hp : ∀ c ∈ sourceMarks, p c = true) {n : Node} (h : n.IsRecorded p) :
    n.toValue.HasSource p := by
  induction hd : n.toValue.depth using Nat.strongRecOn generalizing n with | _ depth ih
  subst hd
  obtain ⟨s, hs⟩ := Node.source_of_isShaped h.isShaped
  by_cases hsource : n.source.truthy = true
  · -- the text that was recorded
    refine ⟨s, ?_, ?_⟩
    · unfold Node.toValue sourceText
      rw [if_pos hsource, hs]
    · rw [← spells_text, ← hs]
      exact h.source
  rw [Bool.not_eq_true] at hsource
  by_cases hk : n.kind ∈ Kind.composed
  · exact exists_sourceText_composed hp h hsource hk fun m hm hlt => ih _ hlt hm rfl
  · -- a word, or nothing
    have hlength := Node.length_of_isShaped h.isShaped Grammar.length_source
    have hmarks : ((keyword? n.kind).getD "").toList ⊆ sourceMarks := by
      cases n.kind <;> decide
    exact ⟨_, sourceText_eq_keyword hsource hlength hk, fun c hc => hp c (hmarks hc)⟩

end Value

end CodeSample

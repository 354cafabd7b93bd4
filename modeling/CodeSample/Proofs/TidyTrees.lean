import CodeSample.Proofs.TidyTexts
import CodeSample.Proofs.Totality

/-!
# Tidy trees

Trees whose texts cannot disturb the layout of the output: names, numbers, operators and recorded
sources hold neither white space nor braces, the texts of strings neither line breaks nor braces,
and the bodies of conditionals and loops are blocks.

* `Node.isTidy` is the check of a node, `Node.IsTidyProgram` says that all nodes of a shaped tree
  pass it, and `Checker.IsTidy` that a checker knows tidy types only;
* `IsTidyProgram.quiet_source`, `IsTidyProgram.tidy_source`: the source texts of its nodes;
* `isTerm_spelledName`, `typeWords_isTerm`: what is written for its names and types may stand at the
  start of a line, and so may its templates.
-/

namespace CodeSample

open Layout (Fragment)
open Text (IsTerm Consists Leads Balanced isQuiet isTidy)

/-! ### Checks -/

/-- Whether a value is a text that passes a check. -/
def Value.isTextThat (p : String → Bool) (v : Value) : Bool := v.text?.any p

/-- Whether a name is a tidy text. -/
def Data.isTidy : Data → Bool
  | .text s => Text.isTidy s
  | _ => false

/-- Whether the names in a type are tidy. -/
def Ty.isTidy (t : Ty) : Bool := t.names.all Data.isTidy

namespace Node

/-- Whether the texts of a node are tidy: those of names, numbers and operators without white space
and braces, those of strings and templates without line breaks and braces. -/
def hasTidyTexts (n : Node) : Bool :=
  match n.kind with
  | .identifier | .numericLiteral => (n.get .text).isTextThat Text.isTidy
  | .binaryExpression | .prefixUnaryExpression => (n.get .operator).isTextThat Text.isTidy
  | .stringLiteral | .noSubstitutionTemplateLiteral =>
    (n.get .text).isTextThat (·.toList.all isQuiet)
  | .templateExpression => (n.get .head).isTextThat (·.toList.all isQuiet)
  | .templateSpan => (n.get .literal).isTextThat (·.toList.all isQuiet)
  | _ => true

/-- A node without its source. -/
def unrecorded (n : Node) : Node := { n with source := .text "" }

/-- Whether the source of a node is tidy, or no more than what a node without one gets. -/
def hasTidySource (n : Node) : Bool :=
  n.source.isTextThat Text.isTidy ||
    match n.unrecorded.defaultSource with
    | .ok v => v.text? == n.source.text?
    | .error _ => false

/-- Whether the bodies of a conditional or a loop are blocks. An alternative may also be a
conditional. -/
def hasBlocks (n : Node) : Bool :=
  match n.kind with
  | .ifStatement =>
    (n.get .thenStatement).isKind .block &&
      ((n.get .elseStatement).isNull || (n.get .elseStatement).isOneOf [.ifStatement, .block])
  | .forOfStatement => (n.get .statement).isKind .block
  | _ => true

/-- Whether a node cannot disturb the layout of the output. -/
def isTidy (n : Node) : Bool :=
  n.hasTidyTexts && n.hasTidySource && n.type?.all Ty.isTidy && n.hasBlocks

/-- A tree of the language that cannot disturb the layout of the output. -/
def IsTidyProgram (n : Node) : Prop :=
  n.toValue.all (fun m => m.isShaped .source && m.isTidy) = true

end Node

/-- A checker that answers from the nodes, or from tables of types whose names are tidy. -/
def Checker.IsTidy (checker : Checker) : Prop :=
  checker = .recorded ∨ ∃ ascriptions expressions : List (String × Ty),
    checker = .ofTables ascriptions expressions ∧
      ∀ x ∈ ascriptions ++ expressions, x.2.isTidy = true

/-! ### The texts of a tidy node -/

namespace Value

/-- What passes a check of texts is a text that passes it. -/
theorem exists_of_isTextThat {p : String → Bool} {v : Value} (h : v.isTextThat p = true) :
    ∃ s, v = text s ∧ p s = true := by
  unfold isTextThat at h
  cases v with
  | text s => exact ⟨s, rfl, h⟩
  | _ => cases h

/-- The source that a string literal gets. -/
theorem consists_quotedSource {s : String} (h : Consists isQuiet s) :
    Consists isQuiet (quotedSource s) := by
  unfold quotedSource
  refine Consists.append (Consists.append (by decide) ?_) (by decide)
  intro d hd
  rw [String.toList_ofList] at hd
  obtain ⟨c, hc, hd⟩ := List.mem_flatMap.1 hd
  split at hd
  · rw [List.mem_cons, List.mem_singleton] at hd
    rcases hd with rfl | rfl
    · decide
    · exact h d hc
  · obtain rfl := List.mem_singleton.1 hd
    exact h d hc

end Value

namespace Node

variable {n : Node}

/-- A node is tidy if its texts, its source and its type are and its bodies are blocks. -/
theorem isTidy_iff : n.isTidy = true ↔ n.hasTidyTexts = true ∧ n.hasTidySource = true ∧
    n.type?.all Ty.isTidy = true ∧ n.hasBlocks = true := by
  simp only [isTidy, Bool.and_eq_true, and_assoc]

/-- The text of a name or a number. -/
theorem tidy_text (h : n.isTidy = true) (hk : n.kind ∈ [.identifier, .numericLiteral]) :
    ∃ s, n.get .text = .text s ∧ Text.isTidy s = true := by
  have htexts := (isTidy_iff.1 h).1
  unfold hasTidyTexts at htexts
  rw [List.mem_cons, List.mem_singleton] at hk
  rcases hk with hk | hk
  · rw [hk] at htexts
    exact Value.exists_of_isTextThat htexts
  · rw [hk] at htexts
    exact Value.exists_of_isTextThat htexts

/-- The operator of an expression that has one. -/
theorem tidy_operator (h : n.isTidy = true)
    (hk : n.kind ∈ [.binaryExpression, .prefixUnaryExpression]) :
    ∃ s, n.get .operator = .text s ∧ Text.isTidy s = true := by
  have htexts := (isTidy_iff.1 h).1
  unfold hasTidyTexts at htexts
  rw [List.mem_cons, List.mem_singleton] at hk
  rcases hk with hk | hk
  · rw [hk] at htexts
    exact Value.exists_of_isTextThat htexts
  · rw [hk] at htexts
    exact Value.exists_of_isTextThat htexts

/-- The field of a kind that holds the text of a string or a part of a template. -/
def quietField? : Kind → Option Field
  | .stringLiteral | .noSubstitutionTemplateLiteral => some .text
  | .templateExpression => some .head
  | .templateSpan => some .literal
  | _ => none

/-- The text of a string, or of a part of a template. -/
theorem quiet_text (h : n.isTidy = true) {f : Field} (hf : quietField? n.kind = some f) :
    ∃ s, n.get f = .text s ∧ Consists isQuiet s := by
  have htexts := (isTidy_iff.1 h).1
  unfold hasTidyTexts at htexts
  have hquiet (hv : (n.get f).isTextThat (·.toList.all isQuiet) = true) :
      ∃ s, n.get f = .text s ∧ Consists isQuiet s := by
    obtain ⟨s, hs, hall⟩ := Value.exists_of_isTextThat hv
    exact ⟨s, hs, List.all_eq_true.1 hall⟩
  cases hk : n.kind <;> rw [hk] at hf htexts <;> cases hf <;> exact hquiet htexts

/-! ### The sources of a tidy node -/

/-- A name or a number without a source gets its text as one. -/
theorem defaultSource_of_named (hk : n.kind ∈ [.identifier, .numericLiteral]) :
    n.defaultSource = .ok (n.get .text) := by
  rw [List.mem_cons, List.mem_singleton] at hk
  unfold defaultSource
  rcases hk with hk | hk
  · rw [hk]
  · rw [hk]

/-- A string literal without a source gets its text in quotes as one. -/
theorem defaultSource_of_string (hk : n.kind = .stringLiteral) {s : String}
    (hs : n.get .text = .text s) : n.defaultSource = .ok (.text (quotedSource s)) := by
  unfold defaultSource
  rw [hk, hs]

/-- Any other node keeps the source that it has. -/
theorem defaultSource_of_other
    (hk : n.kind ∉ [.identifier, .numericLiteral, .stringLiteral, .typeNode]) :
    n.defaultSource = .ok n.source := by
  unfold defaultSource
  cases hn : n.kind <;> first | rfl | exact absurd (hn ▸ hk) (by decide)

/-- A source that is not tidy is the one that the node gets without it. -/
theorem source_of_hasTidySource (h : n.hasTidySource = true) :
    (∃ s, n.source = .text s ∧ Text.isTidy s = true) ∨
      ∃ v, n.unrecorded.defaultSource = .ok v ∧ v.text? = n.source.text? := by
  unfold hasTidySource at h
  rw [Bool.or_eq_true] at h
  rcases h with h | h
  · exact Or.inl (Value.exists_of_isTextThat h)
  · right
    split at h
    · rename_i v hv
      exact ⟨v, hv, eq_of_beq h⟩
    · cases h

/-- The source of an expression is quiet. -/
theorem spells_source (h : n.isTidy = true) (hk : n.kind ∈ Kind.expressions) :
    n.source.spells isQuiet = true := by
  have of_text {s : String} {v : Value} (hv : v = .text s) (hs : Consists isQuiet s)
      (heq : v.text? = n.source.text?) : n.source.spells isQuiet = true := by
    unfold Value.spells
    rw [← heq, hv]
    exact Value.spells_text.2 hs
  rcases source_of_hasTidySource (isTidy_iff.1 h).2.1 with ⟨s, hs, htidy⟩ | ⟨v, hv, heq⟩
  · exact of_text hs (Text.isTerm_of_isTidy htidy).1 rfl
  by_cases hnamed : n.kind ∈ [.identifier, .numericLiteral]
  · obtain ⟨s, hs, htidy⟩ := tidy_text h hnamed
    rw [defaultSource_of_named (n := n.unrecorded) hnamed] at hv
    obtain rfl := Except.ok.inj hv
    exact of_text hs (Text.isTerm_of_isTidy htidy).1 heq
  by_cases hstring : n.kind = .stringLiteral
  · obtain ⟨s, hs, hquiet⟩ := quiet_text h (f := .text) (by rw [hstring]; rfl)
    rw [defaultSource_of_string (n := n.unrecorded) hstring hs] at hv
    exact of_text (Except.ok.inj hv).symm (Value.consists_quotedSource hquiet) heq
  · have hother : n.kind ∉ [.identifier, .numericLiteral, .stringLiteral, .typeNode] := by
      revert hk hnamed hstring
      cases n.kind <;> decide
    rw [defaultSource_of_other (n := n.unrecorded) hother] at hv
    exact of_text (Except.ok.inj hv).symm (by decide) heq

/-- The texts of a node that can stand in a source text are quiet. -/
theorem spells_isQuiet (h : n.isTidy = true) : n.spells isQuiet = true := by
  have hsource : (!Kind.expressions.contains n.kind || n.source.spells isQuiet) = true := by
    by_cases hk : n.kind ∈ Kind.expressions
    · rw [spells_source h hk, Bool.or_true]
    · simp [hk]
  have hoperator : (n.get .operator).spells isQuiet = true := by
    by_cases hk : n.kind ∈ [.binaryExpression, .prefixUnaryExpression]
    · obtain ⟨s, hs, htidy⟩ := tidy_operator h hk
      rw [hs]
      exact Value.spells_text.2 (Text.isTerm_of_isTidy htidy).1
    · have hnone : n.kind.index? .operator = none := by
        cases hn : n.kind <;> first | rfl | exact absurd (hn ▸ hk) (by decide)
      rw [get, hnone]
      rfl
  have htext : (n.kind != .identifier || (n.get .text).spells isQuiet) = true := by
    by_cases hk : n.kind = .identifier
    · obtain ⟨s, hs, htidy⟩ := tidy_text h (by rw [hk]; decide)
      rw [hs, Value.spells_text.2 (Text.isTerm_of_isTidy htidy).1, Bool.or_true]
    · simp [hk]
  unfold spells
  rw [hsource, hoperator, htext]
  rfl

namespace IsTidyProgram

variable (h : n.IsTidyProgram)
include h

/-- The root of a tidy program is tidy. -/
theorem isTidy : n.isTidy = true := by
  have := ((Value.all_toValue n).1 h).1
  rw [Bool.and_eq_true] at this
  exact this.2

/-- A tidy program is a tree of the language. -/
theorem isProgram : n.IsProgram :=
  Value.all_mono (fun _ hm => (Bool.and_eq_true _ _ ▸ hm).1) h

/-- The source text of an expression is quiet. -/
theorem quiet_source (hk : n.kind ∈ Kind.expressions) :
    ∃ s, n.toValue.sourceText = .ok (.text s) ∧ Consists isQuiet s := by
  have hmarks : sourceMarks.all isQuiet = true := by decide
  refine Value.exists_sourceText (List.all_eq_true.1 hmarks)
    (Node.IsRecorded.of_expression h.isProgram ?_ hk)
  exact Value.all_mono (fun _ hm => spells_isQuiet (Bool.and_eq_true _ _ ▸ hm).2) h

/-- The source text of a name or a number is tidy. -/
theorem tidy_source (hk : n.kind ∈ [.identifier, .numericLiteral]) :
    ∃ s, n.toValue.sourceText = .ok (.text s) ∧ Text.isTidy s = true := by
  have hsource : ∃ s, n.source = .text s ∧ Text.isTidy s = true := by
    rcases source_of_hasTidySource (isTidy_iff.1 h.isTidy).2.1 with hs | ⟨v, hv, heq⟩
    · exact hs
    obtain ⟨s, hs, htidy⟩ := tidy_text h.isTidy hk
    obtain ⟨t, ht⟩ := Node.source_of_isShaped (Node.isShaped_of_all (fun _ hp => hp) h.isProgram)
    rw [defaultSource_of_named (n := n.unrecorded) hk] at hv
    obtain rfl := Except.ok.inj hv
    change (n.get .text).text? = _ at heq
    rw [hs, ht] at heq
    obtain rfl := Option.some.inj heq
    exact ⟨s, ht, htidy⟩
  obtain ⟨s, hs, htidy⟩ := hsource
  refine ⟨s, ?_, htidy⟩
  have htruthy : n.source.truthy = true := by
    rw [hs]
    unfold Text.isTidy at htidy
    rw [Bool.and_eq_true] at htidy
    exact htidy.1
  rw [Node.toValue]
  unfold Value.sourceText
  rw [if_pos htruthy, hs]

end IsTidyProgram

end Node

/-! ### Types -/

/-- The names in a tidy type may stand at the start of a line. -/
theorem Ty.named_isTerm {t : Ty} (h : t.isTidy = true) : t.Named IsTerm := by
  intro d hd
  have htidy := List.all_eq_true.1 h d hd
  cases d with
  | text s => exact ⟨s, rfl, Text.isTerm_of_isTidy htidy⟩
  | _ => cases htidy

/-- What is written for types with tidy names may stand at the start of a line. -/
theorem CSharp.typeWords_isTerm : TypeWords IsTerm where
  word := by
    have htidy : ∀ s ∈ [unknownType, unsupportedType, "var", "void", "object"] ++
        builtinTypes.map Prod.snd, isTidy s = true := by decide
    exact fun s hs => Text.isTerm_of_isTidy (htidy s hs)
  marker := by
    intro s hs
    unfold withOptionalMarker
    split
    · exact hs
    · exact hs.append (by decide)
  array := fun s hs => hs.append (by decide)
  dictionary := by
    intro s hs
    have hfront : IsTerm "IDictionary<string, " := ⟨by decide, by decide⟩
    exact (hfront.append hs.1).append (by decide)

/-- A tidy checker knows every node of a tidy tree. -/
theorem Checker.IsTidy.knows {checker : Checker} (h : checker.IsTidy) {n : Node}
    (hn : n.IsTidyProgram) : checker.Knows IsTerm n := by
  have hsource := exists_text hn.isProgram
  have htype : ∀ t ∈ n.type?, t.Named IsTerm := by
    intro t ht
    have htidy := (Node.isTidy_iff.1 hn.isTidy).2.2.1
    rw [Option.mem_def.1 ht] at htidy
    exact Ty.named_isTerm htidy
  rcases h with rfl | ⟨ascriptions, expressions, rfl, htidy⟩
  · exact knows_recorded hsource htype
  · refine knows_ofTables ?_ ?_ hsource htype
    · exact fun x hx => Ty.named_isTerm (htidy x (List.mem_append_left _ hx))
    · exact fun x hx => Ty.named_isTerm (htidy x (List.mem_append_right _ hx))

/-! ### Names and templates -/

namespace CSharp

/-- Escaping a keyword keeps a name tidy. -/
theorem isTidy_safeName {s : String} (h : isTidy s = true) : isTidy (safeName s) = true := by
  unfold safeName
  split
  · obtain ⟨c, rest, hs, hc, hrest⟩ := Text.isTidy_iff.1 h
    refine Text.isTidy_iff.2 ⟨'@', c :: rest, ?_, by decide, List.forall_mem_cons.2 ⟨hc, hrest⟩⟩
    rw [String.toList_append, hs]
    rfl
  · exact h

/-- Escaping a keyword keeps a name quiet. -/
theorem consists_safeName {s : String} (h : Consists isQuiet s) :
    Consists isQuiet (safeName s) := by
  unfold safeName
  split
  · exact Consists.append (by decide) h
  · exact h

/-- However a tidy name is spelled, it may stand at the start of a line. -/
theorem isTerm_spelledName (c : Flags) (kind : Kind) {s : String} (h : isTidy s = true) :
    IsTerm (spelledName c kind s) := by
  unfold spelledName
  split
  · exact Text.isTerm_quote (Text.isTerm_of_isTidy h).1
  · split
    · exact Text.isTerm_of_isTidy (isTidy_safeName (Text.isTidy_upperFirst h))
    · split
      · exact Text.isTerm_of_isTidy (by decide)
      · exact Text.isTerm_of_isTidy (isTidy_safeName h)

/-- However the text of a string is spelled, it stays on its line. -/
theorem consists_spelledName (c : Flags) (kind : Kind) {s : String} (h : Consists isQuiet s) :
    Consists isQuiet (spelledName c kind s) := by
  unfold spelledName
  split
  · exact (Text.isTerm_quote h).1
  · split
    · exact consists_safeName (Text.consists_upperFirst (fun _ => Text.isQuiet_of_isSolid) h)
    · split
      · decide
      · exact consists_safeName h

/-- A template whose texts are quiet may stand at the start of a line. -/
theorem isTerm_templateOf {head : String} {spans : List (String × String)}
    (hhead : Consists isQuiet head)
    (hspans : ∀ x ∈ spans, Consists isQuiet x.1 ∧ Consists isQuiet x.2) :
    (Fragment.text (templateOf head spans)).IsTerm := by
  have hole : ∀ x ∈ spans, '\n' ∉ ("\x7b" ++ x.1 ++ "\x7d" ++ Text.escapeInterpolated x.2).toList ∧
      Balanced ("\x7b" ++ x.1 ++ "\x7d" ++ Text.escapeInterpolated x.2).toList := by
    intro x hx
    obtain ⟨hsource, hliteral⟩ := hspans x hx
    have hliteral := Text.consists_escapeInterpolated hliteral
    simp only [String.toList_append, List.mem_append, not_or]
    refine ⟨⟨⟨⟨by decide, Text.newline_not_mem hsource⟩, by decide⟩,
      Text.newline_not_mem hliteral⟩, ?_⟩
    have hbraces : Balanced ("\x7b".toList ++ "\x7d".toList) := by decide
    exact (hbraces.between (Text.balanced_of_consists hsource)).append
      (Text.balanced_of_consists hliteral)
  have holes : '\n' ∉ (String.join (spans.map fun x =>
        "\x7b" ++ x.1 ++ "\x7d" ++ Text.escapeInterpolated x.2)).toList ∧
      Balanced (String.join (spans.map fun x =>
        "\x7b" ++ x.1 ++ "\x7d" ++ Text.escapeInterpolated x.2)).toList := by
    clear hspans
    induction spans with
    | nil => decide
    | cons x spans ih =>
      obtain ⟨hnewline, hbalanced⟩ := hole x List.mem_cons_self
      obtain ⟨hnewlines, hbalanceds⟩ := ih fun y hy => hole y (List.mem_cons_of_mem x hy)
      rw [List.map_cons, String.join_cons, String.toList_append, List.mem_append, not_or]
      exact ⟨⟨hnewline, hnewlines⟩, hbalanced.append hbalanceds⟩
  have hhead := Text.consists_escapeInterpolated hhead
  refine ⟨Fragment.isPhrase_text ?_ ?_, ?_⟩
  · unfold templateOf
    simp only [String.toList_append, List.mem_append, not_or]
    exact ⟨⟨⟨by decide, Text.newline_not_mem hhead⟩, holes.1⟩, by decide⟩
  · unfold templateOf
    simp only [String.toList_append]
    refine Balanced.append (Balanced.append (Balanced.append ?_ ?_) holes.2) ?_
    · decide
    · exact Text.balanced_of_consists hhead
    · decide
  · rw [Fragment.flat]
    have hmark : Leads "$\"" := by decide
    exact ((hmark.append _).append _).append _

end CSharp

end CodeSample

import CodeSample.Proofs.Parts
import CodeSample.Target.Registry

/-!
# Every program of the samples' language is rendered

A shaped tree is rendered by both backends without a fault, whatever types it carries and a checker
knows, and what comes out can be written. The proof follows the rules: each gives output that holds
only texts, if the parts that it renders do, and the parts that it renders are never annotations,
heritage clauses or spans of templates, which have no rule.

* `Checker.IsTabled` are the checkers that answer from the nodes or from tables;
* `gives_plain_neutral` and `gives_plain_csharp` are what the rules give, kind by kind;
* `exists_rendering` is the statement for whole trees.
-/

namespace CodeSample

open Layout (Fragment)

/-- A checker that answers from the nodes, or from tables of types whose names are texts. -/
def Checker.IsTabled (checker : Checker) : Prop :=
  checker = .recorded ∨ ∃ ascriptions expressions : List (String × Ty),
    checker = .ofTables ascriptions expressions ∧
      ∀ x ∈ ascriptions ++ expressions, x.2.Spelled

/-- A tree of the language. -/
abbrev Node.IsProgram (n : Node) : Prop := n.toValue.all (·.isShaped .source) = true

/-- A tree of the language whose root is rendered by itself. -/
def Node.IsRendered (n : Node) : Prop := n.IsProgram ∧ n.kind ∉ Kind.inner

/-- A node in a field of a tree of the language is a tree of the language. -/
theorem Node.IsProgram.of_get {n m : Node} {f : Field} (hn : n.IsProgram)
    (h : n.get f = m.toValue) : m.IsProgram := by
  have hall := Value.all_get hn f
  rwa [h] at hall

/-- All texts. -/
abbrev anyText (_ : String) : Prop := True

/-- Every node of a shaped tree has a source text. -/
theorem exists_text {n : Node} (h : n.IsProgram) : ∃ s, n.toValue.sourceText = .ok (.text s) := by
  have hspelled (m : Node) : m.spells (fun _ => true) = true := m.spells_true
  have hrecorded : n.IsRecorded (fun _ => true) := by
    refine ⟨h, ?_, by simp [Value.spells, Option.all_eq_true]⟩
    exact Value.all_of_forall hspelled _
  obtain ⟨s, hs, -⟩ := Value.exists_sourceText (fun _ _ => rfl) hrecorded
  exact ⟨s, hs⟩

/-- What stands in a field that holds a node has a source text. -/
theorem exists_text_of_one {n : Node} (h : n.IsProgram) {f : Field} {kinds : List Kind}
    (hf : Grammar.source.content? n.kind f = some (.one kinds)) :
    ∃ s, (n.get f).sourceText = .ok (.text s) := by
  obtain ⟨m, hm, hall, -⟩ := Node.one_of_all (fun _ h => h) h hf
  exact hm ▸ exists_text hall

/-- The names in a type that has a spelling are texts. -/
theorem Ty.named_anyText {t : Ty} (h : t.Spelled) : t.Named anyText := by
  intro d hd
  obtain ⟨s, hs⟩ := Ty.isText_iff.1 ((Ty.spelled_iff t).1 h d hd)
  exact ⟨s, hs, trivial⟩

/-- A checker that answers from nodes or tables knows every node of a shaped tree. -/
theorem Checker.IsTabled.knows {checker : Checker} (h : checker.IsTabled) {n : Node}
    (hn : n.IsProgram) : checker.Knows anyText n := by
  have htype : ∀ t ∈ n.type?, t.Named anyText := fun t ht =>
    Ty.named_anyText (Node.spelled_of_isShaped (Node.isShaped_of_all (fun _ h => h) hn) t ht)
  rcases h with rfl | ⟨ascriptions, expressions, rfl, hspelled⟩
  · exact knows_recorded (exists_text hn) htype
  · refine knows_ofTables ?_ ?_ (exists_text hn) htype
    · exact fun x hx => Ty.named_anyText (hspelled x (List.mem_append_left _ hx))
    · exact fun x hx => Ty.named_anyText (hspelled x (List.mem_append_right _ hx))

/-! ### Output that holds only texts -/

namespace Layout.Fragment

/-- Fragments hold only texts if each of them does. -/
theorem allPlain_iff {fs : List Fragment} : allPlain fs = true ↔ ∀ f ∈ fs, f.isPlain = true := by
  induction fs with
  | nil => simp [allPlain]
  | cons f fs ih => simp [allPlain, ih]

/-- A fragment holds only texts if its front and its children do and its indentation is a whole
number of blanks. -/
theorem isPlain_tree {front children : List Fragment} {style : Style} :
    (tree front children style).isPlain = true ↔ (∀ f ∈ front, f.isPlain = true) ∧
      (∀ f ∈ children, f.isPlain = true) ∧ style.indent.isWhole = true := by
  rw [isPlain, Bool.and_eq_true, Bool.and_eq_true, allPlain_iff, allPlain_iff, and_assoc]

/-- A text holds only texts. -/
theorem isPlain_text (s : String) : (text s).isPlain = true := by
  rw [isPlain]

/-- Fragments one after the other, on a line of their own or not. -/
theorem isPlain_row {front : List Fragment} (h : ∀ f ∈ front, f.isPlain = true) :
    (row front).isPlain = true :=
  isPlain_tree.2 ⟨h, by simp, rfl⟩

/-- A line of fragments that hold only texts does so. -/
theorem isPlain_line {front : List Fragment} (h : ∀ f ∈ front, f.isPlain = true) :
    (line front).isPlain = true :=
  isPlain_tree.2 ⟨h, by simp, rfl⟩

/-- Fragments that hold only texts do so with separators between them. -/
theorem isPlain_separated {separator : String} {children : List Fragment}
    (h : ∀ f ∈ children, f.isPlain = true) : (separated separator children).isPlain = true :=
  isPlain_tree.2 ⟨by simp, h, rfl⟩

end Layout.Fragment

section

variable {C : Type} {Inv : C → Prop} {n : Node} {field : Field} {kinds : List Kind}

/-- All less deep nodes that have a rule give output that holds only texts. -/
def RendersPlain (Inv : C → Prop) (convertIn : C → Value → Run Fragment) (n : Node) : Prop :=
  Renders convertIn (fun c m => m.IsRendered ∧ Inv c) (fun _ _ x => x.isPlain = true) n

namespace RendersPlain

variable {convertIn : C → Value → Run Fragment} {c : C} {checker : Checker}
variable (h : RendersPlain Inv convertIn n) (hn : n.IsProgram) (hc : Inv c)
include h hn hc

/-- The node in a field gives output that holds only texts, if it is of kinds that have rules. -/
theorem one (hf : Grammar.source.content? n.kind field = some (.one kinds))
    (hkinds : ∀ k ∈ kinds, k ∉ Kind.inner) :
    (convertIn c (n.get field)).Gives fun x => x.isPlain = true :=
  Renders.one h (fun _ hp => hp) hn hf (fun _ hm hk => ⟨⟨hm, hkinds _ hk⟩, hc⟩) fun _ _ _ hx => hx

/-- The node in a field that may be null gives output that holds only texts, if it is of kinds that
have rules. -/
theorem maybe (hf : Grammar.source.content? n.kind field = some (.maybe kinds))
    (hkinds : ∀ k ∈ kinds, k ∉ Kind.inner) :
    n.get field = .null ∨ (convertIn c (n.get field)).Gives fun x => x.isPlain = true :=
  Renders.maybe h (fun _ hp => hp) hn hf (fun _ hm hk => ⟨⟨hm, hkinds _ hk⟩, hc⟩)
    fun _ _ _ hx => hx

/-- The nodes that a field enumerates give output that holds only texts, if they are of kinds that
have rules. -/
theorem all (hf : Grammar.source.content? n.kind field = some (.many kinds))
    (hkinds : ∀ k ∈ kinds, k ∉ Kind.inner) :
    ((View.mk c checker convertIn).convertAll (n.get field)).Gives
      fun xs => ∀ x ∈ xs, x.isPlain = true :=
  Renders.all h (fun _ hp => hp) hn hf (fun _ hm hk => ⟨⟨hm, hkinds _ hk⟩, hc⟩) fun _ _ _ hx => hx

end RendersPlain

/-! ### The neutral rules -/

namespace Neutral

open Layout.Fragment (isPlain_row isPlain_line isPlain_separated isPlain_text isPlain_tree)

variable {view : View C}

/-- What a block of the contents of a field gives. -/
theorem gives_plain_blockOf (h : RendersPlain Inv view.convertIn n) (hn : n.IsProgram)
    (hc : Inv view.context) (hf : Grammar.source.content? n.kind field = some (.many kinds))
    (hkinds : ∀ k ∈ kinds, k ∉ Kind.inner) :
    (blockOf field view n).Gives fun x => x.isPlain = true := by
  refine (gives_blockOf view (h.all hn hc hf hkinds)).mono ?_
  rintro _ ⟨xs, hxs, rfl⟩
  exact isPlain_tree.2 ⟨by simp, hxs, rfl⟩

/-- The rules for what most languages spell alike give output that holds only texts. -/
theorem gives_plain_shared (name : String) (h : RendersPlain Inv view.convertIn n)
    (hn : n.IsProgram) (hc : Inv view.context) (hk : n.kind ∈ shared) :
    ∃ rule : Rule C, rule? name n.kind = some rule ∧
      (rule view n).Gives fun x => x.isPlain = true := by
  have worded (s : String) : (word s view n).Gives fun x => x.isPlain = true :=
    (gives_word view s).mono fun x hx => hx ▸ isPlain_row (by simp [isPlain_text])
  have operator (hf : Grammar.source.content? n.kind .operator = some .text) :
      ∃ s, n.get .operator = .text s :=
    Node.text_of_isShaped (Node.isShaped_of_all (fun _ h => h) hn) hf
  cases hk' : n.kind
  case sourceFile =>
    exact ⟨_, rfl, gives_plain_blockOf h hn hc (by rw [hk']; rfl) (by decide)⟩
  case variableStatement => exact ⟨_, rfl, h.one hn hc (by rw [hk']; rfl) (by decide)⟩
  case variableDeclarationList =>
    exact ⟨_, rfl, gives_plain_blockOf h hn hc (by rw [hk']; rfl) (by decide)⟩
  case returnStatement =>
    refine ⟨_, rfl,
      (gives_returnStatement view (h.maybe hn hc (by rw [hk']; rfl) (by decide))).mono ?_⟩
    rintro _ (rfl | ⟨x, hx, rfl⟩)
    · exact isPlain_line (by simp [isPlain_text])
    · exact isPlain_line (by simp [isPlain_text, hx])
  case expressionWithTypeArguments => exact ⟨_, rfl, h.one hn hc (by rw [hk']; rfl) (by decide)⟩
  case numericLiteral =>
    obtain ⟨s, hs⟩ := exists_text hn
    exact ⟨_, rfl, (gives_sourceOf view hs).mono fun x hx =>
      hx ▸ isPlain_row (by simp [isPlain_text])⟩
  case trueKeyword | falseKeyword | nullKeyword | thisKeyword => exact ⟨_, rfl, worded _⟩
  case parenthesizedExpression =>
    refine ⟨_, rfl, (gives_parenthesized view (h.one hn hc (by rw [hk']; rfl) (by decide))).mono ?_⟩
    rintro _ ⟨x, hx, rfl⟩
    exact isPlain_row (by simp [isPlain_text, hx])
  case binaryExpression =>
    obtain ⟨o, ho⟩ := operator (by rw [hk']; rfl)
    refine ⟨_, rfl, (gives_binary view ho (h.one hn hc (by rw [hk']; rfl) (by decide))
      (h.one hn hc (by rw [hk']; rfl) (by decide))).mono ?_⟩
    rintro _ ⟨x, y, hx, hy, rfl⟩
    exact isPlain_row (by simp [isPlain_text, hx, hy])
  case prefixUnaryExpression =>
    obtain ⟨o, ho⟩ := operator (by rw [hk']; rfl)
    refine ⟨_, rfl,
      (gives_prefixUnary view ho (h.one hn hc (by rw [hk']; rfl) (by decide))).mono ?_⟩
    rintro _ ⟨x, hx, rfl⟩
    exact isPlain_row (by simp [isPlain_text, hx])
  case conditionalExpression =>
    refine ⟨_, rfl, (gives_conditional view (h.one hn hc (by rw [hk']; rfl) (by decide))
      (h.one hn hc (by rw [hk']; rfl) (by decide))
      (h.one hn hc (by rw [hk']; rfl) (by decide))).mono ?_⟩
    rintro _ ⟨x, y, z, hx, hy, hz, rfl⟩
    exact isPlain_row (by simp [isPlain_text, hx, hy, hz])
  case elementAccessExpression =>
    refine ⟨_, rfl, (gives_elementAccess view (h.one hn hc (by rw [hk']; rfl) (by decide))
      (h.one hn hc (by rw [hk']; rfl) (by decide))).mono ?_⟩
    rintro _ ⟨x, y, hx, hy, rfl⟩
    exact isPlain_row (by simp [isPlain_text, hx, hy])
  case newExpression =>
    refine ⟨_, rfl, (gives_newExpression view (h.one hn hc (by rw [hk']; rfl) (by decide))
      (h.all hn hc (by rw [hk']; rfl) (by decide))).mono ?_⟩
    rintro _ ⟨x, ys, hx, hys, rfl⟩
    exact isPlain_row (by simp [isPlain_text, hx, isPlain_separated hys])
  all_goals exact absurd (hk' ▸ hk) (by decide)

/-- Every neutral rule gives output that holds only texts. -/
theorem gives_plain (name : String) (h : RendersPlain Inv view.convertIn n) (hn : n.IsRendered)
    (hc : Inv view.context) (hchecker : view.checker.IsTabled) :
    ∃ rule : Rule C, rule? name n.kind = some rule ∧
      (rule view n).Gives fun x => x.isPlain = true := by
  obtain ⟨hn, hinner⟩ := hn
  by_cases hk : n.kind ∈ shared
  · exact gives_plain_shared name h hn hc hk
  obtain ⟨s, hs⟩ := exists_text hn
  have echoed : (echo name view n).Gives fun x => x.isPlain = true :=
    (gives_echo view name hs).mono fun x hx => hx ▸ isPlain_row (by simp [isPlain_text])
  cases hk' : n.kind
  case callExpression =>
    have hsource := exists_text_of_one hn (f := .expression) (by rw [hk']; rfl)
    exact ⟨_, rfl, Dispatch.gives_call view hsource echoed echoed⟩
  case objectLiteralExpression =>
    obtain ⟨t?, ht, -⟩ := (hchecker.knows hn).expression
    exact ⟨_, rfl,
      Dispatch.gives_objectLiteral view ht (fun _ _ => echoed) (fun _ _ => echoed) echoed⟩
  case interfaceDeclaration =>
    obtain ⟨vs, hvs, -⟩ := Node.many_of_all (fun _ h => h) hn (f := .members) (by rw [hk']; rfl)
    exact ⟨_, rfl, Dispatch.gives_interface view hvs echoed echoed⟩
  all_goals first
    | exact ⟨_, rfl, echoed⟩
    | exact absurd (hk' ▸ hk) (by decide)
    | exact absurd (hk' ▸ hinner) (by decide)

end Neutral

end

/-! ### The C# rules -/

namespace CSharp

open Layout (Indent)
open Layout.Fragment (row isPlain_row isPlain_line isPlain_separated isPlain_text isPlain_tree)

variable {view : View Flags} {n : Node} {indent : Indent}

/-- The name of the class around is null or a text. -/
def HasClassName (c : Flags) : Prop := c.className = .null ∨ c.className.IsWord anyText

/-- Every kind of expression has a rule. -/
theorem expression_not_inner {k : Kind} (h : k ∈ Kind.expressions) : k ∉ Kind.inner := by
  revert k
  decide

/-- Any text will do for the words of types here. -/
theorem typeWords_anyText : TypeWords anyText :=
  ⟨fun _ _ => trivial, fun _ _ => trivial, fun _ _ => trivial, fun _ _ => trivial⟩

/-- A literal in braces holds only texts if its parts do. -/
theorem isPlain_initializerList (hindent : indent.isWhole = true) {s : String}
    {parts : List Fragment} (h : ∀ x ∈ parts, x.isPlain = true) :
    (initializerList indent [.text s] parts).isPlain = true := by
  unfold initializerList
  split
  · exact isPlain_row (by simp [isPlain_text])
  · exact isPlain_tree.2 ⟨by simp [isPlain_text], h, hindent⟩

/-- The body of a statement is indented by a whole number of blanks if all blocks are. -/
theorem isWhole_bodyIndent (hindent : indent.isWhole = true) (body : Value) :
    (bodyIndent indent body).isWhole = true := by
  unfold bodyIndent
  split
  · rfl
  · exact hindent

/-- A head and a body that hold only texts do so together. -/
theorem isPlain_withBody (hindent : indent.isWhole = true) {head : List Fragment} {body : Value}
    {x : Fragment} (hhead : ∀ f ∈ head, f.isPlain = true) (hx : x.isPlain = true) :
    (withBody indent head body x).isPlain = true :=
  isPlain_tree.2 ⟨hhead, by simpa using hx, isWhole_bodyIndent hindent body⟩

section

variable (h : RendersPlain HasClassName view.convertIn n) (hn : n.IsProgram)
  (hc : HasClassName view.context)
include h hn hc

/-- The signature of a function, a method or a constructor. -/
theorem gives_plain_signature {head : List Fragment} (hhead : ∀ f ∈ head, f.isPlain = true)
    (hparameters : Grammar.source.content? n.kind .parameters = some (.many [.parameter]))
    (hbody : Grammar.source.content? n.kind .body = some (.maybe [.block])) :
    (signature view n head).Gives fun x => x.isPlain = true := by
  refine (gives_signature view (h.all hn hc hparameters (by decide))
    (h.maybe hn hc hbody (by decide))).mono ?_
  rintro _ ⟨xs, hxs, rfl | ⟨y, hy, rfl⟩⟩
  · refine isPlain_line ?_
    simpa [or_imp, forall_and, isPlain_text, isPlain_separated hxs] using hhead
  · refine isPlain_tree.2 ⟨?_, by simpa using hy, rfl⟩
    simpa [or_imp, forall_and, isPlain_text, isPlain_separated hxs] using hhead

/-- A constructor gives output that holds only texts. -/
theorem gives_plain_constructor (hk : n.kind = .constructor) :
    (constructor view n).Gives fun x => x.isPlain = true := by
  refine gives_constructor view (P := anyText) trivial hc fun w _ => ?_
  exact gives_plain_signature h hn hc (by simp [isPlain_text]) (by rw [hk]; rfl) (by rw [hk]; rfl)

/-- An array literal gives output that holds only texts. -/
theorem gives_plain_arrayLiteral (hindent : indent.isWhole = true)
    (hk : n.kind = .arrayLiteralExpression) :
    (arrayLiteral indent view n).Gives fun x => x.isPlain = true := by
  refine (gives_arrayLiteral view (h.all hn hc (by rw [hk]; rfl) (by decide))).mono ?_
  rintro _ ⟨xs, hxs, rfl⟩
  exact isPlain_initializerList hindent hxs

/-- A property access gives output that holds only texts: its receiver has a source text to look at.
-/
theorem gives_plain_propertyAccess (hk : n.kind = .propertyAccessExpression) :
    (propertyAccess view n).Gives fun x => x.isPlain = true := by
  refine (gives_propertyAccess view (exists_text_of_one hn (by rw [hk]; rfl))
    (h.one hn hc (by rw [hk]; rfl) (by decide)) (h.one hn hc (by rw [hk]; rfl) (by decide))).mono ?_
  rintro _ ⟨y, hy, rfl | ⟨x, hx, rfl⟩⟩
  · exact isPlain_row (by simp [hy])
  · exact isPlain_row (by simp [isPlain_text, hx, hy])

/-- A call of either sort gives output that holds only texts. -/
theorem gives_plain_callExpression (hk : n.kind = .callExpression) :
    (Dispatch.call printCall regularCall view n).Gives fun x => x.isPlain = true := by
  obtain ⟨vs, hvs, -⟩ := Node.many_of_all (fun _ h => h) hn (f := .arguments) (by rw [hk]; rfl)
  refine Dispatch.gives_call view (exists_text_of_one hn (by rw [hk]; rfl)) ?_ ?_
  · refine (gives_printCall view hvs (h.all hn hc (by rw [hk]; rfl) (by decide))).mono ?_
    rintro _ ⟨xs, hxs, rfl | rfl⟩
    · exact isPlain_row (by simpa [or_imp, forall_and, isPlain_text] using hxs)
    · have holes : ∀ x ∈ xs.map fun x => row [.text "\x7b", x, .text "\x7d"], x.isPlain = true := by
        intro y hy
        obtain ⟨x, hx, rfl⟩ := List.mem_map.1 hy
        exact isPlain_row (by simp [isPlain_text, hxs x hx])
      exact isPlain_row (by simp [isPlain_text, isPlain_separated holes])
  · refine (gives_regularCall view (h.one hn hc (by rw [hk]; rfl) (by decide))
      (h.all hn hc (by rw [hk]; rfl) (by decide))).mono ?_
    rintro _ ⟨x, ys, hx, hys, rfl⟩
    exact isPlain_row (by simp [isPlain_text, hx, isPlain_separated hys])

/-- A pair of a dictionary or an assignment to a property, of a key and a value in two fields. -/
theorem gives_plain_assignment {key value : Field} {keys values : List Kind}
    (hkey : Grammar.source.content? n.kind key = some (.one keys))
    (hvalue : Grammar.source.content? n.kind value = some (.one values))
    (hkeys : ∀ k ∈ keys, k ∉ Kind.inner) (hvalues : ∀ k ∈ values, k ∉ Kind.inner) :
    (assignment view (n.get key) (n.get value)).Gives fun x => x.isPlain = true := by
  have hpart {c : Flags} {field : Field} {kinds : List Kind} (hc : HasClassName c)
      (hf : Grammar.source.content? n.kind field = some (.one kinds))
      (hkinds : ∀ k ∈ kinds, k ∉ Kind.inner) :
      (view.convertIn c (n.get field)).Gives fun x => x.isPlain = true :=
    h.one hn hc hf hkinds
  refine (gives_assignment view (fun _ => ⟨hpart hc hkey hkeys, hpart hc hvalue hvalues⟩)
    fun _ => ⟨hpart hc hkey hkeys, hpart hc hvalue hvalues⟩).mono ?_
  rintro _ ⟨x, y, hx, hy, rfl | rfl⟩
  · exact isPlain_line (by simp [isPlain_text, hx, hy])
  · exact isPlain_line (by simp [isPlain_text, hx, hy])

/-- A block gives output that holds only texts. -/
theorem gives_plain_blockStatement (hindent : indent.isWhole = true) (hk : n.kind = .block) :
    (blockStatement indent view n).Gives fun x => x.isPlain = true := by
  refine (gives_blockStatement view (h.all hn hc (by rw [hk]; rfl) (by decide))).mono ?_
  rintro _ ⟨xs, hxs, rfl⟩
  exact isPlain_tree.2 ⟨by simp [isPlain_text], hxs, hindent⟩

/-- An expression statement gives output that holds only texts. -/
theorem gives_plain_expressionStatement (hk : n.kind = .expressionStatement) :
    (expressionStatement view n).Gives fun x => x.isPlain = true := by
  refine (gives_expressionStatement view (h.one hn hc (by rw [hk]; rfl) (by decide))).mono ?_
  rintro _ ⟨x, hx, rfl⟩
  exact isPlain_line (by simp [isPlain_text, hx])

/-- A conditional gives output that holds only texts, with an alternative or without. -/
theorem gives_plain_ifStatement (hindent : indent.isWhole = true) (hk : n.kind = .ifStatement) :
    (ifStatement indent view n).Gives fun x => x.isPlain = true := by
  refine (gives_ifStatement view (h.one hn hc (by rw [hk]; rfl) (by decide))
    (h.one hn hc (by rw [hk]; rfl) (by decide))
    (h.maybe hn hc (by rw [hk]; rfl) (by decide))).mono ?_
  rintro _ ⟨x, y, hx, hy, hr⟩
  dsimp only at hr
  have hthen : (withBody indent [.text "if (", x, .text ") "] (n.get .thenStatement) y).isPlain =
      true :=
    isPlain_withBody hindent (by simp [isPlain_text, hx]) hy
  rcases hr with ⟨-, rfl⟩ | ⟨z, hz, alternative, halternative, rfl⟩
  · exact hthen
  · have : alternative.isPlain = true := by
      rcases halternative with ⟨-, rfl⟩ | ⟨-, rfl⟩
      · exact isPlain_line (by simp [isPlain_text, hz])
      · exact isPlain_withBody hindent (by simp [isPlain_text]) hz
    exact isPlain_tree.2 ⟨by simp, by simp [hthen, this], rfl⟩

/-- A loop gives output that holds only texts, whatever its head declares. -/
theorem gives_plain_forOfStatement (hindent : indent.isWhole = true)
    (hk : n.kind = .forOfStatement) :
    (forOfStatement indent view n).Gives fun x => x.isPlain = true := by
  obtain ⟨m, hm, hmall, -⟩ :=
    Node.one_of_all (fun _ h => h) hn (f := .initializer) (by rw [hk]; rfl)
  have hvariable : (loopVariable (n.get .initializer)).Gives (Value.IsWord anyText) := by
    rw [hm]
    refine gives_loopVariable trivial fun hlist => ?_
    refine declarations_of_all (fun _ h => h) hmall hlist fun name hname _ => ?_
    obtain ⟨s, hs⟩ := exists_text hname
    exact ⟨s, hs, trivial⟩
  refine (gives_forOfStatement view hvariable (h.one hn hc (by rw [hk]; rfl) (by decide))
    (h.one hn hc (by rw [hk]; rfl) (by decide))).mono ?_
  rintro _ ⟨s, x, y, -, hx, hy, rfl⟩
  exact isPlain_withBody hindent (by simp [isPlain_text, hx]) hy

/-- A class or an interface, with its members in a context of their own. -/
theorem gives_plain_declaration (hindent : indent.isWhole = true) {word : String} {inside : Flags}
    (hinside : HasClassName inside) {kinds : List Kind}
    (hname : Grammar.source.content? n.kind .name = some (.one [.identifier]))
    (hheritage : Grammar.source.content? n.kind .heritageClauses = some (.many [.heritageClause]))
    (hmembers : Grammar.source.content? n.kind .members = some (.many kinds))
    (hkinds : ∀ k ∈ kinds, k ∉ Kind.inner) :
    (declaration indent word view (view.withContext inside) n).Gives
      fun x => x.isPlain = true := by
  have extended : (heritage view n).Gives fun front => front = [] ∨
      ∃ xs : List Fragment, (∀ x ∈ xs, x.isPlain = true) ∧
        front = [.text " : ", Fragment.separated ", " xs] :=
    heritage_of_all h (fun _ h => h) hn hheritage
      (fun m hm hk => ⟨⟨hm, expression_not_inner hk⟩, hc⟩) fun _ _ _ hx => hx
  refine (gives_declaration view (h.one hn hc hname (by decide)) extended
    (h.all hn hinside hmembers hkinds)).mono ?_
  rintro _ ⟨x, front, ys, hx, hfront, hys, rfl⟩
  refine isPlain_tree.2 ⟨?_, hys, hindent⟩
  rcases hfront with rfl | ⟨xs, hxs, rfl⟩
  · simp [isPlain_text, hx]
  · simp [isPlain_text, hx, isPlain_separated hxs]

/-- A class gives output that holds only texts: its name has a source text. -/
theorem gives_plain_classDeclaration (hindent : indent.isWhole = true)
    (hk : n.kind = .classDeclaration) :
    (classDeclaration indent view n).Gives fun x => x.isPlain = true := by
  obtain ⟨name, hname, hnall, -⟩ :=
    Node.one_of_all (fun _ h => h) hn (f := .name) (by rw [hk]; rfl)
  obtain ⟨s, hs⟩ := exists_text hnall
  unfold classDeclaration
  refine Run.gives_bind_ofExcept (hname ▸ hs) ?_
  exact gives_plain_declaration h hn hc hindent (Or.inr ⟨s, rfl, trivial⟩) (by rw [hk]; rfl)
    (by rw [hk]; rfl) (by rw [hk]; rfl) (by decide)

/-- An interface of either sort gives output that holds only texts. -/
theorem gives_plain_interfaceDeclaration (hindent : indent.isWhole = true)
    (hk : n.kind = .interfaceDeclaration) :
    (Dispatch.interface (dataInterface indent) (behaviourInterface indent) view n).Gives
      fun x => x.isPlain = true := by
  obtain ⟨vs, hvs, -⟩ := Node.many_of_all (fun _ h => h) hn (f := .members) (by rw [hk]; rfl)
  have declared (word : String) (data : Bool) :
      (declaration indent word view (inInterface view data) n).Gives fun x => x.isPlain = true :=
    gives_plain_declaration h hn hc hindent hc (by rw [hk]; rfl) (by rw [hk]; rfl)
      (by rw [hk]; rfl) (by decide)
  exact Dispatch.gives_interface view hvs (declared "class " true) (declared "interface " false)

variable (hchecker : view.checker.IsTabled)
include hchecker

/-- A function or a method gives output that holds only texts: the type of its annotation has a
spelling. -/
theorem gives_plain_function
    (hname : Grammar.source.content? n.kind .name = some (.one [.identifier]))
    (hparameters : Grammar.source.content? n.kind .parameters = some (.many [.parameter]))
    (htype : Grammar.source.content? n.kind .type = some (.maybe [.typeNode]))
    (hbody : Grammar.source.content? n.kind .body = some (.maybe [.block])) :
    (function view n).Gives fun x => x.isPlain = true := by
  refine gives_function view typeWords_anyText
    (knowsIfAny_of_maybe (fun _ h => h) (fun _ hm => hchecker.knows hm) hn htype)
    (h.one hn hc hname (by decide)) fun x w hx _ => ?_
  exact gives_plain_signature h hn hc (by simp [isPlain_text, hx]) hparameters hbody

/-- A parameter gives output that holds only texts. -/
theorem gives_plain_parameter (hk : n.kind = .parameter) :
    (parameter view n).Gives fun x => x.isPlain = true := by
  have knows {f : Field} {kinds : List Kind}
      (hf : Grammar.source.content? n.kind f = some (.maybe kinds)) :=
    knowsIfAny_of_maybe (fun _ h => h) (fun _ hm => hchecker.knows hm) hn hf
  refine (gives_parameter view typeWords_anyText (knows (by rw [hk]; rfl))
    (knows (by rw [hk]; rfl)) (h.one hn hc (by rw [hk]; rfl) (by decide))
    (h.maybe hn hc (by rw [hk]; rfl) (by decide))).mono ?_
  rintro _ ⟨w, x, default, -, hx, hdefault, rfl⟩
  refine isPlain_row ?_
  rcases hdefault with rfl | rfl | ⟨y, hy, rfl⟩
  · simp [isPlain_text, hx]
  · simp [isPlain_text, hx]
  · simp [isPlain_text, hx, hy]

/-- A cast gives output that holds only texts. -/
theorem gives_plain_asExpression (hk : n.kind = .asExpression) :
    (asExpression view n).Gives fun x => x.isPlain = true := by
  refine (gives_asExpression view typeWords_anyText
    (knowsIfAny_of_one (fun _ h => h) (fun _ hm => hchecker.knows hm) hn (by rw [hk]; rfl))
    (h.one hn hc (by rw [hk]; rfl) (by decide))).mono ?_
  rintro _ ⟨w, x, -, hx, rfl⟩
  exact isPlain_row (by simp [isPlain_text, hx])

/-- An object literal gives output that holds only texts, whatever type the checker has for it. -/
theorem gives_plain_objectLiteral (hindent : indent.isWhole = true)
    (hk : n.kind = .objectLiteralExpression) :
    (Dispatch.objectLiteral (structLiteral indent) (keyedLiteral indent) (untypedLiteral indent)
      view n).Gives fun x => x.isPlain = true := by
  obtain ⟨t?, ht, hnamed⟩ := (hchecker.knows hn).expression
  have concrete : ∀ t ∈ t?.bind Ty.concrete?, t.Named anyText := by
    intro t htc
    obtain ⟨u, hu, hut⟩ := Option.bind_eq_some_iff.1 htc
    exact (hnamed u hu).concrete hut
  have element : ∀ t : Ty, t.Named anyText → ∀ e ∈ t.element?, e.Named anyText := by
    intro t hnamed e he
    cases t <;> simp only [Ty.element?, Option.mem_def, reduceCtorEq, Option.some.injEq] at he
    subst he
    exact hnamed.map
  have parts {c : Flags} (hc : HasClassName c) :
      ((view.withContext c).convertAll (n.get .properties)).Gives
        fun xs => ∀ x ∈ xs, x.isPlain = true :=
    h.all hn hc (by rw [hk]; rfl) (by decide)
  refine Dispatch.gives_objectLiteral view ht (fun t htc => ?_) (fun t htc => ?_) ?_
  · refine (gives_structLiteral view typeWords_anyText (concrete t htc) (parts hc)).mono ?_
    rintro _ ⟨s, xs, -, hxs, rfl⟩
    exact isPlain_initializerList hindent hxs
  · refine (gives_keyedLiteral view typeWords_anyText (element t (concrete t htc))
      (parts hc)).mono ?_
    rintro _ ⟨s, xs, -, hxs, rfl⟩
    exact isPlain_initializerList hindent hxs
  · refine (gives_untypedLiteral view typeWords_anyText (parts hc) (parts hc)).mono ?_
    rintro _ ⟨s, xs, -, hxs, rfl⟩
    exact isPlain_initializerList hindent hxs

/-- A declaration of a variable gives output that holds only texts. -/
theorem gives_plain_variableDeclaration (hk : n.kind = .variableDeclaration) :
    (variableDeclaration view n).Gives fun x => x.isPlain = true := by
  have knows {f : Field} {kinds : List Kind}
      (hf : Grammar.source.content? n.kind f = some (.maybe kinds)) :=
    knowsIfAny_of_maybe (fun _ h => h) (fun _ hm => hchecker.knows hm) hn hf
  have hvalue : n.get .initializer = .null ∨
      ((asInitializer view).convert (n.get .initializer)).Gives fun x => x.isPlain = true :=
    h.maybe (c := (asInitializer view).context) hn hc (by rw [hk]; rfl) (by decide)
  refine (gives_variableDeclaration view typeWords_anyText (knows (by rw [hk]; rfl))
    (knows (by rw [hk]; rfl)) (h.one hn hc (by rw [hk]; rfl) (by decide)) hvalue).mono ?_
  rintro _ ⟨w, x, -, hx, rfl | ⟨y, hy, rfl⟩⟩
  · exact isPlain_line (by simp [isPlain_text, hx])
  · exact isPlain_line (by simp [isPlain_text, hx, hy])

/-- A property of an interface gives output that holds only texts. -/
theorem gives_plain_propertySignature (hk : n.kind = .propertySignature) :
    (propertySignature view n).Gives fun x => x.isPlain = true := by
  refine (gives_propertySignature view typeWords_anyText
    (knowsIfAny_of_maybe (fun _ h => h) (fun _ hm => hchecker.knows hm) hn (by rw [hk]; rfl))
    (h.one hn hc (by rw [hk]; rfl) (by decide))).mono ?_
  rintro _ ⟨w, x, -, hx, rfl | rfl⟩
  · exact isPlain_line (by simp [isPlain_text, hx])
  · exact isPlain_line (by simp [isPlain_text, hx])

/-- A method of an interface gives output that holds only texts. -/
theorem gives_plain_methodSignature (hk : n.kind = .methodSignature) :
    (methodSignature view n).Gives fun x => x.isPlain = true := by
  refine (gives_methodSignature view typeWords_anyText
    (knowsIfAny_of_maybe (fun _ h => h) (fun _ hm => hchecker.knows hm) hn (by rw [hk]; rfl))
    (h.one hn hc (by rw [hk]; rfl) (by decide)) (h.all hn hc (by rw [hk]; rfl) (by decide))).mono ?_
  rintro _ ⟨w, x, ys, -, hx, hys, rfl⟩
  exact isPlain_line (by simp [isPlain_text, hx, isPlain_separated hys])

/-- A property of a class gives output that holds only texts. -/
theorem gives_plain_propertyDeclaration (hk : n.kind = .propertyDeclaration) :
    (propertyDeclaration view n).Gives fun x => x.isPlain = true := by
  have knows {f : Field} {kinds : List Kind}
      (hf : Grammar.source.content? n.kind f = some (.maybe kinds)) :=
    knowsIfAny_of_maybe (fun _ h => h) (fun _ hm => hchecker.knows hm) hn hf
  refine (gives_propertyDeclaration view typeWords_anyText (knows (by rw [hk]; rfl))
    (knows (by rw [hk]; rfl)) (h.one hn hc (by rw [hk]; rfl) (by decide))
    (h.maybe hn hc (by rw [hk]; rfl) (by decide))).mono ?_
  rintro _ ⟨w, x, value, -, hx, hvalue, rfl⟩
  refine isPlain_line ?_
  rcases hvalue with rfl | ⟨y, hy, rfl⟩
  · simp [isPlain_text, hx]
  · simp [isPlain_text, hx, hy]

end

/-- Every C# rule gives output that holds only texts. -/
theorem gives_plain (h : RendersPlain HasClassName view.convertIn n) (hn : n.IsRendered)
    (hc : HasClassName view.context) (hchecker : view.checker.IsTabled)
    (hindent : indent.isWhole = true) : ∃ rule, rule? indent n.kind = some rule ∧
      (rule view n).Gives fun x => x.isPlain = true := by
  obtain ⟨hn, hinner⟩ := hn
  have texts (hf : Grammar.source.content? n.kind .text = some .text) :
      ∃ s, n.get .text = .text s :=
    Node.text_of_isShaped (Node.isShaped_of_all (fun _ h => h) hn) hf
  have written {x : Fragment} {s : String} (hx : x = row [.text s]) : x.isPlain = true :=
    hx ▸ isPlain_row (by simp [isPlain_text])
  by_cases hshared : n.kind ∈ Neutral.shared
  · obtain ⟨rule, hrule, hgives⟩ := Neutral.gives_plain_shared name h hn hc hshared
    refine ⟨rule, ?_, hgives⟩
    rw [← hrule]
    exact rule?_of_shared indent hshared
  cases hk : n.kind
  case identifier =>
    obtain ⟨s, hs⟩ := texts (by rw [hk]; rfl)
    exact ⟨_, rfl, (gives_identifier view hs).mono fun _ => written⟩
  case stringLiteral =>
    obtain ⟨s, hs⟩ := texts (by rw [hk]; rfl)
    exact ⟨_, rfl, (gives_stringLiteral view hs).mono fun _ => written⟩
  case noSubstitutionTemplateLiteral =>
    obtain ⟨s, hs⟩ := texts (by rw [hk]; rfl)
    exact ⟨_, rfl, (gives_quotedText view hs).mono fun _ => written⟩
  case templateExpression =>
    obtain ⟨head, hhead⟩ := Node.text_of_isShaped (Node.isShaped_of_all (fun _ h => h) hn)
      (f := .head) (by rw [hk]; rfl)
    obtain ⟨vs, hvs, hall⟩ := spans_of_all (P := anyText) (R := anyText) (fun _ h => h) hn hk
      (fun m hm _ => (exists_text hm).imp fun _ hs => ⟨hs, trivial⟩) fun _ _ _ _ _ => trivial
    refine ⟨_, rfl, (gives_templateExpression view hhead hvs hall).mono ?_⟩
    rintro _ ⟨spans, -, rfl⟩
    exact written rfl
  case functionDeclaration | methodDeclaration =>
    exact ⟨_, rfl, gives_plain_function h hn hc hchecker (by rw [hk]; rfl) (by rw [hk]; rfl)
      (by rw [hk]; rfl) (by rw [hk]; rfl)⟩
  case constructor => exact ⟨_, rfl, gives_plain_constructor h hn hc hk⟩
  case parameter => exact ⟨_, rfl, gives_plain_parameter h hn hc hchecker hk⟩
  case callExpression => exact ⟨_, rfl, gives_plain_callExpression h hn hc hk⟩
  case propertyAccessExpression => exact ⟨_, rfl, gives_plain_propertyAccess h hn hc hk⟩
  case asExpression => exact ⟨_, rfl, gives_plain_asExpression h hn hc hchecker hk⟩
  case arrayLiteralExpression => exact ⟨_, rfl, gives_plain_arrayLiteral h hn hc hindent hk⟩
  case objectLiteralExpression =>
    exact ⟨_, rfl, gives_plain_objectLiteral h hn hc hchecker hindent hk⟩
  case propertyAssignment | shorthandPropertyAssignment =>
    exact ⟨_, rfl, gives_plain_assignment h hn hc (by rw [hk]; rfl) (by rw [hk]; rfl) (by decide)
      (by decide)⟩
  case block => exact ⟨_, rfl, gives_plain_blockStatement h hn hc hindent hk⟩
  case expressionStatement => exact ⟨_, rfl, gives_plain_expressionStatement h hn hc hk⟩
  case ifStatement => exact ⟨_, rfl, gives_plain_ifStatement h hn hc hindent hk⟩
  case forOfStatement => exact ⟨_, rfl, gives_plain_forOfStatement h hn hc hindent hk⟩
  case variableDeclaration => exact ⟨_, rfl, gives_plain_variableDeclaration h hn hc hchecker hk⟩
  case classDeclaration => exact ⟨_, rfl, gives_plain_classDeclaration h hn hc hindent hk⟩
  case interfaceDeclaration => exact ⟨_, rfl, gives_plain_interfaceDeclaration h hn hc hindent hk⟩
  case propertySignature => exact ⟨_, rfl, gives_plain_propertySignature h hn hc hchecker hk⟩
  case methodSignature => exact ⟨_, rfl, gives_plain_methodSignature h hn hc hchecker hk⟩
  case propertyDeclaration => exact ⟨_, rfl, gives_plain_propertyDeclaration h hn hc hchecker hk⟩
  case typeNode | heritageClause | templateSpan => exact absurd (hk ▸ hinner) (by decide)
  all_goals exact absurd (hk ▸ hshared) (by decide)

end CSharp

/-! ### Whole trees -/

namespace Backend

variable {C : Type} {backend : Backend C} {checker : Checker} {root : Value}

/-- A backend renders a tree without a fault: what comes out holds only texts, and the rendering is
what it writes. -/
def Finishes (backend : Backend C) (checker : Checker) (root : Value) : Prop :=
  ∃ f, (backend.convert checker backend.initial root).outcome = .ok f ∧ f.isPlain = true ∧
    backend.render checker root =
      .ok ⟨f.render, (backend.convert checker backend.initial root).reports⟩

/-- Where output holds only texts, the rendering ends with a text. -/
theorem finishes_of_gives (h : (backend.convert checker backend.initial root).Gives
    fun x => x.isPlain = true) : backend.Finishes checker root := by
  obtain ⟨f, hf, hplain⟩ := h
  refine ⟨f, hf, hplain, ?_⟩
  have houtput := f.output_of_isPlain hplain
  unfold render
  dsimp only
  rw [hf]
  change (f.output >>= fun text => pure (⟨text, _⟩ : Rendering)) = _
  rw [houtput]
  rfl

end Backend

variable {root : Value} {checker : Checker}

/-- The neutral backend renders every program. -/
theorem Neutral.finishes (name : String) {n : Node} (hn : n.IsRendered)
    (hchecker : checker.IsTabled) : (Neutral.backend name).Finishes checker n.toValue := by
  refine Backend.finishes_of_gives ?_
  refine Backend.convert_gives (fun _ m => m.IsRendered ∧ True) (fun _ _ x => x.isPlain = true) ?_
    ⟨hn, trivial⟩
  intro c m f hm ih
  have hview : RendersPlain (fun _ => True) (View.mk c checker f).convertIn m := ih
  obtain ⟨rule, hrule, hgives⟩ := Neutral.gives_plain name hview hm.1 trivial hchecker
  unfold Backend.visit
  rw [show (Neutral.backend name).rule? m.kind = some rule from hrule]
  exact hgives

/-- The C# backend renders every node of a program, wherever constructors have a name. -/
theorem CSharp.gives_plain_convert {indent : Layout.Indent} (hindent : indent.isWhole = true)
    (preferStruct : Data) {n : Node} (hn : n.IsRendered) {c : CSharp.Flags}
    (hc : CSharp.HasClassName c) (hchecker : checker.IsTabled) :
    ((CSharp.backend indent preferStruct).convert checker c n.toValue).Gives
      fun x => x.isPlain = true := by
  refine Backend.convert_gives (fun c m => m.IsRendered ∧ CSharp.HasClassName c)
    (fun _ _ x => x.isPlain = true) ?_ ⟨hn, hc⟩
  intro c m f hm ih
  have hview : RendersPlain CSharp.HasClassName (View.mk c checker f).convertIn m := ih
  obtain ⟨rule, hrule, hgives⟩ := CSharp.gives_plain hview hm.1 hm.2 hchecker hindent
  unfold Backend.visit
  rw [show (CSharp.backend indent preferStruct).rule? m.kind = some rule from hrule]
  exact hgives

/-- The C# backend renders every program. -/
theorem CSharp.finishes {indent : Layout.Indent} (hindent : indent.isWhole = true)
    (preferStruct : Data) {n : Node} (hn : n.IsRendered) (hchecker : checker.IsTabled) :
    (CSharp.backend indent preferStruct).Finishes checker n.toValue :=
  Backend.finishes_of_gives
    (CSharp.gives_plain_convert hindent preferStruct hn (Or.inl rfl) hchecker)

namespace Target

/-- An option of the C# backend with a value that it understands: any datum says what object
literals become, and a whole number how deep lines are indented. -/
def IsOption (option : String × Data) : Prop :=
  option.1 = "prefer_object_literal_as_struct" ∨
    option.1 = "indent" ∧ ∃ k : Int, option.2 = .int k

/-- Options that are given as they should be are understood. -/
theorem ofMembers_ok {options : List (String × Data)} (h : ∀ o ∈ options, IsOption o) :
    ∃ o, Options.ofMembers options = .ok o ∧ o.indent.isWhole = true := by
  have fold : ∀ start : Options, start.indent.isWhole = true →
      ∃ o, options.foldlM Options.set start = .ok o ∧ o.indent.isWhole = true := by
    induction options with
    | nil => exact fun start hstart => ⟨start, rfl, hstart⟩
    | cons option options ih =>
      intro start hstart
      have hrest := ih fun o ho => h o (by simp [ho])
      have hset : ∃ next, start.set option = .ok next ∧ next.indent.isWhole = true := by
        obtain ⟨optionName, d⟩ := option
        rcases h (optionName, d) (by simp) with hname | ⟨hname, k, hk⟩
        · dsimp only at hname
          subst hname
          exact ⟨_, rfl, hstart⟩
        · dsimp only at hname hk
          subst hname hk
          exact ⟨_, rfl, rfl⟩
      obtain ⟨next, hnext, hwhole⟩ := hset
      obtain ⟨o, ho, hindent⟩ := hrest next hwhole
      refine ⟨o, ?_, hindent⟩
      rw [List.foldlM_cons, hnext]
      exact ho
  exact fold {} rfl

/-- Options that are given as they should be indent by a whole number of blanks. -/
theorem isWhole_of_ofMembers {options : List (String × Data)} {o : Options}
    (h : ∀ o ∈ options, IsOption o) (ho : Options.ofMembers options = .ok o) :
    o.indent.isWhole = true := by
  obtain ⟨o', ho', hindent⟩ := ofMembers_ok h
  obtain rfl : o' = o := Except.ok.inj (ho'.symm.trans ho)
  exact hindent

/-- The C# backend is there for all options that are understood. -/
theorem backend_ok {options : List (String × Data)} {o : Options}
    (ho : Options.ofMembers options = .ok o) :
    backend (.text CSharp.name) options = .ok (CSharp.backend o.indent o.preferStruct) := by
  unfold backend
  dsimp only
  rw [if_pos rfl, ho]
  rfl

/-- No option of the C# backend has a name that is reserved. -/
theorem render_eq {options : List (String × Data)} (hoptions : ∀ o ∈ options, IsOption o)
    {o : Options} (ho : Options.ofMembers options = .ok o) :
    render (.text CSharp.name) options checker root =
      (CSharp.backend o.indent o.preferStruct).render checker root := by
  have hreserved : options.any (reserved.contains ·.1) = false := by
    rw [List.any_eq_false]
    intro option hmem
    rcases hoptions option hmem with h | ⟨h, -⟩
    · rw [h]
      decide
    · rw [h]
      decide
  unfold render
  rw [hreserved, backend_ok ho]
  rfl

end Target

/-- Every program is rendered by both backends: a tree as the grammar says, whose root is no
annotation, heritage clause or span of a template, with any types and any tables of types, with any
whole number as indentation and any preference for structs. No node without a rule is met, which
would be a fault, and nothing comes out that cannot be written. -/
theorem exists_rendering {options : List (String × Data)} (hroot : root.IsShaped .source)
    (hkind : ∀ k ∈ root.kind?, k ∉ Kind.inner) (hchecker : checker.IsTabled)
    (hoptions : ∀ o ∈ options, Target.IsOption o) (name : String) :
    (∃ backend, Target.backend (.text CSharp.name) options = .ok backend ∧
      backend.Finishes checker root ∧
      Target.render (.text CSharp.name) options checker root = backend.render checker root) ∧
    (Neutral.backend name).Finishes checker root := by
  obtain ⟨hnode, hall⟩ := hroot
  obtain ⟨n, hn⟩ : ∃ n, root.node? = some n := by
    cases h : root.node? with
    | none => simp [Value.kind?, h] at hnode
    | some n => exact ⟨n, rfl⟩
  obtain rfl := Value.toValue_of_node? hn
  have hrendered : n.IsRendered := ⟨hall, hkind n.kind rfl⟩
  obtain ⟨o, ho, hindent⟩ := Target.ofMembers_ok hoptions
  refine ⟨⟨_, Target.backend_ok ho, CSharp.finishes hindent o.preferStruct hrendered hchecker, ?_⟩,
    Neutral.finishes name hrendered hchecker⟩
  exact Target.render_eq hoptions ho

/-- A node of which nothing is recorded but what its fields hold. -/
def Value.bare (kind : Kind) (fields : List Value) : Value :=
  .node kind .unknown (.text "") none fields

/-- The program of one class with a method that prints its argument in a template, annotated with a
union that no backend can express. -/
def greeter : Value :=
  let identifier (s : String) := Value.bare .identifier [.text s]
  let annotation : Value := .node .typeNode ⟨2, 9⟩ (.text "string | number")
    (some (.union [.primitive (.text "string"), .primitive (.text "number")])) []
  let call := Value.bare .callExpression [
    .bare .propertyAccessExpression [identifier "console", identifier "log"],
    .list [.bare .templateExpression [.text "Hi ",
      .list [.bare .templateSpan [identifier "name", .text "!"]]]]]
  .bare .sourceFile [
    .list [.bare .classDeclaration [identifier "Greeter", .list [],
      .list [.bare .methodDeclaration [identifier "greet",
        .list [.bare .parameter [identifier "name", annotation, .null, .bool false]], .null,
        .bare .block [.list [.bare .expressionStatement [call]]]]]]],
    .text "greeter.ts"]

/-- The class of the greeter is rendered by both backends, by the first with lines moved to the
left. -/
theorem exists_rendering_greeter :
    greeter.IsShaped .source ∧
    (∃ backend, Target.backend (.text CSharp.name) [("indent", .int (-2))] = .ok backend ∧
      backend.Finishes .recorded greeter ∧
      Target.render (.text CSharp.name) [("indent", .int (-2))] .recorded greeter =
        backend.render .recorded greeter) ∧
    (Neutral.backend "default").Finishes .recorded greeter := by
  have hshaped : greeter.IsShaped .source := by decide
  have hoptions : ∀ o ∈ [("indent", Data.int (-2))], Target.IsOption o := by
    rintro o ho
    obtain rfl := List.mem_singleton.1 ho
    exact Or.inr ⟨rfl, -2, rfl⟩
  exact ⟨hshaped, exists_rendering hshaped (by decide) (Or.inl rfl) hoptions "default"⟩

end CodeSample

import CodeSample.Proofs.CSharpOutput
import CodeSample.Proofs.SourceText

/-!
# The parts of a node that are rendered

What is known of the output of the nodes in the fields of a node, while the tree below it is
rendered as it should be. A tree is known by a check which all its nodes pass and which implies that
they are shaped; whether a node may be met in a context is said by a relation, and what its output
is by another.

* `Renders` says that all less deep nodes are rendered as they should be;
* `Renders.one`, `Renders.maybe`, `Renders.all`: then so is what stands in a field;
* `knowsIfAny_of_maybe`: a checker that knows all nodes of the tree knows what stands in a field.
-/

namespace CodeSample

open Layout (Fragment)

variable {C : Type} {p : Node → Bool} {n : Node} {field : Field} {kinds : List Kind}

/-- Every node that is less deep than a given one is rendered as it should be, in every context in
which it may be met. -/
def Renders (convertIn : C → Value → Run Fragment) (Pre : C → Node → Prop)
    (Post : C → Node → Fragment → Prop) (n : Node) : Prop :=
  ∀ c m, Pre c m → m.toValue.depth < n.toValue.depth → (convertIn c m.toValue).Gives (Post c m)

namespace Renders

variable {convertIn : C → Value → Run Fragment} {Pre : C → Node → Prop}
  {Post : C → Node → Fragment → Prop} {A : Fragment → Prop} {c : C} {checker : Checker}

section

variable (h : Renders convertIn Pre Post n) (hp : ∀ m, p m = true → m.isShaped .source = true)
  (hn : n.toValue.all p = true)
include h hp hn

/-- The node in a field. -/
theorem one (hf : Grammar.source.content? n.kind field = some (.one kinds))
    (hpre : ∀ m : Node, m.toValue.all p = true → m.kind ∈ kinds → Pre c m)
    (hpost : ∀ m : Node, m.kind ∈ kinds → ∀ x, Post c m x → A x) :
    (convertIn c (n.get field)).Gives A := by
  obtain ⟨m, hm, hall, hk⟩ := Node.one_of_all hp hn hf
  have hlt := Value.depth_get_lt n field
  rw [hm] at hlt ⊢
  exact (h c m (hpre m hall hk) hlt).mono (hpost m hk)

/-- The node in a field that may hold none. -/
theorem maybe (hf : Grammar.source.content? n.kind field = some (.maybe kinds))
    (hpre : ∀ m : Node, m.toValue.all p = true → m.kind ∈ kinds → Pre c m)
    (hpost : ∀ m : Node, m.kind ∈ kinds → ∀ x, Post c m x → A x) :
    n.get field = .null ∨ (convertIn c (n.get field)).Gives A := by
  rcases Node.maybe_of_all hp hn hf with hnull | ⟨m, hm, hall, hk⟩
  · exact Or.inl hnull
  · right
    have hlt := Value.depth_get_lt n field
    rw [hm] at hlt ⊢
    exact (h c m (hpre m hall hk) hlt).mono (hpost m hk)

/-- The nodes in a field that holds a list. -/
theorem all (hf : Grammar.source.content? n.kind field = some (.many kinds))
    (hpre : ∀ m : Node, m.toValue.all p = true → m.kind ∈ kinds → Pre c m)
    (hpost : ∀ m : Node, m.kind ∈ kinds → ∀ x, Post c m x → A x) :
    ((View.mk c checker convertIn).convertAll (n.get field)).Gives fun xs => ∀ x ∈ xs, A x := by
  obtain ⟨vs, hvs, hall⟩ := Node.many_of_all hp hn hf
  refine View.gives_convertAll hvs fun v hv => ?_
  obtain ⟨m, rfl, hm, hk⟩ := hall v hv
  have hlt : m.toValue.depth < n.toValue.depth := by
    have := Value.depth_get_lt n field
    rw [hvs, Value.depth] at this
    exact Nat.lt_of_le_of_lt (Value.depth_le_depthOf hv) this
  exact (h c m (hpre m hm hk) hlt).mono (hpost m hk)

end

end Renders

/-! ### What a checker knows of a tree -/

section

variable {checker : Checker} {Q : String → Prop}
variable (hp : ∀ m, p m = true → m.isShaped .source = true)
  (hknows : ∀ m : Node, m.toValue.all p = true → checker.Knows Q m) (hn : n.toValue.all p = true)
include hp hknows hn

/-- The node in a field for one node is known. -/
theorem knowsIfAny_of_one (hf : Grammar.source.content? n.kind field = some (.one kinds)) :
    checker.KnowsIfAny Q (n.get field) := by
  obtain ⟨m, hm, hall, -⟩ := Node.one_of_all hp hn hf
  exact Or.inr ⟨m, hm, hknows m hall⟩

/-- So is what stands in a field that may be null. -/
theorem knowsIfAny_of_maybe (hf : Grammar.source.content? n.kind field = some (.maybe kinds)) :
    checker.KnowsIfAny Q (n.get field) := by
  rcases Node.maybe_of_all hp hn hf with hnull | ⟨m, hm, hall, -⟩
  · exact Or.inl hnull
  · exact Or.inr ⟨m, hm, hknows m hall⟩

end

/-! ### Parts that stand deeper -/

namespace CSharp

section

variable (hp : ∀ m, p m = true → m.isShaped .source = true) (hn : n.toValue.all p = true)
  {P R : String → Prop}
include hp hn

/-- The spans of a template. -/
theorem spans_of_all (hk : n.kind = .templateExpression)
    (hsource : ∀ m : Node, m.toValue.all p = true → m.kind ∈ Kind.expressions →
      ∃ s, m.toValue.sourceText = .ok (.text s) ∧ P s)
    (hliteral : ∀ m, p m = true → m.kind = .templateSpan →
      ∀ s, m.get .literal = .text s → R s) :
    ∃ vs, n.get .spans = .list vs ∧ ∀ v ∈ vs, IsSpan P R v := by
  obtain ⟨vs, hvs, hall⟩ := Node.many_of_all hp hn (f := .spans) (by rw [hk]; rfl)
  refine ⟨vs, hvs, fun v hv => ?_⟩
  obtain ⟨m, rfl, hm, hmk⟩ := hall v hv
  have hmk : m.kind = .templateSpan := List.mem_singleton.1 hmk
  obtain ⟨e, he, heall, hek⟩ := Node.one_of_all hp hm (f := .expression) (by rw [hmk]; rfl)
  obtain ⟨literal, hl⟩ :=
    Node.text_of_isShaped (Node.isShaped_of_all hp hm) (f := .literal) (by rw [hmk]; rfl)
  obtain ⟨hole, hhole, hP⟩ := hsource e heall hek
  refine ⟨e.toValue, hole, literal, ?_, hhole, ?_, hP, ?_⟩
  · rw [Node.property_toValue (by rw [hmk]; rfl), he]
  · rw [Node.property_toValue (by rw [hmk]; rfl), hl]
  · exact hliteral m ((Value.all_toValue m).1 hm).1 hmk literal hl

/-- The declarations in the head of a loop. -/
theorem declarations_of_all (hk : n.kind = .variableDeclarationList)
    (hsource : ∀ m : Node, m.toValue.all p = true → m.kind = .identifier →
      ∃ s, m.toValue.sourceText = .ok (.text s) ∧ P s) :
    ∃ vs, n.get .declarations = .list vs ∧ ∀ v ∈ vs, ∃ name s, v.property .name = .ok name ∧
      name.sourceText = .ok (.text s) ∧ P s := by
  obtain ⟨vs, hvs, hall⟩ := Node.many_of_all hp hn (f := .declarations) (by rw [hk]; rfl)
  refine ⟨vs, hvs, fun v hv => ?_⟩
  obtain ⟨m, rfl, hm, hmk⟩ := hall v hv
  have hmk : m.kind = .variableDeclaration := List.mem_singleton.1 hmk
  obtain ⟨name, hname, hnall, hnk⟩ := Node.one_of_all hp hm (f := .name) (by rw [hmk]; rfl)
  obtain ⟨s, hs, hP⟩ := hsource name hnall (List.mem_singleton.1 hnk)
  refine ⟨name.toValue, s, ?_, hs, hP⟩
  rw [Node.property_toValue (by rw [hmk]; rfl), hname]

end

variable {convertIn : Flags → Value → Run Fragment} {Pre : Flags → Node → Prop}
  {Post : Flags → Node → Fragment → Prop} {A : Fragment → Prop} {c : Flags} {checker : Checker}

/-- The types that a class or an interface extends or implements. -/
theorem heritage_of_all (h : Renders convertIn Pre Post n)
    (hp : ∀ m, p m = true → m.isShaped .source = true) (hn : n.toValue.all p = true)
    (hf : Grammar.source.content? n.kind .heritageClauses = some (.many [.heritageClause]))
    (hpre : ∀ m : Node, m.toValue.all p = true → m.kind ∈ Kind.expressions → Pre c m)
    (hpost : ∀ m : Node, m.kind ∈ Kind.expressions → ∀ x, Post c m x → A x) :
    (heritage ⟨c, checker, convertIn⟩ n).Gives fun front => front = [] ∨ ∃ xs, (∀ x ∈ xs, A x) ∧
      front = [.text " : ", Fragment.separated ", " xs] := by
  obtain ⟨clauses, hclauses, hall⟩ := Node.many_of_all hp hn hf
  refine gives_heritage _ hclauses fun clause hclause => ?_
  obtain ⟨m, rfl, hm, hmk⟩ := hall clause hclause
  have hmk : m.kind = .heritageClause := List.mem_singleton.1 hmk
  obtain ⟨types, htypes, htall⟩ := Node.many_of_all hp hm (f := .types) (by rw [hmk]; rfl)
  refine ⟨types, ?_, fun t ht => ?_⟩
  · rw [Node.property_toValue (by rw [hmk]; rfl), htypes]
  obtain ⟨u, rfl, hu, huk⟩ := htall t ht
  have huk : u.kind = .expressionWithTypeArguments := List.mem_singleton.1 huk
  obtain ⟨e, he, heall, hek⟩ := Node.one_of_all hp hu (f := .expression) (by rw [huk]; rfl)
  refine ⟨e.toValue, ?_, ?_⟩
  · rw [Node.property_toValue (by rw [huk]; rfl), he]
  -- the expression is three steps below the node
  have hlt : e.toValue.depth < n.toValue.depth := by
    have h₁ := Value.depth_get_lt u .expression
    have h₂ := Value.depth_get_lt m .types
    have h₃ := Value.depth_get_lt n .heritageClauses
    have h₄ := Value.depth_le_depthOf ht
    have h₅ := Value.depth_le_depthOf hclause
    rw [he] at h₁
    rw [htypes, Value.depth] at h₂
    rw [hclauses, Value.depth] at h₃
    omega
  exact (h c e (hpre e heall hek) hlt).mono (hpost e hek)

end CSharp

end CodeSample

import CodeSample.Proofs.CSharpOutput
import CodeSample.Proofs.Calls
import CodeSample.Target.Locality

/-!
# The contexts that rules hand to parts

A rule of the C# backend renders most parts of its node in its own context, and some in a context
with one or two settings replaced. This is all that happens to a context on its way down a tree, so
whatever holds of the context at the root and is handed on by one step holds of every call.

* `Hands` are the contexts that the rule for a node may hand to what stands in one of its fields,
  with one constructor for each setting that is replaced;
* `visit_congr_of_hands`: a rule is determined by the calls in these contexts, and `hands_of_asks`:
  it makes no others;
* `exists_place_of_reaches`: a law for contexts and places that is handed on is obeyed by every call
  that a rendering makes.
-/

namespace CodeSample

open Layout (Fragment Indent)

/-- All fields are listed. -/
theorem Field.mem_all (f : Field) : f ∈ all := by cases f <;> decide

namespace CSharp

/-! ### One step -/

/-- The fields of a kind whose contents are rendered as the names of members. -/
def memberFields : Kind → List Field
  | .functionDeclaration | .methodDeclaration | .propertyAccessExpression | .propertySignature |
    .methodSignature | .propertyDeclaration => [.name]
  | .callExpression => [.expression]
  | _ => []

/-- The fields of a kind whose contents are not rendered in the context of the node: they have
contexts of their own, or are not rendered at all. -/
def ownFields : Kind → List Field
  | .propertyAccessExpression => [.expression]
  | .classDeclaration | .interfaceDeclaration => [.members]
  | .identifier | .stringLiteral | .propertySignature => Field.all
  | _ => []

/-- A context in which the rule for a node in a context may render a value in a field. -/
inductive Hands (c : Flags) (n : Node) : Field → Value → Flags → Prop where
  | same {field : Field} {v : Value} : field ∉ ownFields n.kind →
      (n.kind ∈ Kind.assignments → c.keyValue.truthy = false) → Hands c n field v c
  | member {field : Field} {v : Value} : field ∈ memberFields n.kind →
      Hands c n field v { c with memberPosition := .bool true }
  | receiver {v : Value} : n.kind = .propertyAccessExpression →
      Hands c n .expression v { c with memberPosition := .bool false }
  | initializer {v : Value} : n.kind = .variableDeclaration →
      Hands c n .initializer v { c with preferStruct := .bool false }
  | pair {vs : List Value} {v : Value} : n.kind = .objectLiteralExpression →
      (n.get .properties).items = .ok vs → v ∈ vs →
      Hands c n .properties v { c with keyValue := .bool true }
  | pairKey {v : Value} : n.kind ∈ Kind.assignments → c.keyValue.truthy = true →
      Hands c n .name v { c with memberPosition := .bool false, identifierAsString := .bool true }
  | pairValue (field : Field) {v : Value} : n.kind ∈ Kind.assignments → c.keyValue.truthy = true →
      Hands c n field v { c with keyValue := .bool false }
  | propertyName {v : Value} : n.kind ∈ Kind.assignments → c.keyValue.truthy = false →
      Hands c n .name v { c with memberPosition := .bool true, stringAsIdentifier := .bool true }
  | inClass {v name : Value} : n.kind = .classDeclaration → (n.get .name).sourceText = .ok name →
      Hands c n .members v { c with className := name }
  | inInterface {v : Value} {data : Bool} : n.kind = .interfaceDeclaration →
      Dispatch.isDataInterface n = .ok data →
      Hands c n .members v { c with dataInterface := .bool data }

/-- Nothing is rendered below names and string literals. -/
theorem Hands.kind_not_mem {c d : Flags} {n : Node} {field : Field} {v : Value}
    (h : Hands c n field v d) : n.kind ∉ [.identifier, .stringLiteral] := by
  have hnone : ∀ k ∈ [Kind.identifier, .stringLiteral],
      ownFields k = Field.all ∧ memberFields k = [] ∧ k ∉ Kind.assignments := by decide
  intro hk
  obtain ⟨hown, hmember, hassignment⟩ := hnone _ hk
  cases h with
  | same hfield _ => exact hfield (hown ▸ field.mem_all)
  | member hfield =>
    rw [hmember] at hfield
    cases hfield
  | pairKey hkind _ | pairValue _ hkind _ | propertyName hkind _ => exact hassignment hkind
  | receiver hkind | initializer hkind | pair hkind _ _ | inClass hkind _ | inInterface hkind _ =>
    rw [hkind] at hk
    exact absurd hk (by decide)

/-- The kinds of assignments, and those with fields that are not rendered in the context of the
node. -/
def settingKinds : List Kind := [.identifier, .stringLiteral, .propertySignature,
  .propertyAccessExpression, .propertyAssignment, .shorthandPropertyAssignment, .classDeclaration,
  .interfaceDeclaration]

/-- A rule that makes no settings hands its own context to all parts. -/
theorem Hands.same_of_not_mem {c : Flags} {n : Node} (hk : n.kind ∉ settingKinds) (field : Field)
    (v : Value) : Hands c n field v c := by
  have hamong : ∀ k ∈ Kind.assignments, k ∈ settingKinds := by decide
  have hown : ∀ k ∈ Kind.all, k ∉ settingKinds → ownFields k = [] := by decide
  refine .same ?_ fun hassignment => absurd (hamong _ hassignment) hk
  rw [hown _ n.kind.mem_all hk]
  exact List.not_mem_nil

/-! ### Rules are determined by the calls in these contexts -/

section

variable {c : Flags} {n : Node} {checker : Checker} {indent : Indent}
  {f g : Flags → Value → Run Fragment}

/-- What a class or an interface extends is rendered by the calls for the types in its clauses. -/
theorem heritage_congr_of_holds
    (h : ∀ v, n.Holds .heritageClauses v → f c v = g c v) :
    heritage ⟨c, checker, f⟩ n = heritage ⟨c, checker, g⟩ n := by
  unfold heritage
  refine Run.bind_congr fun clauses hclauses => ?_
  have hclauses : (n.get .heritageClauses).items = .ok clauses := hclauses
  have hmap : clauses.mapM (heritageClause ⟨c, checker, f⟩) =
      clauses.mapM (heritageClause ⟨c, checker, g⟩) := by
    refine Run.mapM_congr fun clause hclause => ?_
    unfold heritageClause
    refine Run.bind_congr fun types htypes => Run.bind_congr fun ts hts => ?_
    refine Run.mapM_congr fun t ht => ?_
    unfold heritageType
    exact Run.bind_congr fun e he => h e (.extended hclauses hclause htypes hts ht he)
  rw [hmap]

/-- Two ways of rendering parts agree on the calls in the contexts that the rule for a node hands
to them. -/
def AgreeOn (c : Flags) (n : Node) (f g : Flags → Value → Run Fragment) : Prop :=
  ∀ (field : Field) (v : Value) (d : Flags), n.Holds field v → Hands c n field v d → f d v = g d v

namespace AgreeOn

variable (h : AgreeOn c n f g)
include h

/-- They agree on what stands in a field. -/
theorem convert {d : Flags} {field : Field} (hd : Hands c n field (n.get field) d) :
    f d (n.get field) = g d (n.get field) :=
  h field _ d (.content field) hd

/-- And on the items of what stands there. -/
theorem convertAll {d : Flags} {field : Field}
    (hd : ∀ vs, (n.get field).items = .ok vs → ∀ v ∈ vs, Hands c n field v d) :
    (View.mk d checker f).convertAll (n.get field) =
      (View.mk d checker g).convertAll (n.get field) := by
  unfold View.convertAll
  refine Run.bind_congr fun vs hvs => Run.mapM_congr fun v hv => ?_
  have hvs : (n.get field).items = .ok vs := hvs
  exact h field v d (.item hvs hv) (hd vs hvs v hv)

/-- Kinds that the neutral backend renders alike. -/
theorem neutral_congr {rule : Rule Flags} (hk : n.kind ∈ Neutral.shared)
    (hr : Neutral.rule? name n.kind = some rule) :
    rule ⟨c, checker, f⟩ n = rule ⟨c, checker, g⟩ n := by
  have hother : ∀ k ∈ Neutral.shared, k ∉ settingKinds := by decide
  have same := Hands.same_of_not_mem (c := c) (hother _ hk)
  have one (field : Field) : f c (n.get field) = g c (n.get field) := h.convert (same field _)
  have all (field : Field) : (View.mk c checker f).convertAll (n.get field) =
      (View.mk c checker g).convertAll (n.get field) := h.convertAll fun _ _ v _ => same field v
  cases hkind : n.kind <;> rw [hkind] at hk hr <;> first | exact absurd hk (by decide) | skip
  all_goals simp only [Neutral.rule?, Option.some.injEq] at hr
  all_goals subst hr
  all_goals first
    | rfl
    | simp only [Neutral.conditional, Neutral.binary, Neutral.blockOf, Neutral.through,
        Neutral.newExpression, Neutral.elementAccess, Neutral.prefixUnary, Neutral.parenthesized,
        Neutral.returnStatement, View.convert, one, all]

/-- Kinds whose parts may all be rendered in the context of the node. -/
theorem rule_congr_plain {rule : Rule Flags} (hk : n.kind ∉ Neutral.shared)
    (hk' : n.kind ∉ settingKinds) (hr : rule? indent n.kind = some rule) :
    rule ⟨c, checker, f⟩ n = rule ⟨c, checker, g⟩ n := by
  have same := Hands.same_of_not_mem (c := c) hk'
  have one (field : Field) : f c (n.get field) = g c (n.get field) := h.convert (same field _)
  have all (field : Field) : (View.mk c checker f).convertAll (n.get field) =
      (View.mk c checker g).convertAll (n.get field) := h.convertAll fun _ _ v _ => same field v
  have member (field : Field) (hfield : field ∈ memberFields n.kind) :
      f { c with memberPosition := .bool true } (n.get field) =
        g { c with memberPosition := .bool true } (n.get field) := h.convert (.member hfield)
  have initializer (hkind : n.kind = .variableDeclaration) :
      f { c with preferStruct := .bool false } (n.get .initializer) =
        g { c with preferStruct := .bool false } (n.get .initializer) :=
    h.convert (.initializer hkind)
  cases hkind : n.kind <;> rw [hkind] at hk hk' hr member <;>
    first | exact absurd (by decide) hk | exact absurd (by decide) hk' | skip
  all_goals simp only [rule?, Neutral.rule?, Option.some.injEq, reduceCtorEq] at hr
  all_goals subst hr
  case functionDeclaration | methodDeclaration =>
    simp only [function, signature, asMember, View.withContext, View.convert, one, all,
      member .name (by decide)]
  case methodSignature =>
    simp only [methodSignature, asMember, View.withContext, View.convert, all,
      member .name (by decide)]
  case propertyDeclaration =>
    simp only [propertyDeclaration, initialValue, asMember, View.withContext, View.convert, one,
      member .name (by decide)]
  case callExpression =>
    simp only [Dispatch.call, printCall, regularCall, asMember, View.withContext, View.convert, all,
      member .expression (by decide)]
  case objectLiteralExpression =>
    have pairs : (amongPairs ⟨c, checker, f⟩).convertAll (n.get .properties) =
        (amongPairs ⟨c, checker, g⟩).convertAll (n.get .properties) :=
      h.convertAll (d := { c with keyValue := .bool true }) fun _ hvs _ hv => .pair hkind hvs hv
    simp only [Dispatch.objectLiteral, structLiteral, keyedLiteral, untypedLiteral, pairs, all]
  case variableDeclaration =>
    simp only [variableDeclaration, asInitializer, View.withContext, View.convert, one,
      initializer hkind]
  all_goals
    simp only [quotedText, templateExpression, constructor, signature, parameter,
      parameterDefault, asExpression, arrayLiteral, blockStatement, expressionStatement,
      ifStatement, forOfStatement, View.convert, one, all]

/-- Properties of interfaces, of which only the names are rendered. -/
theorem propertySignature_congr (hk : n.kind = .propertySignature) :
    propertySignature ⟨c, checker, f⟩ n = propertySignature ⟨c, checker, g⟩ n := by
  have name := h.convert (.member (by rw [hk]; exact List.mem_singleton.2 rfl))
  simp only [propertySignature, asMember, View.withContext, View.convert, name]

/-- Property accesses: the receiver is outside of the place of a member. -/
theorem propertyAccess_congr (hk : n.kind = .propertyAccessExpression) :
    propertyAccess ⟨c, checker, f⟩ n = propertyAccess ⟨c, checker, g⟩ n := by
  have hreceiver := h.convert (.receiver hk)
  have name := h.convert (.member (by rw [hk]; exact List.mem_singleton.2 rfl))
  simp only [propertyAccess, receiver, notMember, asMember, View.withContext, View.convert,
    hreceiver, name]

/-- A pair or an assignment, of the name of a node and what stands in a field. -/
theorem assignment_congr (hk : n.kind ∈ Kind.assignments) (value : Field) :
    assignment ⟨c, checker, f⟩ (n.get .name) (n.get value) =
      assignment ⟨c, checker, g⟩ (n.get .name) (n.get value) := by
  have hown : ∀ k ∈ Kind.assignments, ownFields k = [] := by decide
  unfold assignment
  cases hpair : c.keyValue.truthy with
  | false =>
    have key := h.convert (.propertyName hk hpair)
    have one : f c (n.get value) = g c (n.get value) :=
      h.convert (.same (by rw [hown _ hk]; exact List.not_mem_nil) fun _ => hpair)
    simp only [asPropertyName, View.withContext, View.convert, one, key, Bool.false_eq_true,
      if_false]
  | true =>
    have key := h.convert (.pairKey hk hpair)
    have one := h.convert (.pairValue value hk hpair)
    simp only [asPairKey, asPairValue, View.withContext, View.convert, one, key, if_true]

/-- Classes and interfaces, whose members are rendered in a context of their own. -/
theorem declaration_congr {word : String} {inside : Flags}
    (hk : n.kind ∈ [.classDeclaration, .interfaceDeclaration])
    (hinside : ∀ v, Hands c n .members v inside) :
    declaration indent word ⟨c, checker, f⟩ ⟨inside, checker, f⟩ n =
      declaration indent word ⟨c, checker, g⟩ ⟨inside, checker, g⟩ n := by
  have hother : ∀ k ∈ [Kind.classDeclaration, .interfaceDeclaration],
      k ∉ Kind.assignments ∧ ownFields k = [.members] := by decide
  have same {field : Field} (hfield : field ≠ .members) (v : Value) : Hands c n field v c := by
    refine .same ?_ fun hassignment => absurd hassignment (hother _ hk).1
    rw [(hother _ hk).2]
    exact fun hmem => hfield (List.mem_singleton.1 hmem)
  have name : f c (n.get .name) = g c (n.get .name) := h.convert (same (by decide) _)
  have extended : heritage ⟨c, checker, f⟩ n = heritage ⟨c, checker, g⟩ n :=
    heritage_congr_of_holds fun v hv => h _ v c hv (same (by decide) v)
  have members : (View.mk inside checker f).convertAll (n.get .members) =
      (View.mk inside checker g).convertAll (n.get .members) :=
    h.convertAll fun _ _ v _ => hinside v
  simp only [declaration, View.convert, name, extended, members]

/-- Every rule is determined by the calls in the contexts that it hands on. -/
theorem rule_congr {rule : Rule Flags} (hr : rule? indent n.kind = some rule) :
    rule ⟨c, checker, f⟩ n = rule ⟨c, checker, g⟩ n := by
  by_cases hshared : n.kind ∈ Neutral.shared
  · rw [rule?_of_shared indent hshared] at hr
    exact h.neutral_congr hshared hr
  by_cases hown : n.kind ∈ settingKinds
  swap
  · exact h.rule_congr_plain hshared hown hr
  simp only [settingKinds, List.mem_cons, List.not_mem_nil, or_false] at hown
  rcases hown with hk | hk | hk | hk | hk | hk | hk | hk
  all_goals
    rw [hk] at hr
    have hr := Option.some.inj hr
    subst hr
  · rfl
  · rfl
  · exact h.propertySignature_congr hk
  · exact h.propertyAccess_congr hk
  · exact h.assignment_congr (by simp [hk, Kind.assignments]) _
  · exact h.assignment_congr (by simp [hk, Kind.assignments]) _
  · unfold classDeclaration
    exact Run.bind_congr fun name hname => h.declaration_congr (by simp [hk]) fun _ =>
      .inClass hk hname
  · unfold Dispatch.interface
    refine Run.bind_congr fun data hdata => ?_
    have hdata : Dispatch.isDataInterface n = .ok data := hdata
    cases data with
    | false => exact h.declaration_congr (by simp [hk]) fun _ => .inInterface hk hdata
    | true => exact h.declaration_congr (by simp [hk]) fun _ => .inInterface hk hdata

/-- The rule for a node is determined by the calls in the contexts that it hands on. -/
theorem visit_congr_of_hands (preferStruct : Data) :
    (backend indent preferStruct).visit ⟨c, checker, f⟩ n =
      (backend indent preferStruct).visit ⟨c, checker, g⟩ n := by
  unfold Backend.visit
  cases hr : (backend indent preferStruct).rule? n.kind with
  | none => rfl
  | some rule => exact h.rule_congr hr

end AgreeOn

/-- The rule for a node only asks for what stands in its fields, in the contexts that it hands to
them. -/
theorem hands_of_asks {preferStruct : Data} {d : Flags} {v : Value}
    (h : (backend indent preferStruct).Asks checker c n d v) :
    ∃ field, n.Holds field v ∧ Hands c n field v d :=
  h.mem (fun d v => ∃ field, n.Holds field v ∧ Hands c n field v d) fun _ _ hfg =>
    AgreeOn.visit_congr_of_hands (fun field v d hv hd => hfg d v ⟨field, hv, hd⟩) preferStruct

end

/-! ### Every call -/

/-- A law that ties contexts to places, holds at the root and is handed on by every rule is obeyed
by every call, at a place where its value stands below the nodes that are being rendered. -/
theorem exists_place_of_reaches {S : Type} {start : S} {into : S → Node → Field → S}
    {Law : Flags → S → Prop} {checker : Checker} {indent : Indent} {preferStruct : Data}
    (hstart : Law (backend indent preferStruct).initial start)
    (hstep : ∀ c d n field v s, Law c s → Hands c n field v d → Law d (into s n field))
    {root v : Value} {around : List Node} {c : Flags}
    (h : (backend indent preferStruct).Reaches checker root around c v) :
    ∃ s, Value.Stands start into root around v s ∧ Law c s := by
  induction h with
  | root => exact ⟨start, .root, hstart⟩
  | @ask around c d n v _ hasks ih =>
    obtain ⟨s, hstands, hlaw⟩ := ih
    obtain ⟨field, hholds, hhands⟩ := hands_of_asks hasks
    exact ⟨into s n field, .within hstands hholds, hstep c d n field v s hlaw hhands⟩

end CSharp

end CodeSample

import CodeSample.Proofs.AlikeCSharp
import CodeSample.Proofs.Totality

/-!
# What no rule looks at

Places, recorded types, the name of a file and whether variables are constant are kept in a tree,
but no rule looks at them. Two trees that differ in nothing else are rendered to the same text, if
their checkers have the same answers: types reach the output through a checker only, and places
through diagnostics and faults only.

* `Value.outline` is a tree without what no rule looks at, `Value.at?` is the part of a tree at a
  place, and `Value.SamePlace` relates the nodes of two trees that stand at one place;
* `Checker.AgreeOn` says that two checkers agree on two trees; by `Checker.agreeOn_ofTables` tables
  do in which everything can be found;
* `Value.Twins` relates the parts of two trees with one outline, and they are read alike;
* `Target.alike_render` is the statement for whole trees.
-/

namespace CodeSample

/-! ### Outlines and places -/

namespace Value

mutual

/-- A tree without places, types, and the fields that rules may not read. -/
def outline : Value → Value
  | list vs => list (outlineAll vs)
  | node kind _ source _ fields => node kind .unknown source none (outlineFrom kind 0 fields)
  | v => v

/-- The outlines of several trees. -/
def outlineAll : List Value → List Value
  | [] => []
  | v :: vs => outline v :: outlineAll vs

/-- The outlines of the fields of a kind, from an index on. -/
def outlineFrom (kind : Kind) (i : Nat) : List Value → List Value
  | [] => []
  | v :: vs => (if kind.reads i then outline v else null) :: outlineFrom kind (i + 1) vs

end

/-- Outlines are taken one by one. -/
theorem outlineAll_eq_map (vs : List Value) : outlineAll vs = vs.map outline := by
  induction vs with
  | nil => rfl
  | cons v vs ih => rw [outlineAll, ih, List.map_cons]

/-- There are as many outlines of fields as there are fields. -/
theorem length_outlineFrom (kind : Kind) (i : Nat) (vs : List Value) :
    (outlineFrom kind i vs).length = vs.length := by
  induction vs generalizing i with
  | nil => rfl
  | cons v vs ih => rw [outlineFrom, List.length_cons, List.length_cons, ih]

/-- The outline of a field is there if rules may read the field, and null is there if not. -/
theorem getElem?_outlineFrom (kind : Kind) (i j : Nat) (vs : List Value) :
    (outlineFrom kind i vs)[j]? =
      vs[j]?.map fun v => if kind.reads (i + j) then v.outline else null := by
  induction vs generalizing i j with
  | nil => rfl
  | cons v vs ih =>
    cases j with
    | zero => rfl
    | succ j =>
      rw [outlineFrom, List.getElem?_cons_succ, List.getElem?_cons_succ, ih,
        Nat.add_right_comm, Nat.add_assoc]

/-- The fields of a node and the items of a list. -/
def parts : Value → List Value
  | list vs => vs
  | node _ _ _ _ fields => fields
  | _ => []

/-- The part of a tree at a place. A place is a way from the root, through the fields of nodes and
the items of lists. -/
def at? (v : Value) : List Nat → Option Value
  | [] => some v
  | i :: place => v.parts[i]?.bind fun w => at? w place

/-- A place is reached by its first steps and then by the others. -/
theorem at?_append (v : Value) (place rest : List Nat) :
    v.at? (place ++ rest) = (v.at? place).bind (·.at? rest) := by
  induction place generalizing v with
  | nil => rfl
  | cons i place ih =>
    rw [List.cons_append, at?, at?, Option.bind_assoc]
    exact congrArg _ (funext ih)

/-- All nodes in a part pass a check that all nodes of the tree pass. -/
theorem all_at? {p : Node → Bool} {v w : Value} {place : List Nat} (hw : v.at? place = some w)
    (h : v.all p = true) : w.all p = true := by
  induction place generalizing v with
  | nil => exact Option.some.inj hw ▸ h
  | cons i place ih =>
    obtain ⟨u, hu, hw⟩ := Option.bind_eq_some_iff.1 hw
    have hmem := List.mem_of_getElem? hu
    refine ih hw ?_
    cases v with
    | list vs => exact all_of_mem h hmem
    | node kind pos source type? fields =>
      exact ((all_toValue ⟨kind, pos, source, type?, fields⟩).1 h).2 u hmem
    | _ => cases hmem

/-- Two nodes stand at the same place of two trees. -/
def SamePlace (root' root : Value) (n' n : Node) : Prop :=
  ∃ place, root'.at? place = some n'.toValue ∧ root.at? place = some n.toValue

end Value

/-! ### What has to correspond -/

/-- Two checkers have the same answers about two trees: for annotations and for expressions that
stand at the same place. -/
structure Checker.AgreeOn (checker' checker : Checker) (root' root : Value) : Prop where
  annotation : ∀ n' n : Node, Value.SamePlace root' root n' n → n.kind = .typeNode →
    checker'.typeOfAscription n'.toValue = checker.typeOfAscription n.toValue
  expression : ∀ n' n : Node, Value.SamePlace root' root n' n → n.kind ∈ Kind.expressions →
    checker'.typeOfExpression n'.toValue = checker.typeOfExpression n.toValue

/-- Two faults are the same, or both say that nodes which stand for one another have no rule. -/
inductive Fault.Alike (N : Node → Node → Prop) : Fault → Fault → Prop where
  | same (fault : Fault) : Alike N fault fault
  | refused (visitor : String) {n' n : Node} (h : N n' n) :
    Alike N (.unsupported visitor n'.kind n'.pos) (.unsupported visitor n.kind n.pos)

/-- Faults that are alike for a relation of nodes are so for a wider one. -/
theorem Fault.Alike.mono {N M : Node → Node → Prop} {fault' fault : Fault}
    (h : Fault.Alike N fault' fault) (hNM : ∀ n' n, N n' n → M n' n) :
    Fault.Alike M fault' fault := by
  cases h with
  | same => exact .same fault'
  | refused visitor h => exact .refused visitor (hNM _ _ h)

/-! ### Parts at the same place -/

/-- Whether all nodes of a tree are shaped as they are declared to be. -/
abbrev Value.isDeclared (v : Value) : Bool := v.all (·.isShaped .declared)

/-- Two values stand at the same place of two trees, are shaped and have the same outline. -/
structure Value.Twins (root' root v' v : Value) : Prop where
  place : ∃ place, root'.at? place = some v' ∧ root.at? place = some v
  outline : v'.outline = v.outline
  declared' : v'.isDeclared = true
  declared : v.isDeclared = true

/-- Two nodes are twins. -/
abbrev Node.Twins (root' root : Value) (n' n : Node) : Prop :=
  Value.Twins root' root n'.toValue n.toValue

namespace Value.Twins

variable {root' root v' v : Value}

/-- Two trees themselves. -/
theorem roots (houtline : v'.outline = v.outline) (hdeclared' : v'.isDeclared = true)
    (hdeclared : v.isDeclared = true) : Twins v' v v' v :=
  ⟨⟨[], rfl, rfl⟩, houtline, hdeclared', hdeclared⟩

/-- What stands at the same place in twins. -/
theorem part (h : Twins root' root v' v) {i : Nat} (hi' : i < v'.parts.length)
    (hi : i < v.parts.length) (houtline : v'.parts[i].outline = v.parts[i].outline)
    (hdeclared' : v'.parts[i].isDeclared = true) (hdeclared : v.parts[i].isDeclared = true) :
    Twins root' root v'.parts[i] v.parts[i] := by
  obtain ⟨place, hv', hv⟩ := h.place
  refine ⟨⟨place ++ [i], ?_, ?_⟩, houtline, hdeclared', hdeclared⟩
  · rw [at?_append, hv', Option.bind_some, at?, List.getElem?_eq_getElem hi']
    rfl
  · rw [at?_append, hv, Option.bind_some, at?, List.getElem?_eq_getElem hi]
    rfl

/-- The items of lists that are twins. -/
theorem items {vs' vs : List Value} (h : Twins root' root (.list vs') (.list vs)) :
    List.Forall₂ (Twins root' root) vs' vs := by
  have houtline := h.outline
  rw [Value.outline, Value.outline, Value.list.injEq, outlineAll_eq_map, outlineAll_eq_map]
    at houtline
  refine List.forall₂_iff_get.2
    ⟨by simpa using congrArg List.length houtline, fun i hi' hi => h.part hi' hi ?_ ?_ ?_⟩
  · simpa [parts, hi', hi] using congrArg (·[i]?) houtline
  · exact all_of_mem h.declared' (List.getElem_mem hi')
  · exact all_of_mem h.declared (List.getElem_mem hi)

/-- Twins that hold no other values are the same. -/
theorem alike_of_leaf {N : Node → Node → Prop} (h : Twins root' root v' v)
    (hlist : ∀ vs, v ≠ .list vs) (hnode : v.node? = none) : Value.Alike N v' v := by
  have houtline := h.outline
  obtain rfl : v' = v := by cases v' <;> cases v <;> simp_all [Value.outline, node?]
  cases v' with
  | list vs => exact absurd rfl (hlist vs)
  | node => cases hnode
  | _ => constructor

mutual

/-- Twins are alike, and so are the nodes in them. -/
theorem alike : ∀ {v' v : Value}, Twins root' root v' v → Value.Alike (Node.Twins root' root) v' v
  | v', .list vs, h => by
    obtain ⟨vs', rfl⟩ : ∃ vs', v' = .list vs' := by
      have := h.outline
      cases v' <;> simp [Value.outline] at this
      exact ⟨_, rfl⟩
    exact .list (alike_all h.items)
  | v', .node kind pos source type? fields, h => by
    obtain ⟨n', rfl⟩ : ∃ n' : Node, v' = n'.toValue := by
      have := h.outline
      cases v' <;> simp [Value.outline] at this
      exact ⟨⟨_, _, _, _, _⟩, rfl⟩
    exact Alike.node (n := ⟨kind, pos, source, type?, fields⟩) h
  | _, .null, h | _, .bool _, h | _, .int _, h | _, .float _, h | _, .text _, h
  | _, .object _, h => h.alike_of_leaf (by simp) rfl

/-- Twins are read alike, one by one. -/
theorem alike_all : ∀ {vs' vs : List Value}, List.Forall₂ (Twins root' root) vs' vs →
    List.Forall₂ (Value.Alike (Node.Twins root' root)) vs' vs
  | _, [], .nil => .nil
  | _, _ :: _, .cons h hs => .cons (alike h) (alike_all hs)

end

end Value.Twins

namespace Node.Twins

variable {root' root : Value} {n' n : Node} (h : Node.Twins root' root n' n)
include h

/-- Twin nodes have the same kind and source and the same outlines of their fields. -/
theorem outlines : n'.kind = n.kind ∧ n'.source = n.source ∧
    Value.outlineFrom n'.kind 0 n'.fields = Value.outlineFrom n.kind 0 n.fields := by
  have houtline := h.outline
  rw [Node.toValue, Node.toValue, Value.outline, Value.outline, Value.node.injEq] at houtline
  exact ⟨houtline.1, houtline.2.2.1, houtline.2.2.2.2⟩

/-- Twin nodes have equally many fields. -/
theorem length : n'.fields.length = n.fields.length := by
  have hfields := congrArg List.length h.outlines.2.2
  rwa [Value.length_outlineFrom, Value.length_outlineFrom] at hfields

/-- The fields of twins that rules may read. -/
theorem field {i : Nat} (hi' : i < n'.fields.length) (hi : i < n.fields.length)
    (hread : n.kind.reads i = true) : Value.Twins root' root n'.fields[i] n.fields[i] := by
  obtain ⟨hkind, -, hfields⟩ := h.outlines
  have hfield := congrArg (·[i]?) hfields
  simp only [Value.getElem?_outlineFrom, List.getElem?_eq_getElem hi',
    List.getElem?_eq_getElem hi, Option.map_some, Nat.zero_add, hkind, hread, if_true,
    Option.some.injEq] at hfield
  exact h.part hi' hi hfield (((Value.all_toValue _).1 h.declared').2 _ (List.getElem_mem hi'))
    (((Value.all_toValue _).1 h.declared).2 _ (List.getElem_mem hi))

/-- Twins are read alike. -/
theorem alike : Node.Alike (Node.Twins root' root) n' n := by
  obtain ⟨hkind, hsource, -⟩ := h.outlines
  obtain ⟨s, hs⟩ := Node.source_of_isShaped ((Value.all_toValue _).1 h.declared).1
  refine ⟨hkind, by rw [hsource], fun _ => ?_, h.length, fun i hi' hi hread => ?_⟩
  · rw [hsource, hs]
    exact .text s
  · exact (h.field hi' hi hread).alike

/-- Twins stand at the same place. -/
theorem samePlace : Value.SamePlace root' root n' n := h.place

end Node.Twins

/-- The fields that rules may not read are declared to hold texts. -/
theorem Grammar.declared_eq_text (kind : Kind) : ∀ i : Fin (declared kind).length,
    kind.reads i = false → (declared kind)[i] = .text := by
  cases kind <;> decide

/-- A shaped node holds a text in every field that rules may not read. -/
theorem Node.text_of_not_reads {n : Node} (h : n.isShaped .declared = true) {i : Nat}
    (hi : i < n.fields.length) (hread : n.kind.reads i = false) :
    ∃ s, n.fields[i] = .text s := by
  obtain ⟨-, -, hlength, hall⟩ := Node.isShaped_iff.1 h
  have hi' : i < (Grammar.declared n.kind).length := hlength ▸ hi
  have hmem : ((Grammar.declared n.kind)[i], n.fields[i]) ∈
      (Grammar.declared n.kind).zip n.fields := by
    refine List.mem_of_getElem? (i := i) (List.getElem?_zip_eq_some.2 ⟨?_, ?_⟩)
    · exact List.getElem?_eq_getElem hi'
    · exact List.getElem?_eq_getElem hi
  have hholds := hall _ hmem
  dsimp only at hholds
  rw [show (Grammar.declared n.kind)[i] = .text from
    Grammar.declared_eq_text n.kind ⟨i, hi'⟩ hread] at hholds
  cases hv : n.fields[i] with
  | text s => exact ⟨s, rfl⟩
  | _ => simp [hv, Content.holds] at hholds

/-- Nodes that stand at the same place in twins are twins. -/
theorem Value.Twins.at? {root' root : Value} {n' n : Node} (place : List Nat) {v' v : Value}
    (h : Twins root' root v' v) (hn' : v'.at? place = some n'.toValue)
    (hn : v.at? place = some n.toValue) : Node.Twins root' root n' n := by
  induction place generalizing v' v with
  | nil =>
    cases hn'
    cases hn
    exact h
  | cons i place ih =>
    obtain ⟨w', hw', hn'⟩ := Option.bind_eq_some_iff.1 hn'
    obtain ⟨w, hw, hn⟩ := Option.bind_eq_some_iff.1 hn
    obtain ⟨hi', rfl⟩ := List.getElem?_eq_some_iff.1 hw'
    obtain ⟨hi, rfl⟩ := List.getElem?_eq_some_iff.1 hw
    cases h.alike with
    | list => exact ih ((List.forall₂_iff_get.1 h.items).2 i hi' hi) hn' hn
    | @node m' m hm =>
      by_cases hread : m.kind.reads i = true
      · exact ih (Node.Twins.field hm hi' hi hread) hn' hn
      · -- the field holds a text, and no node stands in a text
        obtain ⟨s, hs⟩ := Node.text_of_not_reads ((Value.all_toValue m).1 hm.declared).1 hi
          (Bool.eq_false_iff.2 hread)
        rw [show m.toValue.parts[i] = .text s from hs] at hn
        cases place <;> cases hn
    | _ => cases hi

/-- Renderings of two trees go alike in which twins stand for one another. -/
abbrev Likeness.twins (root' root : Value) : Likeness :=
  .ofNodes (Node.Twins root' root) Node.Twins.alike (Fault.Alike (Node.Twins root' root))
    (fun fault _ => .same fault) fun visitor _ _ h => .refused visitor h

/-! ### What checkers are asked -/

/-- What stands in a field of a declared node that holds at most one node of some kinds. -/
theorem Node.get_of_isDeclared {n : Node} (h : n.toValue.isDeclared = true) (f : Field)
    {kinds : List Kind}
    (hf : ∀ content ∈ Grammar.declared.content? n.kind f,
      content = .one kinds ∨ content = .maybe kinds) :
    n.get f = .null ∨ ∃ m : Node, n.get f = m.toValue ∧ m.kind ∈ kinds := by
  have hshaped := Node.isShaped_of_all (fun _ h => h) h
  cases hcontent : Grammar.declared.content? n.kind f with
  | some content =>
    rcases hf content hcontent with rfl | rfl
    · exact Or.inr (Node.one_of_isShaped hshaped hcontent)
    · exact Node.maybe_of_isShaped hshaped hcontent
  | none => exact Or.inl (Node.get_of_content?_eq_none hshaped hcontent)

namespace Checker

variable {checker' checker : Checker} {root' root : Value}

/-- What is asked of a checker about a field of a node, if anything stands there. -/
theorem agree_field {n' n : Node} (h : Node.Twins root' root n' n) {f : Field}
    (hread : f.isRead = true) {kinds : List Kind}
    (hf : ∀ content ∈ Grammar.declared.content? n.kind f,
      content = .one kinds ∨ content = .maybe kinds)
    {ask' ask : Value → Except Fault (Option Ty)}
    (hask : ∀ m' m : Node, Value.SamePlace root' root m' m → m.kind ∈ kinds →
      ask' m'.toValue = ask m.toValue) :
    (if (n'.get f).isNull then .ok none else ask' (n'.get f)) =
      if (n.get f).isNull then .ok none else ask (n.get f) := by
  have halike := h.alike.get hread
  rw [halike.isNull]
  rcases Node.get_of_isDeclared h.declared f hf with hnull | ⟨m, hm, hk⟩
  · rw [hnull]
    rfl
  · rw [hm] at halike ⊢
    obtain ⟨m', hm', hplace⟩ := halike.exists_node
    rw [hm', hask m' m hplace.samePlace hk]

/-- Checkers that agree on two trees have the same answers to what rules ask about twins. -/
theorem AgreeOn.checkers (h : checker'.AgreeOn checker root' root) :
    (Likeness.twins root' root).Checkers checker' checker := by
  have same {x' x : Except Fault (Option Ty)} (hx : x' = x) :
      (Likeness.twins root' root).run Eq (liftM x') (liftM x) := by
    subst hx
    cases x' with
    | ok t? => exact ⟨.nil, .ok rfl⟩
    | error fault => exact ⟨.nil, .error (.same fault)⟩
  constructor
  · intro n' n hn
    have hkinds : ∀ content ∈ Grammar.declared.content? n.kind .type,
        content = .one [.typeNode] ∨ content = .maybe [.typeNode] := by
      cases n.kind <;> decide
    refine same (agree_field hn rfl hkinds fun m' m hm hk => ?_)
    exact h.annotation m' m hm (List.mem_singleton.1 hk)
  · intro n' n hn hkind
    refine same (agree_field hn rfl ?_ h.expression)
    cases hk : n.kind <;> first | exact absurd hk hkind | decide
  · intro n' n hn hk
    exact same (h.expression n' n hn.samePlace (by rw [hk]; decide))

/-! ### Tables -/

/-- Whether tables know the type of a node that is asked for, by its source text. -/
def covers (ascriptions expressions : List (String × Ty)) (n : Node) : Bool :=
  match n.toValue.sourceText with
  | .ok (.text s) =>
    (n.kind != .typeNode || (ascriptions.lookup s).isSome) &&
      (!Kind.expressions.contains n.kind || (expressions.lookup s).isSome)
  | _ => false

/-- What a table knows it says of twins, whatever types are recorded with them. -/
theorem lookUp_twins {table : List (String × Ty)} {n' n : Node}
    (h : Node.Twins root' root n' n) {s : String} (hs : n.toValue.sourceText = .ok (.text s))
    (hknown : (table.lookup s).isSome = true) :
    lookUp table n'.toValue = lookUp table n.toValue := by
  have htext := Value.Alike.sourceText Node.Twins.alike (.node h)
  obtain ⟨t, ht⟩ := Option.isSome_iff_exists.1 hknown
  rw [hs] at htext
  generalize hs' : n'.toValue.sourceText = text' at htext
  cases htext with
  | ok htext =>
    cases htext
    rw [lookUp, lookUp, hs, hs']
    show Except.ok ((table.lookup s).or _) = Except.ok ((table.lookup s).or _)
    rw [ht, Option.some_or, Option.some_or]

/-- Tables that know every annotation and every expression of a tree agree on the trees with its
outline, whatever types are recorded there. -/
theorem agreeOn_ofTables {ascriptions expressions : List (String × Ty)}
    (hroots : Value.Twins root' root root' root)
    (hcovers : root.all (covers ascriptions expressions) = true) :
    (ofTables ascriptions expressions).AgreeOn (ofTables ascriptions expressions) root' root := by
  have known {n' n : Node} (h : Value.SamePlace root' root n' n) :
      Node.Twins root' root n' n ∧ covers ascriptions expressions n = true := by
    obtain ⟨place, hn', hn⟩ := h
    exact ⟨hroots.at? place hn' hn, ((Value.all_toValue n).1 (Value.all_at? hn hcovers)).1⟩
  have text {n : Node} (h : covers ascriptions expressions n = true) :
      ∃ s, n.toValue.sourceText = .ok (.text s) ∧
        (n.kind = .typeNode → (ascriptions.lookup s).isSome = true) ∧
        (n.kind ∈ Kind.expressions → (expressions.lookup s).isSome = true) := by
    unfold covers at h
    split at h
    · rename_i s hs
      rw [Bool.and_eq_true, Bool.or_eq_true, Bool.or_eq_true] at h
      exact ⟨s, hs, fun hk => h.1.resolve_left (by simp [hk]),
        fun hk => h.2.resolve_left (by simp [hk])⟩
    · cases h
  constructor
  · intro n' n h hk
    obtain ⟨htwins, hn⟩ := known h
    obtain ⟨s, hs, hascription, -⟩ := text hn
    exact lookUp_twins htwins hs (hascription hk)
  · intro n' n h hk
    obtain ⟨htwins, hn⟩ := known h
    obtain ⟨s, hs, -, hexpression⟩ := text hn
    exact lookUp_twins htwins hs (hexpression hk)

end Checker

/-! ### Whole trees -/

namespace Target

variable {checker' checker : Checker} {root' root : Value}

/-- Two declared trees that differ in places, recorded types, the names of files and the flags of
declarations only are rendered alike, by checkers with the same answers about nodes at the same
place and with the same options. There is the same text for both, with diagnostics that say the same
of nodes at the same place, one after the other; or both fail for the same reason, but for the place
of a node. In the language of the samples, with checkers that answer from tables and options that
make sense, neither fails. -/
theorem alike_render (hdeclared' : root'.IsShaped .declared) (hdeclared : root.IsShaped .declared)
    (houtline : root'.outline = root.outline) (hcheckers : checker'.AgreeOn checker root' root)
    (options : List (String × Data)) :
    Tally (Fault.Alike (Value.SamePlace root' root)) (Rendering.Alike (Value.SamePlace root' root))
      (render (.text CSharp.name) options checker' root')
      (render (.text CSharp.name) options checker root) ∧
    (root.IsShaped .source → (∀ k ∈ root.kind?, k ∉ Kind.inner) → checker.IsTabled →
      (∀ o ∈ options, IsOption o) →
      ∃ r' r, render (.text CSharp.name) options checker' root' = .ok r' ∧
        render (.text CSharp.name) options checker root = .ok r ∧
        Rendering.Alike (Value.SamePlace root' root) r' r) := by
  have hroots : Value.Twins root' root root' root := .roots houtline hdeclared'.2 hdeclared.2
  have htally := (tally_render hcheckers.checkers hroots.alike (.text CSharp.name) options).mono
    (fun _ _ h => h.mono fun _ _ h => h.samePlace) (fun _ _ h => h.mono fun _ _ h => h.samePlace)
  refine ⟨htally, fun hsource hkind htabled hoptions => ?_⟩
  obtain ⟨n, hn⟩ := Option.isSome_iff_exists.1 (Option.isSome_map.symm.trans hsource.1)
  obtain rfl := Value.toValue_of_node? hn
  obtain ⟨o, ho, hindent⟩ := ofMembers_ok hoptions
  obtain ⟨f, -, -, hrender⟩ :=
    CSharp.finishes hindent o.preferStruct ⟨hsource.2, hkind n.kind rfl⟩ htabled
  rw [← render_eq hoptions ho] at hrender
  rw [hrender] at htally ⊢
  generalize render (.text CSharp.name) options checker' root' = outcome' at htally
  cases htally with
  | ok halike => exact ⟨_, _, rfl, rfl, halike⟩

/-- A declaration of a constant in a file, with places and types, or one of which nothing is
recorded. -/
def circle (recorded : Bool) : Value :=
  let pos (col : Int) : Pos := if recorded then ⟨3, col⟩ else .unknown
  let type? : Option Ty := if recorded then some (.named (.text "Shape") .null true) else none
  .node .sourceFile (pos 0) (.text "") none [
    .list [.node .variableStatement (pos 0) (.text "") none [
      .node .variableDeclarationList (pos 0) (.text "") none [
        .list [.node .variableDeclaration (pos 6) (.text "") none [
          .node .identifier (pos 6) (.text "circle") type? [.text "circle"],
          .node .typeNode (pos 14) (.text "Round | Square") type? [],
          .node .numericLiteral (pos 31) (.text "1") type? [.text "1"]]],
        .text (if recorded then "const" else "let")]]],
    .text (if recorded then "shapes.ts" else "")]

/-- What a table says of the declaration. -/
def circleTypes : List (String × Ty) :=
  let struct (name : String) : Ty := .named (.text name) .null true
  [("Round | Square", .union [struct "Round", struct "Square"]),
    ("circle", .primitive (.text "number")), ("1", .primitive (.text "number"))]

/-- Two circles whose places and types differ are rendered by the same text, with a report on the
same place of both. -/
theorem alike_render_circle :
    (circle true).IsShaped .declared ∧ (circle false).IsShaped .declared ∧
    (circle true).outline = (circle false).outline ∧
    (Checker.ofTables circleTypes circleTypes).AgreeOn (.ofTables circleTypes circleTypes)
      (circle true) (circle false) ∧
    ∃ r' r,
      render (.text CSharp.name) [] (.ofTables circleTypes circleTypes) (circle true) = .ok r' ∧
      render (.text CSharp.name) [] (.ofTables circleTypes circleTypes) (circle false) = .ok r ∧
      Rendering.Alike (Value.SamePlace (circle true) (circle false)) r' r := by
  have hdeclared' : (circle true).IsShaped .declared := by decide
  have hdeclared : (circle false).IsShaped .declared := by decide
  have houtline : (circle true).outline = (circle false).outline := by rfl
  have hagree : (Checker.ofTables circleTypes circleTypes).AgreeOn
      (.ofTables circleTypes circleTypes) (circle true) (circle false) :=
    Checker.agreeOn_ofTables (.roots houtline hdeclared'.2 hdeclared.2) (by rfl)
  have hspelled : ∀ x ∈ circleTypes ++ circleTypes, x.2.Spelled := by
    simp only [Ty.spelled_iff]
    decide
  refine ⟨hdeclared', hdeclared, houtline, hagree, ?_⟩
  exact (alike_render hdeclared' hdeclared houtline hagree []).2 (by decide) (by decide)
    (Or.inr ⟨_, _, rfl, hspelled⟩) (by simp)

end Target

end CodeSample

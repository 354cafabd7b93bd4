import CodeSample.Proofs.DeclaredLiterals
import CodeSample.Proofs.DeclaredNames

/-!
# The option for object literals of unknown type

An object literal whose type leaves open what it is rendered as is rendered as a struct or as a
dictionary, as the option says that is handed down the tree with the context. What initializes a
variable is rendered with the option off, whatever was asked for. So the option has no part in the
rendering of a tree in which such literals only stand there, and they are dictionaries.

* `Checker.leavesOpen` are the literals in question, and `Value.allOutside` checks the nodes of a
  tree that stand outside of what initializes a variable;
* `preferStruct_of_reaches`: in every call the option is off inside of what initializes a variable,
  and is what was asked for outside;
* `visit_preferring` is one step of two renderings with and without the option side by side,
  `render_preferring` the whole way down;
* `Target.preference_confined` is the statement for renderings and for the calls that they make.
-/

namespace CodeSample

open Layout (Fragment Indent)
open Layout.Fragment (row line)

/-- Whether the type of an object literal leaves open what the literal is rendered as: it is not
known, it is a union without exactly one member that is not absent, or it stands for a builtin
type. -/
def Checker.leavesOpen (checker : Checker) (n : Node) : Bool :=
  n.kind == .objectLiteralExpression &&
    match checker.typeOfExpression n.toValue with
    | .ok t? => (t?.bind Ty.concrete?).all Ty.isPrimitive
    | .error _ => false

/-! ### Outside of initializers -/

/-- Whether the field of a kind at an index holds what initializes a variable. -/
def Kind.initializesAt (kind : Kind) (i : Nat) : Bool :=
  kind == .variableDeclaration && kind.index? .initializer == some i

/-- Whether a field of a node holds what initializes a variable. -/
def Node.initializesIn (n : Node) (f : Field) : Bool :=
  n.kind == .variableDeclaration && f == .initializer

/-- A kind keeps no two fields at one index. -/
theorem Kind.index?_inj {kind : Kind} {f g : Field} {i : Nat} (hf : kind.index? f = some i)
    (hg : kind.index? g = some i) : f = g := by
  obtain ⟨_, hf, -⟩ := List.findIdx?_eq_some_iff_getElem.1 hf
  obtain ⟨_, hg, -⟩ := List.findIdx?_eq_some_iff_getElem.1 hg
  exact (eq_of_beq hf).symm.trans (eq_of_beq hg)

namespace Value

mutual

/-- Whether all nodes of a tree pass a check that stand outside of what initializes a variable. -/
def allOutside (p : Node → Bool) : Value → Bool
  | node kind pos source type? fields =>
    p ⟨kind, pos, source, type?, fields⟩ && allOutsideFrom p kind 0 fields
  | list vs => allOutsideOf p vs
  | _ => true

/-- Whether all of these nodes of several trees do. -/
def allOutsideOf (p : Node → Bool) : List Value → Bool
  | [] => true
  | v :: vs => allOutside p v && allOutsideOf p vs

/-- Whether all of these nodes in the fields of a kind from an index on do. -/
def allOutsideFrom (p : Node → Bool) (kind : Kind) (i : Nat) : List Value → Bool
  | [] => true
  | v :: vs => (kind.initializesAt i || allOutside p v) && allOutsideFrom p kind (i + 1) vs

end

variable {p : Node → Bool}

/-- What is listed in a tree that passes a check outside of initializers does so. -/
theorem allOutside_of_mem {v : Value} {vs : List Value} (h : (list vs).allOutside p = true)
    (hv : v ∈ vs) : v.allOutside p = true := by
  rw [allOutside] at h
  induction vs with
  | nil => cases hv
  | cons w ws ih =>
    rw [allOutsideOf, Bool.and_eq_true] at h
    rcases List.mem_cons.1 hv with rfl | hv
    · exact h.1
    · exact ih h.2 hv

/-- What stands in a field does so, unless it initializes a variable. -/
theorem allOutside_getElem? {kind : Kind} {start i : Nat} {v : Value} {vs : List Value}
    (h : allOutsideFrom p kind start vs = true) (hv : vs[i]? = some v)
    (hi : kind.initializesAt (start + i) = false) : v.allOutside p = true := by
  induction vs generalizing start i with
  | nil => cases hv
  | cons w ws ih =>
    rw [allOutsideFrom, Bool.and_eq_true, Bool.or_eq_true] at h
    cases i with
    | zero =>
      cases hv
      exact h.1.resolve_left (Bool.eq_false_iff.1 hi)
    | succ i => exact ih h.2 hv (by rwa [Nat.add_right_comm])

/-- The root of such a tree passes the check itself. -/
theorem allOutside_toValue {n : Node} (h : n.toValue.allOutside p = true) : p n = true := by
  rw [Node.toValue, allOutside, Bool.and_eq_true] at h
  exact h.1

/-- What stands in a field of a node that passes a check outside does so, unless it initializes a
variable. -/
theorem allOutside_get {n : Node} (h : n.toValue.allOutside p = true) {f : Field}
    (hf : n.initializesIn f = false) : (n.get f).allOutside p = true := by
  rw [Node.get]
  cases hv : (n.kind.index? f).bind (n.fields[·]?) with
  | none => rfl
  | some v =>
    obtain ⟨i, hindex, hi⟩ := Option.bind_eq_some_iff.1 hv
    rw [Node.toValue, allOutside, Bool.and_eq_true] at h
    refine allOutside_getElem? h.2 hi (Bool.eq_false_iff.2 fun hinitializer => ?_)
    rw [Nat.zero_add, Kind.initializesAt, Bool.and_eq_true, beq_iff_eq, beq_iff_eq] at hinitializer
    obtain rfl := Kind.index?_inj hindex hinitializer.2
    simp [Node.initializesIn, hinitializer.1] at hf

/-- What such a tree enumerates does so. -/
theorem allOutside_items {v w : Value} {vs : List Value} (h : v.allOutside p = true)
    (hvs : v.items = .ok vs) (hw : w ∈ vs) : w.allOutside p = true := by
  cases v with
  | list _ =>
    cases hvs
    exact allOutside_of_mem h hw
  | text _ | object _ =>
    cases hvs
    obtain ⟨_, -, rfl⟩ := List.mem_map.1 hw
    rfl
  | _ => cases hvs

/-- Every property of such a tree does so, but for initializers. -/
theorem allOutside_property {v w : Value} {f : Field} (h : v.allOutside p = true)
    (hf : f ≠ .initializer) (hw : v.property f = .ok w) : w.allOutside p = true := by
  unfold property at hw
  cases hv : v.node? with
  | none => simp [hv] at hw
  | some n =>
    obtain rfl := toValue_of_node? hv
    simp only [node?_toValue] at hw
    split at hw
    · cases hw
      exact allOutside_get h (by simp [Node.initializesIn, hf])
    · cases hw

/-- What a field of such a tree holds does so, unless it initializes a variable. -/
theorem allOutside_of_holds {n : Node} {f : Field} {v : Value}
    (h : n.toValue.allOutside p = true) (hf : n.initializesIn f = false) (hv : n.Holds f v) :
    v.allOutside p = true := by
  cases hv with
  | content => exact allOutside_get h hf
  | item hvs hv => exact allOutside_items (allOutside_get h hf) hvs hv
  | extended hclauses hclause htypes hts ht he =>
    have hclause := allOutside_items (allOutside_get h hf) hclauses hclause
    have ht := allOutside_items (allOutside_property hclause (by decide) htypes) hts ht
    exact allOutside_property ht (by decide) he

/-- What has a kind is a node. -/
theorem exists_of_kind? {v : Value} (h : v.kind?.isSome = true) : ∃ n : Node, v = n.toValue := by
  unfold kind? at h
  cases hn : v.node? with
  | none => simp [hn] at h
  | some n => exact ⟨n, (toValue_of_node? hn).symm⟩

/-- A value stands below a root, inside of what initializes a variable or not. -/
abbrev StandsInside (root : Value) (around : List Node) (v : Value) (inside : Bool) : Prop :=
  Stands false (fun inside n f => inside || n.initializesIn f) root around v inside

/-- What stands in such a tree outside of initializers is such a tree. -/
theorem StandsInside.allOutside {root v : Value} {around : List Node}
    (h : root.StandsInside around v false) (hroot : root.allOutside p = true) :
    v.allOutside p = true := by
  generalize hinside : false = inside at h
  induction h with
  | root => exact hroot
  | within _ hv ih =>
    obtain ⟨houter, hfield⟩ := Bool.or_eq_false_iff.1 hinside.symm
    exact allOutside_of_holds (ih houter.symm) hfield hv

end Value

namespace CSharp

variable {c d : Flags} {n : Node} {checker : Checker} {indent : Indent} {preferStruct : Data}

/-! ### Where the option is off -/

/-- A declaration is determined by the calls for its name, in its own context, and for what
initializes the variable, with the option off. -/
theorem variableDeclaration_congr {f g : Flags → Value → Run Fragment}
    (hname : f c (n.get .name) = g c (n.get .name))
    (hinitializer : f { c with preferStruct := .bool false } (n.get .initializer) =
      g { c with preferStruct := .bool false } (n.get .initializer)) :
    variableDeclaration ⟨c, checker, f⟩ n = variableDeclaration ⟨c, checker, g⟩ n := by
  simp only [variableDeclaration, asInitializer, View.withContext, View.convert, hname,
    hinitializer]

/-- Only declarations of variables change the option. -/
theorem Hands.preferStruct_eq {field : Field} {v : Value} (h : Hands c n field v d)
    (hk : n.kind ≠ .variableDeclaration) : d.preferStruct = c.preferStruct := by
  cases h with
  | initializer hkind => exact absurd hkind hk
  | _ => rfl

/-- The rule for a node asks for what stands in its fields, with the option off in what initializes
a variable and as it is in all else. -/
theorem preferStruct_of_asks {v : Value}
    (h : (backend indent preferStruct).Asks checker c n d v) :
    ∃ field, n.Holds field v ∧
      d.preferStruct = if n.initializesIn field then .bool false else c.preferStruct := by
  by_cases hk : n.kind = .variableDeclaration
  · obtain ⟨rfl, rfl⟩ | ⟨rfl, rfl⟩ := h.mem (fun d v =>
        (d = c ∧ v = n.get .name) ∨
          (d = { c with preferStruct := .bool false } ∧ v = n.get .initializer)) fun f g hfg => by
      have hrule : rule? indent n.kind = some variableDeclaration := by
        rw [hk]
        rfl
      rw [visit_of_rule hrule, visit_of_rule hrule]
      exact variableDeclaration_congr (hfg _ _ (Or.inl ⟨rfl, rfl⟩)) (hfg _ _ (Or.inr ⟨rfl, rfl⟩))
    · exact ⟨.name, .content _, by simp [Node.initializesIn]⟩
    · exact ⟨.initializer, .content _, by simp [Node.initializesIn, hk]⟩
  · obtain ⟨field, hholds, hhands⟩ := hands_of_asks h
    exact ⟨field, hholds, by simp [Node.initializesIn, hk, hhands.preferStruct_eq hk]⟩

/-- In every call that is made while a tree is rendered, the option is off inside of what
initializes a variable, and is what was asked for outside. -/
theorem preferStruct_of_reaches {root v : Value} {around : List Node}
    (h : (backend indent preferStruct).Reaches checker root around c v) :
    ∃ inside, root.StandsInside around v inside ∧
      c.preferStruct = if inside then .bool false else preferStruct := by
  induction h with
  | root => exact ⟨false, .root, rfl⟩
  | @ask around c d n v _ hasks ih =>
    obtain ⟨inside, hstands, hlaw⟩ := ih
    obtain ⟨field, hholds, hoption⟩ := preferStruct_of_asks hasks
    refine ⟨inside || n.initializesIn field, .within hstands hholds, ?_⟩
    rw [hoption, hlaw]
    cases inside <;> cases n.initializesIn field <;> rfl

/-! ### One step with and without the option -/

/-- The context with another value of the option. -/
def Flags.preferring (c : Flags) (preferred : Data) : Flags := { c with preferStruct := preferred }

/-- A literal that is left open is rendered by the rule for these. -/
theorem objectLiteral_of_leavesOpen {view : View Flags} (h : view.checker.leavesOpen n = true)
    (struct : Ty → Rule Flags) (keyed : Option Ty → Rule Flags) (untyped : Rule Flags) :
    Dispatch.objectLiteral struct keyed untyped view n = untyped view n := by
  unfold Checker.leavesOpen at h
  unfold Dispatch.objectLiteral
  cases ht : view.checker.typeOfExpression n.toValue with
  | error fault => simp [ht] at h
  | ok t? =>
    rw [ht, Bool.and_eq_true] at h
    refine (pure_bind _ _).trans ?_
    have hprimitive := h.2
    dsimp only at hprimitive
    cases hu : t?.bind Ty.concrete? with
    | none => rfl
    | some u =>
      rw [hu] at hprimitive
      cases u with
      | primitive _ => rfl
      | _ => cases hprimitive

/-- The rule for literals that are left open has no part in the rendering of another literal. -/
theorem objectLiteral_of_not_leavesOpen {view : View Flags}
    (hk : n.kind = .objectLiteralExpression) (h : view.checker.leavesOpen n = false)
    (struct : Ty → Rule Flags) (keyed : Option Ty → Rule Flags) (untyped untyped' : Rule Flags) :
    Dispatch.objectLiteral struct keyed untyped view n =
      Dispatch.objectLiteral struct keyed untyped' view n := by
  unfold Dispatch.objectLiteral
  refine Run.bind_congr fun t? ht => ?_
  have ht : view.checker.typeOfExpression n.toValue = .ok t? := ht
  unfold Checker.leavesOpen at h
  rw [ht, hk] at h
  cases hu : t?.bind Ty.concrete? with
  | none =>
    dsimp only at h
    rw [hu] at h
    cases h
  | some u =>
    dsimp only at h
    rw [hu] at h
    have hprimitive : u.isPrimitive = false := h
    dsimp only
    rw [hprimitive]
    rfl

/-- A rule other than those for declarations and object literals only hands the option on. -/
theorem rule_preferring {rule : Rule Flags} (hr : rule? indent n.kind = some rule)
    (hk : n.kind ∉ [.variableDeclaration, .objectLiteralExpression]) (preferred : Data)
    (f : Flags → Value → Run Fragment) :
    rule ⟨c.preferring preferred, checker, f⟩ n =
      rule ⟨c, checker, fun d v => f (d.preferring preferred) v⟩ n := by
  cases hkind : n.kind <;> rw [hkind] at hr hk <;> first | exact absurd (by decide) hk | skip
  all_goals simp only [rule?, Neutral.rule?, Option.some.injEq, reduceCtorEq] at hr
  all_goals
    subst hr
    rfl

/-- Nor does the rule for object literals do more with it, on one that is not left open. -/
theorem objectLiteral_preferring (hk : n.kind = .objectLiteralExpression)
    (hn : checker.leavesOpen n = false) (preferred : Data) (f : Flags → Value → Run Fragment) :
    Dispatch.objectLiteral (structLiteral indent) (keyedLiteral indent) (untypedLiteral indent)
        ⟨c.preferring preferred, checker, f⟩ n =
      Dispatch.objectLiteral (structLiteral indent) (keyedLiteral indent) (untypedLiteral indent)
        ⟨c, checker, fun d v => f (d.preferring preferred) v⟩ n :=
  calc
    _ = Dispatch.objectLiteral (structLiteral indent) (keyedLiteral indent)
        (keyedLiteral indent none) ⟨c.preferring preferred, checker, f⟩ n :=
      objectLiteral_of_not_leavesOpen hk hn _ _ _ _
    _ = Dispatch.objectLiteral (structLiteral indent) (keyedLiteral indent)
        (keyedLiteral indent none) ⟨c, checker, fun d v => f (d.preferring preferred) v⟩ n := rfl
    _ = _ := objectLiteral_of_not_leavesOpen hk hn _ _ _ _

/-- The rule for a node that is not left open gives the same with another value of the option, if
that holds of what it renders outside of what initializes a variable. -/
theorem visit_preferring {f : Flags → Value → Run Fragment} {preferred : Data}
    (hn : checker.leavesOpen n = false)
    (h : ∀ field d v, n.Holds field v → n.initializesIn field = false →
      f (d.preferring preferred) v = f d v) :
    (backend indent preferStruct).visit ⟨c.preferring preferred, checker, f⟩ n =
      (backend indent preferStruct).visit ⟨c, checker, f⟩ n := by
  unfold Backend.visit
  cases hr : (backend indent preferStruct).rule? n.kind with
  | none => rfl
  | some rule =>
    have hr : rule? indent n.kind = some rule := hr
    dsimp only
    by_cases hdeclaration : n.kind = .variableDeclaration
    · have hname := h .name c _ (.content _) (by simp [Node.initializesIn])
      rw [hdeclaration] at hr
      obtain rfl := Option.some.inj hr
      simp only [variableDeclaration, View.convert, hname]
      rfl
    have hhands : ∀ field v d, n.Holds field v → Hands c n field v d →
        f (d.preferring preferred) v = f d v := fun field v d hv _ =>
      h field d v hv (by simp [Node.initializesIn, hdeclaration])
    refine Eq.trans ?_ (AgreeOn.rule_congr hhands hr)
    by_cases hliteral : n.kind = .objectLiteralExpression
    · rw [hliteral] at hr
      obtain rfl := Option.some.inj hr
      exact objectLiteral_preferring hliteral hn preferred f
    · exact rule_preferring hr (by simp [hdeclaration, hliteral]) preferred f

/-! ### Whole trees -/

/-- With another value of the option in the context, a tree is rendered the same in which no node is
left open outside of what initializes a variable. -/
theorem convertWithin_preferring (preferred : Data) (depth : Nat) {v : Value}
    (hv : v.allOutside (fun n => !checker.leavesOpen n) = true) (c : Flags) :
    (backend indent preferStruct).convertWithin checker depth (c.preferring preferred) v =
      (backend indent preferStruct).convertWithin checker depth c v := by
  induction depth generalizing c v with
  | zero => cases v <;> rfl
  | succ depth ih =>
    cases hn : v.node? with
    | none =>
      rw [Backend.convertWithin_of_node?_eq_none _ _ _ _ hn,
        Backend.convertWithin_of_node?_eq_none _ _ _ _ hn]
    | some n =>
      obtain rfl := Value.toValue_of_node? hn
      refine visit_preferring (n := n) (by simpa using Value.allOutside_toValue hv) ?_
      exact fun field d v hholds hfield => ih (Value.allOutside_of_holds hv hfield hholds) d

/-- What the backend starts with has no part in its rules. -/
theorem convertWithin_backend (preferred preferStruct : Data) (depth : Nat) (c : Flags)
    (v : Value) :
    (backend indent preferred).convertWithin checker depth c v =
      (backend indent preferStruct).convertWithin checker depth c v := by
  induction depth generalizing c v with
  | zero => cases v <;> rfl
  | succ depth ih =>
    have hparts : (backend indent preferred).convertWithin checker depth =
        (backend indent preferStruct).convertWithin checker depth :=
      funext fun c => funext fun v => ih c v
    cases v with
    | node kind pos source type? fields =>
      rw [Backend.convertWithin, Backend.convertWithin, hparts]
      rfl
    | _ => rfl

/-- The whole way down, the option has no part in the rendering of a tree in which no node is left
open outside of what initializes a variable. -/
theorem render_preferring (preferred : Data) {root : Value}
    (hroot : root.allOutside (fun n => !checker.leavesOpen n) = true) :
    (backend indent preferred).render checker root =
      (backend indent preferStruct).render checker root := by
  have hconvert :
      (backend indent preferred).convert checker (backend indent preferred).initial root =
        (backend indent preferStruct).convert checker
          (backend indent preferStruct).initial root := by
    unfold Backend.convert
    rw [convertWithin_backend preferred preferStruct]
    exact convertWithin_preferring preferred _ hroot (backend indent preferStruct).initial
  unfold Backend.render
  rw [hconvert]

/-! ### Dictionaries -/

/-- A pair of a dictionary. -/
def IsPair (f : Fragment) : Prop :=
  ∃ key value, f = line [.text "\x7b ", key, .text ", ", value, .text " \x7d"]

/-- A dictionary of values of any type, with a pair for each property of an object literal. -/
def IsDictionaryOf (indent : Indent) (m : Node) (f : Fragment) : Prop :=
  ∃ vs entries, m.get .properties = .list vs ∧ List.Forall₂ (fun _ => IsPair) vs entries ∧
    f = initializerList indent [.text "new Dictionary<string, object>"] entries

/-- Among the pairs of a dictionary, a key and a value are a pair. -/
theorem ensures_assignment {view : View Flags} (h : view.context.keyValue.truthy = true)
    (key value : Value) : (assignment view key value).Ensures IsPair := by
  unfold assignment
  rw [if_pos h]
  exact Run.ensures_bind fun key => Run.ensures_bind fun value => Run.ensures_pure ⟨key, value, rfl⟩

/-- So are the properties of an object literal. -/
theorem ensures_pair (hk : n.kind ∈ Kind.assignments) (h : c.keyValue.truthy = true) :
    ((backend indent preferStruct).convert checker c n.toValue).Ensures IsPair := by
  simp only [Kind.assignments, List.mem_cons, List.not_mem_nil, or_false] at hk
  rcases hk with hk | hk
  · have hrule : rule? indent n.kind = some propertyAssignment := by
      rw [hk]
      rfl
    rw [convert_of_rule hrule]
    exact ensures_assignment h _ _
  · have hrule : rule? indent n.kind = some shorthandAssignment := by
      rw [hk]
      rfl
    rw [convert_of_rule hrule]
    exact ensures_assignment h _ _

/-- Only object literals leave open what they are rendered as. -/
theorem kind_of_leavesOpen (h : checker.leavesOpen n = true) :
    n.kind = .objectLiteralExpression := by
  unfold Checker.leavesOpen at h
  rw [Bool.and_eq_true, beq_iff_eq] at h
  exact h.1

/-- A literal that is left open is rendered as a dictionary where the option is off. -/
theorem convert_of_leavesOpen {m : Node} (hm : checker.leavesOpen m = true)
    (hc : c.preferStruct = .bool false) :
    (backend indent preferStruct).convert checker c m.toValue =
      keyedLiteral indent none ((backend indent preferStruct).view checker c) m := by
  have hrule : rule? indent m.kind = some (Dispatch.objectLiteral (structLiteral indent)
      (keyedLiteral indent) (untypedLiteral indent)) := by
    rw [kind_of_leavesOpen hm]
    rfl
  rw [convert_of_rule hrule, objectLiteral_of_leavesOpen hm]
  unfold untypedLiteral
  have hoption : ((backend indent preferStruct).view checker c).context.preferStruct.truthy =
      false := by
    show c.preferStruct.truthy = false
    rw [hc]
    rfl
  rw [hoption]
  rfl

/-- That rule makes a dictionary of values of any type. -/
theorem ensures_keyedLiteral {m : Node} (hm : m.isShaped .source = true)
    (hk : m.kind = .objectLiteralExpression) :
    (keyedLiteral indent none ((backend indent preferStruct).view checker c) m).Ensures
      (IsDictionaryOf indent m) := by
  obtain ⟨vs, hvs, hall⟩ := Node.many_of_isShaped hm (f := .properties) (by rw [hk]; rfl)
  have hentries : ((amongPairs ((backend indent preferStruct).view checker c)).convertAll
      (m.get .properties)).Ensures (List.Forall₂ (fun _ => IsPair) vs) := by
    unfold View.convertAll
    rw [hvs]
    refine Run.ensures_mapM_forall₂ fun v hv => ?_
    obtain ⟨p, rfl, hp⟩ := hall v hv
    exact ensures_pair hp rfl
  unfold keyedLiteral
  refine hentries.bind fun entries hpairs => Run.ensures_pure ?_
  exact ⟨vs, entries, hvs, hpairs, rfl⟩

end CSharp

namespace Target

open CSharp (IsDictionaryOf keyedLiteral)

/-- The option has no part in the rendering of a tree in which every literal that is left open
stands inside of what initializes a variable: the text and the diagnostics are the same whatever was
asked for, and so is the fault if there is one. In a program there is none. Wherever such a literal
is rendered, at any depth, the option is off, and the literal is made a dictionary. -/
theorem preference_confined {options' options : List (String × Data)} {o' o : Options}
    {checker : Checker} {root : Value} (hoptions' : ∀ option ∈ options', IsOption option)
    (hoptions : ∀ option ∈ options, IsOption option) (ho' : Options.ofMembers options' = .ok o')
    (ho : Options.ofMembers options = .ok o) (hindent : o'.indent = o.indent)
    (hroot : root.allOutside (fun n => !checker.leavesOpen n) = true) :
    render (.text CSharp.name) options' checker root =
      render (.text CSharp.name) options checker root ∧
    (root.IsShaped .source → (∀ k ∈ root.kind?, k ∉ Kind.inner) → checker.IsTabled →
      ∃ r, render (.text CSharp.name) options checker root = .ok r) ∧
    ∀ around c (m : Node),
      (CSharp.backend o.indent o.preferStruct).Reaches checker root around c m.toValue →
      checker.leavesOpen m = true →
        c.preferStruct = .bool false ∧
        (CSharp.backend o.indent o.preferStruct).convert checker c m.toValue =
          keyedLiteral o.indent none ((CSharp.backend o.indent o.preferStruct).view checker c) m ∧
        (root.IsShaped .source → checker.IsTabled → ∃ f,
          ((CSharp.backend o.indent o.preferStruct).convert checker c m.toValue).outcome = .ok f ∧
          IsDictionaryOf o.indent m f) := by
  have hwhole : o.indent.isWhole = true := isWhole_of_ofMembers hoptions ho
  refine ⟨?_, fun hshaped hkind hchecker => ?_, fun around c m hreaches hm => ?_⟩
  · rw [render_eq hoptions' ho', render_eq hoptions ho, hindent]
    exact CSharp.render_preferring _ hroot
  · obtain ⟨n, rfl⟩ := Value.exists_of_kind? hshaped.1
    obtain ⟨f, -, -, hrender⟩ := CSharp.finishes hwhole o.preferStruct
      ⟨hshaped.2, hkind n.kind rfl⟩ hchecker
    exact ⟨_, (render_eq hoptions ho).trans hrender⟩
  · obtain ⟨inside, hstands, hoption⟩ := CSharp.preferStruct_of_reaches hreaches
    have hinside : inside = true := by
      by_contra houtside
      obtain rfl := Bool.not_eq_true _ ▸ houtside
      have hclosed := Value.allOutside_toValue (hstands.allOutside hroot)
      rw [hm] at hclosed
      cases hclosed
    rw [hinside] at hoption
    have hoff : c.preferStruct = .bool false := hoption
    have hconvert : (CSharp.backend o.indent o.preferStruct).convert checker c m.toValue =
        keyedLiteral o.indent none ((CSharp.backend o.indent o.preferStruct).view checker c) m :=
      CSharp.convert_of_leavesOpen hm hoff
    refine ⟨hoff, hconvert, fun hshaped hchecker => ?_⟩
    have hk : m.kind = .objectLiteralExpression := CSharp.kind_of_leavesOpen hm
    obtain ⟨f, hf⟩ := CSharp.exists_outcome_of_reaches hshaped hchecker hwhole hreaches
      (by rw [hk]; decide)
    refine ⟨f, hf, CSharp.ensures_keyedLiteral ?_ hk f (hconvert ▸ hf)⟩
    exact ((Value.all_toValue m).1 (hstands.all hshaped.2)).1

/-- A literal without properties. -/
def noLimits : Node := ⟨.objectLiteralExpression, .unknown, .text "", none, [.list []]⟩

/-- A property with that value. -/
def lowLimits : Node :=
  ⟨.propertyAssignment, .unknown, .text "", none,
    [.bare .identifier [.text "low"], noLimits.toValue]⟩

/-- A literal with that property. -/
def limits : Node :=
  ⟨.objectLiteralExpression, .unknown, .text "", none, [.list [lowLimits.toValue]]⟩

/-- An array of that literal. -/
def limitList : Node :=
  ⟨.arrayLiteralExpression, .unknown, .text "", none, [.list [limits.toValue]]⟩

/-- The declaration of a variable with that array. -/
def limitDeclaration : Node :=
  ⟨.variableDeclaration, .unknown, .text "", none,
    [.bare .identifier [.text "limits"], .null, limitList.toValue]⟩

/-- The context of what initializes a variable. -/
def initializerFlags : CSharp.Flags := { preferStruct := .bool false }

/-- The context of the pairs of a dictionary there. -/
def entryFlags : CSharp.Flags := { initializerFlags with keyValue := .bool true }

/-- The context of their keys. -/
def entryKeyFlags : CSharp.Flags := { entryFlags with identifierAsString := .bool true }

/-- The innermost literal is rendered. -/
theorem reaches_noLimits :
    (CSharp.backend (.blanks 4) (.bool true)).Reaches .recorded limitDeclaration.toValue
      [lowLimits, limits, limitList, limitDeclaration] initializerFlags noLimits.toValue := by
  have hlist : (CSharp.backend (.blanks 4) (.bool true)).Reaches .recorded
      limitDeclaration.toValue [limitDeclaration] initializerFlags limitList.toValue := by
    refine .ask .root (Backend.asks_of_fault_after .tooLong (fun answers hothers h => ?_) nofun)
    have hname := hothers {} (limitDeclaration.get .name) fun heq => nomatch heq.2
    change (answers {} (limitDeclaration.get .name) >>= fun _ =>
      answers initializerFlags limitList.toValue >>= _).outcome = _
    rw [hname, h]
    rfl
  have hliteral : (CSharp.backend (.blanks 4) (.bool true)).Reaches .recorded
      limitDeclaration.toValue [limitList, limitDeclaration] initializerFlags limits.toValue := by
    refine .ask hlist (Backend.asks_of_fault .tooLong (fun answers h => ?_) nofun)
    have helements : ((View.mk initializerFlags .recorded answers).convertAll
        (.list [limits.toValue])).outcome = .error .tooLong := by
      change (answers initializerFlags limits.toValue >>= _).outcome = _
      rw [h]
      rfl
    exact Backend.outcome_bind_of_error helements _
  have hpair : (CSharp.backend (.blanks 4) (.bool true)).Reaches .recorded
      limitDeclaration.toValue [limits, limitList, limitDeclaration] entryFlags
      lowLimits.toValue := by
    refine .ask hliteral (Backend.asks_of_fault .tooLong (fun answers h => ?_) nofun)
    have hpairs : ((View.mk entryFlags .recorded answers).convertAll
        (.list [lowLimits.toValue])).outcome = .error .tooLong := by
      change (answers entryFlags lowLimits.toValue >>= _).outcome = _
      rw [h]
      rfl
    exact Backend.outcome_bind_of_error hpairs _
  refine .ask hpair (Backend.asks_of_fault_after .tooLong (fun answers hothers h => ?_) nofun)
  have hkey := hothers entryKeyFlags (lowLimits.get .name) fun heq => nomatch heq.2
  change (answers entryKeyFlags (lowLimits.get .name) >>= fun _ =>
    answers initializerFlags noLimits.toValue >>= _).outcome = _
  rw [hkey, h]
  rfl

/-- The limits are rendered alike with the option and without, as dictionaries: they only stand in
what initializes a variable. -/
theorem preference_confined_limits :
    limitDeclaration.toValue.allOutside (fun n => !Checker.recorded.leavesOpen n) = true ∧
    render (.text CSharp.name) [("prefer_object_literal_as_struct", .bool false)] .recorded
        limitDeclaration.toValue =
      render (.text CSharp.name) [("prefer_object_literal_as_struct", .bool true)] .recorded
        limitDeclaration.toValue ∧
    (∃ r, render (.text CSharp.name) [("prefer_object_literal_as_struct", .bool true)] .recorded
      limitDeclaration.toValue = .ok r) ∧
    Checker.recorded.leavesOpen noLimits = true ∧
    ∃ c f, (CSharp.backend (.blanks 4) (.bool true)).Reaches .recorded limitDeclaration.toValue
        [lowLimits, limits, limitList, limitDeclaration] c noLimits.toValue ∧
      ((CSharp.backend (.blanks 4) (.bool true)).convert .recorded c noLimits.toValue).outcome =
        .ok f ∧ IsDictionaryOf (.blanks 4) noLimits f := by
  have hoptions (b : Bool) : ∀ option ∈ [("prefer_object_literal_as_struct", Data.bool b)],
      IsOption option := by
    intro option hmem
    obtain rfl := List.mem_singleton.1 hmem
    exact Or.inl rfl
  have hroot : limitDeclaration.toValue.allOutside
      (fun n => !Checker.recorded.leavesOpen n) = true := by decide
  have hshaped : limitDeclaration.toValue.IsShaped .source := by decide
  have hread (b : Bool) : Options.ofMembers [("prefer_object_literal_as_struct", Data.bool b)] =
      .ok { preferStruct := .bool b } := rfl
  obtain ⟨hsame, hexists, hcalls⟩ := preference_confined (hoptions false) (hoptions true)
    (hread false) (hread true) rfl hroot
  obtain ⟨-, -, hdictionary⟩ := hcalls _ _ noLimits reaches_noLimits rfl
  obtain ⟨f, hf, hmade⟩ := hdictionary hshaped (Or.inl rfl)
  exact ⟨hroot, hsame, hexists hshaped (by decide) (Or.inl rfl), rfl, _, f, reaches_noLimits, hf,
    hmade⟩

end Target

end CodeSample

import CodeSample.Proofs.SpelledRules
import CodeSample.Target.Registry

/-!
# How the keys of object literals are spelled does not show

Two trees that differ in nothing but how the properties of object literals are spelled are the same
when these are spelled out, and a tree is rendered like the one that is spelled out.

* `visit_key`, `visit_property`: in the context of a key only its text counts, and a property
  without a value is rendered like the assignment of the variable of its name;
* `keepsSpelling_convertWithin` is the induction over a tree, for all seats;
* `Target.render_respelled` is the statement for whole trees.
-/

namespace CodeSample

open Layout (Fragment Indent)

namespace CSharp

variable {n : Node} {c : Flags} {checker : Checker} {f' f : Flags → Value → Run Fragment}

/-! ### Keys and properties -/

/-- Identifiers are rendered by their text, and in the context of a key so are string literals. -/
theorem identifier_spelledOut {n' n : Node} (htext : n'.get .text = n.get .text)
    (hkind : n'.kind = n.kind ∨ c.namesKeys) :
    identifier ⟨c, checker, f'⟩ n' = (identifier ⟨c, checker, f⟩ n).spelledOut := by
  unfold identifier
  rw [htext]
  simp only [Run.spelledOut_bind, Run.spelledOut_ofExcept, Run.spelledOut_pure,
    Run.spelledOut_ite]
  rcases hkind with hkind | hstring | ⟨hmember, -⟩
  · rw [hkind]
  · rw [if_pos hstring, if_pos hstring]
  · rw [if_pos hmember, if_pos hmember]

/-- In the context of a key, a string literal is rendered like an identifier. -/
theorem stringLiteral_of_namesKeys (hc : c.namesKeys) (n : Node) :
    stringLiteral ⟨c, checker, f⟩ n = identifier ⟨c, checker, f⟩ n := by
  unfold stringLiteral
  split
  · rfl
  · rename_i hplain
    rcases hc with hstring | ⟨-, hidentifier⟩
    · rw [identifier, if_pos hstring]
      rfl
    · exact absurd hidentifier hplain

section

variable {indent : Indent} {preferStruct : Data}

/-- A node outside of these seats is rendered as it is when its parts are spelled out. -/
theorem visit_spelledOut (hn : n.toValue.isDeclared = true) (hc : checker.IgnoresSpelling)
    (h : KeepsSpelling f' f) :
    (backend indent preferStruct).visit ⟨c, checker, f'⟩ n.spelledOut =
      ((backend indent preferStruct).visit ⟨c, checker, f⟩ n).spelledOut := by
  cases hr : rule? indent n.kind with
  | none =>
    have hr : (backend indent preferStruct).rule? n.kind = none := hr
    rw [Backend.visit, Backend.visit, Node.kind_spelledOut, hr]
    rfl
  | some rule =>
    rw [visit_of_rule hr, visit_of_rule (n := n.spelledOut) hr]
    exact keepsSpelling_rule hr n c checker f' f hn hc h

/-- The rule for a key, which in the context of a key is that for identifiers. -/
theorem visit_key (hk : n.kind ∈ Seat.key.kinds) (hc : c.namesKeys) :
    (backend indent preferStruct).visit ⟨c, checker, f⟩ n = identifier ⟨c, checker, f⟩ n := by
  rcases List.mem_cons.1 hk with hk | hk
  · exact visit_of_rule (by rw [hk]; rfl)
  · have hr : rule? indent n.kind = some stringLiteral := by
      rw [List.mem_singleton.1 hk]
      rfl
    rw [visit_of_rule hr, stringLiteral_of_namesKeys hc]

/-- A property that is spelled out is rendered like the property. -/
theorem visit_property (hn : n.toValue.isDeclared = true) (hk : n.kind ∈ Kind.assignments)
    (h : KeepsSpelling f' f) :
    (backend indent preferStruct).visit ⟨c, checker, f'⟩
        ⟨.propertyAssignment, .unknown, .text "", none, Value.spelledOutPair n.fields⟩ =
      ((backend indent preferStruct).visit ⟨c, checker, f⟩ n).spelledOut := by
  have hfields := Node.fields_eq_map_get
    (Node.length_of_isShaped ((Value.all_toValue n).1 hn).1 Grammar.length_declared)
  have hname := Value.all_get hn .name
  have hinitializer := Value.all_get hn .initializer
  rw [visit_of_rule (n := ⟨.propertyAssignment, _, _, _, _⟩) rfl, hfields]
  rcases List.mem_cons.1 hk with hk | hk
  · have hr : rule? indent n.kind = some propertyAssignment := by rw [hk]; rfl
    rw [visit_of_rule hr, hk]
    exact assignment_spelledOut h hname hinitializer (by decide)
  · have hk := List.mem_singleton.1 hk
    have hr : rule? indent n.kind = some shorthandAssignment := by rw [hk]; rfl
    rw [visit_of_rule hr, hk]
    exact assignment_spelledOut h hname hname (by decide)

/-- Keys, values and properties that are spelled out are rendered like they are. -/
theorem visit_spelling (checker : Checker) {seat : Seat} (hn : n.toValue.isDeclared = true)
    (hk : n.kind ∈ seat.kinds) (hkey : seat = .key → c.namesKeys) (h : KeepsSpelling f' f) :
    ∃ m : Node, n.toValue.spelledOut seat = m.toValue ∧
      (backend indent preferStruct).visit ⟨c, checker, f'⟩ m =
        ((backend indent preferStruct).visit ⟨c, checker, f⟩ n).spelledOut := by
  refine ⟨_, Value.spelledOut_of_mem hk, ?_⟩
  cases seat with
  | property => exact visit_property hn hk h
  | key =>
    have hspelling : Kind.stringLiteral ∈ Seat.key.kinds := by decide
    rw [visit_key hk (hkey rfl)]
    refine (visit_key (n := ⟨.stringLiteral, .unknown, .text "", none, n.fields⟩) hspelling
      (hkey rfl)).trans (identifier_spelledOut ?_ (Or.inr (hkey rfl)))
    rcases List.mem_cons.1 hk with hk | hk
    · rw [Node.get, Node.get, hk]
      rfl
    · rw [Node.get, Node.get, List.mem_singleton.1 hk]
  | value =>
    have hk : n.kind = .identifier := List.mem_singleton.1 hk
    have hr : rule? indent n.kind = some identifier := by rw [hk]; rfl
    rw [visit_of_rule hr]
    refine (visit_of_rule (n := ⟨.identifier, .unknown, .text "", none, n.fields⟩) rfl).trans
      (identifier_spelledOut ?_ (Or.inl hk.symm))
    rw [Node.get, Node.get, hk]
  | other => cases hk

/-- What is no node is rendered the same when it is spelled out. -/
theorem convertWithin_spelledOut_of_node?_eq_none (seat : Seat) (depth : Nat) {v : Value}
    (h : v.node? = none) :
    (backend indent preferStruct).convertWithin checker depth c (v.spelledOut seat) =
      ((backend indent preferStruct).convertWithin checker depth c v).spelledOut := by
  rw [Backend.convertWithin_of_node?_eq_none _ _ _ _ h,
    Backend.convertWithin_of_node?_eq_none _ _ _ _ (Value.node?_spelledOut_eq_none seat h),
    Value.isNull_spelledOut]
  split <;> rfl

/-- Trees that are spelled out are rendered like the trees. -/
theorem keepsSpelling_convertWithin (hc : checker.IgnoresSpelling) (depth : Nat) :
    KeepsSpelling ((backend indent preferStruct).convertWithin checker depth)
      ((backend indent preferStruct).convertWithin checker depth) := by
  induction depth with
  | zero =>
    intro seat c v _ _
    cases hn : v.node? with
    | none => exact convertWithin_spelledOut_of_node?_eq_none seat 0 hn
    | some n =>
      obtain rfl := Value.toValue_of_node? hn
      obtain ⟨m, hm⟩ := Value.spelledOut_node seat n
      rw [hm]
      rfl
  | succ depth ih =>
    intro seat c v hv hkey
    cases hn : v.node? with
    | none => exact convertWithin_spelledOut_of_node?_eq_none seat (depth + 1) hn
    | some n =>
      obtain rfl := Value.toValue_of_node? hn
      by_cases hk : n.kind ∈ seat.kinds
      · obtain ⟨m, hm, hvisit⟩ := visit_spelling checker hv hk hkey ih
        rw [hm]
        exact hvisit
      · rw [Value.spelledOut_toValue hk]
        exact visit_spelledOut hv hc ih

end

end CSharp

/-! ### Trees that differ in spelling -/

/-- Two nodes of one kind are recorded at the same place. -/
structure Node.Aligned (n' n : Node) : Prop where
  kind : n'.kind = n.kind
  pos : n'.pos = n.pos

/-- Runs that are the same when what they report is spelled out go alike. -/
theorem Run.alike_of_spelledOut_eq {α : Type} {r' r : Run α} (h : r'.spelledOut = r.spelledOut) :
    Run.Alike Node.Aligned Eq Eq r' r := by
  have hreports : r'.reports.map Diagnostic.spelledOut = r.reports.map Diagnostic.spelledOut :=
    congrArg Run.reports h
  have houtcome : r'.spelledOut.outcome = r.spelledOut.outcome := by rw [h]
  refine ⟨?_, ?_⟩
  · rw [← List.forall₂_eq_eq_eq, List.forall₂_map_left_iff, List.forall₂_map_right_iff] at hreports
    refine hreports.imp fun d' d hd => ⟨⟨?_, ?_⟩, ?_⟩
    · show d'.spelledOut.kind = d.spelledOut.kind
      rw [hd]
    · show d'.spelledOut.pos = d.spelledOut.pos
      rw [hd]
    · show d'.spelledOut.message = d.spelledOut.message
      rw [hd]
  · rw [show r'.outcome = r.outcome from houtcome]
    cases r.outcome with
    | ok a => exact .ok rfl
    | error fault => exact .error rfl

namespace CSharp

/-- Trees that differ in how properties are spelled are rendered alike in every context. -/
theorem alike_convert_of_respelled {root' root : Value} {checker : Checker}
    (hroot' : root'.isDeclared = true) (hroot : root.isDeclared = true)
    (h : Value.Respelled .other root' root) (hchecker : checker.IgnoresSpelling) (indent : Indent)
    (preferStruct : Data) (c : Flags) :
    Run.Alike Node.Aligned Eq Eq ((backend indent preferStruct).convert checker c root')
      ((backend indent preferStruct).convert checker c root) := by
  have hlocal := isLocal indent preferStruct
  have spelled {v : Value} (hv : v.isDeclared = true) (depth : Nat) (hdepth : v.depth ≤ depth) :
      ((backend indent preferStruct).convert checker c v).spelledOut =
        (backend indent preferStruct).convertWithin checker depth c (v.spelledOut .other) := by
    rw [← Backend.convertWithin_eq hlocal checker depth c v hdepth]
    exact (keepsSpelling_convertWithin hchecker depth .other c v hv fun hkey => by cases hkey).symm
  refine Run.alike_of_spelledOut_eq ?_
  rw [spelled hroot' _ (Nat.le_max_left root'.depth root.depth),
    spelled hroot _ (Nat.le_max_right root'.depth root.depth), h.spelledOut_eq]

end CSharp

namespace Target

variable {checker : Checker} {root' root : Value}

/-- How the properties of object literals are spelled does not show. Two declared trees in which any
keys are identifiers in the one and string literals in the other, and any properties without a value
have the variable of their name as value, are rendered alike, by a checker whose answers do not
depend on this. There is the same text, and the same is reported on nodes of the same kind and
place, one after the other; or both fail for the same reason. This holds for every target with any
options, and in every context of the C# backend, be object literals structs or dictionaries there. A
program of the samples' language does not fail. -/
theorem render_respelled (hroot' : root'.IsShaped .declared) (hroot : root.IsShaped .declared)
    (h : Value.Respelled .other root' root) (hchecker : checker.IgnoresSpelling) :
    (∀ target options, Tally Eq (Rendering.Alike Node.Aligned)
      (render target options checker root') (render target options checker root)) ∧
    (∀ indent preferStruct c, Run.Alike Node.Aligned Eq Eq
      ((CSharp.backend indent preferStruct).convert checker c root')
      ((CSharp.backend indent preferStruct).convert checker c root)) ∧
    (∀ options, root.IsShaped .source → (∀ k ∈ root.kind?, k ∉ Kind.inner) → checker.IsTabled →
      (∀ o ∈ options, IsOption o) →
      ∃ r' r, render (.text CSharp.name) options checker root' = .ok r' ∧
        render (.text CSharp.name) options checker root = .ok r ∧
        Rendering.Alike Node.Aligned r' r) := by
  have hconvert := CSharp.alike_convert_of_respelled hroot'.2 hroot.2 h hchecker
  have hrender := tally_of_backends (fun _ _ => rfl) fun indent preferStruct =>
    Backend.tally_render (fun _ _ => rfl) (hconvert indent preferStruct _)
  refine ⟨hrender, hconvert, fun options hsource hkind htabled hoptions => ?_⟩
  obtain ⟨⟨backend, -, ⟨f, -, -, hfinished⟩, heq⟩, -⟩ :=
    exists_rendering hsource hkind htabled hoptions CSharp.name
  have halike := hrender (.text CSharp.name) options
  rw [heq, hfinished] at halike ⊢
  generalize render (.text CSharp.name) options checker root' = outcome' at halike
  cases halike with
  | ok halike => exact ⟨_, _, rfl, rfl, halike⟩

/-- A call with an object literal, one key of which is an identifier and the other a string literal,
and vice versa; and in it another one, which may leave out the value of its property. -/
def order (spelled : Bool) : Value :=
  let identifier (s : String) := Value.bare .identifier [.text s]
  let key (quoted : Bool) (s : String) :=
    if quoted then Value.bare .stringLiteral [.text s] else identifier s
  let property (quoted : Bool) (s : String) (value : Value) :=
    Value.bare .propertyAssignment [key quoted s, value]
  let inner := if spelled then property false "amount" (identifier "amount")
    else Value.bare .shorthandPropertyAssignment [identifier "amount"]
  .bare .callExpression [identifier "send", .list [.bare .objectLiteralExpression [.list [
    property spelled "price" (.bare .objectLiteralExpression [.list [inner]]),
    property (!spelled) "class" (identifier "kind")]]]]

/-- The two spellings of an order differ in keys and shorthands only. -/
theorem respelled_order : Value.Respelled .other (order true) (order false) := by
  have inner : Value.Respelled .value
      (.bare .objectLiteralExpression [.list [.bare .propertyAssignment
        [.bare .identifier [.text "amount"], .bare .identifier [.text "amount"]]]])
      (.bare .objectLiteralExpression [.list [.bare .shorthandPropertyAssignment
        [.bare .identifier [.text "amount"]]]]) :=
    .node (by decide) (.cons (.list (.cons (.expanded (.same _ _) (.same _ _)) .nil)) .nil)
  exact .node (by decide) (.cons (.same _ _) (.cons (.list (.cons (.node (by decide)
    (.cons (.list (.cons (.property (.key (by decide) (by decide)) inner)
      (.cons (.property (.key (by decide) (by decide)) (.same _ _)) .nil))) .nil)) .nil)) .nil))

/-- An order in both spellings, rendered with structs and with dictionaries. -/
theorem render_respelled_order :
    (order true).IsShaped .declared ∧ (order false).IsShaped .declared ∧
    Value.Respelled .other (order true) (order false) ∧ Checker.recorded.IgnoresSpelling ∧
    (render (.text CSharp.name) [] .recorded (order false)).map (·.text) =
      .ok "Send(new Struct \x7b Price = new Struct \x7b Amount = amount \x7d, Class = kind \x7d)" ∧
    (∃ r' r, render (.text CSharp.name) [] .recorded (order true) = .ok r' ∧
      render (.text CSharp.name) [] .recorded (order false) = .ok r ∧
      Rendering.Alike Node.Aligned r' r) ∧
    ∃ r' r, render (.text CSharp.name) [("prefer_object_literal_as_struct", .bool false)] .recorded
        (order true) = .ok r' ∧
      render (.text CSharp.name) [("prefer_object_literal_as_struct", .bool false)] .recorded
        (order false) = .ok r ∧
      Rendering.Alike Node.Aligned r' r := by
  have hshaped' : (order true).IsShaped .declared := by decide
  have hshaped : (order false).IsShaped .declared := by decide
  have htabled : Checker.recorded.IsTabled := Or.inl rfl
  obtain ⟨-, -, hrendered⟩ :=
    render_respelled hshaped' hshaped respelled_order htabled.ignoresSpelling
  refine ⟨hshaped', hshaped, respelled_order, htabled.ignoresSpelling, by decide +kernel, ?_, ?_⟩
  · exact hrendered [] (by decide) (by decide) htabled (by simp)
  · exact hrendered _ (by decide) (by decide) htabled (by simp [IsOption])

end Target

end CodeSample

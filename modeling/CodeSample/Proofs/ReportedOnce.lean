import CodeSample.Proofs.RuleShares
import CodeSample.Proofs.TypeCodec
import CodeSample.Target.Registry

/-!
# No node is reported twice

What is reported while a tree is rendered is counted against the nodes of the tree, so that each is
reported at most once, by the rule for it or by the one for the node around it.

* `Backend.counts_convertWithin` is the induction over a tree: if each rule splits what it reports
  among different shares of its node, no more than the nodes of the tree are reported;
* `Value.ReportsOnce` says it of places, and `reported_once` is the statement on renderings.
-/

namespace CodeSample

open Layout (Indent)

/-! ### Whole trees -/

section

variable {C : Type} {backend : Backend C} {checker : Checker}

/-- What is reported when a node is rendered is counted against its tree, if its rule splits it
among shares. -/
theorem Backend.visit_within {view : View C} {n : Node} (hn : n.isShaped .declared = true)
    (hrule : ∀ rule, backend.rule? n.kind = some rule → rule.Splits view n) :
    (backend.visit view n).Within n.toValue.tree := by
  unfold Backend.visit
  split
  · rename_i rule hr
    obtain ⟨ss, hnodup, hss, hwithin⟩ := hrule rule hr
    exact hwithin.mono (Node.shares_le_tree hn hnodup hss)
  · exact Run.within_fail _ _

/-- What is reported below some depth is counted against the nodes there, if the rules split what
they report. -/
theorem Backend.counts_convertWithin (hrule : ∀ depth c n rule, n.toValue.isDeclared = true →
      Counts (backend.convertWithin checker depth) → backend.rule? n.kind = some rule →
        rule.Splits ⟨c, checker, backend.convertWithin checker depth⟩ n) (depth : Nat) :
    Counts (backend.convertWithin checker depth) := by
  induction depth with
  | zero =>
    intro c v _
    cases v <;> first | exact Run.within_pure _ _ | exact Run.within_fail _ _
  | succ depth ih =>
    intro c v hv
    cases v with
    | node kind pos source type? fields =>
      exact visit_within (n := ⟨kind, pos, source, type?, fields⟩) ((Value.all_toValue _).1 hv).1
        fun rule hr => hrule depth c _ rule hv ih hr
    | null => exact Run.within_pure _ _
    | _ => exact Run.within_fail _ _

end

/-- What the neutral backend reports is counted against the nodes of the tree. -/
theorem Neutral.counts_convert (name : String) (checker : Checker) :
    Counts ((backend name).convert checker) := fun c v hv =>
  Backend.counts_convertWithin (fun _ _ _ _ hn h hr => splits_rule h hn hr) v.depth c v hv

/-- What the C# backend reports is counted against the nodes of the tree. -/
theorem CSharp.counts_convert (indent : Indent) (preferStruct : Data) (checker : Checker) :
    Counts ((backend indent preferStruct).convert checker) := by
  intro c v hv
  refine Backend.counts_convertWithin (fun depth c n rule hn h hr => ?_) v.depth c v hv
  refine splits_rule h hn (fun c m hm => ?_) hr
  cases depth with
  | zero => exact Run.within_fail _ _
  | succ depth =>
    show ((backend indent preferStruct).visit ⟨c, checker, _⟩ m).Within 0
    rw [visit_of_rule (show rule? indent m.kind = some identifier by rw [hm]; rfl)]
    exact within_identifier

/-! ### Places -/

/-- Diagnostics are on nodes of a tree, and no two of them are at the same place. -/
structure Value.ReportsOnce (root : Value) (ds : List Diagnostic) : Prop where
  mem : ∀ d ∈ ds, d.node ∈ (root.walk 0).map Prod.snd
  nodup : (ds.map Diagnostic.pos).Nodup

/-- No node of a tree is reported twice, if its places tell the nodes apart. -/
theorem Run.Within.reportsOnce {α : Type} {r : Run α} {root : Value} (h : r.Within root.tree)
    (hplaces : ((root.walk 0).map fun x => x.2.pos).Nodup) : root.ReportsOnce r.reports := by
  refine ⟨fun d hd => ?_, ?_⟩
  · exact Multiset.mem_coe.1 (Multiset.mem_of_le h (List.mem_map_of_mem hd))
  · have hle := Multiset.map_le_map (f := Node.pos) h
    rw [Value.tree, Multiset.map_coe, Multiset.map_coe, List.map_map, List.map_map] at hle
    exact Multiset.coe_nodup.1 (Multiset.nodup_of_le hle (Multiset.coe_nodup.2 hplaces))

/-- The diagnostics of a rendering are what is reported when its root is converted. -/
theorem Backend.diagnostics_of_render {C : Type} {backend : Backend C} {checker : Checker}
    {root : Value} {r : Rendering} (h : backend.render checker root = .ok r) :
    r.diagnostics = (backend.convert checker backend.initial root).reports := by
  obtain ⟨f, -, h⟩ := Fault.exists_of_bind h
  obtain ⟨text, -, h⟩ := Fault.exists_of_bind h
  obtain rfl := Except.ok.inj h
  rfl

/-- What a target renders, a C# backend renders. -/
theorem Target.exists_backend_of_render {target : Data} {options : List (String × Data)}
    {checker : Checker} {root : Value} {r : Rendering}
    (h : render target options checker root = .ok r) : ∃ indent preferStruct,
      (CSharp.backend indent preferStruct).render checker root = .ok r := by
  unfold render at h
  split at h
  · cases h
  · obtain ⟨b, hb, h⟩ := Fault.exists_of_bind h
    unfold backend at hb
    split at hb
    · cases hb
    · cases hb
    · split at hb
      · obtain ⟨o, -, hb⟩ := Fault.exists_of_bind hb
        obtain rfl := Except.ok.inj hb
        exact ⟨_, _, h⟩
      · cases hb

/-- Every node is reported at most once in a rendering, be it of a tree whose nodes, annotations
among them, stand at different places. No two diagnostics are at the same place then, and each is on
a node of the tree. This holds of both backends, with any checker and any options, in every context,
and whether or not the rendering ends in a fault. -/
theorem reported_once {root : Value} (hroot : root.IsShaped .declared)
    (hplaces : ((root.walk 0).map fun x => x.2.pos).Nodup) (checker : Checker) :
    (∀ target options r, Target.render target options checker root = .ok r →
      root.ReportsOnce r.diagnostics) ∧
    (∀ name r, (Neutral.backend name).render checker root = .ok r →
      root.ReportsOnce r.diagnostics) ∧
    (∀ indent preferStruct c,
      root.ReportsOnce ((CSharp.backend indent preferStruct).convert checker c root).reports) ∧
    ∀ name c, root.ReportsOnce ((Neutral.backend name).convert checker c root).reports := by
  have csharp (indent : Indent) (preferStruct : Data) (c : CSharp.Flags) :
      root.ReportsOnce ((CSharp.backend indent preferStruct).convert checker c root).reports :=
    (CSharp.counts_convert indent preferStruct checker c root hroot.2).reportsOnce hplaces
  have neutral (name : String) (c : Plain) :
      root.ReportsOnce ((Neutral.backend name).convert checker c root).reports :=
    (Neutral.counts_convert name checker c root hroot.2).reportsOnce hplaces
  refine ⟨fun target options r h => ?_, fun name r h => ?_, csharp, neutral⟩
  · obtain ⟨indent, preferStruct, h⟩ := Target.exists_backend_of_render h
    rw [Backend.diagnostics_of_render h]
    exact csharp indent preferStruct _
  · rw [Backend.diagnostics_of_render h]
    exact neutral name _

/-- A function with a parameter whose annotation cannot be resolved, and with a loop that declares
no variable over an object literal with a shorthand property. -/
def audit : Value :=
  let node (line : Nat) (kind : Kind) (fields : List Value) : Value :=
    .node kind ⟨line, 1⟩ (.text "") none fields
  let name (line : Nat) (s : String) := node line .identifier [.text s]
  node 1 .sourceFile [.list [node 2 .functionDeclaration [name 3 "audit",
    .list [node 4 .parameter [name 5 "entry", node 6 .typeNode [], .null, .bool false]], .null,
    node 7 .block [.list [node 8 .forOfStatement [name 9 "key",
      node 10 .objectLiteralExpression [.list [node 11 .shorthandPropertyAssignment
        [name 12 "entry"]]], node 13 .block [.list []]]]]]], .text "audit.ts"]

/-- A program with two reports, on an annotation and on the head of a loop. -/
theorem reported_once_audit :
    audit.IsShaped .declared ∧ ((audit.walk 0).map fun x => x.2.pos).Nodup ∧
    (Target.render (.text CSharp.name) [] .recorded audit).map (·.diagnostics.map Diagnostic.pos) =
      .ok [⟨6, 1⟩, ⟨9, 1⟩] ∧
    ∀ r, Target.render (.text CSharp.name) [] .recorded audit = .ok r →
      audit.ReportsOnce r.diagnostics := by
  have hshaped : audit.IsShaped .declared := by decide
  have hplaces : ((audit.walk 0).map fun x => x.2.pos).Nodup := by decide
  exact ⟨hshaped, hplaces, by decide +kernel,
    (reported_once hshaped hplaces .recorded).1 (.text CSharp.name) []⟩

end CodeSample

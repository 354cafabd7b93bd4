import CodeSample.Proofs.Likeness
import CodeSample.Proofs.Rebuilt

/-!
# Rebuilt trees are rendered alike

Rendering a rebuilt tree goes as rendering the tree does: the same is answered, the same is reported
on the rebuilt nodes, and what fails does so for the same reason.

* `Mirrored` relates outcomes on a rebuilt tree to those on the tree;
* `Value.alike_rebuilt`, `Node.alike_rebuilt`: a rebuilt tree is read as the tree is, so that
  `Likeness.rebuilt` is a likeness of renderings;
* `Checker.Overlooks` says that a checker does not notice the rebuilding; `Checker.recorded` and
  `Checker.ofTables` do not.
-/

namespace CodeSample

/-- A fault as it is on a rebuilt tree: the same one, with the place as it is read back. -/
def Fault.rebuilt : Fault → Fault
  | unsupported visitor kind pos => unsupported visitor kind pos.rebuilt
  | fault => fault

/-- A diagnostic on a rebuilt tree. -/
def Diagnostic.rebuilt (d : Diagnostic) : Diagnostic := { d with node := d.node.rebuilt }

/-- What a diagnostic says does not tell whether its node was rebuilt. -/
theorem Diagnostic.toText_rebuilt (d : Diagnostic) : d.rebuilt.toText = d.toText := by
  have hknown : d.rebuilt.pos.isKnown = d.pos.isKnown := Pos.isKnown_rebuilt d.pos
  have hshown : d.rebuilt.shown = d.shown := by
    unfold shown
    rw [hknown]
    split
    · rename_i h
      show toString d.pos.rebuilt.line ++ ":" ++ toString d.pos.rebuilt.col ++ ": " ++ _ = _
      rw [Pos.rebuilt_of_isKnown h]
      rfl
    · rfl
  unfold toText
  rw [hknown, hshown]
  rfl

/-! ### Outcomes -/

variable {α α' : Type}

/-- An outcome on a rebuilt tree mirrors the one on the tree: answers correspond, and faults are the
same but for the places in them. -/
inductive Mirrored (R : α' → α → Prop) : Except Fault α' → Except Fault α → Prop where
  | ok {a' : α'} {a : α} (h : R a' a) : Mirrored R (.ok a') (.ok a)
  | error (fault : Fault) : Mirrored R (.error fault.rebuilt) (.error fault)

/-- Mirroring as the tallying of outcomes by the faults as they are on a rebuilt tree. -/
theorem Mirrored.tally_iff {R : α' → α → Prop} {x' : Except Fault α'} {x : Except Fault α} :
    Mirrored R x' x ↔ Tally (fun fault' fault => fault' = fault.rebuilt) R x' x := by
  constructor
  · rintro (h | fault)
    · exact .ok h
    · exact .error rfl
  · rintro (h | rfl)
    · exact .ok h
    · exact .error _

/-- Faults that do not tell where they happened stay the same. -/
theorem Fault.rebuilt_of_not_isPlaced {fault : Fault} (h : fault.isPlaced = false) :
    fault = fault.rebuilt := by
  cases fault <;> first | rfl | cases h

/-- Outcomes that agree mirror each other, as the faults in them are not placed. -/
theorem Mirrored.of_agree {R : α' → α → Prop} {x' : Except Fault α'} {x : Except Fault α}
    (h : Agree R x' x) : Mirrored R x' x := by
  refine Mirrored.tally_iff.2 (h.mono ?_ fun _ _ h => h)
  rintro _ fault ⟨rfl, hplaced⟩
  exact Fault.rebuilt_of_not_isPlaced hplaced

/-! ### Rebuilt trees -/

/-- A node is another one as it is read back. -/
def Node.IsRebuilt (n' n : Node) : Prop := n' = n.rebuilt

namespace Value

mutual

/-- A rebuilt tree is alike the tree. -/
theorem alike_rebuilt : ∀ v : Value, Value.Alike Node.IsRebuilt v.rebuilt v
  | .null => .null
  | .bool b => .bool b
  | .int i => .int i
  | .float x => .float x
  | .text s => .text s
  | .object ms => .object ms
  | .list vs => by
    rw [rebuilt]
    exact .list (alike_rebuiltAll vs)
  | .node kind pos source type? fields => by
    have hn : Node.IsRebuilt (Node.rebuilt ⟨kind, pos, source, type?, fields⟩)
        ⟨kind, pos, source, type?, fields⟩ := rfl
    have halike := Alike.node hn
    rwa [← rebuilt_toValue] at halike

/-- Rebuilt items are alike the items. -/
theorem alike_rebuiltAll : ∀ vs : List Value,
    List.Forall₂ (Value.Alike Node.IsRebuilt) (rebuiltAll vs) vs
  | [] => .nil
  | v :: vs => .cons (alike_rebuilt v) (alike_rebuiltAll vs)

end

end Value

/-- A rebuilt node is read as the node is. -/
theorem Node.alike_rebuilt {n' n : Node} (h : Node.IsRebuilt n' n) :
    Node.Alike Node.IsRebuilt n' n := by
  subst h
  refine ⟨rfl, Value.truthy_rebuiltSource n, fun hsource => ?_, ?_, fun i hi' hi _ => ?_⟩
  · have hnull : n.source.isNull = false := by
      cases hs : n.source <;> simp_all [Value.truthy, Value.isNull]
    rw [show n.rebuilt.source = n.source.rebuilt from if_neg (by simp [hnull])]
    exact Value.alike_rebuilt n.source
  · exact List.length_map _
  · rw [show n.rebuilt.fields[i] = n.fields[i].rebuilt from List.getElem_map ..]
    exact Value.alike_rebuilt n.fields[i]

/-- A diagnostic that is alike another one on a rebuilt tree is that one rebuilt. -/
theorem Diagnostic.Alike.eq_rebuilt {d' d : Diagnostic} (h : Diagnostic.Alike Node.IsRebuilt d' d) :
    d' = d.rebuilt := by
  obtain ⟨node', message'⟩ := d'
  obtain ⟨node, message⟩ := d
  obtain rfl : node' = node.rebuilt := h.node
  obtain rfl : message' = message := h.message
  rfl

/-- Renderings of a rebuilt tree and of the tree go alike. -/
abbrev Likeness.rebuilt : Likeness :=
  .ofNodes Node.IsRebuilt Node.alike_rebuilt (fun fault' fault => fault' = fault.rebuilt)
    (fun _ => Fault.rebuilt_of_not_isPlaced) fun visitor n' n h => by rw [h]; rfl

/-! ### Checkers -/

namespace Checker

/-- A checker has the same answers for a value and for the rebuilt one. -/
structure Overlooks (checker : Checker) : Prop where
  ascription : ∀ v : Value,
    Mirrored Eq (checker.typeOfAscription v.rebuilt) (checker.typeOfAscription v)
  expression : ∀ v : Value,
    Mirrored Eq (checker.typeOfExpression v.rebuilt) (checker.typeOfExpression v)

/-- The type that was recorded with a node is kept. -/
theorem overlooks_recorded : recorded.Overlooks :=
  ⟨fun v => .ok v.type?_rebuilt, fun v => .ok v.type?_rebuilt⟩

/-- Looking a node up by its text is mirrored. -/
theorem mirrored_lookUp (table : List (String × Ty)) (v : Value) :
    Mirrored Eq (lookUp table v.rebuilt) (lookUp table v) := by
  have hsource := (Value.alike_rebuilt v).sourceText Node.alike_rebuilt
  refine .of_agree (hsource.bind fun s' s hs => ?_)
  rw [Value.type?_rebuilt]
  cases hs with
  | list _ | object _ => exact Agree.wrongSort
  | _ => exact .ok rfl

/-- Tables are looked up by source text, which is kept. -/
theorem overlooks_ofTables (ascriptions expressions : List (String × Ty)) :
    (ofTables ascriptions expressions).Overlooks :=
  ⟨mirrored_lookUp ascriptions, mirrored_lookUp expressions⟩

/-- A checker that does not notice the rebuilding has the same answers to what rules ask. -/
theorem Overlooks.checkers {checker : Checker} (h : checker.Overlooks) :
    Likeness.rebuilt.Checkers checker checker := by
  have asked {ask : Value → Except Fault (Option Ty)} {v : Value}
      (hask : Mirrored Eq (ask v.rebuilt) (ask v)) :
      Mirrored Eq (if v.rebuilt.isNull then .ok none else ask v.rebuilt)
        (if v.isNull then .ok none else ask v) := by
    rw [Value.isNull_rebuilt]
    split
    · exact .ok rfl
    · exact hask
  have same {x' x : Except Fault (Option Ty)} (hx : Mirrored Eq x' x) :
      Likeness.rebuilt.run Eq (liftM x') (liftM x) := ⟨.nil, Mirrored.tally_iff.1 hx⟩
  constructor
  · rintro n' n rfl
    rw [Node.get_rebuilt]
    exact same (asked (h.ascription _))
  · rintro n' n rfl -
    rw [Node.get_rebuilt]
    exact same (asked (h.expression _))
  · rintro n' n rfl -
    rw [← Value.rebuilt_toValue]
    exact same (h.expression _)

end Checker

end CodeSample

import CodeSample.Proofs.Calls
import CodeSample.Proofs.Noninterference
import Mathlib.Algebra.BigOperators.Group.Multiset.Basic
import Mathlib.Algebra.Order.BigOperators.Group.List
import Mathlib.Data.Multiset.OrderedMonoid

/-!
# What reports are counted against

The nodes of a tree are divided among its root and the fields of the root. A rule that looks at
different fields reports on different nodes then, and whatever is reported below a node is counted
against the nodes there, each of which can be used up once.

* `Value.tree` are the nodes of a tree and `Value.nodesIn` those of what stands in a field, with
  repetitions;
* `Node.shares` adds up what is counted against a node and against the contents of some of its
  fields, and `shares_le_tree`: different shares do not exceed the tree;
* `Run.Within` says that a run reports no more than some nodes, with one lemma for each way in which
  runs are put together, and `Counts` that this holds of all renderings of values.
-/

namespace CodeSample

open Layout (Fragment)

/-! ### The nodes of a tree, with repetitions -/

namespace Value

/-- The nodes of the tree that a value is. -/
def tree (v : Value) : Multiset Node := ↑((walk 0 v).map Prod.snd)

/-- The nodes of the tree that stands in a field, or of the trees that are listed there. -/
def nodesIn (v : Value) : Multiset Node := ↑((walkFields 0 [v]).map Prod.snd)

/-- The node that a value is, if it is one. -/
def self (v : Value) : Multiset Node := ↑v.node?.toList

/-- A node as a value is itself. -/
@[simp] theorem self_toValue (n : Node) : n.toValue.self = {n} := rfl

mutual

/-- The nodes of a tree do not depend on the depth that the walk starts at. -/
theorem map_snd_walk (depth other : Nat) (v : Value) :
    (walk depth v).map Prod.snd = (walk other v).map Prod.snd := by
  match v with
  | node kind pos source type? fields =>
    rw [walk, walk, List.map_cons, List.map_cons,
      map_snd_walkFields (depth + 1) (other + 1) fields]
  | list _ | null | bool _ | int _ | float _ | text _ | object _ => rw [walk, walk] <;> simp

/-- The nodes in fields do not depend on the depth that the walk starts at. -/
theorem map_snd_walkFields (depth other : Nat) (fields : List Value) :
    (walkFields depth fields).map Prod.snd = (walkFields other fields).map Prod.snd := by
  match fields with
  | [] => rw [walkFields, walkFields]
  | list vs :: fields =>
    rw [walkFields, walkFields, List.map_append, List.map_append, map_snd_walkItems depth other vs,
      map_snd_walkFields depth other fields]
  | node kind pos source type? vs :: fields =>
    rw [walkFields, walkFields, List.map_append, List.map_append,
      map_snd_walk depth other (node kind pos source type? vs),
      map_snd_walkFields depth other fields] <;> simp
  | null :: fields | bool _ :: fields | int _ :: fields | float _ :: fields | text _ :: fields
  | object _ :: fields =>
    rw [walkFields, walkFields, walk, walk, List.nil_append, List.nil_append,
      map_snd_walkFields depth other fields] <;> simp

/-- The nodes among the items of a list do not depend on the depth that the walk starts at. -/
theorem map_snd_walkItems (depth other : Nat) (vs : List Value) :
    (walkItems depth vs).map Prod.snd = (walkItems other vs).map Prod.snd := by
  match vs with
  | [] => rw [walkItems, walkItems]
  | v :: vs =>
    rw [walkItems, walkItems, List.map_append, List.map_append, map_snd_walk depth other v,
      map_snd_walkItems depth other vs]

end

/-- The nodes in all fields are those of each field, added up. -/
theorem nodesIn_fields (depth : Nat) (fields : List Value) :
    (↑((walkFields depth fields).map Prod.snd) : Multiset Node) = (fields.map nodesIn).sum := by
  induction fields with
  | nil => rfl
  | cons v fields ih =>
    rw [walkFields_cons, List.map_append, ← Multiset.coe_add, ih,
      map_snd_walkFields depth 0 [v], List.map_cons, List.sum_cons, nodesIn]

/-- A tree is its root and what stands in the fields of the root. -/
theorem tree_toValue (n : Node) : n.toValue.tree = {n} + (n.fields.map nodesIn).sum := by
  rw [← nodesIn_fields 1, tree, Node.toValue, walk]
  rfl

/-- The nodes in a list are those of the trees that it lists, added up. -/
theorem nodesIn_list (vs : List Value) : (list vs).nodesIn = (vs.map tree).sum := by
  rw [nodesIn, walkFields, walkFields, List.append_nil]
  induction vs with
  | nil => rfl
  | cons v vs ih =>
    rw [walkItems, List.map_append, ← Multiset.coe_add, ih, List.map_cons, List.sum_cons, tree]

/-- The nodes of a tree are among those of the field that it stands in. -/
theorem tree_le_nodesIn (v : Value) : v.tree ≤ v.nodesIn := by
  cases v with
  | list vs => exact Multiset.zero_le _
  | _ =>
    rw [nodesIn, walkFields, walkFields, List.append_nil, tree]
    simp

/-- The root of a tree is among its nodes. -/
theorem self_le_tree (v : Value) : v.self ≤ v.tree := by
  cases hv : v.node? with
  | none =>
    rw [self, hv]
    exact Multiset.zero_le _
  | some n =>
    obtain rfl := toValue_of_node? hv
    rw [self_toValue, tree_toValue]
    exact le_self_add

/-- A node is among the nodes of the field that it stands in. -/
theorem self_le_nodesIn (v : Value) : v.self ≤ v.nodesIn :=
  le_trans v.self_le_tree v.tree_le_nodesIn

/-! ### The nodes of parts -/

/-- What a value enumerates are different trees in it. -/
theorem sum_tree_le_of_items {v : Value} {vs : List Value} (h : v.items = .ok vs) :
    (vs.map tree).sum ≤ v.nodesIn := by
  cases v with
  | list ws =>
    obtain rfl := Except.ok.inj h
    rw [nodesIn_list]
  | text s =>
    obtain rfl := Except.ok.inj h
    refine le_of_eq_of_le (List.sum_eq_zero fun t ht => ?_) (Multiset.zero_le _)
    obtain ⟨w, hw, rfl⟩ := List.mem_map.1 ht
    obtain ⟨c, -, rfl⟩ := List.mem_map.1 hw
    rfl
  | object ms =>
    obtain rfl := Except.ok.inj h
    refine le_of_eq_of_le (List.sum_eq_zero fun t ht => ?_) (Multiset.zero_le _)
    obtain ⟨w, hw, rfl⟩ := List.mem_map.1 ht
    obtain ⟨m, -, rfl⟩ := List.mem_map.1 hw
    rfl
  | _ => cases h

/-- The nodes in a field of a node are among those of its tree. -/
theorem nodesIn_get_le (n : Node) (f : Field) : (n.get f).nodesIn ≤ n.toValue.tree := by
  rw [Node.get]
  cases h : (n.kind.index? f).bind (n.fields[·]?) with
  | none => exact Multiset.zero_le _
  | some v =>
    obtain ⟨i, -, hi⟩ := Option.bind_eq_some_iff.1 h
    rw [tree_toValue]
    exact le_trans (List.le_sum_of_mem (List.mem_map_of_mem (List.mem_of_getElem? hi))) le_add_self

/-- The nodes in a property are among those of the tree. -/
theorem nodesIn_le_of_property {v w : Value} {f : Field} (h : v.property f = .ok w) :
    w.nodesIn ≤ v.tree := by
  unfold property at h
  split at h
  · rename_i n hn
    split at h
    · obtain rfl := Except.ok.inj h
      obtain rfl := toValue_of_node? hn
      exact nodesIn_get_le n f
    · cases h
  · cases h

end Value

/-! ### Shares of a node -/

/-- What a report may be counted against: the node of the rule, or the nodes in one of its
fields. -/
inductive Share where
  | own
  | of (field : Field)
deriving DecidableEq, Repr

/-- All that can be counted against a node of a kind. -/
def Kind.shares (k : Kind) : List Share := .own :: k.slots.map fun slot => .of slot.field

namespace Node

/-- The nodes of a share. -/
def share (n : Node) : Share → Multiset Node
  | .own => {n}
  | .of f => (n.get f).nodesIn

/-- The nodes of several shares together. -/
def shares (n : Node) (ss : List Share) : Multiset Node := (ss.map n.share).sum

/-- One share is counted as it is. -/
theorem shares_singleton (n : Node) (s : Share) : n.shares [s] = n.share s := by
  rw [shares, List.map_singleton, List.sum_singleton]

/-- Shares one after the other are added up. -/
theorem shares_append (n : Node) (ss ts : List Share) :
    n.shares (ss ++ ts) = n.shares ss + n.shares ts := by
  rw [shares, List.map_append, List.sum_append, shares, shares]

/-- All shares together are the tree. -/
theorem shares_kind {n : Node} (h : n.isShaped .declared = true) :
    n.shares n.kind.shares = n.toValue.tree := by
  have hlength : n.fields.length = n.kind.slots.length := by
    rw [← (Node.isShaped_iff.1 h).2.2.1]
    cases n.kind <;> rfl
  rw [Value.tree_toValue, fields_eq_map_get hlength, shares, Kind.shares, List.map_cons,
    List.sum_cons, List.map_map, List.map_map]
  rfl

/-- More shares count for more nodes. -/
theorem shares_mono (n : Node) {ss ts : List Share} (h : ss.Subperm ts) :
    n.shares ss ≤ n.shares ts := by
  obtain ⟨others, hothers⟩ := Multiset.le_iff_exists_add.1 (Multiset.coe_le.2 h)
  rw [shares, shares, ← Multiset.sum_coe, ← Multiset.sum_coe, ← Multiset.map_coe,
    ← Multiset.map_coe, hothers, Multiset.map_add, Multiset.sum_add]
  exact le_self_add

/-- Different shares do not exceed the tree. -/
theorem shares_le_tree {n : Node} (h : n.isShaped .declared = true) {ss : List Share}
    (hnodup : ss.Nodup) (hss : ∀ s ∈ ss, s ∈ n.kind.shares) : n.shares ss ≤ n.toValue.tree := by
  rw [← shares_kind h]
  exact n.shares_mono (List.subperm_of_subset hnodup hss)

end Node

/-! ### What a run reports -/

namespace Run

variable {α β : Type} {r : Run α} {next : α → Run β} {b b' : Multiset Node} {n : Node}
  {ss ts : List Share}

/-- A run reports no more than some nodes, and each of them no more often than it is there. -/
def Within (r : Run α) (budget : Multiset Node) : Prop :=
  ↑(r.reports.map Diagnostic.node) ≤ budget

/-- An answer without a report is within any nodes. -/
theorem within_pure (a : α) (b : Multiset Node) : (pure a : Run α).Within b := Multiset.zero_le b

/-- What does not report is within any nodes, also if it fails. -/
theorem within_ofExcept (x : Except Fault α) (b : Multiset Node) :
    (liftM x : Run α).Within b := Multiset.zero_le b

/-- A fault is within any nodes. -/
theorem within_fail (fault : Fault) (b : Multiset Node) : (fail fault : Run α).Within b :=
  Multiset.zero_le b

/-- What reports within some nodes reports within more. -/
theorem Within.mono (h : r.Within b) (hle : b ≤ b') : r.Within b' := le_trans h hle

/-- Runs in a row report what each of them reports. -/
theorem Within.bind (h : r.Within b) (hnext : ∀ a, (next a).Within b') :
    (r >>= next).Within (b + b') := by
  obtain ⟨reports, outcome⟩ := r
  cases outcome with
  | error fault => exact le_trans h le_self_add
  | ok a =>
    rw [bind_ok, Within, List.map_append, ← Multiset.coe_add]
    exact add_le_add h (hnext a)

/-- What follows an outcome without a report may report as much as it would alone. -/
theorem within_bind_ofExcept {x : Except Fault α} (h : ∀ a, x = .ok a → (next a).Within b) :
    ((liftM x : Run α) >>= next).Within b := by
  cases x with
  | error fault => exact Multiset.zero_le b
  | ok a => exact h a rfl

/-- Going through a list reports within what each step may report, added up. -/
theorem within_mapM {xs : List α} {f : α → Run β} {budget : α → Multiset Node}
    (h : ∀ x ∈ xs, (f x).Within (budget x)) : (xs.mapM f).Within (xs.map budget).sum := by
  induction xs with
  | nil => exact within_pure [] _
  | cons x xs ih =>
    rw [List.mapM_cons, List.map_cons, List.sum_cons]
    refine (h x List.mem_cons_self).bind fun y => ?_
    rw [← add_zero (List.sum _)]
    exact (ih fun z hz => h z (List.mem_cons_of_mem x hz)).bind fun _ => within_pure _ 0

/-- A report is counted against the node that it is on. -/
theorem within_report (v : Value) (message : Data) : (report v message).Within v.self := by
  unfold report Value.self
  cases v.node? with
  | none => exact within_fail _ _
  | some n => exact le_refl _

/-- Runs in a row are counted against shares of their own. -/
theorem Within.andThen (h : r.Within (n.shares ss)) (hnext : ∀ a, (next a).Within (n.shares ts)) :
    (r >>= next).Within (n.shares (ss ++ ts)) := by
  rw [Node.shares_append]
  exact h.bind hnext

/-- What is counted against some shares is counted against more. -/
theorem Within.among (h : r.Within (n.shares ss)) (hss : ss.Sublist ts) :
    r.Within (n.shares ts) := h.mono (n.shares_mono hss.subperm)

/-- What follows reports nothing. -/
theorem Within.andPure (h : r.Within b) (hnext : ∀ a, (next a).Within 0) :
    (r >>= next).Within b := by
  rw [← add_zero b]
  exact h.bind hnext

/-- Something is reported on the node of the rule. -/
theorem Within.own (h : r.Within n.toValue.self) : r.Within (n.shares [.own]) := by
  rwa [Node.shares_singleton]

/-- Something is reported on what stands in a field. -/
theorem Within.field {f : Field} (h : r.Within (n.get f).self) : r.Within (n.shares [.of f]) := by
  rw [Node.shares_singleton]
  exact h.mono (n.get f).self_le_nodesIn

end Run

/-! ### What is rendered of a node -/

section

variable {C : Type} {n : Node} {f : C → Value → Run Fragment}

/-- Rendering a value reports no more than the nodes of its tree. -/
def Counts (f : C → Value → Run Fragment) : Prop :=
  ∀ c v, v.isDeclared = true → (f c v).Within v.tree

variable (h : Counts f) (hn : n.toValue.isDeclared = true)
include h hn

/-- Rendering the content of a field reports within the share of the field. -/
theorem Counts.part (c : C) (field : Field) :
    (f c (n.get field)).Within (n.shares [.of field]) := by
  rw [Node.shares_singleton]
  exact (h c _ (Value.all_get hn field)).mono (Value.tree_le_nodesIn _)

/-- Rendering everything that a field enumerates reports within the share of the field. -/
theorem Counts.parts (c : C) (checker : Checker) (field : Field) :
    ((View.mk c checker f).convertAll (n.get field)).Within (n.shares [.of field]) := by
  rw [Node.shares_singleton]
  refine Run.within_bind_ofExcept fun vs hvs => ?_
  refine (Run.within_mapM fun v hv => h c v ?_).mono (Value.sum_tree_le_of_items hvs)
  exact Value.all_items (Value.all_get hn field) hvs hv

end

end CodeSample

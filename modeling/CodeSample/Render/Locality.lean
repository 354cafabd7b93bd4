import CodeSample.Render.Backend

/-!
# Rules only render parts of their nodes

The depth bound under which a backend renders a value does not show, because a rule asks only for
the rendering of values that are less deep than its node.

* `Rule.IsLocal` says so of a rule and `Backend.IsLocal` of all rules of a backend;
* `Backend.convertWithin_eq`: every bound that is large enough gives the same;
* `Backend.convert_node`: a node is rendered by its rule, and the rule renders parts the same way.
-/

namespace CodeSample

open Layout (Fragment)

variable {C : Type}

/-- A rule's outcome only depends on how values less deep than its node are rendered. -/
def Rule.IsLocal (rule : Rule C) : Prop :=
  ∀ (n : Node) (c : C) (checker : Checker) (f g : C → Value → Run Fragment),
    (∀ c v, v.depth < n.toValue.depth → f c v = g c v) →
      rule ⟨c, checker, f⟩ n = rule ⟨c, checker, g⟩ n

/-- All rules of a backend are local. -/
def Backend.IsLocal (backend : Backend C) : Prop :=
  ∀ kind rule, backend.rule? kind = some rule → rule.IsLocal

namespace View

variable {c : C} {checker : Checker} {f g : C → Value → Run Fragment} {v : Value} {depth : Nat}

/-- Ways of rendering that agree below a depth agree on a value there. -/
theorem convert_congr (hv : v.depth < depth) (h : ∀ c v, v.depth < depth → f c v = g c v) :
    (View.mk c checker f).convert v = (View.mk c checker g).convert v :=
  h c v hv

/-- So they do on the items of a value. -/
theorem convertAll_congr (hv : v.depth < depth) (h : ∀ c v, v.depth < depth → f c v = g c v) :
    (View.mk c checker f).convertAll v = (View.mk c checker g).convertAll v := by
  rw [convertAll, convertAll]
  refine Run.bind_congr fun vs hvs => Run.mapM_congr fun w hw => ?_
  exact convert_congr (Nat.lt_of_le_of_lt (Value.depth_le_of_items hvs hw) hv) h

end View

namespace Backend

variable {backend : Backend C}

/-- How values less deep than a node are rendered is all that counts for a local backend. -/
theorem visit_congr (isLocal : backend.IsLocal) (n : Node) (c : C) (checker : Checker)
    {f g : C → Value → Run Fragment} (h : ∀ c v, v.depth < n.toValue.depth → f c v = g c v) :
    backend.visit ⟨c, checker, f⟩ n = backend.visit ⟨c, checker, g⟩ n := by
  rw [visit, visit]
  cases hr : backend.rule? n.kind with
  | none => rfl
  | some rule => exact isLocal n.kind rule hr n c checker f g h

/-- Removing rules leaves the others local. -/
theorem IsLocal.without (isLocal : backend.IsLocal) (dropped : List Kind) :
    (backend.without dropped).IsLocal := by
  intro kind rule hr
  simp only [Backend.without] at hr
  split at hr
  · cases hr
  · exact isLocal kind rule hr

/-- What is no node is rendered the same under every bound. -/
theorem convertWithin_of_node?_eq_none (backend : Backend C) (checker : Checker) (depth : Nat)
    (c : C) {v : Value} (h : v.node? = none) :
    backend.convertWithin checker depth c v =
      if v.isNull then pure .empty else .fail .noProperty := by
  cases v with
  | node _ _ _ _ _ => simp [Value.node?] at h
  | _ => cases depth <;> rfl

/-- Two bounds that are large enough give the same rendering. -/
theorem convertWithin_congr (isLocal : backend.IsLocal) (checker : Checker) (depth other : Nat)
    (c : C) (v : Value) (h : v.depth ≤ depth) (h' : v.depth ≤ other) :
    backend.convertWithin checker depth c v = backend.convertWithin checker other c v := by
  induction depth generalizing other c v with
  | zero =>
    have hv : v.node? = none := by
      cases v with
      | node _ _ _ _ _ => simp [Value.depth] at h
      | _ => rfl
    rw [convertWithin_of_node?_eq_none backend checker _ c hv,
      convertWithin_of_node?_eq_none backend checker _ c hv]
  | succ depth ih =>
    cases hv : v.node? with
    | none =>
      rw [convertWithin_of_node?_eq_none backend checker _ c hv,
        convertWithin_of_node?_eq_none backend checker _ c hv]
    | some n =>
      obtain rfl := Value.toValue_of_node? hv
      cases other with
      | zero => simp [Node.toValue, Value.depth] at h'
      | succ other =>
        rw [Node.toValue, convertWithin, convertWithin]
        exact visit_congr isLocal n c checker fun c w hw =>
          ih other c w (by omega) (by omega)

/-- Every bound that is large enough gives the rendering. -/
theorem convertWithin_eq (isLocal : backend.IsLocal) (checker : Checker) (depth : Nat) (c : C)
    (v : Value) (h : v.depth ≤ depth) :
    backend.convertWithin checker depth c v = backend.convert checker c v :=
  convertWithin_congr isLocal checker depth v.depth c v h (Nat.le_refl _)

/-- A node is rendered by the rule for its kind, and the rule renders parts the same way. -/
theorem convert_node (isLocal : backend.IsLocal) (checker : Checker) (c : C) (n : Node) :
    backend.convert checker c n.toValue = backend.visit (backend.view checker c) n := by
  rw [convert, Node.toValue, Value.depth, convertWithin]
  refine visit_congr isLocal n c checker fun c w hw => ?_
  rw [Node.toValue, Value.depth] at hw
  exact convertWithin_eq isLocal checker _ c w (by omega)

/-- Null is rendered as nothing. -/
theorem convert_null (backend : Backend C) (checker : Checker) (c : C) :
    backend.convert checker c .null = pure .empty := rfl

end Backend

end CodeSample

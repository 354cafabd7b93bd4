import CodeSample.Proofs.Grammar
import CodeSample.Render.Locality

/-!
# The calls of a rendering

Rendering a tree means rendering its parts, each in a context. A rule is a function of how the parts
are rendered, so a rule *asks* for a part in a context when its outcome changes with the answer to
that one call. From the root on, asking reaches every call that is made while a tree is rendered.

* `Backend.Asks` is a call that the rule for a node makes, and `Backend.Reaches` a call that is made
  below a root, with the nodes around it that are being rendered;
* `Backend.Asks.mem`: if a rule is determined by the answers to some calls, it asks for no others;
* `Node.Holds` says in which field of a node a value stands, and `Value.Stands` where a value stands
  in a tree that a call has reached, in terms of what a step into a field means.
-/

namespace CodeSample

open Layout (Fragment)

variable {C : Type}

namespace Backend

/-- The rule for a node in a context asks for a value in another context: with another answer to
that call, and to that call alone, the outcome is another. -/
def Asks (backend : Backend C) (checker : Checker) (c : C) (n : Node) (d : C) (v : Value) : Prop :=
  ∃ answers : C → Value → Run Fragment,
    (∀ e w, ¬(e = d ∧ w = v) → answers e w = backend.convert checker e w) ∧
      backend.visit ⟨c, checker, answers⟩ n ≠ backend.visit (backend.view checker c) n

/-- A call that is made while a tree is rendered, with the nodes whose rules have led to it, the
innermost first. -/
inductive Reaches (backend : Backend C) (checker : Checker) (root : Value) :
    List Node → C → Value → Prop where
  | root : Reaches backend checker root [] backend.initial root
  | ask {around : List Node} {c d : C} {n : Node} {v : Value} :
      Reaches backend checker root around c n.toValue → backend.Asks checker c n d v →
        Reaches backend checker root (n :: around) d v

/-- A rule that is determined by the answers to some calls asks for no others. -/
theorem Asks.mem {backend : Backend C} {checker : Checker} {c d : C} {n : Node} {v : Value}
    (h : backend.Asks checker c n d v) (S : C → Value → Prop)
    (hS : ∀ f g : C → Value → Run Fragment, (∀ e w, S e w → f e w = g e w) →
      backend.visit ⟨c, checker, f⟩ n = backend.visit ⟨c, checker, g⟩ n) : S d v := by
  by_cases hmem : S d v
  · exact hmem
  obtain ⟨answers, hanswers, hne⟩ := h
  refine absurd (hS answers (backend.convert checker) fun e w hew => hanswers e w ?_) hne
  rintro ⟨rfl, rfl⟩
  exact hmem hew

/-- What comes after a fault does not change the outcome. -/
theorem outcome_bind_of_error {α β : Type} {r : Run α} {fault : Fault}
    (h : r.outcome = .error fault) (next : α → Run β) : (r >>= next).outcome = .error fault := by
  obtain ⟨reports, outcome⟩ := r
  dsimp only at h
  subst h
  rfl

/-- A rule asks for a value if it ends in a fault with the rendering of that value, when all other
answers are those of the backend, and in none, or in another, with the answers of the backend. -/
theorem asks_of_fault_after {backend : Backend C} {checker : Checker} {c d : C} {n : Node}
    {v : Value} (fault : Fault)
    (h : ∀ answers : C → Value → Run Fragment,
      (∀ e w, ¬(e = d ∧ w = v) → answers e w = backend.convert checker e w) →
        answers d v = .fail fault → (backend.visit ⟨c, checker, answers⟩ n).outcome = .error fault)
    (hne : (backend.visit (backend.view checker c) n).outcome ≠ .error fault) :
    backend.Asks checker c n d v := by
  classical
  let answers : C → Value → Run Fragment :=
    fun e w => if e = d ∧ w = v then .fail fault else backend.convert checker e w
  have hothers : ∀ e w, ¬(e = d ∧ w = v) → answers e w = backend.convert checker e w :=
    fun e w hew => if_neg hew
  refine ⟨answers, hothers, fun heq => hne ?_⟩
  rw [← heq]
  exact h answers hothers (if_pos ⟨rfl, rfl⟩)

/-- So it does if it ends in that fault whatever the other answers are. -/
theorem asks_of_fault {backend : Backend C} {checker : Checker} {c d : C} {n : Node} {v : Value}
    (fault : Fault)
    (h : ∀ answers : C → Value → Run Fragment, answers d v = .fail fault →
      (backend.visit ⟨c, checker, answers⟩ n).outcome = .error fault)
    (hne : (backend.visit (backend.view checker c) n).outcome ≠ .error fault) :
    backend.Asks checker c n d v :=
  asks_of_fault_after fault (fun answers _ => h answers) hne

end Backend

/-! ### Places -/

/-- A value stands in a field of a node: as its content, as one of the items there, or as the
expression of one of the types in a clause there. -/
inductive Node.Holds (n : Node) : Field → Value → Prop where
  | content (f : Field) : n.Holds f (n.get f)
  | item {f : Field} {v : Value} {vs : List Value} :
      (n.get f).items = .ok vs → v ∈ vs → n.Holds f v
  | extended {f : Field} {clause types t e : Value} {clauses ts : List Value} :
      (n.get f).items = .ok clauses → clause ∈ clauses →
        clause.property .types = .ok types → types.items = .ok ts → t ∈ ts →
          t.property .expression = .ok e → n.Holds f e

/-- Where a value stands that is reached from a root through some nodes, the innermost first: what
is known at the root, taken along into a field of each node. -/
inductive Value.Stands {S : Type} (start : S) (into : S → Node → Field → S) (root : Value) :
    List Node → Value → S → Prop where
  | root : Stands start into root [] root start
  | within {around : List Node} {n : Node} {s : S} {f : Field} {v : Value} :
      Stands start into root around n.toValue s → n.Holds f v →
        Stands start into root (n :: around) v (into s n f)

namespace Value

variable {p : Node → Bool}

/-- A property of a value that passes a check passes it. -/
theorem all_property {v w : Value} {f : Field} (h : v.all p = true) (hw : v.property f = .ok w) :
    w.all p = true := by
  unfold property at hw
  cases hv : v.node? with
  | none => simp [hv] at hw
  | some n =>
    obtain rfl := toValue_of_node? hv
    simp only [node?_toValue] at hw
    split at hw
    · cases hw
      exact all_get h f
    · cases hw

/-- And so do the items of such a value. -/
theorem all_items {v w : Value} {vs : List Value} (h : v.all p = true) (hvs : v.items = .ok vs)
    (hw : w ∈ vs) : w.all p = true := by
  cases v with
  | list _ =>
    cases hvs
    exact all_of_mem h hw
  | text _ | object _ =>
    cases hvs
    obtain ⟨_, -, rfl⟩ := List.mem_map.1 hw
    rfl
  | _ => cases hvs

/-- What stands in a field of a tree that passes a check passes it. -/
theorem all_of_holds {n : Node} {f : Field} {v : Value} (h : n.toValue.all p = true)
    (hv : n.Holds f v) : v.all p = true := by
  cases hv with
  | content => exact all_get h f
  | item hvs hv => exact all_items (all_get h f) hvs hv
  | extended hclauses hclause htypes hts ht he =>
    have hclause := all_items (all_get h f) hclauses hclause
    exact all_property (all_items (all_property hclause htypes) hts ht) he

/-- So does all that stands in a tree that passes it. -/
theorem Stands.all {S : Type} {start : S} {into : S → Node → Field → S} {root v : Value}
    {around : List Node} {s : S} (h : Stands start into root around v s)
    (hroot : root.all p = true) : v.all p = true := by
  induction h with
  | root => exact hroot
  | within _ hv ih => exact all_of_holds ih hv

end Value

end CodeSample

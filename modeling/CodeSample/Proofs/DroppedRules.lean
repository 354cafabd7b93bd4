import CodeSample.Proofs.AlikeCSharp

/-!
# Backends without some of their rules

A backend from which rules are removed never renders anything differently. Either no rule that is
missing was needed, and everything is as with all rules; or rendering ends at a node whose rule is
missing, and until then the same was reported.

* `Value.Contains` says that a node stands somewhere in a value;
* `Run.Survives` relates what goes on without the rules to what goes on with them; it is kept by
  everything that rules do (`Run.Survives.bind`), and holds when a node is refused;
* `Backend.convert_without` is the statement for both backends.
-/

namespace CodeSample

open Layout (Fragment Indent)

variable {α α' β β' C : Type}

/-! ### The nodes in a value -/

/-- A node is a value, or stands in one of its fields, in its source, or among its items. -/
inductive Value.Contains : Value → Node → Prop where
  | self (n : Node) : Contains n.toValue n
  | source {n m : Node} : Contains n.source m → Contains n.toValue m
  | field {n m : Node} {v : Value} : v ∈ n.fields → Contains v m → Contains n.toValue m
  | item {vs : List Value} {v : Value} {m : Node} : v ∈ vs → Contains v m → Contains (.list vs) m

/-- What a node in a value contains is in the value. -/
theorem Value.Contains.trans {v : Value} {n m : Node} (h : v.Contains n)
    (hm : n.toValue.Contains m) : v.Contains m := by
  induction h with
  | self => exact hm
  | source _ ih => exact .source (ih hm)
  | field hv _ ih => exact .field hv (ih hm)
  | item hv _ ih => exact .item hv (ih hm)

/-- A node stands for itself, if it stands somewhere in a tree. -/
def Value.Same (root : Value) (n' n : Node) : Prop := n' = n ∧ root.Contains n

namespace Value

variable {root : Value}

mutual

/-- What stands in a tree is alike itself. -/
theorem alike_same : ∀ v : Value, (∀ n, v.Contains n → root.Contains n) →
    Value.Alike root.Same v v
  | .null, _ => .null
  | .bool b, _ => .bool b
  | .int i, _ => .int i
  | .float x, _ => .float x
  | .text s, _ => .text s
  | .object ms, _ => .object ms
  | .list vs, h => .list (alike_same_all vs fun _ hv n hn => h n (.item hv hn))
  | .node kind pos source type? fields, h =>
    let n : Node := ⟨kind, pos, source, type?, fields⟩
    .node (show root.Same n n from ⟨rfl, h n (.self n)⟩)

/-- Values whose nodes are all in a root are alike themselves. -/
theorem alike_same_all : ∀ vs : List Value,
    (∀ v ∈ vs, ∀ n, v.Contains n → root.Contains n) →
      List.Forall₂ (Value.Alike root.Same) vs vs
  | [], _ => .nil
  | v :: vs, h =>
    .cons (alike_same v (h v (by simp))) (alike_same_all vs fun w hw => h w (by simp [hw]))

end

/-- The nodes of a tree are read alike. -/
theorem Same.alike {n' n : Node} (h : root.Same n' n) : Node.Alike root.Same n' n := by
  obtain ⟨rfl, hn⟩ := h
  refine ⟨rfl, rfl, fun _ => ?_, rfl, fun i _ hi _ => ?_⟩
  · exact alike_same _ fun m hm => hn.trans (.source hm)
  · exact alike_same _ fun m hm => hn.trans (.field (List.getElem_mem hi) hm)

end Value

/-! ### Runs that may refuse a node -/

section runs

variable (visitor : String) (dropped : List Kind) (root : Value)

/-- A run ends at a node of a tree that is of one of some kinds, with a part of what another run
reports. -/
def Run.Refuses (r' : Run α') (r : Run α) : Prop :=
  ∃ n : Node, root.Contains n ∧ n.kind ∈ dropped ∧
    r'.outcome = .error (.unsupported visitor n.kind n.pos) ∧ r'.reports <+: r.reports

/-- A run goes as another one, or refuses a node. -/
def Run.Survives (R : α' → α → Prop) (r' : Run α') (r : Run α) : Prop :=
  (r'.reports = r.reports ∧ Tally Eq R r'.outcome r.outcome) ∨
    Run.Refuses visitor dropped root r' r

variable {visitor dropped root}

/-- What follows a run comes after what the run reports. -/
theorem Run.reports_bind (r : Run α) (next : α → Run β) : r.reports <+: (r >>= next).reports := by
  obtain ⟨reports, outcome⟩ := r
  cases outcome with
  | ok a => exact List.prefix_append reports _
  | error fault => exact List.prefix_refl reports

/-- Runs survive one after the other. -/
theorem Run.Survives.bind {R : α' → α → Prop} {S : β' → β → Prop} {r' : Run α'} {r : Run α}
    (h : Run.Survives visitor dropped root R r' r) {next' : α' → Run β'} {next : α → Run β}
    (hnext : ∀ a' a, R a' a → Run.Survives visitor dropped root S (next' a') (next a)) :
    Run.Survives visitor dropped root S (r' >>= next') (r >>= next) := by
  obtain ⟨reports', outcome'⟩ := r'
  rcases h with ⟨hreports, houtcome⟩ | ⟨n, hn, hk, houtcome, hreports⟩
  · obtain ⟨reports, outcome⟩ := r
    dsimp only at hreports houtcome
    subst hreports
    cases houtcome with
    | error hfault =>
      subst hfault
      exact Or.inl ⟨rfl, .error rfl⟩
    | ok ha =>
      rw [Run.bind_ok, Run.bind_ok]
      rcases hnext _ _ ha with ⟨hafter, houtcome⟩ | ⟨n, hn, hk, houtcome, hafter⟩
      · exact Or.inl ⟨congrArg (reports' ++ ·) hafter, houtcome⟩
      · exact Or.inr ⟨n, hn, hk, houtcome, List.prefix_append_right_inj reports' |>.2 hafter⟩
  · -- the run has ended, and the other one goes on
    dsimp only at houtcome
    subst houtcome
    exact Or.inr ⟨n, hn, hk, rfl, hreports.trans (r.reports_bind next)⟩

/-- The same run on both sides. -/
theorem Run.Survives.refl {R : α → α → Prop} (r : Run α) (hR : ∀ a, R a a) :
    Run.Survives visitor dropped root R r r := by
  refine Or.inl ⟨rfl, ?_⟩
  cases r.outcome with
  | ok a => exact .ok (hR a)
  | error fault => exact .error rfl

/-- A report survives. -/
theorem Run.Survives.report (message : Data) {n' n : Node} (h : n' = n) :
    Run.Survives visitor dropped root (fun _ _ => True) (Run.report n'.toValue message)
      (Run.report n.toValue message) := by
  rw [h]
  exact .refl _ fun _ => trivial

/-- A refusal to render a node survives: it is the same one. -/
theorem Run.Survives.refuse {R : α' → α → Prop} (name : String) {n' n : Node} (h : n' = n) :
    Run.Survives visitor dropped root R (.fail (.unsupported name n'.kind n'.pos))
      (.fail (.unsupported name n.kind n.pos)) := by
  rw [h]
  exact Or.inl ⟨rfl, .error rfl⟩

end runs

/-- The likeness of a rendering without some rules to the one with all. -/
def Likeness.dropping (visitor : String) (dropped : List Kind) (root : Value) : Likeness where
  toOutput := .same
  node := root.Same
  run R r' r := Run.Survives visitor dropped root R r' r
  alike := Value.Same.alike
  pure h := Or.inl ⟨rfl, .ok h⟩
  bind h hnext := h.bind hnext
  ofExcept h := Or.inl ⟨rfl, h.mono (fun _ _ h => h.1) fun _ _ h => h⟩
  report message hn := .report message hn.1
  refuse visitor hn := .refuse visitor hn.1

/-! ### Whole trees -/

namespace Backend

variable {backend : Backend C} {dropped : List Kind} {root : Value}

/-- If the rules of a backend go alike, they do without some of them. -/
theorem alike_without {K : C → C → Prop}
    (hrules : ∀ kind, Option.Rel (Rule.Alike (.dropping backend.name dropped root) K kind)
      (backend.rule? kind) (backend.rule? kind)) :
    Backend.Alike (.dropping backend.name dropped root) K (backend.without dropped) backend := by
  intro view' view h n' n hn
  obtain ⟨rfl, hcontains⟩ := hn
  by_cases hk : n'.kind ∈ dropped
  · refine Or.inr ⟨n', hcontains, hk, ?_, ?_⟩
    · unfold Backend.visit Backend.without
      simp only [hk, if_true]
      rfl
    · unfold Backend.visit Backend.without
      simp only [hk, if_true]
      exact List.nil_prefix
  · have hvisit : (backend.without dropped).visit view' n' = backend.visit view' n' := by
      unfold Backend.visit Backend.without
      simp only [hk, if_false]
    rw [hvisit]
    exact Backend.alike_of_rules rfl hrules view' view h n' n' ⟨rfl, hcontains⟩

/-- Rendering a value without some rules goes as it does with all, with the same outcome and the
same reports; or it ends at a node in the value for whose kind there is no rule, and what is
reported before is reported first with all rules, too. -/
def LosesOnly (backend : Backend C) (dropped : List Kind) (checker : Checker) (c : C) (v : Value) :
    Prop :=
  (backend.without dropped).convert checker c v = backend.convert checker c v ∨
    Run.Refuses backend.name dropped v ((backend.without dropped).convert checker c v)
      (backend.convert checker c v)

/-- A backend loses only what the dropped rules render, if its rules do not tell nodes in a value
from themselves. -/
theorem losesOnly (hlocal : backend.IsLocal) {K : C → C → Prop} (hK : ∀ c, K c c) {v : Value}
    (hrules : ∀ kind, Option.Rel (Rule.Alike (.dropping backend.name dropped v) K kind)
      (backend.rule? kind) (backend.rule? kind)) (checker : Checker) (c : C) :
    backend.LosesOnly dropped checker c v := by
  have hcheckers : (Likeness.dropping backend.name dropped v).Checkers checker checker := by
    constructor
    · rintro n' n ⟨rfl, -⟩
      exact .refl _ fun _ => rfl
    · rintro n' n ⟨rfl, -⟩ -
      exact .refl _ fun _ => rfl
    · rintro n' n ⟨rfl, -⟩ -
      exact .refl _ fun _ => rfl
  have hconvert := Likeness.convert (alike_without hrules) hcheckers (hlocal.without dropped)
    hlocal (hK c) (Value.alike_same v fun _ h => h)
  rcases hconvert with ⟨hreports, houtcome⟩ | hrefuses
  · left
    generalize (backend.without dropped).convert checker c v = r' at *
    generalize backend.convert checker c v = r at *
    obtain ⟨reports', outcome'⟩ := r'
    obtain ⟨reports, outcome⟩ := r
    dsimp only at hreports houtcome
    cases houtcome with
    | ok h => exact congr (congrArg _ hreports) (congrArg _ h)
    | error h => exact congr (congrArg _ hreports) (congrArg _ h)
  · exact Or.inr hrefuses

/-- Removing rules from the C# backend or from the neutral one never changes silently what they
make of a value, whatever the value, the context and the checker. -/
theorem convert_without (dropped : List Kind) (checker : Checker) (v : Value) :
    (∀ (indent : Indent) (preferStruct : Data) (c : CSharp.Flags),
      (CSharp.backend indent preferStruct).LosesOnly dropped checker c v) ∧
    ∀ (name : String) (c : Plain), (Neutral.backend name).LosesOnly dropped checker c v := by
  constructor
  · intro indent preferStruct c
    have hflags (c : CSharp.Flags) : CSharp.Flags.Alike c c :=
      ⟨(Value.alike_same c.className fun _ h => h).mono fun _ _ _ => trivial, rfl⟩
    exact losesOnly (CSharp.isLocal indent preferStruct) hflags (CSharp.alike_rule rfl) checker c
  · intro name c
    exact losesOnly (Neutral.isLocal name) (fun c : Plain => Eq.refl c) (Neutral.alike_rule name)
      checker c

/-- Without the rule for numbers, returning a number ends at the number. -/
example :
    let number := Value.node .numericLiteral ⟨1, 7⟩ (.text "1") none [.text "1"]
    let returned := Value.node .returnStatement ⟨1, 0⟩ (.text "return 1") none [number]
    (((Neutral.backend "Neutral").without
        [.numericLiteral]).convert .recorded {} returned).outcome =
      .error (.unsupported "Neutral" .numericLiteral ⟨1, 7⟩) := by rfl

end Backend

end CodeSample

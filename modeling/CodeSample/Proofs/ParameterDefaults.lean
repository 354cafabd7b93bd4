import CodeSample.Proofs.CalleeTexts
import CodeSample.Proofs.DeclaredNames

/-!
# Parameters with a default

Each parameter is written for itself: with its initial value as a default if it has one, with `null`
if an argument may be left out for another reason, and else without a default. What comes before it
or after it plays no part, and the order is that of the source. So the parameters with a default
come last in what is written if and only if those that may be left out do in the source.

* `Omissible` says that an argument may be left out in the source, `HasDefault` that a parameter is
  written with a default; `DefaultOf` is the default of a parameter;
* `ensures_parameter` is what is written for a parameter, `ensures_parameterList` for all of them;
* `pairwise_congr`: an order among items carries over to what belongs to them one by one;
* `parameterList_defaults` is the statement for functions, methods, constructors and signatures.
-/

namespace CodeSample

open Layout (Fragment Indent Style)
open Layout.Fragment (row line separated)

/-- A value that is null. -/
theorem Value.isNull_iff {v : Value} : v.isNull = true ↔ v = .null := by
  cases v <;> simp [isNull]

/-- Nothing that has a property comes before something that has it not, in one list if and only if
in another one that belongs to it item by item. -/
theorem pairwise_congr {α β : Type} {R : α → Prop} {S : β → Prop} {as : List α} {bs : List β}
    (h : List.Forall₂ (fun a b => R a ↔ S b) as bs) :
    as.Pairwise (fun a a' => R a → R a') ↔ bs.Pairwise (fun b b' => S b → S b') := by
  have hmap : as.map R = bs.map S := by
    induction h with
    | nil => rfl
    | cons hab _ ih => rw [List.map_cons, List.map_cons, propext hab, ih]
  rw [← List.pairwise_map (R := fun p q : Prop => p → q), hmap, List.pairwise_map]

namespace CSharp

/-! ### Parameters in the source -/

/-- In the source an argument may be left out: the parameter has an initial value, or a question
mark, or an annotation with a type that admits that there is no value. -/
def Omissible (checker : Checker) (m : Node) : Prop :=
  m.get .initializer ≠ .null ∨ (m.get .questionToken).truthy = true ∨
    ∃ t, checker.ascribed? (m.get .type) = .ok (some t) ∧ ∃ u ∈ t.members, u.isAbsent = true

variable {checker : Checker} {m n : Node} {convertIn : Value → Run Fragment}

/-- The rule finds a parameter optional exactly if its argument may be left out in the source. -/
theorem isOptional_iff {annotated : Option Ty}
    (h : checker.ascribed? (m.get .type) = .ok annotated) :
    isOptional m annotated = true ↔ Omissible checker m := by
  have hadmits : annotated.any Ty.admitsAbsent = true ↔
      ∃ t, checker.ascribed? (m.get .type) = .ok (some t) ∧ ∃ u ∈ t.members, u.isAbsent = true := by
    rw [h]
    cases annotated with
    | none => simp
    | some t => simp [Ty.admitsAbsent]
  unfold isOptional Omissible
  rw [Bool.or_eq_true, Bool.or_eq_true, hadmits, or_assoc, Bool.not_eq_true', Bool.eq_false_iff,
    ne_eq, Value.isNull_iff]

/-! ### Parameters as they are written -/

/-- The default that is written for a parameter, from what its initial value is converted to. -/
inductive DefaultOf (convertIn : Value → Run Fragment) (checker : Checker) (m : Node) :
    List Fragment → Prop where
  | none : ¬Omissible checker m → DefaultOf convertIn checker m []
  | null : Omissible checker m → m.get .initializer = .null →
      DefaultOf convertIn checker m [.text " = ", .text "null"]
  | value {y : Fragment} : m.get .initializer ≠ .null →
      (convertIn (m.get .initializer)).outcome = .ok y →
      DefaultOf convertIn checker m [.text " = ", y]

/-- What is written for a parameter: its type, its name, and its default if it has one. -/
def WritesParameter (convertIn : Value → Run Fragment) (checker : Checker) (m : Node)
    (p : Fragment) : Prop :=
  ∃ type x default, (parameterType checker m).outcome = .ok type ∧
    (convertIn (m.get .name)).outcome = .ok x ∧ DefaultOf convertIn checker m default ∧
    p = row ([type.toFragment, .text " ", x] ++ default)

/-- A parameter is written with a default. -/
def HasDefault (p : Fragment) : Prop :=
  ∃ type x y, p = row [type, .text " ", x, .text " = ", y]

/-- What is written for a parameter has a default exactly if its argument may be left out. -/
theorem hasDefault_iff {p : Fragment} (h : WritesParameter convertIn checker m p) :
    HasDefault p ↔ Omissible checker m := by
  obtain ⟨type, x, default, -, -, hdefault, rfl⟩ := h
  cases hdefault with
  | none hnot =>
    refine iff_of_false ?_ hnot
    rintro ⟨_, _, _, heq⟩
    simp [row] at heq
  | null homissible _ => exact iff_of_true ⟨_, _, _, rfl⟩ homissible
  | value hinitializer _ => exact iff_of_true ⟨_, _, _, rfl⟩ (Or.inl hinitializer)

/-- The default of a parameter is as its initial value, its mark and its annotation say. -/
theorem ensures_parameterDefault {view : View Flags} {annotated : Option Ty}
    (h : view.checker.ascribed? (m.get .type) = .ok annotated) :
    (parameterDefault view m annotated).Ensures
      (DefaultOf view.convert view.checker m) := by
  unfold parameterDefault
  split
  · rename_i hnot
    refine Run.ensures_pure (.none fun homissible => ?_)
    rw [(isOptional_iff h).2 homissible] at hnot
    cases hnot
  · rename_i hnot
    have homissible : Omissible view.checker m := (isOptional_iff h).1 (by simpa using hnot)
    split
    · rename_i hnull
      exact Run.ensures_pure (.null homissible (Value.isNull_iff.1 hnull))
    · rename_i hnull
      refine Run.Ensures.bind (fun y hy => hy) fun y hy => ?_
      exact Run.ensures_pure (.value (fun heq => hnull (Value.isNull_iff.2 heq)) hy)

section converted

variable {indent : Indent} {preferStruct : Data} {c : Flags}

/-- A parameter is written with its type, its name and its default. -/
theorem ensures_parameter (hk : m.kind = .parameter) :
    ((backend indent preferStruct).convert checker c m.toValue).Ensures
      (WritesParameter ((backend indent preferStruct).convert checker c) checker m) := by
  have hrule : rule? indent m.kind = some parameter := by
    rw [hk]
    rfl
  rw [convert_of_rule hrule]
  unfold parameter
  refine Run.Ensures.bind (fun annotated h => h) fun annotated hannotated => ?_
  refine Run.Ensures.bind (fun type h => h) fun type htype => ?_
  refine (ensures_parameterDefault hannotated).bind fun default hdefault => ?_
  refine Run.Ensures.bind (fun x h => h) fun x hx => ?_
  exact Run.ensures_pure ⟨type, x, default, htype, hx, hdefault, rfl⟩

/-- Parameters are written one by one, in the order of the source. -/
theorem ensures_parameterList {ms : List Node} (hms : ∀ m ∈ ms, m.kind = .parameter) :
    (((backend indent preferStruct).view checker c).convertAll
      (.list (ms.map Node.toValue))).Ensures
        (List.Forall₂ (WritesParameter ((backend indent preferStruct).convert checker c) checker)
          ms) := by
  have hlist : (ms.map Node.toValue).mapM
      ((backend indent preferStruct).view checker c).convert =
        ms.mapM fun m => (backend indent preferStruct).convert checker c m.toValue :=
    List.mapM_map ..
  show ((ms.map Node.toValue).mapM _ : Run (List Fragment)).Ensures _
  rw [hlist]
  exact Run.ensures_mapM_forall₂ fun m hm => ensures_parameter (hms m hm)

end converted

/-! ### Lists of parameters -/

/-- The kinds of the nodes that have parameters. -/
def parameterized : List Kind :=
  [.functionDeclaration, .methodDeclaration, .constructor, .methodSignature]

/-- The output of a declaration lists parameters: in parentheses, at the end of what stands in front
of the body if there is one. -/
def ListsParameters (ps : List Fragment) (f : Fragment) : Prop :=
  ∃ head closing body style, (closing = ");" ∨ closing = ") ") ∧
    f = .tree (head ++ [.text "(", separated ", " ps, .text closing]) body style

/-- A signature lists the parameters in parentheses, whatever its head. -/
theorem ensures_signature {view : View Flags} {A : List Fragment → Prop}
    (h : (view.convertAll (n.get .parameters)).Ensures A) (head : List Fragment) :
    (signature view n head).Ensures fun f => ∃ ps, A ps ∧ ListsParameters ps f := by
  unfold signature
  refine h.bind fun ps hps => ?_
  dsimp only
  split
  · exact Run.ensures_pure ⟨ps, hps, head, _, [], _, Or.inl rfl, rfl⟩
  · refine Run.ensures_bind fun body => ?_
    exact Run.ensures_pure ⟨ps, hps, head, _, [body], _, Or.inr rfl, rfl⟩

/-- Every kind of declaration that has parameters lists them in parentheses. -/
theorem ensures_parameterized {indent : Indent} {preferStruct : Data} {c : Flags}
    (hk : n.kind ∈ parameterized) {A : List Fragment → Prop}
    (h : (((backend indent preferStruct).view checker c).convertAll (n.get .parameters)).Ensures
      A) :
    ((backend indent preferStruct).convert checker c n.toValue).Ensures fun f =>
      ∃ ps, A ps ∧ ListsParameters ps f := by
  have hfunction : (function ((backend indent preferStruct).view checker c) n).Ensures fun f =>
      ∃ ps, A ps ∧ ListsParameters ps f := by
    refine Run.ensures_bind fun name => Run.ensures_bind fun type => ?_
    exact ensures_signature h _
  simp only [parameterized, List.mem_cons, List.not_mem_nil, or_false] at hk
  rcases hk with hk | hk | hk | hk
  · have hrule : rule? indent n.kind = some function := by rw [hk]; rfl
    rw [convert_of_rule hrule]
    exact hfunction
  · have hrule : rule? indent n.kind = some function := by rw [hk]; rfl
    rw [convert_of_rule hrule]
    exact hfunction
  · have hrule : rule? indent n.kind = some constructor := by rw [hk]; rfl
    rw [convert_of_rule hrule]
    exact ensures_signature h _
  · have hrule : rule? indent n.kind = some methodSignature := by rw [hk]; rfl
    rw [convert_of_rule hrule]
    refine Run.ensures_bind fun type => Run.ensures_bind fun name => ?_
    refine h.bind fun ps hps => ?_
    exact Run.ensures_pure ⟨ps, hps, [type.toFragment, .text " ", name], _, [], _, Or.inl rfl, rfl⟩

/-- In a program, the parameters are nodes of their own kind. -/
theorem exists_parameters (hn : n.IsProgram) (hk : n.kind ∈ parameterized) :
    ∃ ms : List Node, n.get .parameters = .list (ms.map Node.toValue) ∧
      ∀ m ∈ ms, m.kind = .parameter := by
  have hcontent : Grammar.source.content? n.kind .parameters = some (.many [.parameter]) := by
    simp only [parameterized, List.mem_cons, List.not_mem_nil, or_false] at hk
    rcases hk with hk | hk | hk | hk <;> rw [hk] <;> rfl
  obtain ⟨vs, hvs, hall⟩ := Node.many_of_all (fun _ h => h) hn hcontent
  suffices h : ∃ ms : List Node, vs = ms.map Node.toValue ∧ ∀ m ∈ ms, m.kind = .parameter by
    obtain ⟨ms, rfl, hms⟩ := h
    exact ⟨ms, hvs, hms⟩
  clear hvs
  induction vs with
  | nil => exact ⟨[], rfl, by simp⟩
  | cons v vs ih =>
    rw [List.forall_mem_cons] at hall
    obtain ⟨⟨m, rfl, -, hm⟩, hrest⟩ := hall
    obtain ⟨ms, rfl, hms⟩ := ih hrest
    exact ⟨m :: ms, rfl, List.forall_mem_cons.2 ⟨List.mem_singleton.1 hm, hms⟩⟩

section listed

variable {indent : Indent} {preferStruct : Data} {c : Flags} {ms : List Node}

/-- Each parameter that is listed has a default if an argument may be left out for it. -/
theorem ensures_defaults (hk : n.kind ∈ parameterized)
    (hlist : n.get .parameters = .list (ms.map Node.toValue))
    (hms : ∀ m ∈ ms, m.kind = .parameter) :
    ((backend indent preferStruct).convert checker c n.toValue).Ensures fun f =>
      ∃ ps, ListsParameters ps f ∧
        List.Forall₂ (WritesParameter ((backend indent preferStruct).convert checker c) checker)
          ms ps ∧
        List.Forall₂ (fun m p => Omissible checker m ↔ HasDefault p) ms ps := by
  have hwritten : (((backend indent preferStruct).view checker c).convertAll
      (n.get .parameters)).Ensures (List.Forall₂
        (WritesParameter ((backend indent preferStruct).convert checker c) checker) ms) := by
    rw [hlist]
    exact ensures_parameterList hms
  refine (ensures_parameterized hk hwritten).mono ?_
  rintro f ⟨ps, hps, hlists⟩
  exact ⟨ps, hlists, hps, hps.imp fun m p h => (hasDefault_iff h).symm⟩

/-- Functions, methods, constructors and signatures of methods list all parameters of the source in
its order, each with a default if an argument may be left out in the source, and only then: the
initial value if there is one, and else null. So no parameter without a default comes after one with
a default if and only if in the source no parameter that needs an argument comes after one that may
be left out. -/
theorem parameterList_defaults (hn : n.IsProgram) (hk : n.kind ∈ parameterized) :
    ∃ ms : List Node, n.get .parameters = .list (ms.map Node.toValue) ∧
      (∀ f, ((backend indent preferStruct).convert checker c n.toValue).outcome = .ok f →
        ∃ ps, ListsParameters ps f ∧
          List.Forall₂ (WritesParameter ((backend indent preferStruct).convert checker c) checker)
            ms ps ∧
          List.Forall₂ (fun m p => Omissible checker m ↔ HasDefault p) ms ps ∧
          (ps.Pairwise (fun p q => HasDefault p → HasDefault q) ↔
            ms.Pairwise fun m k => Omissible checker m → Omissible checker k)) ∧
      (checker.IsTabled → indent.isWhole = true → HasClassName c →
        ∃ f, ((backend indent preferStruct).convert checker c n.toValue).outcome = .ok f) := by
  obtain ⟨ms, hlist, hms⟩ := exists_parameters hn hk
  refine ⟨ms, hlist, fun f hf => ?_, fun hchecker hindent hc => ?_⟩
  · obtain ⟨ps, hlists, hwritten, hdefaults⟩ := ensures_defaults hk hlist hms f hf
    exact ⟨ps, hlists, hwritten, hdefaults, (pairwise_congr hdefaults).symm⟩
  · have hinner : ∀ k ∈ parameterized, k ∉ Kind.inner := by decide
    obtain ⟨f, hf, -⟩ :=
      gives_plain_convert hindent preferStruct ⟨hn, hinner _ hk⟩ hc hchecker
    exact ⟨f, hf⟩

end listed

/-- An annotation by its type. -/
def annotationOf (t : Ty) : Node := ⟨.typeNode, .unknown, .text "", some t, []⟩

/-- A parameter by a name and the type of its annotation. -/
def parameterOf (s : String) (t : Ty) : Node :=
  ⟨.parameter, .unknown, .text "", none,
    [.bare .identifier [.text s], (annotationOf t).toValue, .null, .bool false]⟩

/-- A number that may be missing. -/
def numberOrNull : Ty := .union [.primitive (.text "number"), .null]

/-- A bound that may be missing. -/
def lowerBound : Node := parameterOf "low" numberOrNull

/-- A number. -/
def clamped : Node := parameterOf "x" (.primitive (.text "number"))

/-- A function of a bound that may be missing and a number after it. -/
def clamp : Node :=
  ⟨.functionDeclaration, .unknown, .text "", none, [.bare .identifier [.text "clamp"],
    .list ([lowerBound, clamped].map Node.toValue), .null, .null]⟩

/-- The parameters of the clamp with a default are those that may be left out, in the order of the
source. -/
theorem parameterList_defaults_clamp :
    clamp.IsProgram ∧ clamp.kind ∈ parameterized ∧
    ∃ ms : List Node, clamp.get .parameters = .list (ms.map Node.toValue) ∧
      ∃ f ps, ((backend (.blanks 4) (.bool true)).convert .recorded {} clamp.toValue).outcome =
          .ok f ∧ ListsParameters ps f ∧
        List.Forall₂ (fun m p => Omissible .recorded m ↔ HasDefault p) ms ps ∧
        (ps.Pairwise (fun p q => HasDefault p → HasDefault q) ↔
          ms.Pairwise fun m k => Omissible .recorded m → Omissible .recorded k) := by
  have hprogram : clamp.IsProgram := by decide
  have hkind : clamp.kind ∈ parameterized := by decide
  have hchecker : Checker.recorded.IsTabled := Or.inl rfl
  have hindent : Indent.isWhole (.blanks 4) = true := rfl
  have hclass : HasClassName {} := Or.inl rfl
  obtain ⟨ms, hms, hall, hends⟩ := parameterList_defaults hprogram hkind
  obtain ⟨f, hf⟩ := hends hchecker hindent hclass
  obtain ⟨ps, hlists, -, hdefaults, hlast⟩ := hall f hf
  exact ⟨hprogram, hkind, ms, hms, f, ps, hf, hlists, hdefaults, hlast⟩

/-- A parameter without a default comes after one with a default, as in the source: the type of the
one admits that there is no value, and the other needs an argument. -/
theorem text_clamp :
    Target.text [] .recorded clamp.toValue = .ok "public void Clamp(int? low = null, int x);" ∧
    ∃ f ps, ((backend (.blanks 4) (.bool true)).convert .recorded {} clamp.toValue).outcome =
        .ok f ∧ ListsParameters ps f ∧
      ¬ps.Pairwise fun p q => HasDefault p → HasDefault q := by
  have hrendered : clamp.IsRendered := ⟨by decide, by decide⟩
  have hindent : Indent.isWhole (.blanks 4) = true := rfl
  have hclass : HasClassName {} := Or.inl rfl
  have hchecker : Checker.recorded.IsTabled := Or.inl rfl
  obtain ⟨f, hf, -⟩ := gives_plain_convert hindent (.bool true) hrendered hclass hchecker
  have hkinds : ∀ m ∈ [lowerBound, clamped], m.kind = .parameter := by
    simp [lowerBound, clamped, parameterOf]
  obtain ⟨ps, hlists, -, hdefaults⟩ := ensures_defaults (by decide) rfl hkinds f hf
  refine ⟨by decide +kernel, f, ps, hf, hlists, ?_⟩
  rw [← pairwise_congr hdefaults, List.pairwise_pair]
  intro hlast
  have hlow : Omissible .recorded lowerBound := Or.inr (Or.inr ⟨_, rfl, .null, by decide, rfl⟩)
  rcases hlast hlow with hinitializer | hmark | ⟨t, ht, u, hu, habsent⟩
  · exact hinitializer rfl
  · cases hmark
  · cases ht
    obtain rfl := List.mem_singleton.1 hu
    cases habsent

end CSharp

end CodeSample

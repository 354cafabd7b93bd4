import CodeSample.Proofs.CalleeTexts
import CodeSample.Proofs.TypePlaceholders

/-!
# What a cast reaches

A cast is written as its type in parentheses with its operand behind them, and the operand gets no
parentheses of its own. So nothing tells a cast around a binary or a conditional expression from one
around what the expression begins with, its left operand or its condition: both are written alike. A
cast reaches the whole of an operand that stands in parentheses in the source.

* `Fragment.WrittenAlike` says that two fragments write the same, and `Run.WrittenAlike` that two
  runs report the same and give such fragments; `writtenAlike_regroup`: how rows of fragments are
  nested does not show;
* `CSharp.castOf` is a cast in terms of its parts, and `CSharp.leading` an expression in terms of
  what it begins with; `writtenAlike_leading`: a cast around such an expression is written like one
  around what it begins with;
* `CSharp.CastAtStart` says that an expression is another one with a cast somewhere at its start,
  and `CastAtStart.writtenAlike` that all such expressions are written alike;
* `cast_written` is the statement on the texts of casts.
-/

namespace CodeSample

open Layout (Fragment Sink Indent)
open Layout.Fragment (row)

/-! ### Fragments that are written alike -/

namespace Layout

/-- A row writes what is in it, and nothing else. -/
theorem Sink.write?_row (s : Sink) (breakable : Bool) (fs : List Fragment) :
    s.write? breakable (row fs) = s.writeAll? breakable fs := by
  rw [row, Sink.write?]
  cases s.writeAll? breakable fs with
  | error obstacle => rfl
  | ok s => cases breakable <;> rfl

/-- Two fragments write the same, wherever they do. -/
def Fragment.WrittenAlike (f' f : Fragment) : Prop :=
  ∀ s breakable, Sink.write? s breakable f' = Sink.write? s breakable f

namespace Fragment

variable {f' f g : Fragment}

/-- Fragments that write the same have the same output. -/
theorem WrittenAlike.output (h : f'.WrittenAlike f) : f'.output = f.output := by
  rw [Fragment.output, Fragment.output, h]

/-- How rows are nested does not show. -/
theorem writtenAlike_regroup (fs : List Fragment) (g : Fragment) (gs : List Fragment) :
    (row (fs ++ [row (g :: gs)])).WrittenAlike (row (row (fs ++ [g]) :: gs)) := by
  intro s breakable
  have hsingle (s : Sink) (h : Fragment) : s.writeAll? breakable [h] = s.write? breakable h := by
    rw [Sink.writeAll?]
    exact bind_pure _
  rw [Sink.write?_row, Sink.write?_row, Sink.writeAll?, Sink.write?_row, Sink.writeAll?_append,
    Sink.writeAll?_append, bind_assoc]
  refine bind_congr fun s => ?_
  rw [hsingle, hsingle, Sink.write?_row, Sink.writeAll?]

/-- Rows that begin with fragments which write the same, and go on alike, write the same. -/
theorem writtenAlike_row (h : f'.WrittenAlike f) (gs : List Fragment) :
    (row (f' :: gs)).WrittenAlike (row (f :: gs)) := by
  intro s breakable
  rw [Sink.write?_row, Sink.write?_row, Sink.writeAll?, Sink.writeAll?, h]

end Fragment

end Layout

/-! ### Runs that are written alike -/

namespace Run

/-- Two runs report the same, and their outcomes are fragments that write the same, or the same
fault. -/
structure WrittenAlike (r' r : Run Fragment) : Prop where
  reports : r'.reports = r.reports
  outcome : Tally Eq Fragment.WrittenAlike r'.outcome r.outcome

namespace WrittenAlike

variable {α : Type} {r' r t : Run Fragment}

/-- A run is written like itself. -/
theorem refl (r : Run Fragment) : r.WrittenAlike r := by
  refine ⟨rfl, ?_⟩
  cases r.outcome with
  | error fault => exact .error rfl
  | ok f => exact .ok fun _ _ => rfl

/-- Runs that are written like a third one are written alike. -/
theorem trans (h' : r'.WrittenAlike r) (h : r.WrittenAlike t) : r'.WrittenAlike t := by
  refine ⟨h'.reports.trans h.reports, ?_⟩
  have houtcome' := h'.outcome
  have houtcome := h.outcome
  generalize r'.outcome = x', r.outcome = x, t.outcome = y at houtcome' houtcome
  cases houtcome' with
  | error hfault =>
    subst hfault
    exact houtcome
  | ok hf =>
    cases houtcome with
    | ok hg => exact .ok fun s breakable => (hf s breakable).trans (hg s breakable)

/-- If a run is written like another one, the other is written like it. -/
theorem symm (h : r'.WrittenAlike r) : r.WrittenAlike r' := by
  refine ⟨h.reports.symm, ?_⟩
  have houtcome := h.outcome
  generalize r'.outcome = x', r.outcome = x at houtcome
  cases houtcome with
  | error hfault => exact .error hfault.symm
  | ok hf => exact .ok fun s breakable => (hf s breakable).symm

/-- What follows is written alike if it is so for fragments that are. -/
theorem bind (h : r'.WrittenAlike r) {next' next : Fragment → Run Fragment}
    (hnext : ∀ f' f, f'.WrittenAlike f → (next' f').WrittenAlike (next f)) :
    (r' >>= next').WrittenAlike (r >>= next) := by
  obtain ⟨reports', outcome'⟩ := r'
  obtain ⟨reports, outcome⟩ := r
  obtain ⟨rfl, houtcome⟩ := h
  cases houtcome with
  | error hfault =>
    subst hfault
    exact refl _
  | ok hf =>
    obtain ⟨hreports, houtcome⟩ := hnext _ _ hf
    exact ⟨congrArg (reports' ++ ·) hreports, houtcome⟩

/-- What is done before makes no difference. -/
theorem bind_left (r : Run α) {next' next : α → Run Fragment}
    (hnext : ∀ a, (next' a).WrittenAlike (next a)) : (r >>= next').WrittenAlike (r >>= next) := by
  obtain ⟨reports, outcome⟩ := r
  cases outcome with
  | error fault => exact refl _
  | ok a =>
    obtain ⟨hreports, houtcome⟩ := hnext a
    exact ⟨congrArg (reports ++ ·) hreports, houtcome⟩

/-- Fragments that write the same are written alike as answers. -/
theorem pure {f' f : Fragment} (h : f'.WrittenAlike f) :
    (Pure.pure f' : Run Fragment).WrittenAlike (Pure.pure f) := ⟨rfl, .ok h⟩

end WrittenAlike

end Run

/-- Values that are written alike have the same text. -/
theorem Backend.textIn_of_writtenAlike {C : Type} {backend : Backend C} {checker : Checker} {c : C}
    {v w : Value}
    (h : (backend.convert checker c v).WrittenAlike (backend.convert checker c w)) :
    backend.textIn checker c v = backend.textIn checker c w := by
  have houtcome := h.outcome
  unfold Backend.textIn
  generalize (backend.convert checker c v).outcome = x, (backend.convert checker c w).outcome = y
    at houtcome
  cases houtcome with
  | error hfault => rw [hfault]
  | ok hf => exact hf.output

namespace CSharp

/-! ### Casts around what expressions begin with -/

/-- A cast, from how its type and its operand are rendered. -/
def castOf (type : Run Value) (operand : Run Fragment) : Run Fragment := do
  let type ← type
  let operand ← operand
  return row [.text "(", type.toFragment, .text ")", operand]

/-- An expression, from how what it begins with and what follows are rendered. -/
def leading (first : Run Fragment) (rest : Run (List Fragment)) : Run Fragment := do
  let first ← first
  let rest ← rest
  return row (first :: rest)

/-- A cast around an expression is written like one around what the expression begins with. -/
theorem writtenAlike_leading (type : Run Value) (first : Run Fragment)
    (rest : Run (List Fragment)) :
    (castOf type (leading first rest)).WrittenAlike (leading (castOf type first) rest) := by
  unfold castOf leading
  simp only [bind_assoc, pure_bind]
  refine .bind_left _ fun t => .bind_left _ fun x => .bind_left _ fun xs => .pure ?_
  exact Fragment.writtenAlike_regroup [.text "(", t.toFragment, .text ")"] x xs

/-- An expression is written alike if what it begins with is. -/
theorem leading_of_writtenAlike {first' first : Run Fragment} (h : first'.WrittenAlike first)
    (rest : Run (List Fragment)) : (leading first' rest).WrittenAlike (leading first rest) := by
  unfold leading
  exact h.bind fun x' x hx => .bind_left _ fun xs => .pure (Fragment.writtenAlike_row hx xs)

/-- An expression has a cast somewhere at its start, and is otherwise the same: around all of it, or
around the left operand of a binary expression or the condition of a conditional one, or around what
that begins with. -/
inductive CastAtStart (type : Value) : Value → Value → Prop where
  | here {n : Node} : n.kind = .asExpression → n.get .type = type →
    CastAtStart type (n.get .expression) n.toValue
  | binary {m n : Node} {operator : String} : m.kind = .binaryExpression →
    n.kind = .binaryExpression → m.get .operator = .text operator →
    n.get .operator = .text operator → m.get .right = n.get .right →
    CastAtStart type (m.get .left) (n.get .left) → CastAtStart type m.toValue n.toValue
  | conditional {m n : Node} : m.kind = .conditionalExpression →
    n.kind = .conditionalExpression → m.get .whenTrue = n.get .whenTrue →
    m.get .whenFalse = n.get .whenFalse → CastAtStart type (m.get .condition) (n.get .condition) →
    CastAtStart type m.toValue n.toValue

variable {indent : Indent} {preferStruct : Data} {checker : Checker} {c : Flags}
variable {type e v w : Value} {n : Node}

/-- What stands behind the left operand of a binary expression. -/
def behindLeft (operator : String) (right : Run Fragment) : Run (List Fragment) := do
  let operator ← Neutral.operatorOf (.text operator)
  let right ← right
  return [.text " ", operator.toFragment, .text " ", right]

/-- What stands behind the condition of a conditional expression. -/
def behindCondition (whenTrue whenFalse : Run Fragment) : Run (List Fragment) := do
  let whenTrue ← whenTrue
  let whenFalse ← whenFalse
  return [.text " ? ", whenTrue, .text " : ", whenFalse]

/-- A binary expression is rendered as its left operand and what stands behind it. -/
theorem convert_binary (hk : n.kind = .binaryExpression) {operator : String}
    (hoperator : n.get .operator = .text operator) :
    (backend indent preferStruct).convert checker c n.toValue =
      leading ((backend indent preferStruct).convert checker c (n.get .left))
        (behindLeft operator ((backend indent preferStruct).convert checker c (n.get .right))) := by
  have hrule : rule? indent n.kind = some Neutral.binary := by
    rw [hk]
    rfl
  -- a text is an operator, so it does not matter that it is looked at before the left operand
  obtain ⟨spelled, hspelled⟩ : ∃ v, Neutral.operatorOf (.text operator) = .ok v := ⟨_, rfl⟩
  have hpure {β : Type} (next : Value → Run β) :
      (liftM (Neutral.operatorOf (.text operator)) : Run Value) >>= next = next spelled := by
    rw [hspelled]
    exact pure_bind spelled next
  rw [convert_of_rule hrule, Neutral.binary, hoperator, leading, behindLeft, hpure, hpure]
  simp only [bind_assoc, pure_bind]
  rfl

/-- A conditional expression is rendered as its condition and what stands behind it. -/
theorem convert_conditional (hk : n.kind = .conditionalExpression) :
    (backend indent preferStruct).convert checker c n.toValue =
      leading ((backend indent preferStruct).convert checker c (n.get .condition))
        (behindCondition ((backend indent preferStruct).convert checker c (n.get .whenTrue))
          ((backend indent preferStruct).convert checker c (n.get .whenFalse))) := by
  have hrule : rule? indent n.kind = some Neutral.conditional := by
    rw [hk]
    rfl
  rw [convert_of_rule hrule, Neutral.conditional, leading, behindCondition]
  simp only [bind_assoc, pure_bind]
  rfl

/-- A cast is rendered as its type and its operand. -/
theorem convert_cast (hk : n.kind = .asExpression) :
    (backend indent preferStruct).convert checker c n.toValue =
      castOf (renderAscription checker (n.get .type) false "void")
        ((backend indent preferStruct).convert checker c (n.get .expression)) := by
  have hrule : rule? indent n.kind = some asExpression := by
    rw [hk]
    rfl
  rw [convert_of_rule hrule]
  rfl

/-- An expression with a cast somewhere at its start is written like the cast around all of it. -/
theorem CastAtStart.writtenAlike (h : CastAtStart type e v) :
    (castOf (renderAscription checker type false "void")
      ((backend indent preferStruct).convert checker c e)).WrittenAlike
        ((backend indent preferStruct).convert checker c v) := by
  induction h with
  | here hk htype =>
    rw [convert_cast hk, htype]
    exact .refl _
  | binary hm hn hoperator hoperator' hright _ ih =>
    rw [convert_binary hm hoperator, convert_binary hn hoperator', hright]
    exact (writtenAlike_leading _ _ _).trans (leading_of_writtenAlike ih _)
  | conditional hm hn htrue hfalse _ ih =>
    rw [convert_conditional hm, convert_conditional hn, htrue, hfalse]
    exact (writtenAlike_leading _ _ _).trans (leading_of_writtenAlike ih _)

/-! ### The texts of casts -/

/-- The text of a cast: its type in parentheses, and the text of its operand. -/
theorem textAt_cast (hindent : indent.isWhole = true) (hchecker : checker.IsTabled)
    (hn : n.IsUnspacedProgram) (hk : n.kind = .asExpression) {s : String}
    (hs : (renderAscription checker (n.get .type) false "void").outcome = .ok (.text s))
    (hunbroken : '\n' ∉ s.toList) (member : Bool) :
    ∃ t, textAt indent preferStruct checker member (n.get .expression) = .ok t ∧
      textAt indent preferStruct checker member n.toValue = .ok ("(" ++ s ++ ")" ++ t) := by
  obtain ⟨x, hx, hoperand, ht⟩ := exists_framed_field preferStruct hindent hchecker hn
    (f := .expression) (by rw [hk]; rfl) (List.Subset.refl _) member
  refine ⟨_, ht, ?_⟩
  have hflows : ∀ f ∈ [.text "(", .text s, .text ")", x], Fragment.flows f = true := by
    simp [Layout.Fragment.flows_text, hx.flows]
  have hgives : ((backend indent preferStruct).convert checker (place preferStruct member)
      n.toValue).Gives (· = row [.text "(", .text s, .text ")", x]) := by
    rw [convert_cast hk]
    have htype : (renderAscription checker (n.get .type) false "void").Gives (· = .text s) :=
      ⟨_, hs, rfl⟩
    refine htype.bind ?_
    rintro _ rfl
    refine hoperand.bind ?_
    rintro _ rfl
    exact Run.gives_pure rfl
  rw [textAt_of_convert hgives (Layout.Fragment.flows_row hflows false), Except.ok.injEq,
    ← String.toList_inj, Layout.Fragment.toList_render, row, Layout.Fragment.raw_row hflows false]
  -- the type in its parentheses stands on one line, and no blank is at its end
  have hpiece : Sink.stripLineEnds (("(" ++ s ++ ")").toList ++ x.raw) =
      ("(" ++ s ++ ")").toList ++ Sink.stripLineEnds x.raw := by
    refine Text.stripLineEnds_piece (by simpa using hunbroken) (by simp) (fun c hc => ?_) x.raw
    rw [String.toList_append, List.getLast?_append] at hc
    obtain rfl : ')' = c := Option.some.inj hc
    decide
  rw [String.toList_append, Layout.Fragment.toList_render, ← hpiece]
  simp

/-- However an expression is made with a cast at its start, what is reported and what is written is
the same: nothing tells a cast around a binary or a conditional expression from one around what that
begins with. The text is the type of the cast in parentheses and then the text of the operand as it
is: in parentheses, if the source puts it there. -/
theorem cast_written (indent : Indent) (preferStruct : Data) (checker : Checker) (type e : Value) :
    (∀ c v w, CastAtStart type e v → CastAtStart type e w →
      ((backend indent preferStruct).convert checker c v).reports =
        ((backend indent preferStruct).convert checker c w).reports ∧
      (backend indent preferStruct).textIn checker c v =
        (backend indent preferStruct).textIn checker c w) ∧
    (indent.isWhole = true → checker.IsTabled → ∀ s : String,
      (renderAscription checker type false "void").outcome = .ok (.text s) → '\n' ∉ s.toList →
      ∀ (n m : Node) (member : Bool), n.IsUnspacedProgram → n.kind = .asExpression →
        n.get .type = type → n.get .expression = m.toValue →
        ∃ t, textAt indent preferStruct checker member m.toValue = .ok t ∧
          textAt indent preferStruct checker member n.toValue = .ok ("(" ++ s ++ ")" ++ t) ∧
          (m.kind = .parenthesizedExpression → ∃ u,
            textAt indent preferStruct checker member (m.get .expression) = .ok u ∧
              t = "(" ++ u ++ ")")) := by
  constructor
  · intro c v w hv hw
    have halike : ((backend indent preferStruct).convert checker c v).WrittenAlike
        ((backend indent preferStruct).convert checker c w) :=
      hv.writtenAlike.symm.trans hw.writtenAlike
    exact ⟨halike.reports, Backend.textIn_of_writtenAlike halike⟩
  · rintro hindent hchecker s hs hunbroken n m member hn hk rfl hm
    obtain ⟨t, ht, htext⟩ := textAt_cast hindent hchecker hn hk hs hunbroken member
    rw [hm] at ht
    refine ⟨t, ht, htext, fun hparenthesized => ?_⟩
    obtain ⟨m', hm', hmtree, -⟩ := Node.one_of_all Node.isShaped_of_isUnspaced hn
      (f := .expression) (by rw [hk]; rfl)
    obtain rfl : m' = m := by
      have := congrArg Value.node? (hm'.symm.trans hm)
      simpa using this
    obtain ⟨u, hu, hinner⟩ :=
      textAt_parenthesized preferStruct hindent hchecker hmtree hparenthesized member
    exact ⟨u, hu, Except.ok.inj (ht.symm.trans hinner)⟩

/-- An annotation as a number. -/
def numberType : Value :=
  .node .typeNode .unknown (.text "number") (some (.primitive (.text "number"))) []

/-- A name. -/
def variableNamed (s : String) : Value := .node .identifier .unknown (.text s) none [.text s]

/-- The sum of `a` and `b`, of which the first is given. -/
def sumOf (a : Value) : Value := .bare .binaryExpression [a, .text "+", variableNamed "b"]

/-- A cast to a number. -/
def castToNumber (e : Value) : Node :=
  ⟨.asExpression, .unknown, .text "", none, [e, numberType]⟩

/-- A cast around a sum and one around its first summand are both casts at the start of the sum. -/
theorem castAtStart_sum :
    CastAtStart numberType (sumOf (variableNamed "a"))
      (castToNumber (sumOf (variableNamed "a"))).toValue ∧
    CastAtStart numberType (sumOf (variableNamed "a"))
      (sumOf (castToNumber (variableNamed "a")).toValue) :=
  ⟨.here (n := castToNumber (sumOf (variableNamed "a"))) rfl rfl,
    .binary (m := ⟨.binaryExpression, .unknown, .text "", none, _⟩)
      (n := ⟨.binaryExpression, .unknown, .text "", none, _⟩) rfl rfl rfl rfl rfl
      (.here (n := castToNumber (variableNamed "a")) rfl rfl)⟩

/-- The sum of `a` and `b` in parentheses. -/
def groupedSum : Node :=
  ⟨.parenthesizedExpression, .unknown, .text "", none, [sumOf (variableNamed "a")]⟩

/-- Both casts of the sum are written by the same text, and only that of the sum in parentheses
shows what it reaches. -/
theorem cast_written_sum :
    (backend (.blanks 4) (.bool true)).textIn .recorded {}
        (castToNumber (sumOf (variableNamed "a"))).toValue =
      (backend (.blanks 4) (.bool true)).textIn .recorded {}
        (sumOf (castToNumber (variableNamed "a")).toValue) ∧
    ∃ t, textAt (.blanks 4) (.bool true) .recorded false groupedSum.toValue = .ok t ∧
      textAt (.blanks 4) (.bool true) .recorded false (castToNumber groupedSum.toValue).toValue =
        .ok ("(" ++ "int" ++ ")" ++ t) ∧
      (groupedSum.kind = .parenthesizedExpression → ∃ u,
        textAt (.blanks 4) (.bool true) .recorded false (groupedSum.get .expression) = .ok u ∧
          t = "(" ++ u ++ ")") := by
  obtain ⟨hsame, -⟩ := cast_written (.blanks 4) (.bool true) .recorded numberType
    (sumOf (variableNamed "a"))
  obtain ⟨-, hgrouped⟩ := cast_written (.blanks 4) (.bool true) .recorded numberType
    groupedSum.toValue
  have htype : (renderAscription .recorded numberType false "void").outcome =
      .ok (.text "int") := by
    show (renderType numberType (.primitive (.text "number")) false).outcome = _
    rw [renderType_of_concrete? (u := .primitive (.text "number")) rfl]
    rfl
  exact ⟨(hsame {} _ _ castAtStart_sum.1 castAtStart_sum.2).2,
    hgrouped rfl (Or.inl rfl) "int" htype (by decide) (castToNumber groupedSum.toValue) groupedSum
      false (by unfold Node.IsUnspacedProgram; decide) rfl rfl rfl⟩

/-- A cast around a sum is not told from a cast of its first term. -/
theorem text_castSum :
    Target.text [] .recorded (castToNumber (sumOf (variableNamed "a"))).toValue =
      .ok "(int)a + b" ∧
    Target.text [] .recorded (sumOf (castToNumber (variableNamed "a")).toValue) =
      .ok "(int)a + b" := by
  decide +kernel

end CSharp

end CodeSample

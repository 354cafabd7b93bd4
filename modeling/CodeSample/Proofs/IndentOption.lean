import CodeSample.Proofs.SideBySide
import CodeSample.Proofs.TextLines
import CodeSample.Proofs.Totality

/-!
# The option for indentation

How deep lines are indented has no part in anything else. Fragments that are the same but for their
indentation come out as texts with the same lines but for the blanks in front of these, whatever the
indentations are, and so does a tree that is rendered for two values of the option.

* `Sink.Lines` is what has been written, as lines;
* `Sink.SameBelow` says of two sinks that these are the same but for the blanks in front, and
  `Simulation.sameBelow`: that is kept whatever the levels are;
* `Fragment.tally_output` and `CSharp.tally_indent` are what follows for fragments and for
  renderings, `sameLines_rendering` both at once.
-/

namespace CodeSample

open Layout (Fragment Indent)
open Text (SameLines)

namespace Layout

open Text (joinLines outdent)

/-- Two whole numbers of blanks. -/
def Indent.Whole (i' i : Indent) : Prop := i'.isWhole = true ∧ i.isWhole = true

namespace Sink

/-! ### Lines of a sink -/

/-- What has been written, as lines: those above the current one, and the current one. -/
structure Lines (above : List (List Char)) (s : Sink) : Prop where
  written : s.written.toList = joinLines above s.line.toList
  unbroken : ∀ l ∈ above, '\n' ∉ l
  current : '\n' ∉ s.line.toList

namespace Lines

variable {above : List (List Char)} {s : Sink}

/-- A character that breaks no line goes on the current one. -/
theorem putChar (h : s.Lines above) {c : Char} (hc : c ≠ '\n') : (s.putChar c).Lines above := by
  unfold Sink.putChar
  rw [if_neg hc]
  refine ⟨?_, h.unbroken, ?_⟩
  · rw [String.toList_push, String.toList_push, h.written]
    exact List.append_assoc ..
  · rw [String.toList_push, List.mem_append, List.mem_singleton, not_or]
    exact ⟨h.current, Ne.symm hc⟩

/-- A line break ends the current line. -/
theorem newline (h : s.Lines above) : (s.putChar '\n').Lines (above ++ [s.line.toList]) := by
  unfold Sink.putChar
  rw [if_pos rfl]
  refine ⟨?_, ?_, newline_not_mem_margin s.level⟩
  · rw [String.toList_append, String.toList_push, h.written, Text.joinLines_concat]
    simp [joinLines]
  · exact List.forall_mem_append.2 ⟨h.unbroken, List.forall_mem_singleton.2 h.current⟩

end Lines

/-- Two sinks hold as many lines, and the same ones but for the blanks in front of them. Nothing is
asked of their levels. -/
def SameBelow (s' s : Sink) : Prop :=
  ∃ above' above, s'.Lines above' ∧ s.Lines above ∧ above'.map outdent = above.map outdent ∧
    outdent s'.line.toList = outdent s.line.toList

/-- A character written into two sinks keeps their lines the same. -/
theorem SameBelow.putChar {s' s : Sink} (c : Char) (h : s'.SameBelow s) :
    (s'.putChar c).SameBelow (s.putChar c) := by
  obtain ⟨above', above, hlines', hlines, habove, hline⟩ := h
  by_cases hc : c = '\n'
  · -- the lines are done, and those that are begun hold blanks only
    subst hc
    have hblank (s : Sink) : outdent (s.putChar '\n').line.toList = [] := by
      show outdent (margin s.level).toList = []
      rw [toList_margin, ← List.append_nil (List.replicate _ ' '), Text.outdent_replicate]
      rfl
    refine ⟨_, _, hlines'.newline, hlines.newline, ?_, by rw [hblank, hblank]⟩
    rw [List.map_append, List.map_append, habove, List.map_singleton, List.map_singleton, hline]
  · refine ⟨above', above, hlines'.putChar hc, hlines.putChar hc, habove, ?_⟩
    unfold Sink.putChar
    rw [if_neg hc, if_neg hc, String.toList_push, String.toList_push]
    exact Text.outdent_append hline [c]

/-- Lines do not depend on the levels. -/
theorem SameBelow.levels {s' s : Sink} (h : s'.SameBelow s) (level' level : Int)
    (outer' outer : List Int) : SameBelow { s' with level := level', outer := outer' }
      { s with level, outer } := by
  obtain ⟨above', above, hlines', hlines, hsame⟩ := h
  exact ⟨above', above, ⟨hlines'.written, hlines'.unbroken, hlines'.current⟩,
    ⟨hlines.written, hlines.unbroken, hlines.current⟩, hsame⟩

/-- Lines stay the same at any levels. -/
def Simulation.sameBelow : Sink.Simulation where
  holds := SameBelow
  indent := Indent.Whole
  putChar c h := h.putChar c
  blank h := by
    obtain ⟨_, _, -, -, -, hline⟩ := h
    rw [← Text.all_isBlank_outdent, hline, Text.all_isBlank_outdent]
  push _ h := h.levels ..
  push_zero h := h.levels ..
  restore _ hu := hu.levels ..

/-- Finished texts have the same lines if what was written does. -/
theorem SameBelow.text {s' s : Sink} (h : s'.SameBelow s) : SameLines s'.text s.text := by
  obtain ⟨above', above, hlines', hlines, habove, hline⟩ := h
  unfold Sink.text
  rw [hlines'.written, hlines.written]
  exact Text.sameLines_stripLineEnds hlines'.unbroken hlines'.current hlines.unbroken
    hlines.current habove hline

end Sink

/-! ### Fragments -/

namespace Fragment

variable {f' f : Fragment}

/-- Fragments that differ in indentation only are written with the same lines. -/
theorem sameLines_render (h : f'.Alike Indent.Whole f) : SameLines f'.render f.render := by
  have hstart : Sink.SameBelow {} {} := by
    refine ⟨[], [], ⟨rfl, by simp, by simp⟩, ⟨rfl, by simp, by simp⟩, rfl, rfl⟩
  exact (Sink.Simulation.sameBelow.write h hstart).text

/-- Fragments that are the same but for whole numbers of blanks are laid out with the same lines but
for the blanks in front of them, or none of them can be. -/
theorem tally_output (h : f'.Alike Indent.Whole f) : Tally Eq SameLines f'.output f.output := by
  rw [h.output_eq fun _ _ hi => hi.2, h.symm.output_eq fun _ _ hi => hi.1,
    h.isPlain fun _ _ hi => hi]
  split
  · exact .ok (sameLines_render h)
  · exact .error rfl

end Fragment

end Layout

/-! ### Renderings -/

/-- Two renderings report the same, and their texts have the same lines but for the blanks in front
of them. -/
structure Rendering.SameLines (r' r : Rendering) : Prop where
  diagnostics : r'.diagnostics = r.diagnostics
  text : Text.SameLines r'.text r.text

/-- Rendered with two whole numbers for the indentation, a value has the same diagnostics and the
same lines but for the blanks in front of them, or ends in the same fault. -/
theorem CSharp.tally_indent {indent' indent : Indent} (hindent : Indent.Whole indent' indent)
    (preferStruct : Data) (checker : Checker) (root : Value) :
    Tally Eq Rendering.SameLines ((backend indent' preferStruct).render checker root)
      ((backend indent preferStruct).render checker root) := by
  obtain ⟨hreports, houtcome⟩ := convert_upTo (D := Indent.Whole) ⟨rfl, rfl⟩ hindent preferStruct
    checker (backend indent preferStruct).initial root
  unfold Backend.render
  refine houtcome.bind fun f' f hf => ?_
  refine (Fragment.tally_output hf).bind fun text' text htext => ?_
  exact .ok ⟨hreports, htext⟩

/-- The indentation changes only the blanks in front of lines. Two fragments that are the same but
for whole numbers of blanks, negative ones included, are laid out with as many lines, which are the
same without the blanks in front. So are two renderings of any value with any checker for options
that differ only in the indentation: they have the same diagnostics and such lines, or both end in
the same fault; and there is none if the value is a program and the checker is one that answers from
what is recorded or with one type. -/
theorem sameLines_rendering :
    (∀ f' f : Fragment, f'.Alike Indent.Whole f → f.isPlain = true →
      ∃ text' text, f'.output = .ok text' ∧ f.output = .ok text ∧ SameLines text' text) ∧
    ∀ (options' options : List (String × Data)) (o' o : Target.Options) (checker : Checker)
      (root : Value), (∀ option ∈ options', Target.IsOption option) →
      (∀ option ∈ options, Target.IsOption option) →
      Target.Options.ofMembers options' = .ok o' → Target.Options.ofMembers options = .ok o →
      o'.preferStruct = o.preferStruct →
      Tally Eq Rendering.SameLines (Target.render (.text CSharp.name) options' checker root)
        (Target.render (.text CSharp.name) options checker root) ∧
      (root.IsShaped .source → (∀ k ∈ root.kind?, k ∉ Kind.inner) → checker.IsTabled →
        ∃ r' r, Target.render (.text CSharp.name) options' checker root = .ok r' ∧
          Target.render (.text CSharp.name) options checker root = .ok r ∧ r'.SameLines r) := by
  constructor
  · intro f' f h hplain
    have htally := Fragment.tally_output h
    rw [Fragment.output_of_isPlain hplain] at htally ⊢
    generalize f'.output = output at htally
    cases htally with
    | ok hlines => exact ⟨_, _, rfl, rfl, hlines⟩
  intro options' options o' o checker root hoptions' hoptions ho' ho hprefer
  have hwhole {options : List (String × Data)} {o : Target.Options}
      (h : ∀ option ∈ options, Target.IsOption option)
      (ho : Target.Options.ofMembers options = .ok o) : o.indent.isWhole = true := by
    obtain ⟨o₁, ho₁, hindent⟩ := Target.ofMembers_ok h
    rw [ho] at ho₁
    exact Except.ok.inj ho₁ ▸ hindent
  have hindent : Indent.Whole o'.indent o.indent := ⟨hwhole hoptions' ho', hwhole hoptions ho⟩
  have htally := CSharp.tally_indent hindent o.preferStruct checker root
  rw [Target.render_eq hoptions' ho', Target.render_eq hoptions ho, hprefer]
  refine ⟨htally, fun hroot hkind hchecker => ?_⟩
  obtain ⟨n, hn⟩ : ∃ n, root.node? = some n := by
    have hnode := hroot.1
    cases h : root.node? with
    | none => simp [Value.kind?, h] at hnode
    | some n => exact ⟨n, rfl⟩
  obtain rfl := Value.toValue_of_node? hn
  obtain ⟨f, -, -, hrender⟩ := CSharp.finishes (hwhole hoptions ho) o.preferStruct
    ⟨hroot.2, hkind n.kind rfl⟩ hchecker
  rw [hrender] at htally ⊢
  generalize (CSharp.backend o'.indent o.preferStruct).render checker n.toValue = result at htally
  cases htally with
  | ok hlines => exact ⟨_, _, rfl, rfl, hlines⟩

/-- Two calls in braces, indented as is asked for. -/
def Layout.Fragment.calls (indent : Int) : Fragment :=
  .tree [.text "\x7b"] [.line [.text "go();"], .line [.text "  stop();"]]
    { indent := .blanks indent, closing := some "\n\x7d" }

/-- The greeter has the same lines for two values of the option, one of them negative. -/
theorem sameLines_rendering_greeter :
    (∃ text' text, (Fragment.calls (-2)).output = .ok text' ∧
      (Fragment.calls 4).output = .ok text ∧ SameLines text' text) ∧
    ∃ r' r, Target.render (.text CSharp.name) [("indent", .int (-1))] .recorded greeter = .ok r' ∧
      Target.render (.text CSharp.name) [("indent", .int 3)] .recorded greeter = .ok r ∧
      r'.SameLines r := by
  have hline (s : String) : Fragment.Alike Indent.Whole (.line [.text s]) (.line [.text s]) :=
    .tree { fresh := true } (.cons (.text s) .nil) .nil ⟨rfl, rfl⟩
  have hcalls : (Fragment.calls (-2)).Alike Indent.Whole (Fragment.calls 4) :=
    .tree { closing := some "\n\x7d" } (.cons (.text _) .nil)
      (.cons (hline _) (.cons (hline _) .nil)) ⟨rfl, rfl⟩
  have hoptions (k : Int) : ∀ o ∈ [("indent", Data.int k)], Target.IsOption o := by
    intro o ho
    obtain rfl := List.mem_singleton.1 ho
    exact Or.inr ⟨rfl, k, rfl⟩
  obtain ⟨hfragments, hrenderings⟩ := sameLines_rendering
  refine ⟨hfragments _ _ hcalls rfl, ?_⟩
  exact (hrenderings _ _ { indent := .blanks (-1) } { indent := .blanks 3 } .recorded greeter
    (hoptions (-1)) (hoptions 3) rfl rfl rfl).2 (by decide) (by decide) (Or.inl rfl)

end CodeSample

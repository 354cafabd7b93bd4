import CodeSample.Proofs.LayoutText
import CodeSample.Proofs.SideBySide
import CodeSample.Proofs.TextLines
import Mathlib.Algebra.Ring.Int.Defs
import Mathlib.Data.List.DropRight

/-!
# Runs of a sink

A sink keeps the line it is on and the levels of indentation beside the text, and whoever writes
into it may change the level from outside between two writes. After any steps these agree with the
text, and with the changes that have not been undone.

* `Sink.run` is a fresh sink after some steps, `Sink.unpopped` are the changes of the level that are
  left to undo after them;
* `Sink.Tracks` is the invariant, `Tracks.after` what a step preserves and `tracks_run` what a run
  does;
* `Sink.isPrefix_text_after`: a step takes nothing away from the text;
* `Sink.run_agrees` is all of it.
-/

namespace CodeSample.Layout.Sink

/-! ### Runs -/

/-- Whether a step can be taken by what it is: nothing but texts, indented by whole numbers, are
written. -/
def Step.isPlain : Step → Bool
  | .write f => f.isPlain
  | _ => true

/-- The sink after a step. It stays as it was if the step cannot be taken. -/
def after (s : Sink) (step : Step) : Sink :=
  match s.step? step with
  | .ok s => s
  | .error _ => s

/-- A fresh sink after steps. -/
def run (steps : List Step) : Sink := steps.foldl after {}

/-- The changes of the level that are left to undo after a step, the last one first. -/
def Step.unpopped (deltas : List Int) : Step → List Int
  | .push delta => delta :: deltas
  | .pop => deltas.tail
  | _ => deltas

/-- The changes of the level that are left to undo after steps, the last one first. -/
def unpopped (steps : List Step) : List Int := steps.foldl Step.unpopped []

/-- One step more is taken after all others. -/
theorem run_concat (steps : List Step) (step : Step) :
    run (steps ++ [step]) = (run steps).after step := List.foldl_concat ..

/-- What is left to undo after one step more is what it makes of what was left before. -/
theorem unpopped_concat (steps : List Step) (step : Step) :
    unpopped (steps ++ [step]) = step.unpopped (unpopped steps) := List.foldl_concat ..

/-- A fragment that holds only texts can always be written. -/
theorem after_write {f : Fragment} (h : f.isPlain = true) (s : Sink) :
    s.after (.write f) = s.write f := by
  rw [after, step?, write?_of_isPlain s h]

/-- A change of the level can always be undone, if only by doing nothing. -/
theorem after_pop (s : Sink) : s.after .pop = s.pop := by
  unfold after step? pop
  cases s.pop? <;> rfl

/-! ### The line -/

/-- What follows the last line break. -/
def lastLine (cs : List Char) : List Char := cs.rtakeWhile (· != '\n')

/-- A character that breaks no line goes on the last one. -/
theorem lastLine_concat {c : Char} (h : c ≠ '\n') (cs : List Char) :
    lastLine (cs ++ [c]) = lastLine cs ++ [c] :=
  List.rtakeWhile_concat_pos _ _ _ (by simpa using h)

/-- Behind a line break the last line is empty. -/
theorem lastLine_newline (cs : List Char) : lastLine (cs ++ ['\n']) = [] :=
  List.rtakeWhile_concat_neg _ _ _ (by simp)

/-- Behind a line break and a margin the last line is the margin. -/
theorem lastLine_margin (cs : List Char) (n : Nat) :
    lastLine (cs ++ '\n' :: List.replicate n ' ') = List.replicate n ' ' := by
  induction n with
  | zero => exact lastLine_newline cs
  | succ n ih =>
    rw [List.replicate_succ', ← List.cons_append, ← List.append_assoc, lastLine_concat (by decide),
      ih]

/-- The line is what follows the last line break in the text. -/
def IsOnLine (s : Sink) : Prop := s.line.toList = lastLine s.written.toList

/-- Writing a character keeps the line that of the text: it goes on the line or starts one. -/
theorem IsOnLine.putChar {s : Sink} (c : Char) (h : s.IsOnLine) : (s.putChar c).IsOnLine := by
  unfold IsOnLine Sink.putChar at *
  by_cases hc : c = '\n'
  · rw [if_pos hc, margin]
    simp only [String.toList_append, String.toList_push, String.toList_ofList]
    rw [List.append_assoc, List.singleton_append, lastLine_margin]
  · rw [if_neg hc]
    simp only [String.toList_push]
    rw [lastLine_concat hc, h]

/-- Writing a fragment keeps the line that of the text. -/
theorem IsOnLine.write {s : Sink} (h : s.IsOnLine) (f : Fragment) : (s.write f).IsOnLine :=
  Simulation.invariant_write (fun c hs => hs.putChar c) (fun _ _ hs => hs) h f

/-- Coming to the start of a line keeps the line that of the text. -/
theorem IsOnLine.freshLine {s : Sink} (h : s.IsOnLine) : s.freshLine.IsOnLine := by
  unfold Sink.freshLine
  split
  · exact h
  · exact h.putChar '\n'

/-! ### The levels -/

/-- The line is that of the text, and the levels are the sums of the changes which were made and
have not been undone: of all of them, of all but the last one, and so on. -/
structure Tracks (deltas : List Int) (s : Sink) : Prop where
  line : s.IsOnLine
  levels : s.level :: s.outer = deltas.tails.map List.sum

namespace Tracks

variable {deltas : List Int} {s : Sink}

/-- The level is the sum of the changes that have not been undone. -/
theorem level (h : s.Tracks deltas) : s.level = deltas.sum := by
  have hlevels := h.levels
  cases deltas <;> exact (List.cons.inj hlevels).1

/-- Only the text changes, and the line with it. -/
theorem congr {u : Sink} (h : s.Tracks deltas) (hline : u.IsOnLine)
    (hframe : u.level = s.level ∧ u.outer = s.outer) : u.Tracks deltas :=
  ⟨hline, by rw [hframe.1, hframe.2, h.levels]⟩

/-- A change of the level is one more to undo. -/
theorem push (h : s.Tracks deltas) (delta : Int) : (s.push delta).Tracks (delta :: deltas) := by
  refine ⟨h.line, ?_⟩
  show (s.level + delta) :: (s.level :: s.outer) = (delta + deltas.sum) :: deltas.tails.map List.sum
  rw [h.levels, h.level, Int.add_comm]

/-- Undoing the last change leaves the others. -/
theorem pop (h : s.Tracks deltas) : s.pop.Tracks deltas.tail := by
  obtain ⟨hline, hlevels⟩ := h
  cases deltas with
  | nil =>
    -- nothing to undo: there is no level below the current one
    have houter : s.outer = [] := (List.cons.inj hlevels).2
    have hpop : s.pop = s := by
      unfold Sink.pop Sink.pop?
      rw [houter]
      rfl
    rw [hpop]
    exact ⟨hline, hlevels⟩
  | cons delta deltas =>
    have houter : s.outer = deltas.tails.map List.sum := (List.cons.inj hlevels).2
    cases hs : s.outer with
    | nil =>
      rw [hs] at houter
      cases deltas <;> cases houter
    | cons level outer =>
      have hpop : s.pop = { s with level, outer } := by
        unfold Sink.pop Sink.pop?
        rw [hs]
        rfl
      rw [hpop]
      exact ⟨hline, hs.symm.trans houter⟩

/-- What a step preserves. -/
theorem after (h : s.Tracks deltas) {step : Step} (hplain : step.isPlain = true) :
    (s.after step).Tracks (step.unpopped deltas) := by
  cases step with
  | write f =>
    rw [after_write hplain]
    exact h.congr (h.line.write f) (frame_write s f)
  | freshLine => exact h.congr h.line.freshLine (frame_freshLine s)
  | push delta => exact h.push delta
  | pop =>
    rw [after_pop]
    exact h.pop

end Tracks

/-- What a whole run preserves. -/
theorem tracks_run {steps : List Step} (h : ∀ step ∈ steps, step.isPlain = true) :
    (run steps).Tracks (unpopped steps) := by
  induction steps using List.reverseRecOn with
  | nil => exact ⟨rfl, rfl⟩
  | append_singleton steps step ih =>
    rw [run_concat, unpopped_concat]
    exact (ih fun step hstep => h step (List.mem_append_left _ hstep)).after (h step (by simp))

/-! ### The text -/

/-- What is written later takes nothing away from the text. -/
theorem isPrefix_text {s' s : Sink} (h : s.written.toList <+: s'.written.toList) :
    s.text.toList <+: s'.text.toList := by
  obtain ⟨added, hadded⟩ := h
  unfold text
  rw [String.toList_ofList, String.toList_ofList, ← hadded]
  exact Text.isPrefix_stripLineEnds _ added

/-- A step takes nothing away from the text. -/
theorem isPrefix_text_after (s : Sink) {step : Step} (hplain : step.isPlain = true) :
    s.text.toList <+: (s.after step).text.toList := by
  apply isPrefix_text
  cases step with
  | write f =>
    rw [after_write hplain]
    obtain ⟨added, hadded, -⟩ := adds_write s f
    exact ⟨added, hadded.symm⟩
  | freshLine =>
    obtain ⟨added, hadded, -⟩ := adds_freshLine s
    exact ⟨added, hadded.symm⟩
  | push delta => exact List.prefix_refl _
  | pop =>
    rw [after_pop]
    unfold pop pop?
    cases s.outer <;> exact List.prefix_refl _

/-- After any steps the parts of a sink agree. The line is what follows the last line break of what
has been written; the level is the sum of the changes that are left to undo, and those below it are
the sums of fewer of them. No line of the text ends in a blank or a tab, and whatever is done next,
the text goes on from there. Writing succeeds and leaves all levels as they were, as it does in any
sink, in the midst of a tree too. With nothing left to undo, undoing fails and changes nothing. -/
theorem run_agrees (steps : List Step) (h : ∀ step ∈ steps, step.isPlain = true) :
    (run steps).line.toList = lastLine (run steps).written.toList ∧
    (run steps).level = (unpopped steps).sum ∧
    (run steps).level :: (run steps).outer = (unpopped steps).tails.map List.sum ∧
    (∀ line ∈ (run steps).text.toList.splitOn '\n', ∀ c ∈ line.getLast?, c ≠ ' ' ∧ c ≠ '\t') ∧
    (∀ step : Step, step.isPlain = true →
      (run steps).text.toList <+: (run (steps ++ [step])).text.toList) ∧
    (∀ (s : Sink) (f : Fragment), f.isPlain = true → s.step? (.write f) = .ok (s.write f) ∧
      (s.write f).level = s.level ∧ (s.write f).outer = s.outer) ∧
    (unpopped steps = [] →
      (run steps).step? .pop = .error .noChange ∧ run (steps ++ [.pop]) = run steps) := by
  have htracks := tracks_run h
  refine ⟨htracks.line, htracks.level, htracks.levels, fun line hline => ?_, fun step hplain => ?_,
    fun s f hplain => ⟨write?_of_isPlain s hplain, frame_write s f⟩, fun hnone => ?_⟩
  · rw [text, String.toList_ofList] at hline
    exact Text.getLast?_of_mem_splitOn hline
  · rw [run_concat]
    exact isPrefix_text_after _ hplain
  · have hlevels := htracks.levels
    rw [hnone] at hlevels
    have houter : (run steps).outer = [] := (List.cons.inj hlevels).2
    have hpop : (run steps).step? .pop = .error .noChange := by
      unfold step? pop?
      rw [houter]
    refine ⟨hpop, ?_⟩
    rw [run_concat, after, hpop]

/-- A tree written at one level, and a text at another, where the line is blank as it is. -/
def outline : List Step :=
  [.push 4,
    .write (.tree [.text "when \x7b"] [.line [.text "go();  \n"]] { indent := .blanks (-2) }),
    .freshLine, .push 3, .write (.text "end\t")]

/-- The outline can be written, comes to level seven, and has nothing left to undo after two steps
back. -/
theorem run_agrees_outline :
    (∀ step ∈ outline, step.isPlain = true) ∧
    (run outline).line.toList = lastLine (run outline).written.toList ∧
    (run outline).level = [3, 4].sum ∧
    run (outline ++ [.pop, .pop] ++ [.pop]) = run (outline ++ [.pop, .pop]) := by
  have hplain : ∀ step ∈ outline, step.isPlain = true := by decide
  have hpopped : ∀ step ∈ outline ++ [.pop, .pop], step.isPlain = true := by decide
  obtain ⟨hline, hlevel, -⟩ := run_agrees outline hplain
  obtain ⟨-, -, -, -, -, -, hpop⟩ := run_agrees (outline ++ [.pop, .pop]) hpopped
  exact ⟨hplain, hline, hlevel, (hpop rfl).2⟩

end CodeSample.Layout.Sink

import CodeSample.Proofs.EmptyTrees
import CodeSample.Proofs.TextLines

/-!
# Fragments grouped in another way

A sink does not see where one piece of text ends and the next one begins. A line break may be the
last character of a piece or the first one of the next, and the blanks that follow it are written
all the same. So it makes no difference how the fragments in front of children are cut into texts,
and whether some of them are put together in a tree of their own.

* `Sink.putLines` writes a text line by line, and `putLines_eq_put`: it leaves what `Sink.put`
  leaves;
* `Fragment.Regrouped` says that two fragments differ in the grouping in front of children only, at
  any depth;
* `Fragment.Interchangeable` is what a fragment shows to the tree around it, and
  `Regrouped.interchangeable`: regrouping changes none of it;
* `Fragment.output_of_regrouped` is the statement for sinks and for finished output.
-/

namespace CodeSample.Layout

open Fragment (isThere isWritten allSilent)

/-! ### Texts line by line -/

namespace Sink

/-- Writes a text on the current line. -/
def append (s : Sink) (t : String) : Sink :=
  { s with written := s.written ++ t, line := s.line ++ t }

/-- Begins a new line with the blanks of the current level and a text. -/
def beginLine (s : Sink) (t : String) : Sink :=
  append { s with written := s.written.push '\n', line := "" } (margin s.level ++ t)

/-- Writes lines: the first one after what stands on the current line, and each of the others on a
new one. -/
def putEach (s : Sink) : List (List Char) → Sink
  | [] => s
  | line :: lines => lines.foldl (fun s l => s.beginLine (String.ofList l))
      (s.append (String.ofList line))

/-- Writes a text line by line. -/
def putLines (s : Sink) (t : String) : Sink := s.putEach (t.toList.splitOn '\n')

/-- Writing the empty text changes nothing. -/
theorem append_empty (s : Sink) : s.append "" = s := by
  rw [append, String.append_empty, String.append_empty]

/-- Characters that break no line are written one after the other. -/
theorem append_cons (s : Sink) {c : Char} (hc : c ≠ '\n') (cs : List Char) :
    s.append (String.ofList (c :: cs)) = (s.putChar c).append (String.ofList cs) := by
  have hcons (t : String) : t ++ String.ofList (c :: cs) = t.push c ++ String.ofList cs := by
    rw [← String.toList_inj]
    simp
  rw [putChar, if_neg hc, append, append, hcons, hcons]

/-- Beginning a line is writing a line break and then the text. -/
theorem beginLine_eq (s : Sink) (t : String) : s.beginLine t = (s.putChar '\n').append t := by
  rw [putChar, if_pos rfl, beginLine, append, append, String.append_assoc, String.empty_append]

/-- Writing a text line by line leaves the same sink as writing it character by character. -/
theorem putLines_eq_put (s : Sink) (t : String) : s.putLines t = s.put t := by
  unfold putLines put
  induction t.toList generalizing s with
  | nil => exact append_empty s
  | cons c cs ih =>
    rw [List.foldl_cons, ← ih, List.splitOn_cons_eq_if_modifyHead]
    obtain ⟨line, lines, hlines⟩ := List.exists_cons_of_ne_nil (List.splitOn_ne_nil '\n' cs)
    rw [hlines]
    by_cases hc : c = '\n'
    · subst hc
      rw [if_pos (beq_self_eq_true _), putEach, putEach, List.foldl_cons, beginLine_eq]
      have hempty : s.append (String.ofList []) = s := append_empty s
      rw [hempty]
    · rw [if_neg (by simpa using hc), List.modifyHead_cons, putEach, putEach, append_cons s hc]

/-- A text that cannot be written because a line breaks in it cannot be written in two parts
either. -/
theorem put?_append (s : Sink) (breakable : Bool) (a b : String) :
    s.put? breakable (a ++ b) = s.put? breakable a >>= (·.put? breakable b) := by
  have hmem : (a ++ b).toList.contains '\n' =
      (a.toList.contains '\n' || b.toList.contains '\n') := by
    rw [String.toList_append, List.contains_append]
  unfold put?
  rw [hmem]
  cases breakable <;> cases a.toList.contains '\n' <;> cases b.toList.contains '\n' <;>
    simp [bind, Except.bind, put_append]

end Sink

/-! ### Regrouping -/

namespace Fragment

/-- The second fragment is the first one with fragments in front of children grouped in another
way: places where nothing is are left out, neighbouring texts are joined, and trees with something
in front of children and nothing else are opened, at any depth and any number of times, or the other
way round. -/
inductive Regrouped : Fragment → Fragment → Prop where
  | gap (before after children : List Fragment) (style : Style) :
    Regrouped (tree (before ++ nothing :: after) children style)
      (tree (before ++ after) children style)
  | join (a b : String) (before after children : List Fragment) (style : Style) :
    Regrouped (tree (before ++ text a :: text b :: after) children style)
      (tree (before ++ text (a ++ b) :: after) children style)
  | inline {front silent : List Fragment} {inner : Style} (hfront : front.any isThere = true)
    (hsilent : allSilent silent = true) (hclosing : isWritten inner.closing = false)
    (before after children : List Fragment) (style : Style) :
    Regrouped (tree (before ++ tree front silent inner :: after) children style)
      (tree (before ++ (front ++ after)) children style)
  | front {f g : Fragment} (h : Regrouped f g) (before after children : List Fragment)
    (style : Style) :
    Regrouped (tree (before ++ f :: after) children style)
      (tree (before ++ g :: after) children style)
  | child {f g : Fragment} (h : Regrouped f g) (front before after : List Fragment)
    (style : Style) :
    Regrouped (tree front (before ++ f :: after) style) (tree front (before ++ g :: after) style)
  | refl (f : Fragment) : Regrouped f f
  | symm {f g : Fragment} (h : Regrouped f g) : Regrouped g f
  | trans {f g k : Fragment} (h : Regrouped f g) (h' : Regrouped g k) : Regrouped f k

/-- Two fragments that a tree around them does not tell apart: both are there, or are passed over,
or start on a line of their own, and both write the same into every sink. -/
structure Interchangeable (f g : Fragment) : Prop where
  isThere : f.isThere = g.isThere
  isSilent : f.isSilent = g.isSilent
  isFresh : f.isFresh = g.isFresh
  write? : ∀ (s : Sink) (breakable : Bool), s.write? breakable f = s.write? breakable g

namespace Interchangeable

variable {f g k : Fragment}

/-- A fragment is interchangeable with itself. -/
theorem refl (f : Fragment) : f.Interchangeable f := ⟨rfl, rfl, rfl, fun _ _ => rfl⟩

/-- Being interchangeable goes both ways. -/
theorem symm (h : f.Interchangeable g) : g.Interchangeable f :=
  ⟨h.isThere.symm, h.isSilent.symm, h.isFresh.symm,
    fun s breakable => (h.write? s breakable).symm⟩

/-- Fragments that are interchangeable with a third one are so with one another. -/
theorem trans (h : f.Interchangeable g) (h' : g.Interchangeable k) : f.Interchangeable k :=
  ⟨h.isThere.trans h'.isThere, h.isSilent.trans h'.isSilent, h.isFresh.trans h'.isFresh,
    fun s breakable => (h.write? s breakable).trans (h'.write? s breakable)⟩

/-- In front of children only what is written counts, and whether anything is there. -/
theorem of_front {fs gs : List Fragment}
    (hthere : fs.any Fragment.isThere = gs.any Fragment.isThere)
    (hwrite : ∀ (s : Sink) (breakable : Bool),
      s.writeAll? breakable fs = s.writeAll? breakable gs)
    (children : List Fragment) (style : Style) :
    (tree fs children style).Interchangeable (tree gs children style) where
  isThere := rfl
  isSilent := by rw [Fragment.isSilent, Fragment.isSilent, hthere]
  isFresh := rfl
  write? s breakable := by rw [Sink.write?, Sink.write?, hwrite]

/-- What stands between other fragments in front of children may be replaced. -/
theorem of_part (fs gs : List Fragment)
    (hthere : fs.any Fragment.isThere = gs.any Fragment.isThere)
    (hwrite : ∀ (s : Sink) (breakable : Bool),
      s.writeAll? breakable fs = s.writeAll? breakable gs)
    (before after children : List Fragment) (style : Style) :
    (tree (before ++ (fs ++ after)) children style).Interchangeable
      (tree (before ++ (gs ++ after)) children style) := by
  refine of_front ?_ (fun s breakable => ?_) children style
  · simp only [List.any_append, hthere]
  · simp only [Sink.writeAll?_append, hwrite]

/-- Among other children, interchangeable fragments are written alike. -/
theorem writeChildren? (h : f.Interchangeable g) (before after : List Fragment) (s : Sink)
    (breakable : Bool) (separator : Option String) (first : Bool) :
    s.writeChildren? breakable separator first (before ++ f :: after) =
      s.writeChildren? breakable separator first (before ++ g :: after) := by
  induction before generalizing s first with
  | nil =>
    rw [List.nil_append, List.nil_append, Sink.writeChildren?, Sink.writeChildren?, h.isSilent,
      h.isFresh]
    simp only [h.write?]
  | cons e before ih =>
    rw [List.cons_append, List.cons_append, Sink.writeChildren?, Sink.writeChildren?]
    simp only [ih]

/-- A child may be replaced. -/
theorem of_child (h : f.Interchangeable g) (front before after : List Fragment) (style : Style) :
    (tree front (before ++ f :: after) style).Interchangeable
      (tree front (before ++ g :: after) style) := by
  have hsilent : allSilent (before ++ f :: after) = allSilent (before ++ g :: after) := by
    rw [allSilent_append, allSilent_append, allSilent, allSilent, h.isSilent]
  refine ⟨rfl, ?_, rfl, fun s breakable => ?_⟩
  · rw [Fragment.isSilent, Fragment.isSilent, hsilent]
  · rw [Sink.write?, Sink.write?, hsilent]
    simp only [h.writeChildren?]

end Interchangeable

/-- A tree that has something in front of children and nothing else writes just that. -/
theorem write?_of_front {front silent : List Fragment} {inner : Style}
    (hsilent : allSilent silent = true) (hclosing : isWritten inner.closing = false) (s : Sink)
    (breakable : Bool) :
    s.write? breakable (tree front silent inner) = s.writeAll? breakable front := by
  rw [Sink.write?, hsilent, isWritten_eq_false_iff.1 hclosing]
  have hrest (u : Sink) : ((u.push 0).writeChildren? (breakable && inner.indent ≠ .fraction)
      inner.separator true silent >>= fun v => v.pop.put? breakable "") = .ok u := by
    rw [Sink.writeChildren?_of_allSilent hsilent]
    exact Sink.put?_empty _ _
  simp only [Bool.not_true, Bool.false_and, Bool.false_eq_true, if_false, if_true, hrest]
  exact bind_pure _

/-- Fragments that are grouped in another way cannot be told apart. -/
theorem Regrouped.interchangeable {f g : Fragment} (h : f.Regrouped g) : f.Interchangeable g := by
  induction h with
  | gap before after children style =>
    exact .of_part [nothing] [] rfl (fun _ _ => rfl) before after children style
  | join a b before after children style =>
    refine .of_part [text a, text b] [text (a ++ b)] rfl (fun s breakable => ?_)
      before after children style
    simp only [Sink.writeAll?, Sink.write?, Sink.put?_append, bind_assoc]
  | @inline front silent inner hfront hsilent hclosing before after children style =>
    refine .of_part [tree front silent inner] front ?_ (fun s breakable => ?_) before after
      children style
    · rw [hfront]
      rfl
    · rw [Sink.writeAll?, write?_of_front hsilent hclosing]
      exact bind_pure _
  | @front f g _ before after children style ih =>
    refine .of_part [f] [g] ?_ (fun s breakable => ?_) before after children style
    · rw [List.any_cons, List.any_cons, ih.isThere]
    · rw [Sink.writeAll?, Sink.writeAll?, ih.write?]
  | child _ front before after style ih => exact ih.of_child front before after style
  | refl f => exact .refl f
  | symm _ ih => exact ih.symm
  | trans _ _ ih ih' => exact ih.trans ih'

/-- Writing a text and then another one leaves the same sink as writing both as one text: the same
characters, the same line, the same levels. It does so line by line and character by character, and
where no line may break both fail. So a fragment that is grouped in another way is laid out as the
same text, is empty or not as before, and writes the same into every sink. -/
theorem output_of_regrouped :
    (∀ (s : Sink) (a b : String), (s.put a).put b = s.put (a ++ b) ∧
      (s.putLines a).putLines b = s.putLines (a ++ b) ∧ s.putLines a = s.put a ∧
      ∀ breakable : Bool, s.write? breakable (text a) >>= (·.write? breakable (text b)) =
        s.write? breakable (text (a ++ b))) ∧
    ∀ f g : Fragment, f.Regrouped g → f.output = g.output ∧ f.isEmpty = g.isEmpty ∧
      ∀ (s : Sink) (breakable : Bool), s.write? breakable f = s.write? breakable g := by
  constructor
  · intro s a b
    refine ⟨(Sink.put_append s a b).symm, ?_, Sink.putLines_eq_put s a, fun breakable => ?_⟩
    · rw [Sink.putLines_eq_put, Sink.putLines_eq_put, Sink.putLines_eq_put, Sink.put_append]
    · simp only [Sink.write?, Sink.put?_append]
  · intro f g h
    have hsame := h.interchangeable
    exact ⟨by rw [output, output, hsame.write?], hsame.isSilent, hsame.write?⟩

/-- A call as a child of a block, with what stands in front of its children in one text. -/
def wholeCall : Fragment :=
  .tree [.text "\x7b"] [.line [.text "run(\na,\nb);"]]
    { indent := .blanks 4, closing := some "\n\x7d" }

/-- The call in pieces: line breaks end one of them and begin another, and two are in a tree of
their own with an indentation that is no number. -/
def piecedCall : Fragment :=
  .tree [.text "\x7b"] [.line [.text "run(", .tree [.text "\na,", .nothing, .text "\n"] [.empty]
    { indent := .unfit, separator := some "; ", fresh := true }, .text "b);"]]
    { indent := .blanks 4, closing := some "\n\x7d" }

/-- A call that is cut into pieces at its line breaks, with gaps and nested rows, is written like
the whole one. -/
theorem output_of_regrouped_call :
    ((({} : Sink).push 2).put "a\n").put "b" = (({} : Sink).push 2).put "a\nb" ∧
    piecedCall.Regrouped wholeCall ∧ piecedCall.output = wholeCall.output ∧
    piecedCall.output = .ok "\x7b\n    run(\n    a,\n    b);\n\x7d" := by
  have h : piecedCall.Regrouped wholeCall := by
    refine .child ?_ _ [] [] _
    refine (Regrouped.inline (by decide) (by decide) (by decide) [.text "run("] [.text "b);"] []
      { fresh := true }).trans ?_
    refine (Regrouped.gap [.text "run(", .text "\na,"] [.text "\n", .text "b);"] [] _).trans ?_
    refine (Regrouped.join "run(" "\na," [] [.text "\n", .text "b);"] [] _).trans ?_
    refine (Regrouped.join _ "\n" [] [.text "b);"] [] _).trans ?_
    exact .join "run(\na,\n" "b);" [] [] [] _
  obtain ⟨houtput, -, -⟩ := output_of_regrouped.2 _ _ h
  exact ⟨(output_of_regrouped.1 _ "a\n" "b").1, h, houtput, by decide +kernel⟩

end Fragment

end CodeSample.Layout
